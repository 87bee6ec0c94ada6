import WorkflowReplay.Proofs.Decision.Routing

/-!
# Events that commute

Two events that go to different machines can be handled in either order.  What one of them writes
that the other could read is an alias or the head of the queue of upserts.  An alias that leads to a
machine is never written again, and only one of the two events can take from the queue, because both
would take the same upsert.  What they write themselves does not overlap: the machines are different
ones, and so are the aliases, each of which has the id of its event.
-/

set_option autoImplicit false

namespace WorkflowReplay

theorem Table.get?_insertIfNew_comm {κ ν : Type} [DecidableEq κ] (t : Table κ ν) {k₁ k₂ : κ}
    (apart : k₁ ≠ k₂) (v₁ v₂ : ν) (k : κ) :
    ((t.insertIfNew k₁ v₁).insertIfNew k₂ v₂).get? k =
      ((t.insertIfNew k₂ v₂).insertIfNew k₁ v₁).get? k := by
  simp only [get?_insertIfNew]
  by_cases first : k₁ = k
  · subst first
    simp [Ne.symm apart]
  · by_cases second : k₂ = k
    · subst second
      simp [apart]
    · simp [first, second]

namespace Ledger

structure Alike (m m' : Ledger) : Prop where
  machines : m.machines = m'.machines
  byId : ∀ id, m.byId.get? id = m'.byId.get? id
  aliases : ∀ k, m.aliases.get? k = m'.aliases.get? k
  order : m.order = m'.order
  pendingUpserts : m.pendingUpserts = m'.pendingUpserts

theorem Alike.refl (m : Ledger) : m.Alike m := ⟨rfl, fun _ => rfl, fun _ => rfl, rfl, rfl⟩

theorem Alike.symm {m m' : Ledger} (alike : m.Alike m') : m'.Alike m :=
  ⟨alike.machines.symm, fun id => (alike.byId id).symm, fun k => (alike.aliases k).symm,
    alike.order.symm, alike.pendingUpserts.symm⟩

/-- The event is about the machine with this index, whatever the machine makes of it. -/
def References (ops : List Operation) (e : HistoryEvent) (i : Nat) : Prop :=
  ∃ route, Route.of e.attributes = some route ∧ Names ops route.key i

/-! ## What one event writes -/

def reactionAt (m : Ledger) (i : Nat) (role : EventRole) (e : HistoryEvent) : Option Reaction :=
  m.machines[i]?.bind fun machine => react? machine role e

def Reaction.resolution? (r : Reaction) : Option Resolution :=
  r.outcome.map fun o => ⟨r.machine.id, o⟩

def record (m : Ledger) (e : HistoryEvent) (i : Nat) (r : Reaction) : Ledger :=
  { m.put i r.machine with
    aliases := match r.newAlias with
      | some target => m.aliases.insertIfNew (target, e.id) i
      | none => m.aliases }

def record? (m : Ledger) (e : HistoryEvent) (i : Nat) : Option Reaction → Ledger
  | some r => m.record e i r
  | none => m

theorem handleEvent_of_located {m : Ledger} {e : HistoryEvent} {key : RouteKey} {role : EventRole}
    {i : Nat} {pendingUpserts : List Nat} (routed : Route.of e.attributes = some ⟨key, role⟩)
    (located : m.locate key e = .ok (i, pendingUpserts)) :
    m.handleEvent e = .ok ((m.reactionAt i role e).bind Reaction.resolution?,
      { m.record? e i (m.reactionAt i role e) with pendingUpserts }) := by
  simp only [handleEvent, routed, located, reactionAt]
  cases m.machines[i]?.bind fun machine => react? machine role e <;> rfl

section record

variable (m : Ledger) (e : HistoryEvent) (i : Nat) (r? : Option Reaction)

@[simp] theorem record?_byId : (m.record? e i r?).byId = m.byId := by
  cases r? <;> rfl

@[simp] theorem record?_order : (m.record? e i r?).order = m.order := by
  cases r? <;> rfl

theorem record?_machines {j : Nat} (apart : i ≠ j) :
    (m.record? e i r?).machines[j]? = m.machines[j]? := by
  cases r? with
  | none => rfl
  | some r => exact List.getElem?_set_ne apart

theorem record?_aliases {k : DecisionTarget × EventId} {j : Nat}
    (leads : m.aliases.get? k = some j) : (m.record? e i r?).aliases.get? k = some j := by
  cases r? with
  | none => exact leads
  | some r =>
    simp only [record?, record]
    split
    · exact Table.get?_insertIfNew_of_some leads _ _
    · exact leads

end record

/-- An event finds its machine in every ledger that has the ids and at least the aliases, as long
as nobody took from the queue for it. -/
theorem locate_preserved {m : Ledger} (m' : Ledger) {key : RouteKey} {e : HistoryEvent} {i : Nat}
    {pendingUpserts : List Nat} (located : m.locate key e = .ok (i, pendingUpserts))
    (byId : m'.byId = m.byId)
    (aliases : ∀ k j, m.aliases.get? k = some j → m'.aliases.get? k = some j)
    (queue : key = .nextUpsert → m'.pendingUpserts = m.pendingUpserts) :
    m'.locate key e =
      .ok (i, if key = .nextUpsert then pendingUpserts else m'.pendingUpserts) := by
  cases key with
  | caller id =>
    cases name : m.byId.get? id with
    | none => simp [locate, name] at located
    | some j =>
      simp only [locate, name, Except.ok.injEq, Prod.mk.injEq] at located
      simp [locate, byId, name, located.1]
  | follower target k =>
    cases leads : m.aliases.get? (target, k) with
    | none => simp [locate, leads] at located
    | some j =>
      simp only [locate, leads, Except.ok.injEq, Prod.mk.injEq] at located
      simp [locate, aliases _ _ leads, located.1]
  | nextUpsert =>
    have taken := (locate_pendingUpserts located).1 rfl
    simp [locate, queue rfl, taken]

/-! ## Two events -/

theorem record?_comm (m : Ledger) {e₁ e₂ : HistoryEvent} (distinct : e₁.id ≠ e₂.id) {i j : Nat}
    (apart : i ≠ j) (r₁ r₂ : Option Reaction) :
    ((m.record? e₁ i r₁).record? e₂ j r₂).Alike ((m.record? e₂ j r₂).record? e₁ i r₁) := by
  cases r₁ with
  | none => exact .refl _
  | some r₁ =>
    cases r₂ with
    | none => exact .refl _
    | some r₂ =>
      refine ⟨List.set_comm _ _ apart, fun _ => rfl, ?_, rfl, rfl⟩
      intro k
      simp only [record?, record, put]
      cases r₁.newAlias with
      | none => rfl
      | some target₁ =>
        cases r₂.newAlias with
        | none => rfl
        | some target₂ =>
          refine Table.get?_insertIfNew_comm m.aliases ?_ i j k
          intro same
          exact distinct (congrArg Prod.snd same)

theorem record?_with_pendingUpserts (m : Ledger) (pendingUpserts : List Nat) (e : HistoryEvent)
    (i : Nat) (r? : Option Reaction) :
    ({ m with pendingUpserts }).record? e i r? =
      { m.record? e i r? with pendingUpserts } := by
  cases r? <;> rfl

/-- An event whose machine was found before another machine recorded something is handled in the
same way after that. -/
theorem handleEvent_after_record {m : Ledger} {e : HistoryEvent} {key : RouteKey} {role : EventRole}
    {j : Nat} {pendingUpserts : List Nat} (routed : Route.of e.attributes = some ⟨key, role⟩)
    (located : m.locate key e = .ok (j, pendingUpserts)) (earlier : HistoryEvent) {i : Nat}
    (apart : i ≠ j) (r? : Option Reaction) {queue : List Nat}
    (left : key = .nextUpsert → queue = m.pendingUpserts) :
    ({ m.record? earlier i r? with pendingUpserts := queue }).handleEvent e =
      .ok ((m.reactionAt j role e).bind Reaction.resolution?,
        { (m.record? earlier i r?).record? e j (m.reactionAt j role e) with
          pendingUpserts := if key = .nextUpsert then pendingUpserts else queue }) := by
  have located' := locate_preserved { m.record? earlier i r? with pendingUpserts := queue }
    located (by simp) (fun k j' leads => m.record?_aliases earlier i r? leads) left
  have same : ({ m.record? earlier i r? with pendingUpserts := queue }).reactionAt j role e =
      m.reactionAt j role e := by
    simp only [reactionAt, m.record?_machines earlier i r? apart]
  rw [handleEvent_of_located routed located', same, record?_with_pendingUpserts]

def Commute (m : Ledger) (e₁ e₂ : HistoryEvent) : Prop :=
  ∃ r₁ r₂ m₁ m₂ m₁₂ m₂₁, m.handleEvent e₁ = .ok (r₁, m₁) ∧ m.handleEvent e₂ = .ok (r₂, m₂) ∧
    m₁.handleEvent e₂ = .ok (r₂, m₁₂) ∧ m₂.handleEvent e₁ = .ok (r₁, m₂₁) ∧ m₁₂.Alike m₂₁

theorem Commute.symm {m : Ledger} {e₁ e₂ : HistoryEvent} (commute : m.Commute e₁ e₂) :
    m.Commute e₂ e₁ := by
  obtain ⟨r₁, r₂, m₁, m₂, m₁₂, m₂₁, first, second, then₂, then₁, alike⟩ := commute
  exact ⟨r₂, r₁, m₂, m₁, m₂₁, m₁₂, second, first, then₁, then₂, alike.symm⟩

theorem commute_of_unrouted {m m₂ : Ledger} {e₁ e₂ : HistoryEvent} {r₂ : Option Resolution}
    (unrouted : Route.of e₁.attributes = none) (handled : m.handleEvent e₂ = .ok (r₂, m₂)) :
    m.Commute e₁ e₂ := by
  have skipped (m : Ledger) : m.handleEvent e₁ = .ok (none, m) := by simp [handleEvent, unrouted]
  exact ⟨none, r₂, m, m₂, m₂, m₂, skipped m, handled, handled, skipped m₂, .refl m₂⟩

theorem commute_of_located {m : Ledger} {e₁ e₂ : HistoryEvent} (distinct : e₁.id ≠ e₂.id)
    {key₁ key₂ : RouteKey} {role₁ role₂ : EventRole}
    (routed₁ : Route.of e₁.attributes = some ⟨key₁, role₁⟩)
    (routed₂ : Route.of e₂.attributes = some ⟨key₂, role₂⟩) {i j : Nat} {queue₁ queue₂ : List Nat}
    (located₁ : m.locate key₁ e₁ = .ok (i, queue₁))
    (located₂ : m.locate key₂ e₂ = .ok (j, queue₂)) (apart : i ≠ j) : m.Commute e₁ e₂ := by
  obtain ⟨taken₁, left₁⟩ := locate_pendingUpserts located₁
  obtain ⟨taken₂, left₂⟩ := locate_pendingUpserts located₂
  -- Both would take the upsert at the head of the queue.
  have alone : ¬ (key₁ = .nextUpsert ∧ key₂ = .nextUpsert) := by
    rintro ⟨upsert₁, upsert₂⟩
    have same := (taken₁ upsert₁).symm.trans (taken₂ upsert₂)
    exact apart (List.cons.inj same).1
  have then₂ := handleEvent_after_record routed₂ located₂ e₁ apart (m.reactionAt i role₁ e₁)
    (fun upsert₂ => left₁ fun upsert₁ => alone ⟨upsert₁, upsert₂⟩)
  have then₁ := handleEvent_after_record routed₁ located₁ e₂ apart.symm (m.reactionAt j role₂ e₂)
    (fun upsert₁ => left₂ fun upsert₂ => alone ⟨upsert₁, upsert₂⟩)
  refine ⟨_, _, _, _, _, _, handleEvent_of_located routed₁ located₁,
    handleEvent_of_located routed₂ located₂, then₂, then₁, ?_⟩
  have alike := record?_comm m distinct apart (m.reactionAt i role₁ e₁) (m.reactionAt j role₂ e₂)
  refine ⟨alike.machines, alike.byId, alike.aliases, alike.order, ?_⟩
  by_cases upsert₁ : key₁ = .nextUpsert
  · have upsert₂ : key₂ ≠ .nextUpsert := fun upsert₂ => alone ⟨upsert₁, upsert₂⟩
    simp only [upsert₁, if_true, if_neg upsert₂]
  · by_cases upsert₂ : key₂ = .nextUpsert
    · simp only [upsert₂, if_true, if_neg upsert₁]
    · simp only [if_neg upsert₁, if_neg upsert₂, left₁ upsert₁, left₂ upsert₂]

/-- Two events of a history that can both be handled after a run, and that are about different
machines, can be handled in either order: both orders succeed, every event answers what it answers
when it is handled first, and the machines, the ids, the aliases, the order of collection and the
queue of upserts are the same in the end. -/
theorem independent_events_commute (ops : List Operation) {e₁ e₂ : HistoryEvent}
    (distinct : e₁.id ≠ e₂.id) (apart : ∀ i, References ops e₁ i → ¬ References ops e₂ i)
    {r₁ r₂ : Option Resolution} {m₁ m₂ : Ledger}
    (first : (after ops).handleEvent e₁ = .ok (r₁, m₁))
    (second : (after ops).handleEvent e₂ = .ok (r₂, m₂)) :
    ∃ m₁₂ m₂₁, m₁.handleEvent e₂ = .ok (r₂, m₁₂) ∧ m₂.handleEvent e₁ = .ok (r₁, m₂₁) ∧
      m₁₂.Alike m₂₁ := by
  have commute : (after ops).Commute e₁ e₂ := by
    cases routed₁ : Route.of e₁.attributes with
    | none => exact commute_of_unrouted routed₁ second
    | some route₁ =>
      cases routed₂ : Route.of e₂.attributes with
      | none => exact (commute_of_unrouted routed₂ first).symm
      | some route₂ =>
        obtain ⟨key₁, role₁⟩ := route₁
        obtain ⟨key₂, role₂⟩ := route₂
        cases located₁ : (after ops).locate key₁ e₁ with
        | error err => simp [handleEvent, routed₁, located₁] at first
        | ok place₁ =>
          cases located₂ : (after ops).locate key₂ e₂ with
          | error err => simp [handleEvent, routed₂, located₂] at second
          | ok place₂ =>
            obtain ⟨i, queue₁⟩ := place₁
            obtain ⟨j, queue₂⟩ := place₂
            refine commute_of_located distinct routed₁ routed₂ located₁ located₂ ?_
            rintro rfl
            exact apart i ⟨_, routed₁, (names_iff ops key₁ e₁ i).mpr ⟨queue₁, located₁⟩⟩
              ⟨_, routed₂, (names_iff ops key₂ e₂ i).mpr ⟨queue₂, located₂⟩⟩
  obtain ⟨s₁, s₂, l₁, l₂, m₁₂, m₂₁, first', second', then₂, then₁, alike⟩ := commute
  obtain ⟨rfl, rfl⟩ := Prod.mk.inj (Except.ok.inj (first.symm.trans first'))
  obtain ⟨rfl, rfl⟩ := Prod.mk.inj (Except.ok.inj (second.symm.trans second'))
  exact ⟨m₁₂, m₂₁, then₂, then₁, alike⟩

def childAndUpsert : List Operation := [
  .make (.child { workflowId := "c" } none none) rfl, .make (.upsert "u" []) rfl, .collect,
  .event ⟨5, ⟨0, 0⟩, .startChildWorkflowExecutionInitiated { workflowId := "c" }⟩]

/-- A cancel request for the child, under whose id another kind of event will name the child. -/
def childCancel : HistoryEvent :=
  ⟨6, ⟨0, 0⟩, .requestCancelExternalWorkflowExecutionInitiated
    { workflowExecution := { workflowId := "c", runId := "" }, childWorkflowOnly := true }⟩

def upsertRecorded : HistoryEvent := ⟨7, ⟨0, 0⟩, .upsertWorkflowSearchAttributes {}⟩

theorem cancel_and_upsert_commute :
    ∃ r₁ r₂ m₁ m₂ m₁₂ m₂₁, (after childAndUpsert).handleEvent childCancel = .ok (r₁, m₁) ∧
      (after childAndUpsert).handleEvent upsertRecorded = .ok (r₂, m₂) ∧
      m₁.handleEvent upsertRecorded = .ok (r₂, m₁₂) ∧ m₂.handleEvent childCancel = .ok (r₁, m₂₁) ∧
      m₁₂.Alike m₂₁ := by
  have apart : ∀ i, References childAndUpsert childCancel i →
      ¬ References childAndUpsert upsertRecorded i := by
    rintro i ⟨route₁, routed₁, names₁⟩ ⟨route₂, routed₂, names₂⟩
    obtain rfl := Option.some.inj routed₁
    obtain rfl := Option.some.inj routed₂
    obtain ⟨queue₁, located₁⟩ := (names_iff childAndUpsert _ childCancel i).mp names₁
    obtain ⟨queue₂, located₂⟩ := (names_iff childAndUpsert _ upsertRecorded i).mp names₂
    have child : i = 0 := (Prod.mk.inj (Except.ok.inj located₁)).1.symm
    have upsert : i = 1 := (Prod.mk.inj (Except.ok.inj located₂)).1.symm
    omega
  obtain ⟨r₁, m₁, first⟩ : ∃ r₁ m₁, (after childAndUpsert).handleEvent childCancel =
    .ok (r₁, m₁) := ⟨_, _, rfl⟩
  obtain ⟨r₂, m₂, second⟩ : ∃ r₂ m₂, (after childAndUpsert).handleEvent upsertRecorded =
    .ok (r₂, m₂) := ⟨_, _, rfl⟩
  obtain ⟨m₁₂, m₂₁, commute⟩ :=
    independent_events_commute childAndUpsert (by decide) apart first second
  exact ⟨r₁, r₂, m₁, m₂, m₁₂, m₂₁, first, second, commute⟩

end Ledger

end WorkflowReplay
