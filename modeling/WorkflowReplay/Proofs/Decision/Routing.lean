import WorkflowReplay.Proofs.Decision.Awaiting
import WorkflowReplay.Proofs.Decision.Correlation

/-!
# Whom an event reaches

An event names its machine by the id that the workflow chose, by an earlier event that the machine
learned, or as the oldest upsert that waits.  `Names` says so in terms of what a run made and
received, without the tables that a ledger keeps.  An event whose key names nobody is refused, and
one that its machine ignores is dropped; neither leaves a trace, although a ledger that works in
place takes an upsert from its queue before it asks it.
-/

set_option autoImplicit false

namespace WorkflowReplay

namespace Ledger

/-! ## Ids -/

def idAt (m : Ledger) (i : Nat) : Option DecisionId := m.machines[i]?.map Machine.id

theorem idAt_made (m : Ledger) (r : Request) (i : Nat) :
    (m.made r).idAt i = if i = m.machines.length then some r.id else m.idAt i := by
  simp only [idAt, Option.map_eq_bind]
  exact getElem?_made_bind m r _ i

theorem idAt_put {m : Ledger} {i : Nat} {machine machine' : Machine}
    (found : m.machines[i]? = some machine) (same : machine'.id = machine.id) (j : Nat) :
    (m.put i machine').idAt j = m.idAt j := by
  rw [idAt, idAt, put_machines found]
  split
  · next here => rw [← here, found, Option.map_some, Option.map_some, same]
  · rfl

theorem idAt_notifySent (m : Ledger) (i : Nat) : m.notifySent.idAt i = m.idAt i := by
  unfold idAt
  rw [notifySent_machine]
  split
  · cases m.machines[i]? <;> rfl
  · rfl

theorem idAt_bound {m : Ledger} {i : Nat} {id : DecisionId} (has : m.idAt i = some id) :
    i < m.machines.length := by
  obtain ⟨machine, found, -⟩ := Option.map_eq_some_iff.mp has
  exact (List.getElem?_eq_some_iff.mp found).1

def IsLatest (m : Ledger) (id : DecisionId) (i : Nat) : Prop :=
  m.idAt i = some id ∧ ∀ j, m.idAt j = some id → j ≤ i

theorem isLatest_made (m : Ledger) (r : Request) (id : DecisionId) (i : Nat) :
    (m.made r).IsLatest id i ↔
      if r.id = id then i = m.machines.length else m.IsLatest id i := by
  simp only [IsLatest, idAt_made]
  by_cases same : r.id = id
  · subst same
    rw [if_pos rfl]
    constructor
    · rintro ⟨has, latest⟩
      have reach := latest m.machines.length (by simp)
      split at has
      · assumption
      · have := idAt_bound has
        omega
    · rintro rfl
      refine ⟨by simp, ?_⟩
      intro j has
      split at has
      · omega
      · exact Nat.le_of_lt (idAt_bound has)
  · rw [if_neg same]
    have old (j : Nat) : (if j = m.machines.length then some r.id else m.idAt j) = some id ↔
        m.idAt j = some id := by
      split
      · next last =>
        refine ⟨fun h => absurd (Option.some.inj h) same, fun h => ?_⟩
        have := idAt_bound h
        omega
      · rfl
    simp only [old]

theorem byId_iff (ops : List Operation) (id : DecisionId) (i : Nat) :
    (after ops).byId.get? id = some i ↔ (after ops).IsLatest id i := by
  induction ops using List.reverseRecOn generalizing i with
  | nil => simp [after, empty, IsLatest, idAt]
  | append_singleton ops op ih =>
    rw [after_concat]
    have changes := operate_changes (after ops) op
    generalize (after ops).reception? op = r? at changes
    generalize (after ops).operate op = m' at changes
    -- Nothing but a new request changes ids.
    have frame (ids : ∀ j, m'.idAt j = (after ops).idAt j) (byId : m'.byId = (after ops).byId) :
        m'.byId.get? id = some i ↔ m'.IsLatest id i := by
      simp only [byId, ih, IsLatest, ids]
    cases changes with
    | kept => exact ih i
    | @made r new free =>
      change ((after ops).byId.insert r.id (after ops).machines.length).get? id = some i ↔
        ((after ops).made r).IsLatest id i
      rw [isLatest_made, Table.get?_insert]
      split
      · simp [eq_comm]
      · exact ih i
    | asked name found canceled =>
      exact frame (idAt_put found (Machine.requestCancel?_evolves canceled).id) rfl
    | sent => exact frame (idAt_notifySent _) rfl
    | received routed located found genuine =>
      exact frame (idAt_put found (react?_evolves genuine).id) rfl

/-! ## Aliases -/

/-- The reception that first opened a way for the events that name this one. -/
def opener? (ops : List Operation) (target : DecisionTarget) (k : EventId) : Option Reception :=
  (receptions ops).find? (fun r => r.Opens target ∧ r.event.id = k)

/-- The table of aliases leads to the machine that opened each of them first. -/
theorem aliases_eq (ops : List Operation) (target : DecisionTarget) (k : EventId) :
    (after ops).aliases.get? (target, k) = (opener? ops target k).map Reception.index := by
  induction ops using List.reverseRecOn with
  | nil => simp [after, empty, opener?, receptions, receptionsFrom]
  | append_singleton ops op ih =>
    have changes := operate_changes (after ops) op
    rw [after_concat, opener?, receptions_concat, List.find?_append]
    change _ = Option.map Reception.index ((opener? ops target k).or _)
    cases received : (after ops).reception? op with
    | none =>
      rw [received] at changes
      rw [changes.aliases_none, ih]
      simp
    | some r =>
      rw [received] at changes
      rw [changes.aliases_some, ih]
      by_cases opens : r.Opens target ∧ r.event.id = k
      · cases opener? ops target k <;> simp [opens]
      · cases opener? ops target k <;> simp [opens]

/-! ## Keys -/

/-- Whom a key names after a run: the latest machine with the id, the one that opened the way, or
the oldest upsert that waits. -/
def Names (ops : List Operation) : RouteKey → Nat → Prop
  | .caller id, i => (after ops).IsLatest id i
  | .follower target k, i => ∃ r, opener? ops target k = some r ∧ r.index = i
  | .nextUpsert, i => (after ops).AwaitsUpsert i ∧ ∀ j, (after ops).AwaitsUpsert j → i ≤ j

theorem names_iff (ops : List Operation) (key : RouteKey) (e : HistoryEvent) (i : Nat) :
    Names ops key i ↔ ∃ pendingUpserts, (after ops).locate key e = .ok (i, pendingUpserts) := by
  cases key with
  | caller id =>
    rw [Names, ← byId_iff, locate]
    cases (after ops).byId.get? id <;> simp
  | follower target k =>
    have leads := aliases_eq ops target k
    rw [Names, locate, leads]
    cases opener? ops target k <;> simp
  | nextUpsert =>
    rw [Names, ← (after_filed ops).first_iff_least_awaiting, locate]
    cases (after ops).pendingUpserts <;> simp

/-! ## Handling in place -/

/-- Finds the machine of an event in place: an upsert that is found has left the queue, whatever
becomes of the event. -/
def locateInPlace (m : Ledger) (key : RouteKey) (e : HistoryEvent) :
    Except ReplayError Nat × Ledger :=
  match key with
  | .nextUpsert =>
    match m.pendingUpserts with
    | i :: rest => (.ok i, { m with pendingUpserts := rest })
    | [] => (.error (.unmatchedEvent e.id e.type), m)
  | key => ((m.locate key e).map Prod.fst, m)

theorem locateInPlace_eq (m : Ledger) (key : RouteKey) (e : HistoryEvent) :
    m.locateInPlace key e =
      match m.locate key e with
      | .ok (i, pendingUpserts) => (.ok i, { m with pendingUpserts })
      | .error err => (.error err, m) := by
  cases key with
  | caller id =>
    simp only [locateInPlace, locate]
    cases m.byId.get? id <;> rfl
  | follower target k =>
    simp only [locateInPlace, locate]
    cases m.aliases.get? (target, k) <;> rfl
  | nextUpsert =>
    simp only [locateInPlace, locate]
    cases m.pendingUpserts <;> rfl

/-- Handles an event in place: what was written stays written when the event is refused. -/
def handleInPlace (m : Ledger) (e : HistoryEvent) :
    Except ReplayError (Option Resolution) × Ledger :=
  match Route.of e.attributes with
  | none => (.ok none, m)
  | some route =>
    match m.locateInPlace route.key e with
    | (.error err, m) => (.error err, m)
    | (.ok i, m) =>
      match m.machines[i]?.bind (fun machine => react? machine route.role e) with
      | none => (.ok none, m)
      | some r =>
        let m := m.put i r.machine
        let m := match r.newAlias with
          | some target => { m with aliases := m.aliases.insertIfNew (target, e.id) i }
          | none => m
        (.ok (r.outcome.map (fun o => ⟨r.machine.id, o⟩)), m)

theorem handleInPlace_eq (m : Ledger) (e : HistoryEvent) :
    m.handleInPlace e =
      match m.handleEvent e with
      | .ok (resolution, m') => (.ok resolution, m')
      | .error err => (.error err, m) := by
  unfold handleInPlace handleEvent
  cases routed : Route.of e.attributes with
  | none => rfl
  | some route =>
    simp only [locateInPlace_eq]
    cases m.locate route.key e with
    | error err => rfl
    | ok place =>
      simp only
      cases m.machines[place.1]?.bind (fun machine => react? machine route.role e) with
      | none => rfl
      | some r =>
        simp only
        cases r.newAlias <;> rfl

theorem handleInPlace_snd (m : Ledger) (e : HistoryEvent) :
    (m.handleInPlace e).2 = m.operate (.event e) := by
  rw [handleInPlace_eq, operate]
  cases m.handleEvent e <;> rfl

/-! ## What an event can change -/

/-- At most the machine with one index is changed, the queue is left by at most the upsert that was
found there, and at most one alias is added. -/
structure Confined (m : Ledger) (key : RouteKey) (i : Nat) (m' : Ledger) : Prop where
  others : ∀ j, j ≠ i → m'.machines[j]? = m.machines[j]?
  byId : m'.byId = m.byId
  order : m'.order = m.order
  queue : m'.pendingUpserts =
    if key = .nextUpsert then m.pendingUpserts.tail else m.pendingUpserts
  aliases : ∃ added : Option (DecisionTarget × EventId), ∀ k,
    m'.aliases.get? k = (m.aliases.get? k).or (if added = some k then some i else none)

theorem Changes.confined {m m' : Ledger} {r : Reception} (changes : m.Changes (some r) m') :
    ∃ key, Route.of r.event.attributes = some ⟨key, r.role⟩ ∧
      (∃ pendingUpserts, m.locate key r.event = .ok (r.index, pendingUpserts)) ∧
      m.Confined key r.index m' := by
  cases changes with
  | @received _ key pendingUpserts routed located found genuine =>
    obtain ⟨taken, left⟩ := locate_pendingUpserts located
    refine ⟨key, routed, ⟨pendingUpserts, located⟩, ?_, rfl, rfl, ?_, ?_⟩
    · intro j other
      exact (put_machines found j).trans (if_neg fun same => other same.symm)
    · by_cases upsert : key = .nextUpsert
      · rw [if_pos upsert, taken upsert, List.tail_cons]
      · rw [if_neg upsert]
        exact left upsert
    · refine ⟨r.reaction.newAlias.map (fun target => (target, r.event.id)), ?_⟩
      intro k
      cases r.reaction.newAlias with
      | none => simp
      | some target =>
        simp only [Table.get?_insertIfNew, Option.map_some, Option.some.injEq]
        split
        · next same => rw [← same]; cases m.aliases.get? (target, r.event.id) <;> rfl
        · simp

/-- Routing is isolated and errors are atomic: an event is refused exactly if it names nobody, an
event that is refused or ignored leaves the ledger as it was, and an event that is received is
received by the machine that it names and changes nothing else. -/
theorem routing_isolated (ops : List Operation) (e : HistoryEvent) :
    ((∃ err, ((after ops).handleInPlace e).1 = .error err) ↔
      ∃ route, Route.of e.attributes = some route ∧ ∀ i, ¬ Names ops route.key i) ∧
    (∀ err, ((after ops).handleInPlace e).1 = .error err →
      ((after ops).handleInPlace e).2 = after ops) ∧
    ((after ops).receive? e = none → ((after ops).handleInPlace e).2 = after ops) ∧
    ∀ r, (after ops).receive? e = some r →
      ∃ key, Route.of e.attributes = some ⟨key, r.role⟩ ∧ Names ops key r.index ∧
        (after ops).Confined key r.index ((after ops).handleInPlace e).2 := by
  have filed := after_filed ops
  have refused : (∃ err, ((after ops).handleInPlace e).1 = .error err) ↔
      ∃ err, (after ops).handleEvent e = .error err := by
    rw [handleInPlace_eq]
    cases (after ops).handleEvent e <;> simp
  refine ⟨?_, ?_, ?_, ?_⟩
  · rw [refused]
    cases routed : Route.of e.attributes with
    | none => simp [handleEvent, routed]
    | some route =>
      simp only [Option.some.injEq, exists_eq_left', names_iff ops route.key e]
      cases located : (after ops).locate route.key e with
      | error err => simp [handleEvent, routed, located]
      | ok place =>
        obtain ⟨i, pendingUpserts⟩ := place
        rcases handleEvent_located routed located with ⟨-, handled⟩ | ⟨r, -, -, handled⟩
        · simp [handled]
        · simp [handled]
  · intro err failed
    obtain ⟨err, failed⟩ := refused.mp ⟨err, failed⟩
    rw [handleInPlace_eq, failed]
  · intro nobody
    rw [handleInPlace_eq]
    rcases filed.handleEvent_unchanged_of_unreceived nobody with ⟨err, handled⟩ | handled
    · rw [handled]
    · rw [handled]
  · intro r received
    have changes := event_changes (after ops) e
    obtain rfl : r.event = e := (receive?_eq_some received).1
    rw [received] at changes
    obtain ⟨key, routed, located, confined⟩ := changes.confined
    rw [handleInPlace_snd]
    exact ⟨key, routed, (names_iff ops key r.event r.index).mpr located, confined⟩

def twoUpserts : List Operation := [
  .make (.upsert "u1" []) rfl, .activity { activityId := "a" }, .make (.upsert "u2" []) rfl,
  .collect]

/-- An event that names nothing reaches the older upsert. -/
theorem older_upsert_is_reached :
    Names twoUpserts .nextUpsert 0 ∧ (after twoUpserts).Confined .nextUpsert 0
      ((after twoUpserts).handleInPlace ⟨7, ⟨0, 0⟩, .upsertWorkflowSearchAttributes {}⟩).2 := by
  have reached : ((after twoUpserts).receive?
      ⟨7, ⟨0, 0⟩, .upsertWorkflowSearchAttributes {}⟩).map Reception.index = some 0 := by decide
  obtain ⟨r, received, first⟩ := Option.map_eq_some_iff.mp reached
  obtain ⟨-, -, -, isolated⟩ :=
    routing_isolated twoUpserts ⟨7, ⟨0, 0⟩, .upsertWorkflowSearchAttributes {}⟩
  obtain ⟨key, routed, names, confined⟩ := isolated r received
  obtain rfl : .nextUpsert = key := congrArg Route.key (Option.some.inj routed)
  exact ⟨first ▸ names, first ▸ confined⟩

end Ledger

end WorkflowReplay
