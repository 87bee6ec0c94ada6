import WorkflowReplay.Proofs.Decision.Operations

/-!
# Receptions

A reception is an event together with the machine that reacted to it and what the machine made of
it.  An event does one of six things to the life of a machine, and `Reception.IsGenuine.effect` says
so once for all kinds of requests; what a run does to a machine is derived from that.
-/

set_option autoImplicit false

namespace WorkflowReplay

namespace Machine

theorem started?_life {m m' : Machine} {e : HistoryEvent} (h : m.started? e = some m') :
    m.life.start? e.id = some m'.life := by
  obtain ⟨l, started, rfl | ⟨r, runId, cancelEventId, newRunId, -, rfl⟩⟩ := started?_cases h
  · exact started
  · exact started

theorem completed?_life {m m' : Machine} {e : HistoryEvent} {o : Outcome}
    (h : m.completed? e = some (o, m')) :
    o.isCanceled = false ∧ m.life.complete? = some m'.life ∧ m'.request = m.request := by
  obtain ⟨k, l, ends, -, completed, rfl⟩ := completed?_cases h
  refine ⟨?_, completed, rfl⟩
  unfold ending? at ends
  split at ends <;> simp only [Option.some.injEq, Prod.mk.injEq, reduceCtorEq] at ends
  all_goals
    obtain ⟨-, rfl⟩ := ends
    rfl

theorem cancellation?_cancelable {r : Request} {a : EventAttributes}
    {named : EventId × Option Payload} (ends : cancellation? r a = some named) :
    r.cancelDecision ≠ none := by
  unfold cancellation? at ends
  split at ends <;> simp [Request.cancelDecision] at ends ⊢

theorem canceled?_life {m m' : Machine} {e : HistoryEvent} {o : Outcome}
    (h : m.canceled? e = some (o, m')) :
    o.isCanceled = true ∧ m.life.cancel? = some m'.life ∧ m'.request = m.request ∧
      m.request.cancelDecision ≠ none := by
  obtain ⟨k, details, l, ends, rfl, -, canceled, rfl⟩ := canceled?_cases h
  exact ⟨rfl, canceled, rfl, cancellation?_cancelable ends⟩

theorem cancelInitiated?_life {m m' : Machine} {e : HistoryEvent}
    (h : m.cancelInitiated? e = some m') : m'.life = m.life := by
  obtain ⟨-, rfl⟩ | ⟨r, runId, cancelEventId, -, rfl⟩ := cancelInitiated?_cases h
  · rfl
  · rfl

theorem cancelFailed?_life {m m' : Machine} {e : HistoryEvent} (h : m.cancelFailed? e = some m') :
    m.life.failCancel? = some m'.life ∧ m'.request = m.request := by
  obtain ⟨l, refused, rfl⟩ := cancelFailed?_cases h
  exact ⟨refused, rfl⟩

end Machine

namespace Ledger

structure Reception where
  event : HistoryEvent
  role : EventRole
  index : Nat
  before : Machine
  reaction : Reaction
  deriving DecidableEq

def receive? (m : Ledger) (e : HistoryEvent) : Option Reception :=
  match Route.of e.attributes with
  | none => none
  | some route =>
    match m.locate route.key e with
    | .error _ => none
    | .ok (i, _) =>
      m.machines[i]?.bind fun machine =>
        (react? machine route.role e).map fun reaction => ⟨e, route.role, i, machine, reaction⟩

theorem receive?_eq_some {m : Ledger} {e : HistoryEvent} {r : Reception}
    (received : m.receive? e = some r) :
    r.event = e ∧ ∃ key pendingUpserts, Route.of e.attributes = some ⟨key, r.role⟩ ∧
      m.locate key e = .ok (r.index, pendingUpserts) ∧ m.machines[r.index]? = some r.before ∧
      react? r.before r.role e = some r.reaction := by
  unfold receive? at received
  split at received
  · simp at received
  · next route routed =>
    split at received
    · simp at received
    · next i pendingUpserts located =>
      obtain ⟨machine, found, reacted⟩ := Option.bind_eq_some_iff.mp received
      obtain ⟨reaction, reacts, rfl⟩ := Option.map_eq_some_iff.mp reacted
      exact ⟨rfl, route.key, pendingUpserts, routed, located, found, reacts⟩

theorem handleEvent_located {m : Ledger} {e : HistoryEvent} {route : Route} {i : Nat}
    {pendingUpserts : List Nat} (routed : Route.of e.attributes = some route)
    (located : m.locate route.key e = .ok (i, pendingUpserts)) :
    (m.receive? e = none ∧ m.handleEvent e = .ok (none, { m with pendingUpserts })) ∨
      ∃ r, m.receive? e = some r ∧ r.index = i ∧
        m.handleEvent e = .ok (r.reaction.outcome.map (fun o => ⟨r.reaction.machine.id, o⟩),
          { m.put i r.reaction.machine with
            pendingUpserts
            aliases := match r.reaction.newAlias with
              | some target => m.aliases.insertIfNew (target, e.id) i
              | none => m.aliases }) := by
  unfold receive? handleEvent
  simp only [routed, located]
  cases found : m.machines[i]? with
  | none => exact .inl ⟨rfl, rfl⟩
  | some machine =>
    simp only [Option.bind_some]
    cases reacts : react? machine route.role e with
    | none => exact .inl ⟨rfl, rfl⟩
    | some reaction => exact .inr ⟨⟨e, route.role, i, machine, reaction⟩, rfl, rfl, rfl⟩

theorem handleEvent_resolution {m : Ledger} {e : HistoryEvent} {resolution : Resolution} :
    (∃ m', m.handleEvent e = .ok (some resolution, m')) ↔
      ∃ r, m.receive? e = some r ∧ r.reaction.outcome = some resolution.outcome ∧
        r.before.id = resolution.id := by
  constructor
  · rintro ⟨m', handled⟩
    cases routed : Route.of e.attributes with
    | none => simp [handleEvent, routed] at handled
    | some route =>
      cases located : m.locate route.key e with
      | error err => simp [handleEvent, routed, located] at handled
      | ok found =>
        rcases handleEvent_located routed located with ⟨-, ignored⟩ | ⟨r, received, -, resolved⟩
        · cases handled.symm.trans ignored
        · have same := congrArg (Except.map Prod.fst) (handled.symm.trans resolved)
          obtain ⟨o, outcome, rfl⟩ := Option.map_eq_some_iff.mp
            (Except.ok.inj same).symm
          obtain ⟨rfl, -, -, -, -, -, reacts⟩ := receive?_eq_some received
          exact ⟨r, received, outcome, (react?_evolves reacts).id.symm⟩
  · rintro ⟨r, received, outcome, id⟩
    obtain ⟨rfl, key, pendingUpserts, routed, located, -, reacts⟩ := receive?_eq_some received
    have found : m.locate (Route.mk key r.role).key r.event =
        .ok (r.index, pendingUpserts) := located
    rcases handleEvent_located routed found with ⟨none, -⟩ | ⟨r', same, -, handled⟩
    · simp [received] at none
    · obtain rfl : r = r' := Option.some.inj (received.symm.trans same)
      rw [outcome, Option.map_some, (react?_evolves reacts).id, id] at handled
      exact ⟨_, handled⟩

/-! ## What an event does to a machine -/

namespace Reception

/-- What a machine really made of its event. -/
def IsGenuine (r : Reception) : Prop := react? r.before r.role r.event = some r.reaction

def IsRefusal (r : Reception) : Prop :=
  r.role = .cancelFailed ∨ r.role = .externalCancelResolved ∧ r.before.id.target = .childWorkflow

instance (r : Reception) : Decidable r.IsRefusal := inferInstanceAs (Decidable (_ ∨ _))

inductive Effect (r : Reception) : Prop where
  | accepted (role : r.role = .initiated) (created : r.before.life.state = .created)
    (left : r.reaction.machine.life.state ≠ .created)
    (learned : r.reaction.machine.life.initiatedEventId = some r.event.id)
    (request : r.reaction.machine.request = r.before.request) (silent : r.reaction.outcome = none)
  | started (role : r.role = .started)
    (life : r.before.life.start? r.event.id = some r.reaction.machine.life)
    (silent : r.reaction.outcome = none)
  | ended (role : r.role = .completion ∨ r.role = .externalCancelResolved)
    (life : r.before.life.complete? = some r.reaction.machine.life)
    (request : r.reaction.machine.request = r.before.request) {o : Outcome}
    (outcome : r.reaction.outcome = some o) (plain : o.isCanceled = false)
  | canceled (role : r.role = .canceled) (cancelable : r.before.request.cancelDecision ≠ none)
    (life : r.before.life.cancel? = some r.reaction.machine.life)
    (request : r.reaction.machine.request = r.before.request) {o : Outcome}
    (outcome : r.reaction.outcome = some o) (isCanceled : o.isCanceled = true)
  | cancelAccepted (role : r.role = .cancelInitiated)
    (life : r.reaction.machine.life = r.before.life) (silent : r.reaction.outcome = none)
  | cancelRefused (refusal : r.IsRefusal)
    (life : r.before.life.failCancel? = some r.reaction.machine.life)
    (request : r.reaction.machine.request = r.before.request) (silent : r.reaction.outcome = none)

theorem IsGenuine.effect {r : Reception} (genuine : r.IsGenuine) : r.Effect := by
  obtain ⟨e, role, i, before, reaction⟩ := r
  simp only [IsGenuine] at genuine
  cases role with
  | initiated =>
    obtain ⟨machine, initiated, rfl⟩ := Option.map_eq_some_iff.mp genuine
    obtain ⟨l, rfl, created, left, learned, -⟩ := Machine.initiated?_leaves_created initiated
    exact .accepted rfl created left learned rfl rfl
  | started =>
    obtain ⟨machine, started, rfl⟩ := Option.map_eq_some_iff.mp genuine
    exact .started rfl (Machine.started?_life started) rfl
  | completion =>
    obtain ⟨⟨o, machine⟩, completed, rfl⟩ := Option.map_eq_some_iff.mp genuine
    obtain ⟨plain, life, request⟩ := Machine.completed?_life completed
    exact .ended (.inl rfl) life request rfl plain
  | canceled =>
    obtain ⟨⟨o, machine⟩, canceled, rfl⟩ := Option.map_eq_some_iff.mp genuine
    obtain ⟨isCanceled, life, request, cancelable⟩ := Machine.canceled?_life canceled
    exact .canceled rfl cancelable life request rfl isCanceled
  | cancelInitiated =>
    obtain ⟨machine, initiated, rfl⟩ := Option.map_eq_some_iff.mp genuine
    exact .cancelAccepted rfl (Machine.cancelInitiated?_life initiated) rfl
  | cancelFailed =>
    obtain ⟨machine, failed, rfl⟩ := Option.map_eq_some_iff.mp genuine
    obtain ⟨life, request⟩ := Machine.cancelFailed?_life failed
    exact .cancelRefused (.inl rfl) life request rfl
  | externalCancelResolved =>
    simp only [react?] at genuine
    split at genuine
    · next child =>
      split at genuine
      · obtain ⟨machine, failed, rfl⟩ := Option.map_eq_some_iff.mp genuine
        obtain ⟨life, request⟩ := Machine.cancelFailed?_life failed
        exact .cancelRefused (.inr ⟨rfl, child⟩) life request rfl
      · simp at genuine
    · obtain ⟨⟨o, machine⟩, completed, rfl⟩ := Option.map_eq_some_iff.mp genuine
      obtain ⟨plain, life, request⟩ := Machine.completed?_life completed
      exact .ended (.inr rfl) life request rfl plain

theorem Effect.later_of_not_initiated {r : Reception} (effect : r.Effect)
    (role : r.role ≠ .initiated) :
    r.before.life.Later r.reaction.machine.life ∨ r.reaction.machine.life = r.before.life := by
  cases effect with
  | accepted initiated => exact absurd initiated role
  | started _ life => exact .inl (Lifecycle.start?_later life)
  | ended _ life => exact .inl (Lifecycle.complete?_later life)
  | canceled _ _ life => exact .inl (Lifecycle.cancel?_later life)
  | cancelAccepted _ life => exact .inr life
  | cancelRefused _ life => exact .inl (Lifecycle.failCancel?_later life)

end Reception

end Ledger

end WorkflowReplay
