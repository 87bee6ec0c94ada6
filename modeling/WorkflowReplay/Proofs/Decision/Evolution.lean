import WorkflowReplay.Proofs.Decision.Inversion

/-!
# How machines evolve

Whatever happens to a machine, it stays the machine of the same request: its id and its initial
decision do not change, what was sent stays sent, and the event that accepted it stays the same.
A machine whose initial decision was not sent is as it was made, except that its cancellation may
have been asked for.
-/

set_option autoImplicit false

namespace WorkflowReplay

namespace Lifecycle

/-- An initial decision that was not sent belongs to a request that nothing happened to, and only
an event takes a request out of its first state. -/
structure Sound (l : Lifecycle) : Prop where
  unsent : l.initialEmitted = false → l.state = .created
  created : l.state = .created → l.initiatedEventId = none

structure Evolves (l l' : Lifecycle) : Prop where
  sent : l.initialEmitted = true → l'.initialEmitted = true
  accepted : l.Sound → ∀ e, l.initiatedEventId = some e → l'.initiatedEventId = some e
  /-- Without a collection, an initial decision counts as sent only when it was accepted. -/
  unsent : l.Sound → l.initialEmitted = false →
    l'.initialEmitted = false ∨ l'.initiatedEventId.isSome
  sound : l.Sound → l'.Sound

theorem Evolves.refl (l : Lifecycle) : l.Evolves l :=
  ⟨fun h => h, fun _ _ h => h, fun _ => .inl, fun h => h⟩

theorem Evolves.trans {a b c : Lifecycle} (first : a.Evolves b) (second : b.Evolves c) :
    a.Evolves c where
  sent h := second.sent (first.sent h)
  accepted sound e h := second.accepted (first.sound sound) e (first.accepted sound e h)
  unsent sound h := by
    rcases first.unsent sound h with unsent | initiated
    · exact second.unsent (first.sound sound) unsent
    · obtain ⟨e, event⟩ := Option.isSome_iff_exists.mp initiated
      exact .inr (by simp [second.accepted (first.sound sound) e event])
  sound h := second.sound (first.sound h)

theorem initiate?_leaves_created {l l' : Lifecycle} {id : EventId}
    (accepted : l.initiate? id = some l') :
    l.state = .created ∧ l'.state ≠ .created ∧ l'.initiatedEventId = some id ∧
      l'.initialEmitted = true := by
  obtain ⟨created, rfl⟩ := initiate?_cases accepted
  refine ⟨created, ?_, rfl, rfl⟩
  simp only
  split <;> simp

theorem record?_leaves_created {l l' : Lifecycle} {id : EventId}
    (accepted : l.record? id = some l') :
    l.state = .created ∧ l'.state ≠ .created ∧ l'.initiatedEventId = some id ∧
      l'.initialEmitted = true := by
  obtain ⟨l₁, initiated, rfl⟩ := Option.map_eq_some_iff.mp accepted
  obtain ⟨created, -, event, emitted⟩ := initiate?_leaves_created initiated
  exact ⟨created, by simp, event, emitted⟩

theorem Evolves.of_leaving_created {l l' : Lifecycle} {id : EventId}
    (h : l.state = .created ∧ l'.state ≠ .created ∧ l'.initiatedEventId = some id ∧
      l'.initialEmitted = true) : l.Evolves l' := by
  obtain ⟨created, left, event, emitted⟩ := h
  refine ⟨fun _ => emitted, ?_, fun _ _ => .inr (by simp [event]), ?_⟩
  · intro sound e h
    simp [sound.created created] at h
  · intro _
    exact ⟨fun h => by simp [emitted] at h, fun h => absurd h left⟩

/-- A transition that only a life after the acceptance can make, and that keeps what was sent and
accepted. -/
structure Later (l l' : Lifecycle) : Prop where
  before : l.state ≠ .created
  after : l'.state ≠ .created
  emitted : l'.initialEmitted = l.initialEmitted
  accepted : l'.initiatedEventId = l.initiatedEventId

theorem Later.evolves {l l' : Lifecycle} (later : l.Later l') : l.Evolves l' where
  sent h := later.emitted.trans h
  accepted _ _ h := later.accepted.trans h
  unsent _ h := .inl (later.emitted.trans h)
  sound sound :=
    ⟨fun h => absurd (sound.unsent (later.emitted.symm.trans h)) later.before,
      fun h => absurd h later.after⟩

theorem start?_later {l l' : Lifecycle} {id : EventId} (h : l.start? id = some l') :
    l.Later l' := by
  obtain ⟨state, rfl⟩ | ⟨state, rfl⟩ := start?_cases h
  · exact ⟨by simp [state], by simp, rfl, rfl⟩
  · exact ⟨by simp [state], by simp, rfl, rfl⟩

theorem complete?_later {l l' : Lifecycle} (h : l.complete? = some l') : l.Later l' := by
  obtain ⟨state | state, rfl⟩ | ⟨state | state, rfl⟩ := complete?_cases h
  all_goals exact ⟨by simp [state], by simp, rfl, rfl⟩

theorem cancel?_later {l l' : Lifecycle} (h : l.cancel? = some l') : l.Later l' := by
  obtain ⟨state | state, rfl⟩ | ⟨state | state, rfl⟩ := cancel?_cases h
  all_goals exact ⟨by simp [state], by simp, rfl, rfl⟩

theorem failCancel?_later {l l' : Lifecycle} (h : l.failCancel? = some l') : l.Later l' := by
  obtain ⟨state, rfl⟩ | ⟨state, rfl⟩ := failCancel?_cases h
  · exact ⟨by simp [state], by simp, rfl, rfl⟩
  · exact ⟨by simp [state], by simp, rfl, rfl⟩

theorem requestCancel?_eq {l l' : Lifecycle} (asked : l.requestCancel? = some l') :
    l.isTerminal = false ∧ l' = { l with cancelRequested := true } := by
  unfold requestCancel? at asked
  split at asked
  · simp at asked
  · next unsettled =>
    cases asked
    exact ⟨by simpa using unsettled, rfl⟩

theorem requestCancel?_evolves {l l' : Lifecycle} (asked : l.requestCancel? = some l') :
    l.Evolves l' := by
  obtain ⟨-, rfl⟩ := requestCancel?_eq asked
  exact ⟨fun h => h, fun _ _ h => h, fun _ => .inl, fun h => ⟨h.unsent, h.created⟩⟩

/-! ## Counting decisions as sent -/

@[simp] theorem markSent_initialEmitted (l : Lifecycle) : l.markSent.initialEmitted = true := by
  unfold markSent
  simp only
  split <;> rfl

@[simp] theorem markSent_initiatedEventId (l : Lifecycle) :
    l.markSent.initiatedEventId = l.initiatedEventId := by
  unfold markSent
  simp only
  split <;> rfl

theorem markSent_sound {l : Lifecycle} (sound : l.Sound) : l.markSent.Sound := by
  refine ⟨fun h => by simp at h, ?_⟩
  intro h
  rw [markSent_initiatedEventId]
  refine sound.created ?_
  unfold markSent at h
  simp only at h
  split at h
  · revert h
    unfold afterCancelSent
    simp only
    cases l.state <;> simp
  · exact h

def IsSettled (l : Lifecycle) : Prop := l.initialEmitted = true ∧ l.cancelPending = false

theorem markSent_settled (l : Lifecycle) : l.markSent.IsSettled := by
  refine ⟨markSent_initialEmitted l, ?_⟩
  unfold markSent
  simp only
  split
  · simp [cancelPending]
  · next due => simpa [cancelPending, isTerminal] using due

theorem IsSettled.markSent_eq_self {l : Lifecycle} (settled : l.IsSettled) : l.markSent = l := by
  obtain ⟨emitted, due⟩ := settled
  unfold Lifecycle.markSent
  simp only [due, Bool.false_eq_true, if_false]
  cases l
  simp_all

end Lifecycle

namespace Machine

def IsUnsent (m : Machine) : Prop := m.life.initialEmitted = false

instance (m : Machine) : Decidable m.IsUnsent := inferInstanceAs (Decidable (_ = _))

def IsInitiated (m : Machine) : Prop := m.life.initiatedEventId.isSome

structure Evolves (m m' : Machine) : Prop where
  id : m'.id = m.id
  initialDecision : m'.request.initialDecision = m.request.initialDecision
  life : m.life.Evolves m'.life

theorem Evolves.refl (m : Machine) : m.Evolves m := ⟨rfl, rfl, .refl _⟩

theorem Evolves.trans {a b c : Machine} (first : a.Evolves b) (second : b.Evolves c) :
    a.Evolves c :=
  ⟨second.id.trans first.id, second.initialDecision.trans first.initialDecision,
    first.life.trans second.life⟩

theorem Evolves.preserves_initiated {m m' : Machine} (evolves : m.Evolves m') (sound : m.life.Sound)
    (initiated : m.IsInitiated) : m'.IsInitiated := by
  obtain ⟨e, event⟩ := Option.isSome_iff_exists.mp initiated
  exact Option.isSome_iff_exists.mpr ⟨e, evolves.life.accepted sound e event⟩

theorem Evolves.withLife {m : Machine} {l : Lifecycle} (life : m.life.Evolves l) :
    m.Evolves (m.withLife l) := ⟨rfl, rfl, life⟩

theorem requestCancel?_eq {m m' : Machine} (asked : m.requestCancel? = some m') :
    ∃ l, m.life.requestCancel? = some l ∧ m' = m.withLife l := by
  unfold requestCancel? at asked
  split at asked
  · simp at asked
  · obtain ⟨l, life, rfl⟩ := Option.map_eq_some_iff.mp asked
    exact ⟨l, life, rfl⟩

theorem requestCancel?_evolves {m m' : Machine} (asked : m.requestCancel? = some m') :
    m.Evolves m' := by
  obtain ⟨l, life, rfl⟩ := requestCancel?_eq asked
  exact .withLife (Lifecycle.requestCancel?_evolves life)

theorem markSent_markSent (m : Machine) : m.markSent.markSent = m.markSent := by
  have life := (Lifecycle.markSent_settled m.life).markSent_eq_self
  simp only [markSent, withLife, life]

/-! ## Events -/

theorem initiated?_leaves_created {m m' : Machine} {e : HistoryEvent}
    (h : m.initiated? e = some m') :
    ∃ l, m' = m.withLife l ∧ m.life.state = .created ∧ l.state ≠ .created ∧
      l.initiatedEventId = some e.id ∧ l.initialEmitted = true := by
  obtain ⟨l, rfl, ⟨accepted, -⟩ | ⟨recorded, -⟩⟩ := initiated?_cases h
  · exact ⟨l, rfl, Lifecycle.initiate?_leaves_created accepted⟩
  · exact ⟨l, rfl, Lifecycle.record?_leaves_created recorded⟩

structure Continues (m m' : Machine) : Prop where
  id : m'.id = m.id
  initialDecision : m'.request.initialDecision = m.request.initialDecision
  life : m.life.Later m'.life ∨ m'.life = m.life

theorem Continues.evolves {m m' : Machine} (h : m.Continues m') : m.Evolves m' := by
  refine ⟨h.id, h.initialDecision, ?_⟩
  rcases h.life with later | same
  · exact later.evolves
  · exact same ▸ .refl _

theorem Continues.initiatedEventId_eq {m m' : Machine} (h : m.Continues m') :
    m'.life.initiatedEventId = m.life.initiatedEventId := by
  rcases h.life with later | same
  · exact later.accepted
  · exact same ▸ rfl

theorem started?_continues {m m' : Machine} {e : HistoryEvent} (h : m.started? e = some m') :
    m.Continues m' := by
  obtain ⟨l, started, rfl | ⟨r, runId, cancelEventId, newRunId, request, rfl⟩⟩ := started?_cases h
  · exact ⟨rfl, rfl, .inl (Lifecycle.start?_later started)⟩
  · refine ⟨?_, ?_, .inl (Lifecycle.start?_later started)⟩
    · simp only [id, request, Request.id]
    · simp only [request, Request.initialDecision]

theorem completed?_continues {m : Machine} {e : HistoryEvent} {r : Outcome × Machine}
    (h : m.completed? e = some r) : m.Continues r.2 := by
  obtain ⟨o, m'⟩ := r
  obtain ⟨k, l, -, -, completed, rfl⟩ := completed?_cases h
  exact ⟨rfl, rfl, .inl (Lifecycle.complete?_later completed)⟩

theorem canceled?_continues {m : Machine} {e : HistoryEvent} {r : Outcome × Machine}
    (h : m.canceled? e = some r) : m.Continues r.2 := by
  obtain ⟨o, m'⟩ := r
  obtain ⟨k, details, l, -, -, -, canceled, rfl⟩ := canceled?_cases h
  exact ⟨rfl, rfl, .inl (Lifecycle.cancel?_later canceled)⟩

theorem cancelInitiated?_continues {m m' : Machine} {e : HistoryEvent}
    (h : m.cancelInitiated? e = some m') : m.Continues m' := by
  obtain ⟨-, rfl⟩ | ⟨r, runId, cancelEventId, request, rfl⟩ := cancelInitiated?_cases h
  · exact ⟨rfl, rfl, .inr rfl⟩
  · refine ⟨?_, ?_, .inr rfl⟩
    · simp only [id, request, Request.id]
    · simp only [request, Request.initialDecision]

theorem cancelFailed?_continues {m m' : Machine} {e : HistoryEvent}
    (h : m.cancelFailed? e = some m') : m.Continues m' := by
  obtain ⟨l, refused, rfl⟩ := cancelFailed?_cases h
  exact ⟨rfl, rfl, .inl (Lifecycle.failCancel?_later refused)⟩

end Machine

namespace Ledger

/-- A machine that reacts to an event is accepted by it, under an alias of its own, or goes on. -/
theorem react?_cases {machine : Machine} {role : EventRole} {e : HistoryEvent} {r : Reaction}
    (h : react? machine role e = some r) :
    (∃ l, r.machine = machine.withLife l ∧ r.outcome = none ∧
      r.newAlias = some machine.id.target ∧ machine.life.state = .created ∧ l.state ≠ .created ∧
      l.initiatedEventId = some e.id ∧ l.initialEmitted = true) ∨
      machine.Continues r.machine := by
  unfold react? at h
  split at h
  · obtain ⟨m, initiated, rfl⟩ := Option.map_eq_some_iff.mp h
    obtain ⟨l, rfl, accepted⟩ := Machine.initiated?_leaves_created initiated
    exact .inl ⟨l, rfl, rfl, rfl, accepted⟩
  · obtain ⟨m, started, rfl⟩ := Option.map_eq_some_iff.mp h
    exact .inr (Machine.started?_continues started)
  · obtain ⟨m, completed, rfl⟩ := Option.map_eq_some_iff.mp h
    exact .inr (Machine.completed?_continues completed)
  · obtain ⟨m, canceled, rfl⟩ := Option.map_eq_some_iff.mp h
    exact .inr (Machine.canceled?_continues canceled)
  · obtain ⟨m, initiated, rfl⟩ := Option.map_eq_some_iff.mp h
    exact .inr (Machine.cancelInitiated?_continues initiated)
  · obtain ⟨m, failed, rfl⟩ := Option.map_eq_some_iff.mp h
    exact .inr (Machine.cancelFailed?_continues failed)
  · split at h
    · split at h
      · obtain ⟨m, failed, rfl⟩ := Option.map_eq_some_iff.mp h
        exact .inr (Machine.cancelFailed?_continues failed)
      · simp at h
    · obtain ⟨m, completed, rfl⟩ := Option.map_eq_some_iff.mp h
      exact .inr (Machine.completed?_continues completed)

theorem react?_evolves {machine : Machine} {role : EventRole} {e : HistoryEvent} {r : Reaction}
    (h : react? machine role e = some r) : machine.Evolves r.machine := by
  rcases react?_cases h with ⟨l, same, -, -, accepted⟩ | continues
  · exact same ▸ .withLife (.of_leaving_created accepted)
  · exact continues.evolves

end Ledger

end WorkflowReplay
