import WorkflowReplay.Decision.Ledger

/-!
# What a taken event says

A machine takes an event only if the event is of the kind that its request waits for and names the
request.  For each transition of a life and each handler of a machine it is said here once what has
become of them when they took an event, and for the routes which roles a key can go with.  No later
module opens the handlers to find out what they have done.
-/

set_option autoImplicit false

namespace WorkflowReplay

/-- Only upserts are found by their turn, events by the caller's id accept requests and decide about
cancel decisions, and all other events follow those. -/
theorem Route.role_of_key {a : EventAttributes} {key : RouteKey} {role : EventRole}
    (routed : Route.of a = some ⟨key, role⟩) :
    match key with
    | .caller _ =>
      (role = .initiated ∨ role = .cancelInitiated ∨ role = .cancelFailed) ∧
        ∀ x, a ≠ .upsertWorkflowSearchAttributes x
    | .follower _ _ =>
      role ≠ .initiated ∧ role ≠ .cancelInitiated ∧ role ≠ .cancelFailed ∧
        ∀ x, a ≠ .upsertWorkflowSearchAttributes x
    | .nextUpsert => role = .initiated ∧ ∃ x, a = .upsertWorkflowSearchAttributes x := by
  cases a with
  | requestCancelExternalWorkflowExecutionInitiated a =>
    -- The flag tells whether a child run or the request for another run is meant.
    cases only : a.childWorkflowOnly with
    | true =>
      simp only [Route.of, only] at routed
      cases routed
      simp
    | false =>
      simp only [Route.of, only] at routed
      cases routed
      simp
  | _ => cases routed <;> simp

namespace Lifecycle

variable {l l' : Lifecycle} {id : EventId}

theorem initiate?_cases (h : l.initiate? id = some l') :
    l.state = .created ∧
      l' = { l with
        initiatedEventId := some id
        initialEmitted := true
        state := if l.cancelEmitted then .canceledAfterInitiated else .initiated } := by
  rw [initiate?] at h
  obtain ⟨created, same⟩ := Option.ite_none_right_eq_some.mp h
  exact ⟨created, (Option.some.inj same).symm⟩

theorem start?_cases (h : l.start? id = some l') :
    l.state = .initiated ∧ l' = { l with state := .started, startedEventId := some id } ∨
      l.state = .canceledAfterInitiated ∧
        l' = { l with state := .canceledAfterStarted, startedEventId := some id } := by
  cases state : l.state <;> simp only [start?, state, reduceCtorEq, Option.some.injEq] at h
  case initiated => exact .inl ⟨rfl, h.symm⟩
  case canceledAfterInitiated => exact .inr ⟨rfl, h.symm⟩

theorem complete?_cases (h : l.complete? = some l') :
    (l.state = .initiated ∨ l.state = .started) ∧ l' = { l with state := .completed } ∨
      (l.state = .canceledAfterInitiated ∨ l.state = .canceledAfterStarted) ∧
        l' = { l with state := .completedAfterCancellationDecisionSent } := by
  cases state : l.state <;> simp only [complete?, state, reduceCtorEq, Option.some.injEq] at h
  case initiated | started => exact .inl ⟨by simp, h.symm⟩
  case canceledAfterInitiated | canceledAfterStarted => exact .inr ⟨by simp, h.symm⟩

theorem cancel?_cases (h : l.cancel? = some l') :
    (l.state = .initiated ∨ l.state = .canceledAfterInitiated) ∧
        l' = { l with state := .canceledAfterInitiated } ∨
      (l.state = .started ∨ l.state = .canceledAfterStarted) ∧
        l' = { l with state := .canceledAfterStarted } := by
  cases state : l.state <;> simp only [cancel?, state, reduceCtorEq, Option.some.injEq] at h
  case initiated | canceledAfterInitiated => exact .inl ⟨by simp, h.symm⟩
  case started | canceledAfterStarted => exact .inr ⟨by simp, h.symm⟩

theorem failCancel?_cases (h : l.failCancel? = some l') :
    l.state = .canceledAfterInitiated ∧
        l' = { l with state := .initiated, cancelRequested := false, cancelEmitted := false } ∨
      l.state = .canceledAfterStarted ∧
        l' = { l with state := .started, cancelRequested := false, cancelEmitted := false } := by
  cases state : l.state <;> simp only [failCancel?, state, reduceCtorEq, Option.some.injEq] at h
  case canceledAfterInitiated => exact .inl ⟨rfl, h.symm⟩
  case canceledAfterStarted => exact .inr ⟨rfl, h.symm⟩

end Lifecycle

namespace Machine

variable {m m' : Machine} {e : HistoryEvent}

theorem eq_withLife_of_guarded {c : Prop} [Decidable c] {l? : Option Lifecycle}
    (h : (if c then l?.map m.withLife else none) = some m') :
    c ∧ ∃ l, l? = some l ∧ m' = m.withLife l := by
  obtain ⟨holds, taken⟩ := Option.ite_none_right_eq_some.mp h
  obtain ⟨l, found, rfl⟩ := Option.map_eq_some_iff.mp taken
  exact ⟨holds, l, found, rfl⟩

/-- Nothing follows the acceptance of a marker or an upsert, so these two are recorded. -/
theorem initiated?_cases (h : m.initiated? e = some m') :
    ∃ l, m' = m.withLife l ∧
      (m.life.initiate? e.id = some l ∧ m.id.target ≠ .upsertSearchAttributes ∧
          (∀ x, e.attributes ≠ .upsertWorkflowSearchAttributes x) ∨
        m.life.record? e.id = some l ∧
          (m.id.target = .upsertSearchAttributes ↔
            ∃ x, e.attributes = .upsertWorkflowSearchAttributes x)) := by
  obtain ⟨request, life⟩ := m
  obtain ⟨id, time, attributes⟩ := e
  cases request with
  | activity r =>
    cases attributes with
    | activityTaskScheduled a =>
      obtain ⟨-, l, accepted, rfl⟩ := eq_withLife_of_guarded h
      exact ⟨l, rfl, .inl ⟨accepted, nofun, nofun⟩⟩
    | _ => cases h
  | timer r =>
    cases attributes with
    | timerStarted a =>
      obtain ⟨-, l, accepted, rfl⟩ := eq_withLife_of_guarded h
      exact ⟨l, rfl, .inl ⟨accepted, nofun, nofun⟩⟩
    | _ => cases h
  | child r runId cancelEventId =>
    cases attributes with
    | startChildWorkflowExecutionInitiated a =>
      obtain ⟨-, l, accepted, rfl⟩ := eq_withLife_of_guarded h
      exact ⟨l, rfl, .inl ⟨accepted, nofun, nofun⟩⟩
    | _ => cases h
  | marker r =>
    cases attributes with
    | markerRecorded a =>
      obtain ⟨-, l, recorded, rfl⟩ := eq_withLife_of_guarded h
      exact ⟨l, rfl, .inr ⟨recorded, nofun, nofun⟩⟩
    | _ => cases h
  | upsert id searchAttributes =>
    cases attributes with
    | upsertWorkflowSearchAttributes a =>
      obtain ⟨l, recorded, rfl⟩ := Option.map_eq_some_iff.mp h
      exact ⟨l, rfl, .inr ⟨recorded, fun _ => ⟨a, rfl⟩, fun _ => rfl⟩⟩
    | _ => cases h
  | signal r =>
    cases attributes with
    | signalExternalWorkflowExecutionInitiated a =>
      obtain ⟨-, l, accepted, rfl⟩ := eq_withLife_of_guarded h
      exact ⟨l, rfl, .inl ⟨accepted, nofun, nofun⟩⟩
    | _ => cases h
  | cancelExternal r =>
    cases attributes with
    | requestCancelExternalWorkflowExecutionInitiated a =>
      obtain ⟨-, l, accepted, rfl⟩ := eq_withLife_of_guarded h
      exact ⟨l, rfl, .inl ⟨accepted, nofun, nofun⟩⟩
    | _ => cases h

/-- A child run that starts learns its run id. -/
theorem started?_cases (h : m.started? e = some m') :
    ∃ l, m.life.start? e.id = some l ∧
      (m' = m.withLife l ∨
        ∃ r runId cancelEventId newRunId, m.request = .child r runId cancelEventId ∧
          m' = ⟨.child r (some newRunId) cancelEventId, l⟩) := by
  obtain ⟨request, life⟩ := m
  obtain ⟨id, time, attributes⟩ := e
  cases request with
  | activity r =>
    cases attributes with
    | activityTaskStarted a =>
      obtain ⟨-, l, started, rfl⟩ := eq_withLife_of_guarded h
      exact ⟨l, started, .inl rfl⟩
    | _ => cases h
  | child r runId cancelEventId =>
    cases attributes with
    | childWorkflowExecutionStarted a =>
      obtain ⟨-, taken⟩ := Option.ite_none_right_eq_some.mp h
      obtain ⟨l, started, rfl⟩ := Option.map_eq_some_iff.mp taken
      exact ⟨l, started, .inr ⟨r, runId, cancelEventId, _, rfl, rfl⟩⟩
    | _ => cases h
  | _ => cases h

theorem completed?_cases {o : Outcome} (h : m.completed? e = some (o, m')) :
    ∃ k l, ending? m.request e.attributes = some (k, o) ∧ m.life.references k = true ∧
      m.life.complete? = some l ∧ m' = m.withLife l := by
  rw [completed?] at h
  cases ends : ending? m.request e.attributes with
  | none => simp [ends] at h
  | some named =>
    obtain ⟨k, outcome⟩ := named
    simp only [ends] at h
    obtain ⟨own, taken⟩ := Option.ite_none_right_eq_some.mp h
    obtain ⟨l, completed, same⟩ := Option.map_eq_some_iff.mp taken
    cases same
    exact ⟨k, l, rfl, own, completed, rfl⟩

theorem canceled?_cases {o : Outcome} (h : m.canceled? e = some (o, m')) :
    ∃ k details l, cancellation? m.request e.attributes = some (k, details) ∧
      o = .canceled details ∧ m.life.references k = true ∧ m.life.cancel? = some l ∧
      m' = m.withLife l := by
  rw [canceled?] at h
  cases ends : cancellation? m.request e.attributes with
  | none => simp [ends] at h
  | some named =>
    obtain ⟨k, details⟩ := named
    simp only [ends] at h
    obtain ⟨own, taken⟩ := Option.ite_none_right_eq_some.mp h
    obtain ⟨l, canceled, same⟩ := Option.map_eq_some_iff.mp taken
    cases same
    exact ⟨k, details, l, rfl, rfl, own, canceled, rfl⟩

/-- A child run whose cancel decision is accepted learns the id of the event. -/
theorem cancelInitiated?_cases (h : m.cancelInitiated? e = some m') :
    m.id.target ≠ .childWorkflow ∧ m' = m ∨
      ∃ r runId cancelEventId, m.request = .child r runId cancelEventId ∧
        m' = { m with request := .child r runId (some e.id) } := by
  obtain ⟨request, life⟩ := m
  obtain ⟨id, time, attributes⟩ := e
  cases request with
  | activity r =>
    cases attributes with
    | activityTaskCancelRequested a =>
      obtain ⟨-, taken⟩ := Option.ite_none_right_eq_some.mp h
      cases taken
      exact .inl ⟨nofun, rfl⟩
    | _ => cases h
  | child r runId cancelEventId =>
    cases attributes with
    | requestCancelExternalWorkflowExecutionInitiated a =>
      obtain ⟨-, taken⟩ := Option.ite_none_right_eq_some.mp h
      cases taken
      exact .inr ⟨r, runId, cancelEventId, rfl, rfl⟩
    | _ => cases h
  | _ => cases h

theorem cancelFailed?_cases (h : m.cancelFailed? e = some m') :
    ∃ l, m.life.failCancel? = some l ∧ m' = m.withLife l := by
  obtain ⟨request, life⟩ := m
  obtain ⟨id, time, attributes⟩ := e
  cases request with
  | activity r =>
    cases attributes with
    | requestCancelActivityTaskFailed a => exact (eq_withLife_of_guarded h).2
    | _ => cases h
  | timer r =>
    cases attributes with
    | cancelTimerFailed a => exact (eq_withLife_of_guarded h).2
    | _ => cases h
  | child r runId cancelEventId =>
    cases attributes with
    | requestCancelExternalWorkflowExecutionFailed a => exact (eq_withLife_of_guarded h).2
    | _ => cases h
  | _ => cases h

end Machine

end WorkflowReplay
