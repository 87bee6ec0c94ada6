import WorkflowReplay.Proofs.Decision.Conduct

/-!
# Handlers that work in place

A machine that is kept in place is written to while it handles an event: one field after another,
with guards before, between and after the writes.  Nothing takes a write back.  The handlers below
work like this, in the same order; each of them comes to what the machine answers, because no guard
that can still refuse the event stands behind a write.
-/

set_option autoImplicit false

namespace WorkflowReplay

section InPlace

variable {σ α β : Type}

/-- What an attempt in place comes to: whether it succeeded, and what is there afterwards. -/
def attempted (before : σ) (after? : Option σ) : Bool × σ :=
  (after?.isSome, after?.getD before)

def resolved (before : σ) (after? : Option (α × σ)) : Option α × σ :=
  (after?.map Prod.fst, (after?.map Prod.snd).getD before)

theorem get_bind_apply (next : σ → StateM σ α) (s : σ) : (get >>= next) s = next s s := rfl

theorem bind_apply (first : StateM σ α) (next : α → StateM σ β) (s : σ) :
    (first >>= next) s = next (first s).1 (first s).2 := rfl

theorem ite_attempted {s : σ} {step : StateM σ Bool} {after? : Option σ} (c : Prop) [Decidable c]
    (comes : step s = attempted s after?) :
    (if c then step else pure false : StateM σ Bool) s =
      attempted s (if c then after? else none) := by
  split
  · exact comes
  · rfl

theorem ite_resolved {s : σ} {step : StateM σ Bool} {after? : Option σ} (c : Prop) [Decidable c]
    (comes : step s = attempted s after?) (result : α) :
    (if c then (do if ← step then return some result else return none) else return none :
        StateM σ (Option α)) s =
      resolved s (if c then after?.map (fun s' => (result, s')) else none) := by
  split
  · simp only [bind_apply, comes]
    cases after? <;> rfl
  · rfl

end InPlace

namespace Lifecycle

def moveTo (s : DecisionState) : StateM Lifecycle Unit :=
  modify fun l => { l with state := s }

def initiateInPlace (id : EventId) : StateM Lifecycle Bool := do
  unless (← get).state = .created do return false
  modify fun l => { l with initiatedEventId := some id }
  modify fun l => { l with initialEmitted := true }
  if (← get).cancelEmitted then moveTo .canceledAfterInitiated else moveTo .initiated
  return true

def recordInPlace (id : EventId) : StateM Lifecycle Bool := do
  unless ← initiateInPlace id do return false
  moveTo .completed
  return true

def startInPlace (id : EventId) : StateM Lifecycle Bool := do
  match (← get).state with
  | .initiated => moveTo .started
  | .canceledAfterInitiated => moveTo .canceledAfterStarted
  | _ => return false
  modify fun l => { l with startedEventId := some id }
  return true

def completeInPlace : StateM Lifecycle Bool := do
  match (← get).state with
  | .initiated | .started => moveTo .completed
  | .canceledAfterInitiated | .canceledAfterStarted =>
    moveTo .completedAfterCancellationDecisionSent
  | _ => return false
  return true

def cancelInPlace : StateM Lifecycle Bool := do
  match (← get).state with
  | .initiated | .canceledAfterInitiated => moveTo .canceledAfterInitiated
  | .started | .canceledAfterStarted => moveTo .canceledAfterStarted
  | _ => return false
  return true

def failCancelInPlace : StateM Lifecycle Bool := do
  match (← get).state with
  | .canceledAfterInitiated => moveTo .initiated
  | .canceledAfterStarted => moveTo .started
  | _ => return false
  modify fun l => { l with cancelRequested := false }
  modify fun l => { l with cancelEmitted := false }
  return true

theorem initiateInPlace_eq (l : Lifecycle) (id : EventId) :
    initiateInPlace id l = attempted l (l.initiate? id) := by
  obtain ⟨state, _, _, _, _, emitted⟩ := l
  cases state <;> cases emitted <;> rfl

theorem recordInPlace_eq (l : Lifecycle) (id : EventId) :
    recordInPlace id l = attempted l (l.record? id) := by
  obtain ⟨state, _, _, _, _, emitted⟩ := l
  cases state <;> cases emitted <;> rfl

theorem startInPlace_eq (l : Lifecycle) (id : EventId) :
    startInPlace id l = attempted l (l.start? id) := by
  obtain ⟨state, _, _, _, _, _⟩ := l
  cases state <;> rfl

theorem completeInPlace_eq (l : Lifecycle) : completeInPlace l = attempted l l.complete? := by
  obtain ⟨state, _, _, _, _, _⟩ := l
  cases state <;> rfl

theorem cancelInPlace_eq (l : Lifecycle) : cancelInPlace l = attempted l l.cancel? := by
  obtain ⟨state, _, _, _, _, _⟩ := l
  cases state <;> rfl

theorem failCancelInPlace_eq (l : Lifecycle) :
    failCancelInPlace l = attempted l l.failCancel? := by
  obtain ⟨state, _, _, _, _, _⟩ := l
  cases state <;> rfl

end Lifecycle

namespace Machine

inductive Handler where
  | initiated
  | started
  | completed
  | canceled
  | cancelInitiated
  | cancelFailed
  deriving DecidableEq

def Handler.call : Handler → HistoryEvent → Call
  | .initiated => .initiated
  | .started => .started
  | .completed => .completed
  | .canceled => .canceled
  | .cancelInitiated => .cancelInitiated
  | .cancelFailed => .cancelFailed

/-! ## The handlers -/

def inLife (step : StateM Lifecycle Bool) : StateM Machine Bool := fun m =>
  ((step m.life).1, m.withLife (step m.life).2)

def initiatedInPlace (e : HistoryEvent) : StateM Machine Bool := do
  match (← get).request, e.attributes with
  | .activity r, .activityTaskScheduled a =>
    if a.activityId = r.activityId then inLife (Lifecycle.initiateInPlace e.id) else return false
  | .timer r, .timerStarted a =>
    if a.timerId = r.timerId then inLife (Lifecycle.initiateInPlace e.id) else return false
  | .child r _ _, .startChildWorkflowExecutionInitiated a =>
    if a.workflowId = r.workflowId then inLife (Lifecycle.initiateInPlace e.id) else return false
  | .marker r, .markerRecorded a =>
    if a.markerId = r.markerId then inLife (Lifecycle.recordInPlace e.id) else return false
  | .upsert _ _, .upsertWorkflowSearchAttributes _ => inLife (Lifecycle.recordInPlace e.id)
  | .signal r, .signalExternalWorkflowExecutionInitiated a =>
    if a.control = r.control then inLife (Lifecycle.initiateInPlace e.id) else return false
  | .cancelExternal r, .requestCancelExternalWorkflowExecutionInitiated a =>
    if !a.childWorkflowOnly && a.control = r.control then
      inLife (Lifecycle.initiateInPlace e.id)
    else return false
  | _, _ => return false

def startedInPlace (e : HistoryEvent) : StateM Machine Bool := do
  match (← get).request, e.attributes with
  | .activity _, .activityTaskStarted a =>
    if (← get).life.references a.scheduledEventId then inLife (Lifecycle.startInPlace e.id)
    else return false
  | .child r _ cancelEventId, .childWorkflowExecutionStarted a =>
    if (← get).life.references a.initiatedEventId then
      let accepted ← inLife (Lifecycle.startInPlace e.id)
      -- The guard stands behind a write, but only one that succeeded.
      if accepted then
        modify fun m =>
          { m with request := .child r (some a.workflowExecution.runId) cancelEventId }
      return accepted
    else return false
  | _, _ => return false

def completedInPlace (e : HistoryEvent) : StateM Machine (Option Outcome) := do
  match ending? (← get).request e.attributes with
  | none => return none
  | some (initiatedEventId, outcome) =>
    if (← get).life.references initiatedEventId then
      if ← inLife Lifecycle.completeInPlace then return some outcome else return none
    else return none

def canceledInPlace (e : HistoryEvent) : StateM Machine (Option Outcome) := do
  match cancellation? (← get).request e.attributes with
  | none => return none
  | some (initiatedEventId, details) =>
    if (← get).life.references initiatedEventId then
      if ← inLife Lifecycle.cancelInPlace then return some (.canceled details) else return none
    else return none

def cancelInitiatedInPlace (e : HistoryEvent) : StateM Machine Bool := do
  match (← get).request, e.attributes with
  | .activity r, .activityTaskCancelRequested a =>
    if a.activityId = r.activityId && (← get).life.cancelEmitted then return true
    else return false
  | .child r runId _, .requestCancelExternalWorkflowExecutionInitiated a =>
    if a.childWorkflowOnly && a.workflowExecution.workflowId = r.workflowId &&
        (← get).life.cancelEmitted then
      modify fun m => { m with request := .child r runId (some e.id) }
      return true
    else return false
  | _, _ => return false

def cancelFailedInPlace (e : HistoryEvent) : StateM Machine Bool := do
  match (← get).request, e.attributes with
  | .activity r, .requestCancelActivityTaskFailed a =>
    if a.activityId = r.activityId then inLife Lifecycle.failCancelInPlace else return false
  | .timer r, .cancelTimerFailed a =>
    if a.timerId = r.timerId then inLife Lifecycle.failCancelInPlace else return false
  | .child _ _ cancelEventId, .requestCancelExternalWorkflowExecutionFailed a =>
    if cancelEventId = some a.initiatedEventId then inLife Lifecycle.failCancelInPlace
    else return false
  | _, _ => return false

/-! ## What they come to -/

theorem inLife_eq {step : StateM Lifecycle Bool} {m : Machine} {l? : Option Lifecycle}
    (comes : step m.life = attempted m.life l?) :
    inLife step m = attempted m (l?.map m.withLife) := by
  rw [inLife, comes]
  cases l? <;> rfl

theorem initiatedInPlace_eq (m : Machine) (e : HistoryEvent) :
    initiatedInPlace e m = attempted m (m.initiated? e) := by
  have initiates := inLife_eq (m.life.initiateInPlace_eq e.id)
  have records := inLife_eq (m.life.recordInPlace_eq e.id)
  obtain ⟨request, life⟩ := m
  obtain ⟨id, time, attributes⟩ := e
  cases request with
  | activity r =>
    cases attributes with
    | activityTaskScheduled a => exact ite_attempted _ initiates
    | _ => rfl
  | timer r =>
    cases attributes with
    | timerStarted a => exact ite_attempted _ initiates
    | _ => rfl
  | child r runId cancelEventId =>
    cases attributes with
    | startChildWorkflowExecutionInitiated a => exact ite_attempted _ initiates
    | _ => rfl
  | marker r =>
    cases attributes with
    | markerRecorded a => exact ite_attempted _ records
    | _ => rfl
  | upsert id searchAttributes =>
    cases attributes with
    | upsertWorkflowSearchAttributes a => exact records
    | _ => rfl
  | signal r =>
    cases attributes with
    | signalExternalWorkflowExecutionInitiated a => exact ite_attempted _ initiates
    | _ => rfl
  | cancelExternal r =>
    cases attributes with
    | requestCancelExternalWorkflowExecutionInitiated a => exact ite_attempted _ initiates
    | _ => rfl

theorem startedInPlace_eq (m : Machine) (e : HistoryEvent) :
    startedInPlace e m = attempted m (m.started? e) := by
  have starts := inLife_eq (m.life.startInPlace_eq e.id)
  obtain ⟨request, life⟩ := m
  obtain ⟨id, time, attributes⟩ := e
  cases request with
  | activity r =>
    cases attributes with
    | activityTaskStarted a => exact ite_attempted _ starts
    | _ => rfl
  | child r runId cancelEventId =>
    cases attributes with
    | childWorkflowExecutionStarted a =>
      refine ite_attempted _ ?_
      simp only [bind_apply, starts]
      cases life.start? id <;> rfl
    | _ => rfl
  | _ => rfl

theorem completedInPlace_eq (m : Machine) (e : HistoryEvent) :
    completedInPlace e m = resolved m (m.completed? e) := by
  have completes := inLife_eq m.life.completeInPlace_eq
  simp only [completedInPlace, completed?, get_bind_apply]
  cases ending? m.request e.attributes with
  | none => rfl
  | some named =>
    refine (ite_resolved _ completes named.2).trans ?_
    simp only [Option.map_map, Function.comp_def]

theorem canceledInPlace_eq (m : Machine) (e : HistoryEvent) :
    canceledInPlace e m = resolved m (m.canceled? e) := by
  have cancels := inLife_eq m.life.cancelInPlace_eq
  simp only [canceledInPlace, canceled?, get_bind_apply]
  cases cancellation? m.request e.attributes with
  | none => rfl
  | some named =>
    refine (ite_resolved _ cancels (Outcome.canceled named.2)).trans ?_
    simp only [Option.map_map, Function.comp_def]

theorem cancelInitiatedInPlace_eq (m : Machine) (e : HistoryEvent) :
    cancelInitiatedInPlace e m = attempted m (m.cancelInitiated? e) := by
  obtain ⟨request, life⟩ := m
  obtain ⟨id, time, attributes⟩ := e
  cases request with
  | activity r =>
    cases attributes with
    | activityTaskCancelRequested a => exact ite_attempted _ rfl
    | _ => rfl
  | child r runId cancelEventId =>
    cases attributes with
    | requestCancelExternalWorkflowExecutionInitiated a => exact ite_attempted _ rfl
    | _ => rfl
  | _ => rfl

theorem cancelFailedInPlace_eq (m : Machine) (e : HistoryEvent) :
    cancelFailedInPlace e m = attempted m (m.cancelFailed? e) := by
  have fails := inLife_eq m.life.failCancelInPlace_eq
  obtain ⟨request, life⟩ := m
  obtain ⟨id, time, attributes⟩ := e
  cases request with
  | activity r =>
    cases attributes with
    | requestCancelActivityTaskFailed a => exact ite_attempted _ fails
    | _ => rfl
  | timer r =>
    cases attributes with
    | cancelTimerFailed a => exact ite_attempted _ fails
    | _ => rfl
  | child r runId cancelEventId =>
    cases attributes with
    | requestCancelExternalWorkflowExecutionFailed a => exact ite_attempted _ fails
    | _ => rfl
  | _ => rfl

/-! ## Any handler -/

def Answer.told (r : Bool × Machine) : Answer := { machine := r.2, accepted := r.1 }

def Answer.reported (r : Option Outcome × Machine) : Answer :=
  { machine := r.2, accepted := r.1.isSome, outcome := r.1 }

/-- Calls a handler in place: what was written stays written when the event is refused. -/
def handleInPlace (m : Machine) (h : Handler) (e : HistoryEvent) : Answer :=
  match h with
  | .initiated => .told (initiatedInPlace e m)
  | .started => .told (startedInPlace e m)
  | .completed => .reported (completedInPlace e m)
  | .canceled => .reported (canceledInPlace e m)
  | .cancelInitiated => .told (cancelInitiatedInPlace e m)
  | .cancelFailed => .told (cancelFailedInPlace e m)

theorem reported_resolved (m : Machine) (r? : Option (Outcome × Machine)) :
    Answer.reported (resolved m r?) = m.resolve r? := by
  cases r? <;> rfl

theorem handleInPlace_eq (m : Machine) (h : Handler) (e : HistoryEvent) :
    m.handleInPlace h e = m.answer (h.call e) := by
  cases h with
  | initiated => exact congrArg Answer.told (initiatedInPlace_eq m e)
  | started => exact congrArg Answer.told (startedInPlace_eq m e)
  | completed =>
    exact (congrArg Answer.reported (completedInPlace_eq m e)).trans (reported_resolved m _)
  | canceled =>
    exact (congrArg Answer.reported (canceledInPlace_eq m e)).trans (reported_resolved m _)
  | cancelInitiated => exact congrArg Answer.told (cancelInitiatedInPlace_eq m e)
  | cancelFailed => exact congrArg Answer.told (cancelFailedInPlace_eq m e)

end Machine

end WorkflowReplay
