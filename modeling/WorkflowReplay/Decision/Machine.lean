import WorkflowReplay.Decision.Lifecycle

/-!
# Requests as state machines

A machine follows one request of a workflow from the moment it is made until the orchestrator
resolves it.  It reacts only to events that name it: an initiating event by the id that the
workflow chose, every later event by the id of that initiating event.  A handler that does not
apply answers `none` and leaves the machine as it was.
-/

set_option autoImplicit false

namespace WorkflowReplay

inductive Request where
  | activity (a : Decision.ScheduleActivity)
  | timer (a : Decision.StartTimer)
  /-- The id of the child run is known once it is started, the last accepted cancel request once
  it is seen in the history. -/
  | child (a : Decision.StartChild) (runId : Option String) (cancelEventId : Option EventId)
  | marker (a : Decision.RecordMarker)
  | upsert (id : String) (searchAttributes : SearchAttributes)
  | signal (a : Decision.SignalExternal)
  | cancelExternal (a : Decision.CancelExternal)
  deriving DecidableEq, Repr

namespace Request

def id : Request → DecisionId
  | .activity a => ⟨.activity, a.activityId⟩
  | .timer a => ⟨.timer, a.timerId⟩
  | .child a _ _ => ⟨.childWorkflow, a.workflowId⟩
  | .marker a => ⟨.marker, a.markerId⟩
  | .upsert id _ => ⟨.upsertSearchAttributes, id⟩
  | .signal a => ⟨.signalExternalWorkflow, a.control⟩
  | .cancelExternal a => ⟨.cancelExternalWorkflow, a.control⟩

def initialDecision : Request → Decision
  | .activity a => .scheduleActivityTask a
  | .timer a => .startTimer a
  | .child a _ _ => .startChildWorkflowExecution a
  | .marker a => .recordMarker a
  | .upsert _ attributes => .upsertWorkflowSearchAttributes attributes
  | .signal a => .signalExternalWorkflowExecution a
  | .cancelExternal a => .requestCancelExternalWorkflowExecution a

def cancelDecision : Request → Option Decision
  | .activity a => some (.requestCancelActivityTask a.activityId)
  | .timer a => some (.cancelTimer a.timerId)
  | .child a runId _ =>
    some (.requestCancelExternalWorkflowExecution
      { domain := a.domain
        workflowId := a.workflowId
        runId := runId.getD ""
        control := ""
        childWorkflowOnly := true })
  | .marker _ | .upsert _ _ | .signal _ | .cancelExternal _ => none

end Request

structure Machine where
  request : Request
  life : Lifecycle := {}
  deriving DecidableEq, Repr

def timeoutReason (t : TimeoutType) : String := "TIMEOUT_" ++ Named.tag t

namespace Machine

def id (m : Machine) : DecisionId := m.request.id

def state (m : Machine) : DecisionState := m.life.state

def isTerminal (m : Machine) : Bool := m.life.isTerminal

def withLife (m : Machine) (l : Lifecycle) : Machine := { m with life := l }

/-- Notes a wish to cancel; refused if the request cannot be canceled or is settled. -/
def requestCancel? (m : Machine) : Option Machine :=
  match m.request.cancelDecision with
  | none => none
  | some _ => m.life.requestCancel?.map m.withLife

def pending (m : Machine) : List Decision :=
  (if m.life.initialEmitted then [] else [m.request.initialDecision]) ++
    (if m.life.cancelPending then m.request.cancelDecision.toList else [])

def markSent (m : Machine) : Machine := m.withLife m.life.markSent

/-! ## Events -/

def initiated? (m : Machine) (e : HistoryEvent) : Option Machine :=
  match m.request, e.attributes with
  | .activity r, .activityTaskScheduled a =>
    if a.activityId = r.activityId then (m.life.initiate? e.id).map m.withLife else none
  | .timer r, .timerStarted a =>
    if a.timerId = r.timerId then (m.life.initiate? e.id).map m.withLife else none
  | .child r _ _, .startChildWorkflowExecutionInitiated a =>
    if a.workflowId = r.workflowId then (m.life.initiate? e.id).map m.withLife else none
  | .marker r, .markerRecorded a =>
    if a.markerId = r.markerId then (m.life.record? e.id).map m.withLife else none
  | .upsert _ _, .upsertWorkflowSearchAttributes _ => (m.life.record? e.id).map m.withLife
  | .signal r, .signalExternalWorkflowExecutionInitiated a =>
    if a.control = r.control then (m.life.initiate? e.id).map m.withLife else none
  | .cancelExternal r, .requestCancelExternalWorkflowExecutionInitiated a =>
    if !a.childWorkflowOnly && a.control = r.control then
      (m.life.initiate? e.id).map m.withLife
    else none
  | _, _ => none

def started? (m : Machine) (e : HistoryEvent) : Option Machine :=
  match m.request, e.attributes with
  | .activity _, .activityTaskStarted a =>
    if m.life.references a.scheduledEventId then (m.life.start? e.id).map m.withLife else none
  | .child r _ cancelEventId, .childWorkflowExecutionStarted a =>
    if m.life.references a.initiatedEventId then
      (m.life.start? e.id).map (fun l =>
        { request := .child r (some a.workflowExecution.runId) cancelEventId, life := l })
    else none
  | _, _ => none

/-- The initiating event that an ending event names, and the outcome that it reports. -/
def ending? : Request → EventAttributes → Option (EventId × Outcome)
  | .activity _, .activityTaskCompleted a => some (a.scheduledEventId, .completed a.result)
  | .activity _, .activityTaskFailed a =>
    some (a.scheduledEventId, .failedWith a.reason a.details)
  | .activity _, .activityTaskTimedOut a =>
    some (a.scheduledEventId, .failedWith (timeoutReason a.timeoutType) a.details)
  | .timer _, .timerFired a => some (a.startedEventId, .completed none)
  | .child _ _ _, .startChildWorkflowExecutionFailed a =>
    some (a.initiatedEventId, .failedWith a.cause none)
  | .child _ _ _, .childWorkflowExecutionCompleted a =>
    some (a.initiatedEventId, .completed a.result)
  | .child _ _ _, .childWorkflowExecutionFailed a =>
    some (a.initiatedEventId, .failedWith a.reason a.details)
  | .child _ _ _, .childWorkflowExecutionTimedOut a =>
    some (a.initiatedEventId, .failedWith (timeoutReason a.timeoutType) none)
  | .child _ _ _, .childWorkflowExecutionTerminated a =>
    some (a.initiatedEventId, .failedWith "TERMINATED" none)
  | .signal _, .externalWorkflowExecutionSignaled a => some (a.initiatedEventId, .completed none)
  | .signal _, .signalExternalWorkflowExecutionFailed a =>
    some (a.initiatedEventId, .failedWith a.cause none)
  | .cancelExternal _, .externalWorkflowExecutionCancelRequested a =>
    some (a.initiatedEventId, .completed none)
  | .cancelExternal _, .requestCancelExternalWorkflowExecutionFailed a =>
    some (a.initiatedEventId, .failedWith a.cause none)
  | _, _ => none

def completed? (m : Machine) (e : HistoryEvent) : Option (Outcome × Machine) :=
  match ending? m.request e.attributes with
  | some (initiatedEventId, outcome) =>
    if m.life.references initiatedEventId then
      m.life.complete?.map (fun l => (outcome, m.withLife l))
    else none
  | none => none

def cancellation? : Request → EventAttributes → Option (EventId × Option Payload)
  | .activity _, .activityTaskCanceled a => some (a.scheduledEventId, a.details)
  | .timer _, .timerCanceled a => some (a.startedEventId, none)
  | .child _ _ _, .childWorkflowExecutionCanceled a => some (a.initiatedEventId, a.details)
  | _, _ => none

def canceled? (m : Machine) (e : HistoryEvent) : Option (Outcome × Machine) :=
  match cancellation? m.request e.attributes with
  | some (initiatedEventId, details) =>
    if m.life.references initiatedEventId then
      m.life.cancel?.map (fun l => (.canceled details, m.withLife l))
    else none
  | none => none

/-- The cancel decision was accepted.  A child run keeps the event, because a refusal names it. -/
def cancelInitiated? (m : Machine) (e : HistoryEvent) : Option Machine :=
  match m.request, e.attributes with
  | .activity r, .activityTaskCancelRequested a =>
    if a.activityId = r.activityId && m.life.cancelEmitted then some m else none
  | .child r runId _, .requestCancelExternalWorkflowExecutionInitiated a =>
    if a.childWorkflowOnly && a.workflowExecution.workflowId = r.workflowId &&
        m.life.cancelEmitted then
      some { m with request := .child r runId (some e.id) }
    else none
  | _, _ => none

def cancelFailed? (m : Machine) (e : HistoryEvent) : Option Machine :=
  match m.request, e.attributes with
  | .activity r, .requestCancelActivityTaskFailed a =>
    if a.activityId = r.activityId then m.life.failCancel?.map m.withLife else none
  | .timer r, .cancelTimerFailed a =>
    if a.timerId = r.timerId then m.life.failCancel?.map m.withLife else none
  | .child _ _ cancelEventId, .requestCancelExternalWorkflowExecutionFailed a =>
    if cancelEventId = some a.initiatedEventId then m.life.failCancel?.map m.withLife else none
  | _, _ => none

end Machine

end WorkflowReplay
