import WorkflowReplay.History.Event

/-!
# Building histories

A builder appends events.  Each append gives the event the next id, counting from one, and moves
the clock on by one second; it fails when the clock has come to the end of time.  Events that the
orchestrator writes for a decision name the last decision task that was completed.
-/

set_option autoImplicit false

namespace WorkflowReplay

structure HistoryBuilder where
  events : List HistoryEvent := []
  /-- 2024-01-01T00:00:00Z unless another start is chosen. -/
  clock : Timestamp := ⟨1704067200, 0⟩
  deriving Inhabited

namespace HistoryBuilder

def startingAt (t : Timestamp) : HistoryBuilder := { clock := t }

def nextEventId (b : HistoryBuilder) : EventId := Int64.ofNat (b.events.length + 1)

def advance (b : HistoryBuilder) (n : Int) : Option HistoryBuilder :=
  (b.clock.move? n).map (fun clock => { b with clock })

def add (b : HistoryBuilder) (a : EventAttributes) : Option (EventId × HistoryBuilder) :=
  let id := b.nextEventId
  (b.clock.move? 1000000000).map
    (fun clock => (id, { events := b.events ++ [⟨id, clock, a⟩], clock }))

def lastCompletedTask (b : HistoryBuilder) : EventId :=
  match b.events.reverse.find? (fun e => e.type = .decisionTaskCompleted) with
  | some e => e.id
  | none => 0

def someRunOf (workflowId : String) : Execution := ⟨workflowId, ""⟩

/-! ## The run -/

def workflowStarted (b : HistoryBuilder) (workflowType : String) (input : Option Payload) :
    Option (EventId × HistoryBuilder) :=
  b.add (.workflowExecutionStarted
    { workflowType, input
      taskList := "default"
      executionStartToCloseTimeoutSeconds := 3600
      taskStartToCloseTimeoutSeconds := 10 })

def workflowCompleted (b : HistoryBuilder) (result : Option Payload) :
    Option (EventId × HistoryBuilder) :=
  b.add (.workflowExecutionCompleted
    { result, decisionTaskCompletedEventId := b.lastCompletedTask })

def workflowSignaled (b : HistoryBuilder) (signalName : String) (input : Option Payload) :
    Option (EventId × HistoryBuilder) :=
  b.add (.workflowExecutionSignaled { signalName, input })

def workflowCancelRequested (b : HistoryBuilder) (cause : String) :
    Option (EventId × HistoryBuilder) :=
  b.add (.workflowExecutionCancelRequested { cause })

/-! ## Decision tasks -/

def decisionTaskScheduled (b : HistoryBuilder) : Option (EventId × HistoryBuilder) :=
  b.add (.decisionTaskScheduled { taskList := "default", startToCloseTimeoutSeconds := 10 })

def decisionTaskStarted (b : HistoryBuilder) (scheduledEventId : EventId) :
    Option (EventId × HistoryBuilder) :=
  b.add (.decisionTaskStarted { scheduledEventId })

def decisionTaskCompleted (b : HistoryBuilder) (scheduledEventId startedEventId : EventId) :
    Option (EventId × HistoryBuilder) :=
  b.add (.decisionTaskCompleted { scheduledEventId, startedEventId })

def decisionTaskFailed (b : HistoryBuilder) (scheduledEventId startedEventId : EventId)
    (cause : String) : Option (EventId × HistoryBuilder) :=
  b.add (.decisionTaskFailed { scheduledEventId, startedEventId, cause })

def decisionTaskTimedOut (b : HistoryBuilder) (scheduledEventId startedEventId : EventId) :
    Option (EventId × HistoryBuilder) :=
  b.add (.decisionTaskTimedOut { scheduledEventId, startedEventId })

def decisionTask (b : HistoryBuilder) :
    Option ((EventId × EventId × EventId) × HistoryBuilder) := do
  let (scheduled, b) ← b.decisionTaskScheduled
  let (started, b) ← b.decisionTaskStarted scheduled
  let (completed, b) ← b.decisionTaskCompleted scheduled started
  return ((scheduled, started, completed), b)

def liveDecisionTask (b : HistoryBuilder) : Option (EventId × HistoryBuilder) :=
  b.decisionTaskScheduled.bind (fun (scheduled, b) => b.decisionTaskStarted scheduled)

/-! ## Activities -/

def activityTaskScheduled (b : HistoryBuilder) (activityId activityType : String) :
    Option (EventId × HistoryBuilder) :=
  b.add (.activityTaskScheduled
    { activityId, activityType
      taskList := "default"
      decisionTaskCompletedEventId := b.lastCompletedTask })

def activityTaskStarted (b : HistoryBuilder) (scheduledEventId : EventId) :
    Option (EventId × HistoryBuilder) :=
  b.add (.activityTaskStarted { scheduledEventId })

def activityTaskCompleted (b : HistoryBuilder) (scheduledEventId startedEventId : EventId)
    (result : Option Payload) : Option (EventId × HistoryBuilder) :=
  b.add (.activityTaskCompleted { scheduledEventId, startedEventId, result })

def activityTaskFailed (b : HistoryBuilder) (scheduledEventId startedEventId : EventId)
    (reason : String) (details : Option Payload) : Option (EventId × HistoryBuilder) :=
  b.add (.activityTaskFailed { scheduledEventId, startedEventId, reason, details })

def activityTaskTimedOut (b : HistoryBuilder) (scheduledEventId startedEventId : EventId)
    (timeoutType : TimeoutType) : Option (EventId × HistoryBuilder) :=
  b.add (.activityTaskTimedOut { scheduledEventId, startedEventId, timeoutType })

def activityTaskCancelRequested (b : HistoryBuilder) (activityId : String) :
    Option (EventId × HistoryBuilder) :=
  b.add (.activityTaskCancelRequested
    { activityId, decisionTaskCompletedEventId := b.lastCompletedTask })

def requestCancelActivityTaskFailed (b : HistoryBuilder) (activityId cause : String) :
    Option (EventId × HistoryBuilder) :=
  b.add (.requestCancelActivityTaskFailed
    { activityId, cause, decisionTaskCompletedEventId := b.lastCompletedTask })

def activityTaskCanceled (b : HistoryBuilder) (scheduledEventId startedEventId : EventId) :
    Option (EventId × HistoryBuilder) :=
  b.add (.activityTaskCanceled { scheduledEventId, startedEventId })

/-! ## Timers -/

def timerStarted (b : HistoryBuilder) (timerId : String) (startToFireTimeoutSeconds : Int64) :
    Option (EventId × HistoryBuilder) :=
  b.add (.timerStarted
    { timerId, startToFireTimeoutSeconds, decisionTaskCompletedEventId := b.lastCompletedTask })

def timerFired (b : HistoryBuilder) (timerId : String) (startedEventId : EventId) :
    Option (EventId × HistoryBuilder) :=
  b.add (.timerFired { timerId, startedEventId })

def timerCanceled (b : HistoryBuilder) (timerId : String) (startedEventId : EventId) :
    Option (EventId × HistoryBuilder) :=
  b.add (.timerCanceled
    { timerId, startedEventId, decisionTaskCompletedEventId := b.lastCompletedTask })

def cancelTimerFailed (b : HistoryBuilder) (timerId cause : String) :
    Option (EventId × HistoryBuilder) :=
  b.add (.cancelTimerFailed
    { timerId, cause, decisionTaskCompletedEventId := b.lastCompletedTask })

/-! ## Child runs -/

def startChildWorkflowInitiated (b : HistoryBuilder) (workflowId workflowType : String) :
    Option (EventId × HistoryBuilder) :=
  b.add (.startChildWorkflowExecutionInitiated
    { workflowId, workflowType, decisionTaskCompletedEventId := b.lastCompletedTask })

def startChildWorkflowFailed (b : HistoryBuilder) (workflowId : String)
    (initiatedEventId : EventId) (cause : String) : Option (EventId × HistoryBuilder) :=
  b.add (.startChildWorkflowExecutionFailed
    { workflowId, cause, initiatedEventId, decisionTaskCompletedEventId := b.lastCompletedTask })

def childWorkflowStarted (b : HistoryBuilder) (workflowId runId : String)
    (initiatedEventId : EventId) : Option (EventId × HistoryBuilder) :=
  b.add (.childWorkflowExecutionStarted
    { workflowExecution := ⟨workflowId, runId⟩, initiatedEventId })

def childWorkflowCompleted (b : HistoryBuilder) (workflowId : String)
    (initiatedEventId startedEventId : EventId) (result : Option Payload) :
    Option (EventId × HistoryBuilder) :=
  b.add (.childWorkflowExecutionCompleted
    { workflowExecution := someRunOf workflowId, initiatedEventId, startedEventId, result })

def childWorkflowFailed (b : HistoryBuilder) (workflowId : String)
    (initiatedEventId startedEventId : EventId) (reason : String) :
    Option (EventId × HistoryBuilder) :=
  b.add (.childWorkflowExecutionFailed
    { workflowExecution := someRunOf workflowId, initiatedEventId, startedEventId, reason })

def childWorkflowTimedOut (b : HistoryBuilder) (workflowId : String)
    (initiatedEventId startedEventId : EventId) : Option (EventId × HistoryBuilder) :=
  b.add (.childWorkflowExecutionTimedOut
    { workflowExecution := someRunOf workflowId, initiatedEventId, startedEventId })

def childWorkflowCanceled (b : HistoryBuilder) (workflowId : String)
    (initiatedEventId startedEventId : EventId) : Option (EventId × HistoryBuilder) :=
  b.add (.childWorkflowExecutionCanceled
    { workflowExecution := someRunOf workflowId, initiatedEventId, startedEventId })

def childWorkflowTerminated (b : HistoryBuilder) (workflowId : String)
    (initiatedEventId startedEventId : EventId) : Option (EventId × HistoryBuilder) :=
  b.add (.childWorkflowExecutionTerminated
    { workflowExecution := someRunOf workflowId, initiatedEventId, startedEventId })

/-! ## Other runs -/

def requestCancelExternalInitiated (b : HistoryBuilder) (workflowId control : String)
    (childWorkflowOnly : Bool) : Option (EventId × HistoryBuilder) :=
  b.add (.requestCancelExternalWorkflowExecutionInitiated
    { workflowExecution := someRunOf workflowId, control, childWorkflowOnly
      decisionTaskCompletedEventId := b.lastCompletedTask })

def requestCancelExternalFailed (b : HistoryBuilder) (workflowId : String)
    (initiatedEventId : EventId) (cause : String) : Option (EventId × HistoryBuilder) :=
  b.add (.requestCancelExternalWorkflowExecutionFailed
    { workflowExecution := someRunOf workflowId, cause, initiatedEventId
      decisionTaskCompletedEventId := b.lastCompletedTask })

def externalWorkflowCancelRequested (b : HistoryBuilder) (workflowId : String)
    (initiatedEventId : EventId) : Option (EventId × HistoryBuilder) :=
  b.add (.externalWorkflowExecutionCancelRequested
    { workflowExecution := someRunOf workflowId, initiatedEventId })

def signalExternalInitiated (b : HistoryBuilder) (workflowId signalName control : String) :
    Option (EventId × HistoryBuilder) :=
  b.add (.signalExternalWorkflowExecutionInitiated
    { workflowExecution := someRunOf workflowId, signalName, control
      decisionTaskCompletedEventId := b.lastCompletedTask })

def signalExternalFailed (b : HistoryBuilder) (workflowId : String) (initiatedEventId : EventId)
    (cause : String) : Option (EventId × HistoryBuilder) :=
  b.add (.signalExternalWorkflowExecutionFailed
    { workflowExecution := someRunOf workflowId, cause, initiatedEventId
      decisionTaskCompletedEventId := b.lastCompletedTask })

def externalWorkflowSignaled (b : HistoryBuilder) (workflowId : String)
    (initiatedEventId : EventId) : Option (EventId × HistoryBuilder) :=
  b.add (.externalWorkflowExecutionSignaled
    { workflowExecution := someRunOf workflowId, initiatedEventId })

/-! ## Markers and search attributes -/

def markerRecorded (b : HistoryBuilder) (markerName markerId : String)
    (details : Option Payload) : Option (EventId × HistoryBuilder) :=
  b.add (.markerRecorded
    { markerName, markerId, details, decisionTaskCompletedEventId := b.lastCompletedTask })

def upsertSearchAttributes (b : HistoryBuilder) (searchAttributes : SearchAttributes) :
    Option (EventId × HistoryBuilder) :=
  b.add (.upsertWorkflowSearchAttributes
    { searchAttributes, decisionTaskCompletedEventId := b.lastCompletedTask })

end HistoryBuilder

end WorkflowReplay
