import WorkflowReplay.History.EventType
import WorkflowReplay.Time.Timestamp

/-!
# History events

A run's history is a log that only grows.  Each event has an id, the time when it was written and
the attributes of exactly one event type; later events name earlier ones by their ids.
-/

set_option autoImplicit false

namespace WorkflowReplay

abbrev Payload := List UInt8

abbrev EventId := Int64

/-- Search attributes with their encoded values, in the order of their names. -/
abbrev SearchAttributes := List (String × Payload)

structure Execution where
  workflowId : String := ""
  runId : String := ""
  deriving DecidableEq, Repr, Inhabited

def Execution.text (e : Execution) : String := e.workflowId ++ "/" ++ e.runId

inductive TimeoutType where
  | startToClose
  | scheduleToStart
  | scheduleToClose
  | heartbeat
  deriving DecidableEq, Repr

namespace TimeoutType

def all : List TimeoutType := [.startToClose, .scheduleToStart, .scheduleToClose, .heartbeat]

def name : TimeoutType → String
  | .startToClose => "StartToClose"
  | .scheduleToStart => "ScheduleToStart"
  | .scheduleToClose => "ScheduleToClose"
  | .heartbeat => "Heartbeat"

instance : Named TimeoutType := ⟨name, all⟩

end TimeoutType

namespace Event

/-! ## The run -/

structure WorkflowExecutionStarted where
  workflowType : String := ""
  taskList : String := ""
  input : Option Payload := none
  executionStartToCloseTimeoutSeconds : Int32 := 0
  taskStartToCloseTimeoutSeconds : Int32 := 0
  parentWorkflowExecution : Option Execution := none
  attempt : Int32 := 0
  identity : String := ""
  deriving DecidableEq, Repr

structure WorkflowExecutionCompleted where
  result : Option Payload := none
  decisionTaskCompletedEventId : EventId := 0
  deriving DecidableEq, Repr

structure WorkflowExecutionFailed where
  reason : String := ""
  details : Option Payload := none
  decisionTaskCompletedEventId : EventId := 0
  deriving DecidableEq, Repr

structure WorkflowExecutionCancelRequested where
  cause : String := ""
  identity : String := ""
  deriving DecidableEq, Repr

structure WorkflowExecutionSignaled where
  signalName : String := ""
  input : Option Payload := none
  identity : String := ""
  deriving DecidableEq, Repr

/-! ## Decision tasks -/

structure DecisionTaskScheduled where
  taskList : String := ""
  startToCloseTimeoutSeconds : Int32 := 0
  attempt : Int64 := 0
  deriving DecidableEq, Repr

structure DecisionTaskStarted where
  scheduledEventId : EventId := 0
  identity : String := ""
  requestId : String := ""
  deriving DecidableEq, Repr

/-- The decider answered; the events of its decisions follow. -/
structure DecisionTaskCompleted where
  scheduledEventId : EventId := 0
  startedEventId : EventId := 0
  identity : String := ""
  binaryChecksum : String := ""
  deriving DecidableEq, Repr

/-- The decider failed the task; its decisions were dropped. -/
structure DecisionTaskFailed where
  scheduledEventId : EventId := 0
  startedEventId : EventId := 0
  cause : String := ""
  details : Option Payload := none
  identity : String := ""
  deriving DecidableEq, Repr

structure DecisionTaskTimedOut where
  scheduledEventId : EventId := 0
  startedEventId : EventId := 0
  timeoutType : TimeoutType := .startToClose
  deriving DecidableEq, Repr

/-! ## Activities -/

structure ActivityTaskScheduled where
  activityId : String := ""
  activityType : String := ""
  domain : Option String := none
  taskList : String := ""
  input : Option Payload := none
  scheduleToCloseTimeoutSeconds : Int32 := 0
  scheduleToStartTimeoutSeconds : Int32 := 0
  startToCloseTimeoutSeconds : Int32 := 0
  heartbeatTimeoutSeconds : Int32 := 0
  decisionTaskCompletedEventId : EventId := 0
  deriving DecidableEq, Repr

structure ActivityTaskStarted where
  scheduledEventId : EventId := 0
  identity : String := ""
  requestId : String := ""
  attempt : Int32 := 0
  deriving DecidableEq, Repr

structure ActivityTaskCompleted where
  scheduledEventId : EventId := 0
  startedEventId : EventId := 0
  result : Option Payload := none
  identity : String := ""
  deriving DecidableEq, Repr

structure ActivityTaskFailed where
  scheduledEventId : EventId := 0
  startedEventId : EventId := 0
  reason : String := ""
  details : Option Payload := none
  identity : String := ""
  deriving DecidableEq, Repr

structure ActivityTaskTimedOut where
  scheduledEventId : EventId := 0
  startedEventId : EventId := 0
  timeoutType : TimeoutType := .startToClose
  details : Option Payload := none
  deriving DecidableEq, Repr

structure ActivityTaskCancelRequested where
  activityId : String := ""
  decisionTaskCompletedEventId : EventId := 0
  deriving DecidableEq, Repr

structure RequestCancelActivityTaskFailed where
  activityId : String := ""
  cause : String := ""
  decisionTaskCompletedEventId : EventId := 0
  deriving DecidableEq, Repr

structure ActivityTaskCanceled where
  scheduledEventId : EventId := 0
  startedEventId : EventId := 0
  latestCancelRequestedEventId : EventId := 0
  details : Option Payload := none
  identity : String := ""
  deriving DecidableEq, Repr

/-! ## Timers -/

structure TimerStarted where
  timerId : String := ""
  startToFireTimeoutSeconds : Int64 := 0
  decisionTaskCompletedEventId : EventId := 0
  deriving DecidableEq, Repr

structure TimerFired where
  timerId : String := ""
  startedEventId : EventId := 0
  deriving DecidableEq, Repr

structure TimerCanceled where
  timerId : String := ""
  startedEventId : EventId := 0
  decisionTaskCompletedEventId : EventId := 0
  identity : String := ""
  deriving DecidableEq, Repr

structure CancelTimerFailed where
  timerId : String := ""
  cause : String := ""
  decisionTaskCompletedEventId : EventId := 0
  identity : String := ""
  deriving DecidableEq, Repr

/-! ## Child runs -/

structure StartChildWorkflowExecutionInitiated where
  domain : String := ""
  workflowId : String := ""
  workflowType : String := ""
  taskList : String := ""
  input : Option Payload := none
  executionStartToCloseTimeoutSeconds : Int32 := 0
  taskStartToCloseTimeoutSeconds : Int32 := 0
  decisionTaskCompletedEventId : EventId := 0
  deriving DecidableEq, Repr

structure StartChildWorkflowExecutionFailed where
  domain : String := ""
  workflowId : String := ""
  workflowType : String := ""
  cause : String := ""
  initiatedEventId : EventId := 0
  decisionTaskCompletedEventId : EventId := 0
  deriving DecidableEq, Repr

structure ChildWorkflowExecutionStarted where
  domain : String := ""
  workflowExecution : Execution := {}
  workflowType : String := ""
  initiatedEventId : EventId := 0
  deriving DecidableEq, Repr

structure ChildWorkflowExecutionCompleted where
  workflowExecution : Execution := {}
  initiatedEventId : EventId := 0
  startedEventId : EventId := 0
  result : Option Payload := none
  deriving DecidableEq, Repr

structure ChildWorkflowExecutionFailed where
  workflowExecution : Execution := {}
  initiatedEventId : EventId := 0
  startedEventId : EventId := 0
  reason : String := ""
  details : Option Payload := none
  deriving DecidableEq, Repr

structure ChildWorkflowExecutionTimedOut where
  workflowExecution : Execution := {}
  initiatedEventId : EventId := 0
  startedEventId : EventId := 0
  timeoutType : TimeoutType := .startToClose
  deriving DecidableEq, Repr

structure ChildWorkflowExecutionCanceled where
  workflowExecution : Execution := {}
  initiatedEventId : EventId := 0
  startedEventId : EventId := 0
  details : Option Payload := none
  deriving DecidableEq, Repr

structure ChildWorkflowExecutionTerminated where
  workflowExecution : Execution := {}
  initiatedEventId : EventId := 0
  startedEventId : EventId := 0
  deriving DecidableEq, Repr

/-! ## Other runs -/

structure RequestCancelExternalWorkflowExecutionInitiated where
  domain : String := ""
  workflowExecution : Execution := {}
  control : String := ""
  childWorkflowOnly : Bool := false
  decisionTaskCompletedEventId : EventId := 0
  deriving DecidableEq, Repr

structure RequestCancelExternalWorkflowExecutionFailed where
  domain : String := ""
  workflowExecution : Execution := {}
  cause : String := ""
  initiatedEventId : EventId := 0
  control : String := ""
  decisionTaskCompletedEventId : EventId := 0
  deriving DecidableEq, Repr

structure ExternalWorkflowExecutionCancelRequested where
  domain : String := ""
  workflowExecution : Execution := {}
  initiatedEventId : EventId := 0
  deriving DecidableEq, Repr

structure SignalExternalWorkflowExecutionInitiated where
  domain : String := ""
  workflowExecution : Execution := {}
  signalName : String := ""
  input : Option Payload := none
  control : String := ""
  childWorkflowOnly : Bool := false
  decisionTaskCompletedEventId : EventId := 0
  deriving DecidableEq, Repr

structure SignalExternalWorkflowExecutionFailed where
  domain : String := ""
  workflowExecution : Execution := {}
  cause : String := ""
  initiatedEventId : EventId := 0
  control : String := ""
  decisionTaskCompletedEventId : EventId := 0
  deriving DecidableEq, Repr

structure ExternalWorkflowExecutionSignaled where
  domain : String := ""
  workflowExecution : Execution := {}
  initiatedEventId : EventId := 0
  control : String := ""
  deriving DecidableEq, Repr

/-! ## Markers and search attributes -/

structure MarkerRecorded where
  markerName : String := ""
  markerId : String := ""
  details : Option Payload := none
  decisionTaskCompletedEventId : EventId := 0
  deriving DecidableEq, Repr

structure UpsertWorkflowSearchAttributes where
  searchAttributes : SearchAttributes := []
  decisionTaskCompletedEventId : EventId := 0
  deriving DecidableEq, Repr

end Event

inductive EventAttributes where
  | workflowExecutionStarted (a : Event.WorkflowExecutionStarted)
  | workflowExecutionCompleted (a : Event.WorkflowExecutionCompleted)
  | workflowExecutionFailed (a : Event.WorkflowExecutionFailed)
  | workflowExecutionCancelRequested (a : Event.WorkflowExecutionCancelRequested)
  | workflowExecutionSignaled (a : Event.WorkflowExecutionSignaled)
  | decisionTaskScheduled (a : Event.DecisionTaskScheduled)
  | decisionTaskStarted (a : Event.DecisionTaskStarted)
  | decisionTaskCompleted (a : Event.DecisionTaskCompleted)
  | decisionTaskFailed (a : Event.DecisionTaskFailed)
  | decisionTaskTimedOut (a : Event.DecisionTaskTimedOut)
  | activityTaskScheduled (a : Event.ActivityTaskScheduled)
  | activityTaskStarted (a : Event.ActivityTaskStarted)
  | activityTaskCompleted (a : Event.ActivityTaskCompleted)
  | activityTaskFailed (a : Event.ActivityTaskFailed)
  | activityTaskTimedOut (a : Event.ActivityTaskTimedOut)
  | activityTaskCancelRequested (a : Event.ActivityTaskCancelRequested)
  | requestCancelActivityTaskFailed (a : Event.RequestCancelActivityTaskFailed)
  | activityTaskCanceled (a : Event.ActivityTaskCanceled)
  | timerStarted (a : Event.TimerStarted)
  | timerFired (a : Event.TimerFired)
  | timerCanceled (a : Event.TimerCanceled)
  | cancelTimerFailed (a : Event.CancelTimerFailed)
  | startChildWorkflowExecutionInitiated (a : Event.StartChildWorkflowExecutionInitiated)
  | startChildWorkflowExecutionFailed (a : Event.StartChildWorkflowExecutionFailed)
  | childWorkflowExecutionStarted (a : Event.ChildWorkflowExecutionStarted)
  | childWorkflowExecutionCompleted (a : Event.ChildWorkflowExecutionCompleted)
  | childWorkflowExecutionFailed (a : Event.ChildWorkflowExecutionFailed)
  | childWorkflowExecutionTimedOut (a : Event.ChildWorkflowExecutionTimedOut)
  | childWorkflowExecutionCanceled (a : Event.ChildWorkflowExecutionCanceled)
  | childWorkflowExecutionTerminated (a : Event.ChildWorkflowExecutionTerminated)
  | requestCancelExternalWorkflowExecutionInitiated (a : Event.RequestCancelExternalWorkflowExecutionInitiated)
  | requestCancelExternalWorkflowExecutionFailed (a : Event.RequestCancelExternalWorkflowExecutionFailed)
  | externalWorkflowExecutionCancelRequested (a : Event.ExternalWorkflowExecutionCancelRequested)
  | signalExternalWorkflowExecutionInitiated (a : Event.SignalExternalWorkflowExecutionInitiated)
  | signalExternalWorkflowExecutionFailed (a : Event.SignalExternalWorkflowExecutionFailed)
  | externalWorkflowExecutionSignaled (a : Event.ExternalWorkflowExecutionSignaled)
  | markerRecorded (a : Event.MarkerRecorded)
  | upsertWorkflowSearchAttributes (a : Event.UpsertWorkflowSearchAttributes)
  deriving DecidableEq, Repr

def EventAttributes.type : EventAttributes → EventType
  | .workflowExecutionStarted _ => .workflowExecutionStarted
  | .workflowExecutionCompleted _ => .workflowExecutionCompleted
  | .workflowExecutionFailed _ => .workflowExecutionFailed
  | .workflowExecutionCancelRequested _ => .workflowExecutionCancelRequested
  | .workflowExecutionSignaled _ => .workflowExecutionSignaled
  | .decisionTaskScheduled _ => .decisionTaskScheduled
  | .decisionTaskStarted _ => .decisionTaskStarted
  | .decisionTaskCompleted _ => .decisionTaskCompleted
  | .decisionTaskFailed _ => .decisionTaskFailed
  | .decisionTaskTimedOut _ => .decisionTaskTimedOut
  | .activityTaskScheduled _ => .activityTaskScheduled
  | .activityTaskStarted _ => .activityTaskStarted
  | .activityTaskCompleted _ => .activityTaskCompleted
  | .activityTaskFailed _ => .activityTaskFailed
  | .activityTaskTimedOut _ => .activityTaskTimedOut
  | .activityTaskCancelRequested _ => .activityTaskCancelRequested
  | .requestCancelActivityTaskFailed _ => .requestCancelActivityTaskFailed
  | .activityTaskCanceled _ => .activityTaskCanceled
  | .timerStarted _ => .timerStarted
  | .timerFired _ => .timerFired
  | .timerCanceled _ => .timerCanceled
  | .cancelTimerFailed _ => .cancelTimerFailed
  | .startChildWorkflowExecutionInitiated _ => .startChildWorkflowExecutionInitiated
  | .startChildWorkflowExecutionFailed _ => .startChildWorkflowExecutionFailed
  | .childWorkflowExecutionStarted _ => .childWorkflowExecutionStarted
  | .childWorkflowExecutionCompleted _ => .childWorkflowExecutionCompleted
  | .childWorkflowExecutionFailed _ => .childWorkflowExecutionFailed
  | .childWorkflowExecutionTimedOut _ => .childWorkflowExecutionTimedOut
  | .childWorkflowExecutionCanceled _ => .childWorkflowExecutionCanceled
  | .childWorkflowExecutionTerminated _ => .childWorkflowExecutionTerminated
  | .requestCancelExternalWorkflowExecutionInitiated _ => .requestCancelExternalWorkflowExecutionInitiated
  | .requestCancelExternalWorkflowExecutionFailed _ => .requestCancelExternalWorkflowExecutionFailed
  | .externalWorkflowExecutionCancelRequested _ => .externalWorkflowExecutionCancelRequested
  | .signalExternalWorkflowExecutionInitiated _ => .signalExternalWorkflowExecutionInitiated
  | .signalExternalWorkflowExecutionFailed _ => .signalExternalWorkflowExecutionFailed
  | .externalWorkflowExecutionSignaled _ => .externalWorkflowExecutionSignaled
  | .markerRecorded _ => .markerRecorded
  | .upsertWorkflowSearchAttributes _ => .upsertWorkflowSearchAttributes

structure HistoryEvent where
  id : EventId
  timestamp : Timestamp
  attributes : EventAttributes
  deriving DecidableEq, Repr

namespace HistoryEvent

def type (e : HistoryEvent) : EventType := e.attributes.type

def isMarker (e : HistoryEvent) : Bool := e.type = .markerRecorded

end HistoryEvent

end WorkflowReplay
