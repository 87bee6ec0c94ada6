import WorkflowReplay.Text.Named

/-!
# Types of history events

The types in the order in which the event log declares them, their names, and the three classes
that cutting a history into batches needs.
-/

set_option autoImplicit false

namespace WorkflowReplay

inductive EventType where
  | workflowExecutionStarted
  | workflowExecutionCompleted
  | workflowExecutionFailed
  | workflowExecutionCancelRequested
  | workflowExecutionSignaled
  | decisionTaskScheduled
  | decisionTaskStarted
  | decisionTaskCompleted
  | decisionTaskFailed
  | decisionTaskTimedOut
  | activityTaskScheduled
  | activityTaskStarted
  | activityTaskCompleted
  | activityTaskFailed
  | activityTaskTimedOut
  | activityTaskCancelRequested
  | requestCancelActivityTaskFailed
  | activityTaskCanceled
  | timerStarted
  | timerFired
  | timerCanceled
  | cancelTimerFailed
  | startChildWorkflowExecutionInitiated
  | startChildWorkflowExecutionFailed
  | childWorkflowExecutionStarted
  | childWorkflowExecutionCompleted
  | childWorkflowExecutionFailed
  | childWorkflowExecutionTimedOut
  | childWorkflowExecutionCanceled
  | childWorkflowExecutionTerminated
  | requestCancelExternalWorkflowExecutionInitiated
  | requestCancelExternalWorkflowExecutionFailed
  | externalWorkflowExecutionCancelRequested
  | signalExternalWorkflowExecutionInitiated
  | signalExternalWorkflowExecutionFailed
  | externalWorkflowExecutionSignaled
  | markerRecorded
  | upsertWorkflowSearchAttributes
  deriving DecidableEq, Repr

namespace EventType

def all : List EventType := [
  .workflowExecutionStarted, .workflowExecutionCompleted, .workflowExecutionFailed,
  .workflowExecutionCancelRequested, .workflowExecutionSignaled, .decisionTaskScheduled,
  .decisionTaskStarted, .decisionTaskCompleted, .decisionTaskFailed, .decisionTaskTimedOut,
  .activityTaskScheduled, .activityTaskStarted, .activityTaskCompleted, .activityTaskFailed,
  .activityTaskTimedOut, .activityTaskCancelRequested, .requestCancelActivityTaskFailed,
  .activityTaskCanceled, .timerStarted, .timerFired, .timerCanceled, .cancelTimerFailed,
  .startChildWorkflowExecutionInitiated, .startChildWorkflowExecutionFailed,
  .childWorkflowExecutionStarted, .childWorkflowExecutionCompleted, .childWorkflowExecutionFailed,
  .childWorkflowExecutionTimedOut, .childWorkflowExecutionCanceled,
  .childWorkflowExecutionTerminated, .requestCancelExternalWorkflowExecutionInitiated,
  .requestCancelExternalWorkflowExecutionFailed, .externalWorkflowExecutionCancelRequested,
  .signalExternalWorkflowExecutionInitiated, .signalExternalWorkflowExecutionFailed,
  .externalWorkflowExecutionSignaled, .markerRecorded, .upsertWorkflowSearchAttributes]

def name : EventType → String
  | .workflowExecutionStarted => "WorkflowExecutionStarted"
  | .workflowExecutionCompleted => "WorkflowExecutionCompleted"
  | .workflowExecutionFailed => "WorkflowExecutionFailed"
  | .workflowExecutionCancelRequested => "WorkflowExecutionCancelRequested"
  | .workflowExecutionSignaled => "WorkflowExecutionSignaled"
  | .decisionTaskScheduled => "DecisionTaskScheduled"
  | .decisionTaskStarted => "DecisionTaskStarted"
  | .decisionTaskCompleted => "DecisionTaskCompleted"
  | .decisionTaskFailed => "DecisionTaskFailed"
  | .decisionTaskTimedOut => "DecisionTaskTimedOut"
  | .activityTaskScheduled => "ActivityTaskScheduled"
  | .activityTaskStarted => "ActivityTaskStarted"
  | .activityTaskCompleted => "ActivityTaskCompleted"
  | .activityTaskFailed => "ActivityTaskFailed"
  | .activityTaskTimedOut => "ActivityTaskTimedOut"
  | .activityTaskCancelRequested => "ActivityTaskCancelRequested"
  | .requestCancelActivityTaskFailed => "RequestCancelActivityTaskFailed"
  | .activityTaskCanceled => "ActivityTaskCanceled"
  | .timerStarted => "TimerStarted"
  | .timerFired => "TimerFired"
  | .timerCanceled => "TimerCanceled"
  | .cancelTimerFailed => "CancelTimerFailed"
  | .startChildWorkflowExecutionInitiated => "StartChildWorkflowExecutionInitiated"
  | .startChildWorkflowExecutionFailed => "StartChildWorkflowExecutionFailed"
  | .childWorkflowExecutionStarted => "ChildWorkflowExecutionStarted"
  | .childWorkflowExecutionCompleted => "ChildWorkflowExecutionCompleted"
  | .childWorkflowExecutionFailed => "ChildWorkflowExecutionFailed"
  | .childWorkflowExecutionTimedOut => "ChildWorkflowExecutionTimedOut"
  | .childWorkflowExecutionCanceled => "ChildWorkflowExecutionCanceled"
  | .childWorkflowExecutionTerminated => "ChildWorkflowExecutionTerminated"
  | .requestCancelExternalWorkflowExecutionInitiated => "RequestCancelExternalWorkflowExecutionInitiated"
  | .requestCancelExternalWorkflowExecutionFailed => "RequestCancelExternalWorkflowExecutionFailed"
  | .externalWorkflowExecutionCancelRequested => "ExternalWorkflowExecutionCancelRequested"
  | .signalExternalWorkflowExecutionInitiated => "SignalExternalWorkflowExecutionInitiated"
  | .signalExternalWorkflowExecutionFailed => "SignalExternalWorkflowExecutionFailed"
  | .externalWorkflowExecutionSignaled => "ExternalWorkflowExecutionSignaled"
  | .markerRecorded => "MarkerRecorded"
  | .upsertWorkflowSearchAttributes => "UpsertWorkflowSearchAttributes"

instance : Named EventType := ⟨name, all⟩

theorem mem_all (t : EventType) : t ∈ all := by cases t <;> decide

def isDecisionTaskStarted (t : EventType) : Bool := t = .decisionTaskStarted

/-- The decision task was answered, failed or timed out. -/
def isDecisionTaskClosing : EventType → Bool
  | .decisionTaskCompleted | .decisionTaskFailed | .decisionTaskTimedOut => true
  | _ => false

/-- The orchestrator writes an event of this type for a decision that it was given. -/
def isDecisionEvent : EventType → Bool
  | .activityTaskScheduled | .activityTaskCancelRequested | .requestCancelActivityTaskFailed
  | .timerStarted | .timerCanceled | .cancelTimerFailed | .startChildWorkflowExecutionInitiated
  | .requestCancelExternalWorkflowExecutionInitiated | .signalExternalWorkflowExecutionInitiated
  | .markerRecorded | .upsertWorkflowSearchAttributes | .workflowExecutionCompleted
  | .workflowExecutionFailed => true
  | _ => false

end EventType

end WorkflowReplay
