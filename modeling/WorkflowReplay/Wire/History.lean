import WorkflowReplay.Wire.Form
import WorkflowReplay.History.Task

/-!
# Wire forms of histories

The attributes of an event are written as one record with the event type as its tag; every
attribute that is left out has its default.
-/

set_option autoImplicit false

namespace WorkflowReplay

def Execution.layout : Layout Execution Execution :=
  Layout.make Execution Execution.mk
    |>.required "workflowId" (·.workflowId)
    |>.required "runId" (·.runId)

instance : Wire Execution := Execution.layout.toWire

/-- Timeout types are only written as attributes of events. -/
instance : Wire TimeoutType where
  encode t := .str (Named.tag t)
  decode v := (Wire.memberTag? v).bind (Named.ofTag? TimeoutType)

instance : Wire EventType := Wire.ofNamed EventType

namespace Event

def WorkflowExecutionStarted.layout : Layout WorkflowExecutionStarted WorkflowExecutionStarted :=
  Layout.make WorkflowExecutionStarted WorkflowExecutionStarted.mk
    |>.optional "workflowType" (·.workflowType) ""
    |>.optional "taskList" (·.taskList) ""
    |>.optional "input" (·.input) none
    |>.optional "executionStartToCloseTimeoutSeconds" (·.executionStartToCloseTimeoutSeconds) 0
    |>.optional "taskStartToCloseTimeoutSeconds" (·.taskStartToCloseTimeoutSeconds) 0
    |>.optional "parentWorkflowExecution" (·.parentWorkflowExecution) none
    |>.optional "attempt" (·.attempt) 0
    |>.optional "identity" (·.identity) ""

def WorkflowExecutionCompleted.layout : Layout WorkflowExecutionCompleted WorkflowExecutionCompleted :=
  Layout.make WorkflowExecutionCompleted WorkflowExecutionCompleted.mk
    |>.optional "result" (·.result) none
    |>.optional "decisionTaskCompletedEventId" (·.decisionTaskCompletedEventId) 0

def WorkflowExecutionFailed.layout : Layout WorkflowExecutionFailed WorkflowExecutionFailed :=
  Layout.make WorkflowExecutionFailed WorkflowExecutionFailed.mk
    |>.optional "reason" (·.reason) ""
    |>.optional "details" (·.details) none
    |>.optional "decisionTaskCompletedEventId" (·.decisionTaskCompletedEventId) 0

def WorkflowExecutionCancelRequested.layout : Layout WorkflowExecutionCancelRequested WorkflowExecutionCancelRequested :=
  Layout.make WorkflowExecutionCancelRequested WorkflowExecutionCancelRequested.mk
    |>.optional "cause" (·.cause) ""
    |>.optional "identity" (·.identity) ""

def WorkflowExecutionSignaled.layout : Layout WorkflowExecutionSignaled WorkflowExecutionSignaled :=
  Layout.make WorkflowExecutionSignaled WorkflowExecutionSignaled.mk
    |>.optional "signalName" (·.signalName) ""
    |>.optional "input" (·.input) none
    |>.optional "identity" (·.identity) ""

def DecisionTaskScheduled.layout : Layout DecisionTaskScheduled DecisionTaskScheduled :=
  Layout.make DecisionTaskScheduled DecisionTaskScheduled.mk
    |>.optional "taskList" (·.taskList) ""
    |>.optional "startToCloseTimeoutSeconds" (·.startToCloseTimeoutSeconds) 0
    |>.optional "attempt" (·.attempt) 0

def DecisionTaskStarted.layout : Layout DecisionTaskStarted DecisionTaskStarted :=
  Layout.make DecisionTaskStarted DecisionTaskStarted.mk
    |>.optional "scheduledEventId" (·.scheduledEventId) 0
    |>.optional "identity" (·.identity) ""
    |>.optional "requestId" (·.requestId) ""

def DecisionTaskCompleted.layout : Layout DecisionTaskCompleted DecisionTaskCompleted :=
  Layout.make DecisionTaskCompleted DecisionTaskCompleted.mk
    |>.optional "scheduledEventId" (·.scheduledEventId) 0
    |>.optional "startedEventId" (·.startedEventId) 0
    |>.optional "identity" (·.identity) ""
    |>.optional "binaryChecksum" (·.binaryChecksum) ""

def DecisionTaskFailed.layout : Layout DecisionTaskFailed DecisionTaskFailed :=
  Layout.make DecisionTaskFailed DecisionTaskFailed.mk
    |>.optional "scheduledEventId" (·.scheduledEventId) 0
    |>.optional "startedEventId" (·.startedEventId) 0
    |>.optional "cause" (·.cause) ""
    |>.optional "details" (·.details) none
    |>.optional "identity" (·.identity) ""

def DecisionTaskTimedOut.layout : Layout DecisionTaskTimedOut DecisionTaskTimedOut :=
  Layout.make DecisionTaskTimedOut DecisionTaskTimedOut.mk
    |>.optional "scheduledEventId" (·.scheduledEventId) 0
    |>.optional "startedEventId" (·.startedEventId) 0
    |>.optional "timeoutType" (·.timeoutType) .startToClose

def ActivityTaskScheduled.layout : Layout ActivityTaskScheduled ActivityTaskScheduled :=
  Layout.make ActivityTaskScheduled ActivityTaskScheduled.mk
    |>.optional "activityId" (·.activityId) ""
    |>.optional "activityType" (·.activityType) ""
    |>.optional "domain" (·.domain) none
    |>.optional "taskList" (·.taskList) ""
    |>.optional "input" (·.input) none
    |>.optional "scheduleToCloseTimeoutSeconds" (·.scheduleToCloseTimeoutSeconds) 0
    |>.optional "scheduleToStartTimeoutSeconds" (·.scheduleToStartTimeoutSeconds) 0
    |>.optional "startToCloseTimeoutSeconds" (·.startToCloseTimeoutSeconds) 0
    |>.optional "heartbeatTimeoutSeconds" (·.heartbeatTimeoutSeconds) 0
    |>.optional "decisionTaskCompletedEventId" (·.decisionTaskCompletedEventId) 0

def ActivityTaskStarted.layout : Layout ActivityTaskStarted ActivityTaskStarted :=
  Layout.make ActivityTaskStarted ActivityTaskStarted.mk
    |>.optional "scheduledEventId" (·.scheduledEventId) 0
    |>.optional "identity" (·.identity) ""
    |>.optional "requestId" (·.requestId) ""
    |>.optional "attempt" (·.attempt) 0

def ActivityTaskCompleted.layout : Layout ActivityTaskCompleted ActivityTaskCompleted :=
  Layout.make ActivityTaskCompleted ActivityTaskCompleted.mk
    |>.optional "scheduledEventId" (·.scheduledEventId) 0
    |>.optional "startedEventId" (·.startedEventId) 0
    |>.optional "result" (·.result) none
    |>.optional "identity" (·.identity) ""

def ActivityTaskFailed.layout : Layout ActivityTaskFailed ActivityTaskFailed :=
  Layout.make ActivityTaskFailed ActivityTaskFailed.mk
    |>.optional "scheduledEventId" (·.scheduledEventId) 0
    |>.optional "startedEventId" (·.startedEventId) 0
    |>.optional "reason" (·.reason) ""
    |>.optional "details" (·.details) none
    |>.optional "identity" (·.identity) ""

def ActivityTaskTimedOut.layout : Layout ActivityTaskTimedOut ActivityTaskTimedOut :=
  Layout.make ActivityTaskTimedOut ActivityTaskTimedOut.mk
    |>.optional "scheduledEventId" (·.scheduledEventId) 0
    |>.optional "startedEventId" (·.startedEventId) 0
    |>.optional "timeoutType" (·.timeoutType) .startToClose
    |>.optional "details" (·.details) none

def ActivityTaskCancelRequested.layout : Layout ActivityTaskCancelRequested ActivityTaskCancelRequested :=
  Layout.make ActivityTaskCancelRequested ActivityTaskCancelRequested.mk
    |>.optional "activityId" (·.activityId) ""
    |>.optional "decisionTaskCompletedEventId" (·.decisionTaskCompletedEventId) 0

def RequestCancelActivityTaskFailed.layout : Layout RequestCancelActivityTaskFailed RequestCancelActivityTaskFailed :=
  Layout.make RequestCancelActivityTaskFailed RequestCancelActivityTaskFailed.mk
    |>.optional "activityId" (·.activityId) ""
    |>.optional "cause" (·.cause) ""
    |>.optional "decisionTaskCompletedEventId" (·.decisionTaskCompletedEventId) 0

def ActivityTaskCanceled.layout : Layout ActivityTaskCanceled ActivityTaskCanceled :=
  Layout.make ActivityTaskCanceled ActivityTaskCanceled.mk
    |>.optional "scheduledEventId" (·.scheduledEventId) 0
    |>.optional "startedEventId" (·.startedEventId) 0
    |>.optional "latestCancelRequestedEventId" (·.latestCancelRequestedEventId) 0
    |>.optional "details" (·.details) none
    |>.optional "identity" (·.identity) ""

def TimerStarted.layout : Layout TimerStarted TimerStarted :=
  Layout.make TimerStarted TimerStarted.mk
    |>.optional "timerId" (·.timerId) ""
    |>.optional "startToFireTimeoutSeconds" (·.startToFireTimeoutSeconds) 0
    |>.optional "decisionTaskCompletedEventId" (·.decisionTaskCompletedEventId) 0

def TimerFired.layout : Layout TimerFired TimerFired :=
  Layout.make TimerFired TimerFired.mk
    |>.optional "timerId" (·.timerId) ""
    |>.optional "startedEventId" (·.startedEventId) 0

def TimerCanceled.layout : Layout TimerCanceled TimerCanceled :=
  Layout.make TimerCanceled TimerCanceled.mk
    |>.optional "timerId" (·.timerId) ""
    |>.optional "startedEventId" (·.startedEventId) 0
    |>.optional "decisionTaskCompletedEventId" (·.decisionTaskCompletedEventId) 0
    |>.optional "identity" (·.identity) ""

def CancelTimerFailed.layout : Layout CancelTimerFailed CancelTimerFailed :=
  Layout.make CancelTimerFailed CancelTimerFailed.mk
    |>.optional "timerId" (·.timerId) ""
    |>.optional "cause" (·.cause) ""
    |>.optional "decisionTaskCompletedEventId" (·.decisionTaskCompletedEventId) 0
    |>.optional "identity" (·.identity) ""

def StartChildWorkflowExecutionInitiated.layout : Layout StartChildWorkflowExecutionInitiated StartChildWorkflowExecutionInitiated :=
  Layout.make StartChildWorkflowExecutionInitiated StartChildWorkflowExecutionInitiated.mk
    |>.optional "domain" (·.domain) ""
    |>.optional "workflowId" (·.workflowId) ""
    |>.optional "workflowType" (·.workflowType) ""
    |>.optional "taskList" (·.taskList) ""
    |>.optional "input" (·.input) none
    |>.optional "executionStartToCloseTimeoutSeconds" (·.executionStartToCloseTimeoutSeconds) 0
    |>.optional "taskStartToCloseTimeoutSeconds" (·.taskStartToCloseTimeoutSeconds) 0
    |>.optional "decisionTaskCompletedEventId" (·.decisionTaskCompletedEventId) 0

def StartChildWorkflowExecutionFailed.layout : Layout StartChildWorkflowExecutionFailed StartChildWorkflowExecutionFailed :=
  Layout.make StartChildWorkflowExecutionFailed StartChildWorkflowExecutionFailed.mk
    |>.optional "domain" (·.domain) ""
    |>.optional "workflowId" (·.workflowId) ""
    |>.optional "workflowType" (·.workflowType) ""
    |>.optional "cause" (·.cause) ""
    |>.optional "initiatedEventId" (·.initiatedEventId) 0
    |>.optional "decisionTaskCompletedEventId" (·.decisionTaskCompletedEventId) 0

def ChildWorkflowExecutionStarted.layout : Layout ChildWorkflowExecutionStarted ChildWorkflowExecutionStarted :=
  Layout.make ChildWorkflowExecutionStarted ChildWorkflowExecutionStarted.mk
    |>.optional "domain" (·.domain) ""
    |>.optional "workflowExecution" (·.workflowExecution) {}
    |>.optional "workflowType" (·.workflowType) ""
    |>.optional "initiatedEventId" (·.initiatedEventId) 0

def ChildWorkflowExecutionCompleted.layout : Layout ChildWorkflowExecutionCompleted ChildWorkflowExecutionCompleted :=
  Layout.make ChildWorkflowExecutionCompleted ChildWorkflowExecutionCompleted.mk
    |>.optional "workflowExecution" (·.workflowExecution) {}
    |>.optional "initiatedEventId" (·.initiatedEventId) 0
    |>.optional "startedEventId" (·.startedEventId) 0
    |>.optional "result" (·.result) none

def ChildWorkflowExecutionFailed.layout : Layout ChildWorkflowExecutionFailed ChildWorkflowExecutionFailed :=
  Layout.make ChildWorkflowExecutionFailed ChildWorkflowExecutionFailed.mk
    |>.optional "workflowExecution" (·.workflowExecution) {}
    |>.optional "initiatedEventId" (·.initiatedEventId) 0
    |>.optional "startedEventId" (·.startedEventId) 0
    |>.optional "reason" (·.reason) ""
    |>.optional "details" (·.details) none

def ChildWorkflowExecutionTimedOut.layout : Layout ChildWorkflowExecutionTimedOut ChildWorkflowExecutionTimedOut :=
  Layout.make ChildWorkflowExecutionTimedOut ChildWorkflowExecutionTimedOut.mk
    |>.optional "workflowExecution" (·.workflowExecution) {}
    |>.optional "initiatedEventId" (·.initiatedEventId) 0
    |>.optional "startedEventId" (·.startedEventId) 0
    |>.optional "timeoutType" (·.timeoutType) .startToClose

def ChildWorkflowExecutionCanceled.layout : Layout ChildWorkflowExecutionCanceled ChildWorkflowExecutionCanceled :=
  Layout.make ChildWorkflowExecutionCanceled ChildWorkflowExecutionCanceled.mk
    |>.optional "workflowExecution" (·.workflowExecution) {}
    |>.optional "initiatedEventId" (·.initiatedEventId) 0
    |>.optional "startedEventId" (·.startedEventId) 0
    |>.optional "details" (·.details) none

def ChildWorkflowExecutionTerminated.layout : Layout ChildWorkflowExecutionTerminated ChildWorkflowExecutionTerminated :=
  Layout.make ChildWorkflowExecutionTerminated ChildWorkflowExecutionTerminated.mk
    |>.optional "workflowExecution" (·.workflowExecution) {}
    |>.optional "initiatedEventId" (·.initiatedEventId) 0
    |>.optional "startedEventId" (·.startedEventId) 0

def RequestCancelExternalWorkflowExecutionInitiated.layout : Layout RequestCancelExternalWorkflowExecutionInitiated RequestCancelExternalWorkflowExecutionInitiated :=
  Layout.make RequestCancelExternalWorkflowExecutionInitiated RequestCancelExternalWorkflowExecutionInitiated.mk
    |>.optional "domain" (·.domain) ""
    |>.optional "workflowExecution" (·.workflowExecution) {}
    |>.optional "control" (·.control) ""
    |>.optional "childWorkflowOnly" (·.childWorkflowOnly) false
    |>.optional "decisionTaskCompletedEventId" (·.decisionTaskCompletedEventId) 0

def RequestCancelExternalWorkflowExecutionFailed.layout : Layout RequestCancelExternalWorkflowExecutionFailed RequestCancelExternalWorkflowExecutionFailed :=
  Layout.make RequestCancelExternalWorkflowExecutionFailed RequestCancelExternalWorkflowExecutionFailed.mk
    |>.optional "domain" (·.domain) ""
    |>.optional "workflowExecution" (·.workflowExecution) {}
    |>.optional "cause" (·.cause) ""
    |>.optional "initiatedEventId" (·.initiatedEventId) 0
    |>.optional "control" (·.control) ""
    |>.optional "decisionTaskCompletedEventId" (·.decisionTaskCompletedEventId) 0

def ExternalWorkflowExecutionCancelRequested.layout : Layout ExternalWorkflowExecutionCancelRequested ExternalWorkflowExecutionCancelRequested :=
  Layout.make ExternalWorkflowExecutionCancelRequested ExternalWorkflowExecutionCancelRequested.mk
    |>.optional "domain" (·.domain) ""
    |>.optional "workflowExecution" (·.workflowExecution) {}
    |>.optional "initiatedEventId" (·.initiatedEventId) 0

def SignalExternalWorkflowExecutionInitiated.layout : Layout SignalExternalWorkflowExecutionInitiated SignalExternalWorkflowExecutionInitiated :=
  Layout.make SignalExternalWorkflowExecutionInitiated SignalExternalWorkflowExecutionInitiated.mk
    |>.optional "domain" (·.domain) ""
    |>.optional "workflowExecution" (·.workflowExecution) {}
    |>.optional "signalName" (·.signalName) ""
    |>.optional "input" (·.input) none
    |>.optional "control" (·.control) ""
    |>.optional "childWorkflowOnly" (·.childWorkflowOnly) false
    |>.optional "decisionTaskCompletedEventId" (·.decisionTaskCompletedEventId) 0

def SignalExternalWorkflowExecutionFailed.layout : Layout SignalExternalWorkflowExecutionFailed SignalExternalWorkflowExecutionFailed :=
  Layout.make SignalExternalWorkflowExecutionFailed SignalExternalWorkflowExecutionFailed.mk
    |>.optional "domain" (·.domain) ""
    |>.optional "workflowExecution" (·.workflowExecution) {}
    |>.optional "cause" (·.cause) ""
    |>.optional "initiatedEventId" (·.initiatedEventId) 0
    |>.optional "control" (·.control) ""
    |>.optional "decisionTaskCompletedEventId" (·.decisionTaskCompletedEventId) 0

def ExternalWorkflowExecutionSignaled.layout : Layout ExternalWorkflowExecutionSignaled ExternalWorkflowExecutionSignaled :=
  Layout.make ExternalWorkflowExecutionSignaled ExternalWorkflowExecutionSignaled.mk
    |>.optional "domain" (·.domain) ""
    |>.optional "workflowExecution" (·.workflowExecution) {}
    |>.optional "initiatedEventId" (·.initiatedEventId) 0
    |>.optional "control" (·.control) ""

def MarkerRecorded.layout : Layout MarkerRecorded MarkerRecorded :=
  Layout.make MarkerRecorded MarkerRecorded.mk
    |>.optional "markerName" (·.markerName) ""
    |>.optional "markerId" (·.markerId) ""
    |>.optional "details" (·.details) none
    |>.optional "decisionTaskCompletedEventId" (·.decisionTaskCompletedEventId) 0

def UpsertWorkflowSearchAttributes.layout : Layout UpsertWorkflowSearchAttributes UpsertWorkflowSearchAttributes :=
  Layout.make UpsertWorkflowSearchAttributes UpsertWorkflowSearchAttributes.mk
    |>.optional "searchAttributes" (·.searchAttributes) []
    |>.optional "decisionTaskCompletedEventId" (·.decisionTaskCompletedEventId) 0

end Event

namespace EventAttributes

def members : EventAttributes → List (String × Json)
  | .workflowExecutionStarted a => Event.WorkflowExecutionStarted.layout.write a
  | .workflowExecutionCompleted a => Event.WorkflowExecutionCompleted.layout.write a
  | .workflowExecutionFailed a => Event.WorkflowExecutionFailed.layout.write a
  | .workflowExecutionCancelRequested a => Event.WorkflowExecutionCancelRequested.layout.write a
  | .workflowExecutionSignaled a => Event.WorkflowExecutionSignaled.layout.write a
  | .decisionTaskScheduled a => Event.DecisionTaskScheduled.layout.write a
  | .decisionTaskStarted a => Event.DecisionTaskStarted.layout.write a
  | .decisionTaskCompleted a => Event.DecisionTaskCompleted.layout.write a
  | .decisionTaskFailed a => Event.DecisionTaskFailed.layout.write a
  | .decisionTaskTimedOut a => Event.DecisionTaskTimedOut.layout.write a
  | .activityTaskScheduled a => Event.ActivityTaskScheduled.layout.write a
  | .activityTaskStarted a => Event.ActivityTaskStarted.layout.write a
  | .activityTaskCompleted a => Event.ActivityTaskCompleted.layout.write a
  | .activityTaskFailed a => Event.ActivityTaskFailed.layout.write a
  | .activityTaskTimedOut a => Event.ActivityTaskTimedOut.layout.write a
  | .activityTaskCancelRequested a => Event.ActivityTaskCancelRequested.layout.write a
  | .requestCancelActivityTaskFailed a => Event.RequestCancelActivityTaskFailed.layout.write a
  | .activityTaskCanceled a => Event.ActivityTaskCanceled.layout.write a
  | .timerStarted a => Event.TimerStarted.layout.write a
  | .timerFired a => Event.TimerFired.layout.write a
  | .timerCanceled a => Event.TimerCanceled.layout.write a
  | .cancelTimerFailed a => Event.CancelTimerFailed.layout.write a
  | .startChildWorkflowExecutionInitiated a => Event.StartChildWorkflowExecutionInitiated.layout.write a
  | .startChildWorkflowExecutionFailed a => Event.StartChildWorkflowExecutionFailed.layout.write a
  | .childWorkflowExecutionStarted a => Event.ChildWorkflowExecutionStarted.layout.write a
  | .childWorkflowExecutionCompleted a => Event.ChildWorkflowExecutionCompleted.layout.write a
  | .childWorkflowExecutionFailed a => Event.ChildWorkflowExecutionFailed.layout.write a
  | .childWorkflowExecutionTimedOut a => Event.ChildWorkflowExecutionTimedOut.layout.write a
  | .childWorkflowExecutionCanceled a => Event.ChildWorkflowExecutionCanceled.layout.write a
  | .childWorkflowExecutionTerminated a => Event.ChildWorkflowExecutionTerminated.layout.write a
  | .requestCancelExternalWorkflowExecutionInitiated a => Event.RequestCancelExternalWorkflowExecutionInitiated.layout.write a
  | .requestCancelExternalWorkflowExecutionFailed a => Event.RequestCancelExternalWorkflowExecutionFailed.layout.write a
  | .externalWorkflowExecutionCancelRequested a => Event.ExternalWorkflowExecutionCancelRequested.layout.write a
  | .signalExternalWorkflowExecutionInitiated a => Event.SignalExternalWorkflowExecutionInitiated.layout.write a
  | .signalExternalWorkflowExecutionFailed a => Event.SignalExternalWorkflowExecutionFailed.layout.write a
  | .externalWorkflowExecutionSignaled a => Event.ExternalWorkflowExecutionSignaled.layout.write a
  | .markerRecorded a => Event.MarkerRecorded.layout.write a
  | .upsertWorkflowSearchAttributes a => Event.UpsertWorkflowSearchAttributes.layout.write a

def ofRecord? (t : EventType) (v : Json) : Option EventAttributes :=
  match t with
  | .workflowExecutionStarted =>
    (Event.WorkflowExecutionStarted.layout.decode v).map .workflowExecutionStarted
  | .workflowExecutionCompleted =>
    (Event.WorkflowExecutionCompleted.layout.decode v).map .workflowExecutionCompleted
  | .workflowExecutionFailed =>
    (Event.WorkflowExecutionFailed.layout.decode v).map .workflowExecutionFailed
  | .workflowExecutionCancelRequested =>
    (Event.WorkflowExecutionCancelRequested.layout.decode v).map .workflowExecutionCancelRequested
  | .workflowExecutionSignaled =>
    (Event.WorkflowExecutionSignaled.layout.decode v).map .workflowExecutionSignaled
  | .decisionTaskScheduled =>
    (Event.DecisionTaskScheduled.layout.decode v).map .decisionTaskScheduled
  | .decisionTaskStarted => (Event.DecisionTaskStarted.layout.decode v).map .decisionTaskStarted
  | .decisionTaskCompleted =>
    (Event.DecisionTaskCompleted.layout.decode v).map .decisionTaskCompleted
  | .decisionTaskFailed => (Event.DecisionTaskFailed.layout.decode v).map .decisionTaskFailed
  | .decisionTaskTimedOut => (Event.DecisionTaskTimedOut.layout.decode v).map .decisionTaskTimedOut
  | .activityTaskScheduled =>
    (Event.ActivityTaskScheduled.layout.decode v).map .activityTaskScheduled
  | .activityTaskStarted => (Event.ActivityTaskStarted.layout.decode v).map .activityTaskStarted
  | .activityTaskCompleted =>
    (Event.ActivityTaskCompleted.layout.decode v).map .activityTaskCompleted
  | .activityTaskFailed => (Event.ActivityTaskFailed.layout.decode v).map .activityTaskFailed
  | .activityTaskTimedOut => (Event.ActivityTaskTimedOut.layout.decode v).map .activityTaskTimedOut
  | .activityTaskCancelRequested =>
    (Event.ActivityTaskCancelRequested.layout.decode v).map .activityTaskCancelRequested
  | .requestCancelActivityTaskFailed =>
    (Event.RequestCancelActivityTaskFailed.layout.decode v).map .requestCancelActivityTaskFailed
  | .activityTaskCanceled => (Event.ActivityTaskCanceled.layout.decode v).map .activityTaskCanceled
  | .timerStarted => (Event.TimerStarted.layout.decode v).map .timerStarted
  | .timerFired => (Event.TimerFired.layout.decode v).map .timerFired
  | .timerCanceled => (Event.TimerCanceled.layout.decode v).map .timerCanceled
  | .cancelTimerFailed => (Event.CancelTimerFailed.layout.decode v).map .cancelTimerFailed
  | .startChildWorkflowExecutionInitiated =>
    (Event.StartChildWorkflowExecutionInitiated.layout.decode v).map .startChildWorkflowExecutionInitiated
  | .startChildWorkflowExecutionFailed =>
    (Event.StartChildWorkflowExecutionFailed.layout.decode v).map .startChildWorkflowExecutionFailed
  | .childWorkflowExecutionStarted =>
    (Event.ChildWorkflowExecutionStarted.layout.decode v).map .childWorkflowExecutionStarted
  | .childWorkflowExecutionCompleted =>
    (Event.ChildWorkflowExecutionCompleted.layout.decode v).map .childWorkflowExecutionCompleted
  | .childWorkflowExecutionFailed =>
    (Event.ChildWorkflowExecutionFailed.layout.decode v).map .childWorkflowExecutionFailed
  | .childWorkflowExecutionTimedOut =>
    (Event.ChildWorkflowExecutionTimedOut.layout.decode v).map .childWorkflowExecutionTimedOut
  | .childWorkflowExecutionCanceled =>
    (Event.ChildWorkflowExecutionCanceled.layout.decode v).map .childWorkflowExecutionCanceled
  | .childWorkflowExecutionTerminated =>
    (Event.ChildWorkflowExecutionTerminated.layout.decode v).map .childWorkflowExecutionTerminated
  | .requestCancelExternalWorkflowExecutionInitiated =>
    (Event.RequestCancelExternalWorkflowExecutionInitiated.layout.decode v).map .requestCancelExternalWorkflowExecutionInitiated
  | .requestCancelExternalWorkflowExecutionFailed =>
    (Event.RequestCancelExternalWorkflowExecutionFailed.layout.decode v).map .requestCancelExternalWorkflowExecutionFailed
  | .externalWorkflowExecutionCancelRequested =>
    (Event.ExternalWorkflowExecutionCancelRequested.layout.decode v).map .externalWorkflowExecutionCancelRequested
  | .signalExternalWorkflowExecutionInitiated =>
    (Event.SignalExternalWorkflowExecutionInitiated.layout.decode v).map .signalExternalWorkflowExecutionInitiated
  | .signalExternalWorkflowExecutionFailed =>
    (Event.SignalExternalWorkflowExecutionFailed.layout.decode v).map .signalExternalWorkflowExecutionFailed
  | .externalWorkflowExecutionSignaled =>
    (Event.ExternalWorkflowExecutionSignaled.layout.decode v).map .externalWorkflowExecutionSignaled
  | .markerRecorded => (Event.MarkerRecorded.layout.decode v).map .markerRecorded
  | .upsertWorkflowSearchAttributes =>
    (Event.UpsertWorkflowSearchAttributes.layout.decode v).map .upsertWorkflowSearchAttributes

instance : Wire EventAttributes where
  encode a := Json.withTag "eventType" (Named.tag a.type) a.members
  decode v := do
    let (tag, record) ← v.tagged? "eventType"
    let type ← Named.ofTag? EventType tag
    ofRecord? type record

end EventAttributes

def HistoryEvent.layout : Layout HistoryEvent HistoryEvent :=
  Layout.make HistoryEvent HistoryEvent.mk
    |>.required "eventId" (·.id)
    |>.required "timestamp" (·.timestamp)
    |>.required "attributes" (·.attributes)

instance : Wire HistoryEvent := HistoryEvent.layout.toWire

def DecisionTask.layout : Layout DecisionTask DecisionTask :=
  Layout.make DecisionTask DecisionTask.mk
    |>.optional "taskToken" (·.token) []
    |>.optional "workflowExecution" (·.execution) {}
    |>.optional "workflowType" (·.workflowType) ""
    |>.optional "history" (·.history) []
    |>.optional "startedEventId" (·.startedEventId) 0
    |>.optional "previousStartedEventId" (·.previousStartedEventId) 0
    |>.optional "nextPageToken" (·.nextPageToken) none
    |>.optional "attempt" (·.attempt) 0

instance : Wire DecisionTask := DecisionTask.layout.toWire

def HistoryPage.layout : Layout HistoryPage HistoryPage :=
  Layout.make HistoryPage HistoryPage.mk
    |>.optional "events" (·.events) []
    |>.optional "nextPageToken" (·.nextPageToken) none

instance : Wire HistoryPage := HistoryPage.layout.toWire

end WorkflowReplay
