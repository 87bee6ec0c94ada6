import WorkflowReplay.Wire.History
import WorkflowReplay.Decision.Basic

/-!
# Wire forms of decisions

A decision is one record with its type as the tag; only options may be left out.
-/

set_option autoImplicit false

namespace WorkflowReplay

instance : Wire DecisionTarget := Wire.ofNamed DecisionTarget

def DecisionId.layout : Layout DecisionId DecisionId :=
  Layout.make DecisionId DecisionId.mk
    |>.required "target" (·.target)
    |>.required "id" (·.id)

instance : Wire DecisionId := DecisionId.layout.toWire

namespace Decision

def ScheduleActivity.layout : Layout ScheduleActivity ScheduleActivity :=
  Layout.make ScheduleActivity ScheduleActivity.mk
    |>.required "activityId" (·.activityId)
    |>.required "activityType" (·.activityType)
    |>.nullable "domain" (·.domain)
    |>.required "taskList" (·.taskList)
    |>.nullable "input" (·.input)
    |>.required "scheduleToCloseTimeoutSeconds" (·.scheduleToCloseTimeoutSeconds)
    |>.required "scheduleToStartTimeoutSeconds" (·.scheduleToStartTimeoutSeconds)
    |>.required "startToCloseTimeoutSeconds" (·.startToCloseTimeoutSeconds)
    |>.required "heartbeatTimeoutSeconds" (·.heartbeatTimeoutSeconds)

def StartTimer.layout : Layout StartTimer StartTimer :=
  Layout.make StartTimer StartTimer.mk
    |>.required "timerId" (·.timerId)
    |>.required "startToFireTimeoutSeconds" (·.startToFireTimeoutSeconds)

def StartChild.layout : Layout StartChild StartChild :=
  Layout.make StartChild StartChild.mk
    |>.required "domain" (·.domain)
    |>.required "workflowId" (·.workflowId)
    |>.required "workflowType" (·.workflowType)
    |>.required "taskList" (·.taskList)
    |>.nullable "input" (·.input)
    |>.required "executionStartToCloseTimeoutSeconds" (·.executionStartToCloseTimeoutSeconds)
    |>.required "taskStartToCloseTimeoutSeconds" (·.taskStartToCloseTimeoutSeconds)

def CancelExternal.layout : Layout CancelExternal CancelExternal :=
  Layout.make CancelExternal CancelExternal.mk
    |>.required "domain" (·.domain)
    |>.required "workflowId" (·.workflowId)
    |>.required "runId" (·.runId)
    |>.required "control" (·.control)
    |>.required "childWorkflowOnly" (·.childWorkflowOnly)

def SignalExternal.layout : Layout SignalExternal SignalExternal :=
  Layout.make SignalExternal SignalExternal.mk
    |>.required "domain" (·.domain)
    |>.required "execution" (·.execution)
    |>.required "signalName" (·.signalName)
    |>.nullable "input" (·.input)
    |>.required "control" (·.control)
    |>.required "childWorkflowOnly" (·.childWorkflowOnly)

def RecordMarker.layout : Layout RecordMarker RecordMarker :=
  Layout.make RecordMarker RecordMarker.mk
    |>.required "markerName" (·.markerName)
    |>.required "markerId" (·.markerId)
    |>.nullable "details" (·.details)

def activityLayout : Layout String String :=
  Layout.make String id |>.required "activityId" id

def timerLayout : Layout String String :=
  Layout.make String id |>.required "timerId" id

def searchAttributesLayout : Layout SearchAttributes SearchAttributes :=
  Layout.make SearchAttributes id |>.required "searchAttributes" id

def resultLayout : Layout (Option Payload) (Option Payload) :=
  Layout.make (Option Payload) id |>.nullable "result" id

end Decision

def Failure.layout : Layout Failure Failure :=
  Layout.make Failure Failure.mk
    |>.required "reason" (·.reason)
    |>.nullable "details" (·.details)

instance : Wire Failure := Failure.layout.toWire

namespace Decision

def members : Decision → List (String × Json)
  | .scheduleActivityTask a => ScheduleActivity.layout.write a
  | .requestCancelActivityTask id => activityLayout.write id
  | .startTimer a => StartTimer.layout.write a
  | .cancelTimer id => timerLayout.write id
  | .startChildWorkflowExecution a => StartChild.layout.write a
  | .requestCancelExternalWorkflowExecution a => CancelExternal.layout.write a
  | .signalExternalWorkflowExecution a => SignalExternal.layout.write a
  | .recordMarker a => RecordMarker.layout.write a
  | .upsertWorkflowSearchAttributes a => searchAttributesLayout.write a
  | .completeWorkflowExecution result => resultLayout.write result
  | .failWorkflowExecution reason details => Failure.layout.write ⟨reason, details⟩

def ofRecord? (t : DecisionType) (v : Json) : Option Decision :=
  match t with
  | .scheduleActivityTask => (ScheduleActivity.layout.decode v).map .scheduleActivityTask
  | .requestCancelActivityTask => (activityLayout.decode v).map .requestCancelActivityTask
  | .startTimer => (StartTimer.layout.decode v).map .startTimer
  | .cancelTimer => (timerLayout.decode v).map .cancelTimer
  | .startChildWorkflowExecution =>
    (StartChild.layout.decode v).map .startChildWorkflowExecution
  | .requestCancelExternalWorkflowExecution =>
    (CancelExternal.layout.decode v).map .requestCancelExternalWorkflowExecution
  | .signalExternalWorkflowExecution =>
    (SignalExternal.layout.decode v).map .signalExternalWorkflowExecution
  | .recordMarker => (RecordMarker.layout.decode v).map .recordMarker
  | .upsertWorkflowSearchAttributes =>
    (searchAttributesLayout.decode v).map .upsertWorkflowSearchAttributes
  | .completeWorkflowExecution => (resultLayout.decode v).map .completeWorkflowExecution
  | .failWorkflowExecution =>
    (Failure.layout.decode v).map (fun f => .failWorkflowExecution f.reason f.details)

instance : Wire Decision where
  encode d := Json.withTag "decisionType" (Named.tag d.type) d.members
  decode v := do
    let (tag, record) ← v.tagged? "decisionType"
    let type ← Named.ofTag? DecisionType tag
    ofRecord? type record

end Decision

/-- An outcome is an object with exactly one member, named for the kind of end. -/
instance : Wire Outcome where
  encode
    | .completed p => .obj [("Completed", encode p)]
    | .failed f => .obj [("Failed", encode f)]
    | .canceled p => .obj [("Canceled", encode p)]
  decode
    | .obj [(kind, v)] =>
      if kind = "Completed" then (decode v).map .completed
      else if kind = "Failed" then (decode v).map .failed
      else if kind = "Canceled" then (decode v).map .canceled
      else none
    | _ => none

end WorkflowReplay
