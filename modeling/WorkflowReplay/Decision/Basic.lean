import WorkflowReplay.History.Event

/-!
# Decisions

A decision is what a decider answers a decision task with.  Every request of a workflow that
takes more than one decision or event has a `DecisionId`: its kind of target and an id that the
workflow chose.  Its end is reported as an `Outcome`.
-/

set_option autoImplicit false

namespace WorkflowReplay

inductive DecisionTarget where
  | activity
  | timer
  | childWorkflow
  | marker
  | upsertSearchAttributes
  | cancelExternalWorkflow
  | signalExternalWorkflow
  deriving DecidableEq, Repr

namespace DecisionTarget

def all : List DecisionTarget := [
  .activity, .timer, .childWorkflow, .marker, .upsertSearchAttributes, .cancelExternalWorkflow,
  .signalExternalWorkflow]

def name : DecisionTarget → String
  | .activity => "Activity"
  | .timer => "Timer"
  | .childWorkflow => "ChildWorkflow"
  | .marker => "Marker"
  | .upsertSearchAttributes => "UpsertSearchAttributes"
  | .cancelExternalWorkflow => "CancelExternalWorkflow"
  | .signalExternalWorkflow => "SignalExternalWorkflow"

instance : Named DecisionTarget := ⟨name, all⟩

def rank : DecisionTarget → Nat
  | .activity => 0
  | .timer => 1
  | .childWorkflow => 2
  | .marker => 3
  | .upsertSearchAttributes => 4
  | .cancelExternalWorkflow => 5
  | .signalExternalWorkflow => 6

end DecisionTarget

structure DecisionId where
  target : DecisionTarget
  id : String
  deriving DecidableEq, Repr

namespace DecisionId

def text (d : DecisionId) : String := d.target.name ++ ":" ++ d.id

def le (a b : DecisionId) : Bool :=
  a.target.rank < b.target.rank || (a.target.rank == b.target.rank && a.id ≤ b.id)

def dedup : List DecisionId → List DecisionId
  | a :: b :: rest => if a = b then dedup (b :: rest) else a :: dedup (b :: rest)
  | ds => ds

def sorted (ds : List DecisionId) : List DecisionId := dedup (ds.mergeSort le)

end DecisionId

namespace Decision

structure ScheduleActivity where
  activityId : String := ""
  activityType : String := ""
  domain : Option String := none
  taskList : String := ""
  input : Option Payload := none
  scheduleToCloseTimeoutSeconds : Int32 := 0
  scheduleToStartTimeoutSeconds : Int32 := 0
  startToCloseTimeoutSeconds : Int32 := 0
  heartbeatTimeoutSeconds : Int32 := 0
  deriving DecidableEq, Repr

structure StartTimer where
  timerId : String := ""
  startToFireTimeoutSeconds : Int64 := 0
  deriving DecidableEq, Repr

structure StartChild where
  domain : String := ""
  workflowId : String := ""
  workflowType : String := ""
  taskList : String := ""
  input : Option Payload := none
  executionStartToCloseTimeoutSeconds : Int32 := 0
  taskStartToCloseTimeoutSeconds : Int32 := 0
  deriving DecidableEq, Repr

structure CancelExternal where
  domain : String := ""
  workflowId : String := ""
  runId : String := ""
  control : String := ""
  childWorkflowOnly : Bool := false
  deriving DecidableEq, Repr

structure SignalExternal where
  domain : String := ""
  execution : Execution := {}
  signalName : String := ""
  input : Option Payload := none
  control : String := ""
  childWorkflowOnly : Bool := false
  deriving DecidableEq, Repr

structure RecordMarker where
  markerName : String := ""
  markerId : String := ""
  details : Option Payload := none
  deriving DecidableEq, Repr

end Decision

open Decision in
inductive Decision where
  | scheduleActivityTask (a : ScheduleActivity)
  | requestCancelActivityTask (activityId : String)
  | startTimer (a : StartTimer)
  | cancelTimer (timerId : String)
  | startChildWorkflowExecution (a : StartChild)
  | requestCancelExternalWorkflowExecution (a : CancelExternal)
  | signalExternalWorkflowExecution (a : SignalExternal)
  | recordMarker (a : RecordMarker)
  | upsertWorkflowSearchAttributes (searchAttributes : SearchAttributes)
  | completeWorkflowExecution (result : Option Payload)
  | failWorkflowExecution (reason : String) (details : Option Payload)
  deriving DecidableEq, Repr

inductive DecisionType where
  | scheduleActivityTask
  | requestCancelActivityTask
  | startTimer
  | cancelTimer
  | startChildWorkflowExecution
  | requestCancelExternalWorkflowExecution
  | signalExternalWorkflowExecution
  | recordMarker
  | upsertWorkflowSearchAttributes
  | completeWorkflowExecution
  | failWorkflowExecution
  deriving DecidableEq, Repr

namespace DecisionType

def all : List DecisionType := [
  .scheduleActivityTask, .requestCancelActivityTask, .startTimer, .cancelTimer,
  .startChildWorkflowExecution, .requestCancelExternalWorkflowExecution,
  .signalExternalWorkflowExecution, .recordMarker, .upsertWorkflowSearchAttributes,
  .completeWorkflowExecution, .failWorkflowExecution]

def name : DecisionType → String
  | .scheduleActivityTask => "ScheduleActivityTask"
  | .requestCancelActivityTask => "RequestCancelActivityTask"
  | .startTimer => "StartTimer"
  | .cancelTimer => "CancelTimer"
  | .startChildWorkflowExecution => "StartChildWorkflowExecution"
  | .requestCancelExternalWorkflowExecution => "RequestCancelExternalWorkflowExecution"
  | .signalExternalWorkflowExecution => "SignalExternalWorkflowExecution"
  | .recordMarker => "RecordMarker"
  | .upsertWorkflowSearchAttributes => "UpsertWorkflowSearchAttributes"
  | .completeWorkflowExecution => "CompleteWorkflowExecution"
  | .failWorkflowExecution => "FailWorkflowExecution"

instance : Named DecisionType := ⟨name, all⟩

end DecisionType

namespace Decision

def type : Decision → DecisionType
  | .scheduleActivityTask _ => .scheduleActivityTask
  | .requestCancelActivityTask _ => .requestCancelActivityTask
  | .startTimer _ => .startTimer
  | .cancelTimer _ => .cancelTimer
  | .startChildWorkflowExecution _ => .startChildWorkflowExecution
  | .requestCancelExternalWorkflowExecution _ => .requestCancelExternalWorkflowExecution
  | .signalExternalWorkflowExecution _ => .signalExternalWorkflowExecution
  | .recordMarker _ => .recordMarker
  | .upsertWorkflowSearchAttributes _ => .upsertWorkflowSearchAttributes
  | .completeWorkflowExecution _ => .completeWorkflowExecution
  | .failWorkflowExecution _ _ => .failWorkflowExecution

def isTerminal : Decision → Bool
  | .completeWorkflowExecution _ | .failWorkflowExecution _ _ => true
  | _ => false

end Decision

structure Failure where
  reason : String
  details : Option Payload
  deriving DecidableEq, Repr

inductive Outcome where
  | completed (result : Option Payload)
  | failed (failure : Failure)
  | canceled (details : Option Payload)
  deriving DecidableEq, Repr

namespace Outcome

def isCanceled : Outcome → Bool
  | .canceled _ => true
  | _ => false

def failedWith (reason : String) (details : Option Payload) : Outcome := .failed ⟨reason, details⟩

end Outcome

structure Resolution where
  id : DecisionId
  outcome : Outcome
  deriving DecidableEq, Repr

end WorkflowReplay
