import WorkflowReplay.Error
import WorkflowReplay.Wire.Decision
import WorkflowReplay.Wire.Shorthand

/-!
# Errors as values

An error is shown with its kind, its message, its class and its details.  It is written in a short
form that names its kind and its parts.
-/

set_option autoImplicit false

namespace WorkflowReplay

open Shorthand

namespace ReplayError

def kind : ReplayError → String
  | .unknownDecision .. => "UnknownDecision"
  | .unknownAlias .. => "UnknownAlias"
  | .unmatchedEvent .. => "UnmatchedEvent"
  | .malformedHistory _ => "MalformedHistory"

def shown (e : ReplayError) : Json :=
  .ofMembers [
    ("error", .str e.kind), ("message", .str e.message),
    ("correlation", .bool e.isCorrelation),
    ("eventId", .ofOption (fun id => .int id.toInt) e.eventId?)]

def ofShort? (v : Json) : Option ReplayError := do
  let id := eventId (get v "eventId")
  match str (get v "kind") with
  | "UnknownDecision" =>
    return .unknownDecision ⟨← named DecisionTarget (get v "target"), str (get v "id")⟩ id
      (← named EventType (get v "eventType"))
  | "UnknownAlias" =>
    return .unknownAlias (← named DecisionTarget (get v "target")) (eventId (get v "alias")) id
      (← named EventType (get v "eventType"))
  | "UnmatchedEvent" => return .unmatchedEvent id (← named EventType (get v "eventType"))
  | "MalformedHistory" => return .malformedHistory (.because (str (get v "message")))
  | _ => none

end ReplayError

namespace Error

def kind : Error → String
  | .activityFailed .. => "ActivityFailed"
  | .childWorkflowFailed .. => "ChildWorkflowFailed"
  | .externalWorkflowFailed .. => "ExternalWorkflowFailed"
  | .canceled _ => "Canceled"
  | .workflowFailed .. => "WorkflowFailed"
  | .nonRetryable _ => "NonRetryable"
  | .panicked _ => "Panicked"
  | .replay _ => "Replay"
  | .serialization _ => "Serialization"
  | .codec _ => "Codec"
  | .staleState _ => "StaleState"
  | .historyUnavailable _ => "HistoryUnavailable"
  | .workflowNotFound _ => "WorkflowNotFound"
  | .invalidConfiguration _ => "InvalidConfiguration"
  | .invalidInput _ => "InvalidInput"
  | .other _ => "Other"

def shown (e : Error) : Json :=
  .ofMembers [
    ("error", .str e.kind), ("message", .str e.message), ("class", .str e.reason),
    ("canceled", .bool e.isCanceled), ("details", encode e.details?),
    ("core", match e with
      | .replay e => e.shown
      | _ => .null)]

def ofShort? (v : Json) : Option Error :=
  let id := str (get v "id")
  let reason := str (get v "reason")
  let details := payload? (get v "details")
  let message := str (get v "message")
  match str (get v "kind") with
  | "ActivityFailed" => some (.activityFailed id reason details)
  | "ChildWorkflowFailed" => some (.childWorkflowFailed id reason details)
  | "ExternalWorkflowFailed" => some (.externalWorkflowFailed id reason)
  | "Canceled" => some (.canceled message)
  | "WorkflowFailed" => some (.workflowFailed reason details)
  | "NonRetryable" => some (.nonRetryable message)
  | "Panicked" => some (.panicked message)
  | "Replay" => (ReplayError.ofShort? (get v "core")).map .replay
  | "Serialization" =>
    match Json.parse (Text.utf8 (str (get v "text"))) with
    | .error e => some (.serialization e)
    | .ok _ => none
  | "Codec" => some (.codec message)
  | "StaleState" => some (.staleState message)
  | "HistoryUnavailable" => some (.historyUnavailable message)
  | "WorkflowNotFound" => some (.workflowNotFound message)
  | "InvalidConfiguration" => some (.invalidConfiguration message)
  | "InvalidInput" => some (.invalidInput message)
  | "Other" => some (.other message)
  | _ => none

end Error

end WorkflowReplay
