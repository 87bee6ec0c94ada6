import WorkflowReplay.Decision.Basic
import WorkflowReplay.Json.Parser

/-!
# Errors

A `ReplayError` says that a history and the workflow code disagree, or that the history itself is
no history.  An `Error` is what workflow code and a decider can meet; `Error.reason` is the class
under which a run reports it when it fails.
-/

set_option autoImplicit false

namespace WorkflowReplay

inductive Malformed where
  | outOfOrder (id previous : EventId)
  | unrecordedSideEffect (markerId : String)
  | neverStarted
  | because (text : String)
  deriving DecidableEq, Repr

def Malformed.message : Malformed → String
  | .outOfOrder id previous =>
    "event id " ++ toString id.toInt ++ " does not follow " ++ toString previous.toInt
  | .unrecordedSideEffect markerId => "no recorded result for side effect " ++ markerId
  | .neverStarted => "history never started the workflow"
  | .because text => text

inductive ReplayError where
  | unknownDecision (id : DecisionId) (eventId : EventId) (eventType : EventType)
  | unknownAlias (target : DecisionTarget) (initiating : EventId) (eventId : EventId)
      (eventType : EventType)
  | unmatchedEvent (eventId : EventId) (eventType : EventType)
  | malformedHistory (problem : Malformed)
  deriving DecidableEq, Repr

namespace ReplayError

def eventText (id : EventId) (type : EventType) : String :=
  "event " ++ toString id.toInt ++ " (" ++ type.name ++ ")"

def message : ReplayError → String
  | .unknownDecision id eventId type =>
    eventText eventId type ++ " references unknown decision " ++ id.text
  | .unknownAlias target initiating eventId type =>
    eventText eventId type ++ " references unknown " ++ target.name ++ " event id " ++
      toString initiating.toInt
  | .unmatchedEvent eventId type => eventText eventId type ++ " matches no pending decision"
  | .malformedHistory problem => "Malformed history: " ++ problem.message

/-- The error comes from matching an event with the requests of the workflow. -/
def isCorrelation : ReplayError → Bool
  | .malformedHistory _ => false
  | _ => true

def eventId? : ReplayError → Option EventId
  | .unknownDecision _ id _ => some id
  | .unknownAlias _ _ id _ => some id
  | .unmatchedEvent id _ => some id
  | .malformedHistory _ => none

end ReplayError

inductive Error where
  | activityFailed (activityId reason : String) (details : Option Payload)
  | childWorkflowFailed (workflowId reason : String) (details : Option Payload)
  | externalWorkflowFailed (workflowId cause : String)
  | canceled (text : String)
  | workflowFailed (reason : String) (details : Option Payload)
  | nonRetryable (text : String)
  | panicked (text : String)
  | replay (error : ReplayError)
  | serialization (error : Json.SyntaxError)
  | codec (text : String)
  | staleState (text : String)
  | historyUnavailable (text : String)
  | workflowNotFound (text : String)
  | invalidConfiguration (text : String)
  | invalidInput (text : String)
  | other (text : String)
  deriving DecidableEq, Repr

namespace Error

def message : Error → String
  | .activityFailed id reason _ => "Activity failed: " ++ id ++ ": " ++ reason
  | .childWorkflowFailed id reason _ => "Child workflow failed: " ++ id ++ ": " ++ reason
  | .externalWorkflowFailed id cause =>
    "External workflow request failed: " ++ id ++ ": " ++ cause
  | .canceled text => "Canceled: " ++ text
  | .workflowFailed reason _ => "Workflow failed: " ++ reason
  | .nonRetryable text => "Non-retryable error: " ++ text
  | .panicked text => "Workflow task panicked: " ++ text
  | .replay e => "Replay error: " ++ e.message
  | .serialization e => "Serialization error: " ++ e.message
  | .codec text => "Codec error: " ++ text
  | .staleState text => "Stale workflow state: " ++ text
  | .historyUnavailable text => "History unavailable: " ++ text
  | .workflowNotFound text => "Workflow not found: " ++ text
  | .invalidConfiguration text => "Invalid configuration: " ++ text
  | .invalidInput text => "Invalid input: " ++ text
  | .other text => text

def isCanceled : Error → Bool
  | .canceled _ => true
  | _ => false

def reason : Error → String
  | .workflowFailed reason _ => reason
  | .activityFailed .. => "ACTIVITY_FAILED"
  | .childWorkflowFailed .. => "CHILD_WORKFLOW_FAILED"
  | .externalWorkflowFailed .. => "EXTERNAL_WORKFLOW_FAILED"
  | .canceled _ => "CANCELED"
  | .nonRetryable _ | .invalidInput _ | .invalidConfiguration _ | .workflowNotFound _ =>
    "NON_RETRYABLE"
  | .serialization _ | .codec _ => "SERIALIZATION"
  | .replay _ => "NONDETERMINISTIC"
  | .panicked _ | .staleState _ | .historyUnavailable _ | .other _ => "GENERIC"

def details? : Error → Option Payload
  | .activityFailed _ _ details => details
  | .childWorkflowFailed _ _ details => details
  | .workflowFailed _ details => details
  | _ => none

end Error

end WorkflowReplay
