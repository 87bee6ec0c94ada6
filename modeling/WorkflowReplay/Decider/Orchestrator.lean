import WorkflowReplay.Decision.Basic
import WorkflowReplay.Error
import WorkflowReplay.History.Task

/-!
# The orchestrator

What a decider asks of the orchestrator, and what it answers.  A source gives the pages of a
history, and a sink takes the responses to decision tasks.
-/

set_option autoImplicit false

namespace WorkflowReplay

inductive FailedCause where
  | nondeterministicHistory
  | workflowWorkerUnhandledFailure
  /-- A part of the history came for a run of which nothing is kept. -/
  | resetStickyTaskList
  deriving DecidableEq, Repr

namespace FailedCause

def name : FailedCause → String
  | .nondeterministicHistory => "NondeterministicHistory"
  | .workflowWorkerUnhandledFailure => "WorkflowWorkerUnhandledFailure"
  | .resetStickyTaskList => "ResetStickyTaskList"

instance : Named FailedCause :=
  ⟨name, [.nondeterministicHistory, .workflowWorkerUnhandledFailure, .resetStickyTaskList]⟩

def text : FailedCause → String
  | .nondeterministicHistory => "NONDETERMINISTIC_HISTORY"
  | .workflowWorkerUnhandledFailure => "WORKFLOW_WORKER_UNHANDLED_FAILURE"
  | .resetStickyTaskList => "RESET_STICKY_TASKLIST"

def ofError : Error → FailedCause
  | .replay _ => .nondeterministicHistory
  | .staleState _ => .resetStickyTaskList
  | _ => .workflowWorkerUnhandledFailure

end FailedCause

structure PageRequest where
  execution : Execution
  token : Payload
  pageSize : Int32
  deriving DecidableEq, Repr

inductive Fetched where
  | page (p : HistoryPage)
  | failed (e : Error)
  | late
  deriving DecidableEq, Repr

/-- Where pages come from; a source knows how many pages of the task it gave before. -/
abbrev HistorySource := Nat → PageRequest → Fetched

inductive Response where
  | completed (token : Payload) (decisions : List Decision) (identity : String)
  | failed (token : Payload) (cause : FailedCause) (details : Option Payload) (identity : String)
  deriving DecidableEq, Repr

/-- Where responses go; a response that is refused brings an error. -/
abbrev Sink := Response → Option Error

end WorkflowReplay
