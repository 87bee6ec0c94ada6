import WorkflowReplay.Decision.Basic

/-!
# The life of a request

Every request of a workflow passes through the same states, whatever it is about:

```
created → initiated → started → completed
              ↓           ↓
   canceledAfterInitiated → canceledAfterStarted → completedAfterCancellationDecisionSent
```

A transition that does not apply answers `none`; the request is then left as it was.
-/

set_option autoImplicit false

namespace WorkflowReplay

inductive DecisionState where
  | created
  | initiated
  | started
  /-- A cancel decision was sent before the request was started. -/
  | canceledAfterInitiated
  | canceledAfterStarted
  | completedAfterCancellationDecisionSent
  | completed
  deriving DecidableEq, Repr

namespace DecisionState

def all : List DecisionState := [
  .created, .initiated, .started, .canceledAfterInitiated, .canceledAfterStarted,
  .completedAfterCancellationDecisionSent, .completed]

def name : DecisionState → String
  | .created => "Created"
  | .initiated => "Initiated"
  | .started => "Started"
  | .canceledAfterInitiated => "CanceledAfterInitiated"
  | .canceledAfterStarted => "CanceledAfterStarted"
  | .completedAfterCancellationDecisionSent => "CompletedAfterCancellationDecisionSent"
  | .completed => "Completed"

instance : Named DecisionState := ⟨name, all⟩

def isTerminal : DecisionState → Bool
  | .created | .initiated | .started => false
  | .canceledAfterInitiated | .canceledAfterStarted | .completedAfterCancellationDecisionSent
  | .completed => true

end DecisionState

structure Lifecycle where
  state : DecisionState := .created
  initiatedEventId : Option EventId := none
  startedEventId : Option EventId := none
  initialEmitted : Bool := false
  cancelRequested : Bool := false
  cancelEmitted : Bool := false
  deriving DecidableEq, Repr

namespace Lifecycle

def isTerminal (l : Lifecycle) : Bool := l.state.isTerminal

def references (l : Lifecycle) (id : EventId) : Bool := l.initiatedEventId == some id

def requestCancel? (l : Lifecycle) : Option Lifecycle :=
  if l.isTerminal then none else some { l with cancelRequested := true }

def cancelPending (l : Lifecycle) : Bool :=
  l.cancelRequested && !l.cancelEmitted && !l.isTerminal

def afterCancelSent : DecisionState → DecisionState
  | .initiated => .canceledAfterInitiated
  | .started => .canceledAfterStarted
  | s => s

def markSent (l : Lifecycle) : Lifecycle :=
  let l' := { l with initialEmitted := true }
  if l.cancelPending then
    { l' with cancelEmitted := true, state := afterCancelSent l.state }
  else l'

def initiate? (l : Lifecycle) (id : EventId) : Option Lifecycle :=
  if l.state = .created then
    some { l with
      initiatedEventId := some id
      initialEmitted := true
      state := if l.cancelEmitted then .canceledAfterInitiated else .initiated }
  else none

def record? (l : Lifecycle) (id : EventId) : Option Lifecycle :=
  (l.initiate? id).map (fun l => { l with state := .completed })

def start? (l : Lifecycle) (id : EventId) : Option Lifecycle :=
  match l.state with
  | .initiated => some { l with state := .started, startedEventId := some id }
  | .canceledAfterInitiated =>
    some { l with state := .canceledAfterStarted, startedEventId := some id }
  | _ => none

def complete? (l : Lifecycle) : Option Lifecycle :=
  match l.state with
  | .initiated | .started => some { l with state := .completed }
  | .canceledAfterInitiated | .canceledAfterStarted =>
    some { l with state := .completedAfterCancellationDecisionSent }
  | _ => none

def cancel? (l : Lifecycle) : Option Lifecycle :=
  match l.state with
  | .initiated | .canceledAfterInitiated => some { l with state := .canceledAfterInitiated }
  | .started | .canceledAfterStarted => some { l with state := .canceledAfterStarted }
  | _ => none

/-- The cancellation was refused: the request goes on as if it had not been asked for. -/
def failCancel? (l : Lifecycle) : Option Lifecycle :=
  match l.state with
  | .canceledAfterInitiated =>
    some { l with state := .initiated, cancelRequested := false, cancelEmitted := false }
  | .canceledAfterStarted =>
    some { l with state := .started, cancelRequested := false, cancelEmitted := false }
  | _ => none

end Lifecycle

end WorkflowReplay
