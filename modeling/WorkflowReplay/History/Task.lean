import WorkflowReplay.History.Event

/-!
# Decision tasks and history pages

A decision task brings the first part of a history, or the part since the last task that the
same decider answered; pages bring the rest.
-/

set_option autoImplicit false

namespace WorkflowReplay

structure DecisionTask where
  token : Payload := []
  execution : Execution := {}
  workflowType : String := ""
  history : List HistoryEvent := []
  startedEventId : EventId := 0
  previousStartedEventId : EventId := 0
  nextPageToken : Option Payload := none
  attempt : Int64 := 0
  deriving DecidableEq, Repr

/-- The history starts at the first event of the run. -/
def DecisionTask.hasFullHistory (t : DecisionTask) : Bool :=
  match t.history with
  | [] => false
  | e :: _ => e.id = 1

structure HistoryPage where
  events : List HistoryEvent := []
  nextPageToken : Option Payload := none
  deriving DecidableEq, Repr

def HistoryPage.isLast (p : HistoryPage) : Bool := p.nextPageToken.isNone

end WorkflowReplay
