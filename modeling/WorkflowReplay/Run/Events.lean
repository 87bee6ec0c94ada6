import WorkflowReplay.Run.Calls

/-!
# What history tells a run

An event that concerns a request changes its state and may bring its outcome, which goes to the
future of the request.  A signal goes to the first who waits for it and is kept if nobody does.
-/

set_option autoImplicit false

namespace WorkflowReplay.Run

open Schedule

/-- Gives a signal to the first waiter that still waits; it is kept if there is none. -/
def deliver (name : String) (input : Option Payload) :
    List PlaceholderId → Run → Run
  | [], w =>
    let c := { w.shared with signalWaiters := w.shared.signalWaiters.insert name [] }
    { w with shared := c.bufferSignal name input }
  | p :: rest, w =>
    match w.board.resolve p (.completed input) with
    | (true, board) =>
      { board
        shared := { w.shared with signalWaiters := w.shared.signalWaiters.insert name rest } }
    | (false, board) => deliver name input rest { w with board }

def applyEvent (e : HistoryEvent) (w : Run) : Except ReplayError Run :=
  match e.attributes with
  | .workflowExecutionSignaled a =>
    .ok (deliver a.signalName a.input (w.shared.signalWaiters.getD a.signalName []) w)
  | .workflowExecutionCancelRequested _ =>
    .ok { w with shared := { w.shared with cancelRequested := true } }
  | _ =>
    match w.shared.ledger.handleEvent e with
    | .error err => .error err
    | .ok (resolution, ledger) =>
      let w : Run := { w with shared := { w.shared with ledger } }
      match resolution with
      | none => .ok w
      | some r => .ok (w.settle r.id r.outcome)

end WorkflowReplay.Run
