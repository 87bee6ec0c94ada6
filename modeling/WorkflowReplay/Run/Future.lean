import WorkflowReplay.Run.Context

/-!
# Futures of a workflow

A future stands for a result that workflow code waits for: the outcome of a request, a signal, or
the end of a task.  A future of a request ends with the outcome that the history reports, put in
terms of the request.
-/

set_option autoImplicit false

namespace WorkflowReplay

open Schedule

inductive Promise where
  | activity (id : String) (shape : Shape)
  /-- A timer; one that never runs has no id. -/
  | timer (id : Option String)
  | child (workflowId : String) (shape : Shape)
  | external (id : DecisionId) (workflowId : String)
  deriving DecidableEq, Repr

namespace Promise

def decisionId? : Promise → Option DecisionId
  | .activity id _ => some ⟨.activity, id⟩
  | .timer id => id.map (fun id => ⟨.timer, id⟩)
  | .child workflowId _ => some ⟨.childWorkflow, workflowId⟩
  | .external id _ => some id

def result (p : Promise) (o : Outcome) : Except Error Json :=
  match p, o with
  | .activity _ shape, .completed r => Codec.decodeValue shape r
  | .activity id _, .failed f => .error (.activityFailed id f.reason f.details)
  | .activity id _, .canceled _ => .error (.canceled ("activity " ++ id ++ " canceled"))
  | .timer _, .completed _ => .ok .null
  | .timer _, .failed f => .error (.other f.reason)
  | .timer id, .canceled _ => .error (.canceled ("timer " ++ id.getD "" ++ " canceled"))
  | .child _ shape, .completed r => Codec.decodeValue shape r
  | .child workflowId _, .failed f =>
    .error (.childWorkflowFailed workflowId f.reason f.details)
  | .child workflowId _, .canceled _ =>
    .error (.canceled ("child workflow " ++ workflowId ++ " canceled"))
  | .external _ _, .completed _ => .ok .null
  | .external _ workflowId, .failed f => .error (.externalWorkflowFailed workflowId f.reason)
  | .external _ workflowId, .canceled _ =>
    .error (.canceled ("request to " ++ workflowId ++ " canceled"))

end Promise

inductive Future where
  | request (promise : Promise) (placeholder : PlaceholderId) (cancelAccepted : Bool)
  /-- A signal; it is asked for when the future is first looked at. -/
  | signal (name : String) (shape : Shape) (placeholder : Option PlaceholderId)
  | task (id : TaskId)
  deriving DecidableEq, Repr

def signalResult (name : String) (shape : Shape) : Outcome → Except Error Json
  | .completed input => Codec.decodeValue shape input
  | _ => .error (.canceled ("signal " ++ name ++ " no longer awaited"))

namespace Future

abbrev Ground := Waiting Outcome (Except Error Json) × Context

/-- Looks whether there is a result, and answers what is left of the future. -/
def look (me : TaskId) (f : Future) (g : Ground) :
    (Option (Except Error Json) × Future) × Ground :=
  match f with
  | .request promise id _ =>
    let (outcome, w) := g.1.look me id
    ((outcome.map promise.result, f), (w, g.2))
  | .signal name shape (some id) =>
    let (outcome, w) := g.1.look me id
    ((outcome.map (signalResult name shape), f), (w, g.2))
  | .signal name shape none =>
    match g.2.takeSignal? name with
    | some (input, c) => ((some (Codec.decodeValue shape input), f), (g.1, c))
    | none =>
      let (id, w) := g.1.make
      let (outcome, w) := w.look me id
      ((outcome.map (signalResult name shape), .signal name shape (some id)),
        (w, g.2.awaitSignal name id))
  | .task id =>
    let (o, w) := g.1.lookOutput me id
    ((o, f), (w, g.2))

def placeholder? : Future → Option PlaceholderId
  | .request _ id _ => some id
  | .signal _ _ id => id
  | .task _ => none

end Future

/-! ## Waits -/

inductive Item where
  | open (f : Future)
  | closed (r : Except Error Json)

def Item.results? : List Item → Option (List (Except Error Json))
  | [] => some []
  | .open _ :: _ => none
  | .closed r :: rest => (results? rest).map (r :: ·)

/-- The values if no result is an error, and the first error otherwise. -/
def allResults (rs : List (Except Error Json)) : Except Error Json :=
  (rs.mapM id).map .arr

/-- Looks at futures in turn until one has a result: its place and its result. -/
def lookFirst (me : TaskId) :
    List Future → Future.Ground → (Option (Nat × Except Error Json) × List Future) × Future.Ground
  | [], g => ((none, []), g)
  | f :: rest, g =>
    match f.look me g with
    | ((some r, f), g) => ((some (0, r), f :: rest), g)
    | ((none, f), g) =>
      let ((a, rest), g) := lookFirst me rest g
      ((a.map (fun a => (a.1 + 1, a.2)), f :: rest), g)

def lookAll (me : TaskId) : List Item → Future.Ground → List Item × Future.Ground
  | [], g => ([], g)
  | .closed r :: rest, g =>
    let (rest, g) := lookAll me rest g
    (.closed r :: rest, g)
  | .open f :: rest, g =>
    let ((r, f), g) := f.look me g
    let (rest, g) := lookAll me rest g
    ((match r with
      | some r => .closed r
      | none => .open f) :: rest, g)

end WorkflowReplay
