import WorkflowReplay.Schedule.Scheduler
import WorkflowReplay.Run.Future

/-!
# What workflow code can do

Workflow code touches the outside through the calls below only.  A call either makes a request and
answers a future for its outcome, or reads what the run derived from its history.  A result that
cannot be derived again, such as that of a side effect, is recorded in the history.
-/

set_option autoImplicit false

namespace WorkflowReplay

open Schedule

/-- A computation that is not repeated on replay.  Running it reports an entry and gives a value
or panics. -/
structure Closure where
  entry : Json
  result : Except String Json

inductive SideEffect where
  | result (r : Except Error Json)
  | panicked (message : String)

inductive Call where
  | activity (type : String) (input : Json) (shape : Shape) (options : ActivityOptions)
  | timer (delay : Span)
  | child (type : String) (input : Json) (shape : Shape) (options : ChildOptions)
  | signalExternal (run : Execution) (signal : String) (input : Json) (childOnly : Bool)
  | cancelExternal (run : Execution) (childOnly : Bool)
  | cancel (f : Future)
  | drop (f : Future)
  | sideEffect (closure : Closure) (shape : Shape)
  | upsert (attributes : List (String × Json))
  | info
  | time
  | now
  | isReplaying
  | isCancelRequested
  | randomWord
  | randomUuid
  | report (entry : Json)

@[reducible] def Call.Reply : Call → Type
  | .activity .. | .child .. => Except Error Future
  | .timer _ => Except String Future
  | .signalExternal .. | .cancelExternal .. => Future
  | .cancel _ => Future
  | .drop _ | .report _ => Unit
  | .sideEffect .. => SideEffect
  | .upsert _ => Except Error Unit
  | .info => RunInfo
  | .time => Int
  | .now => Timestamp
  | .isReplaying | .isCancelRequested => Bool
  | .randomWord => UInt64
  | .randomUuid => List UInt8

inductive Await where
  | first (fs : List Future)
  | every (items : List Item)

structure Arrival where
  place : Nat := 0
  result : Except Error Json

@[reducible] def calls : Interface where
  Command := Call
  Reply := Call.Reply
  Wait := Await
  Answer := Arrival
  Output := Except Error Json
  Value := Outcome
  Shared := Context

abbrev WorkflowCode := Code calls

abbrev Run := World calls

namespace Run

/-! ## Requests -/

def ask (request : Request) (promise : Promise) (w : Run) : Future × Run :=
  let (id, board) := w.board.make
  (.request promise id false,
    { board
      shared := { w.shared with
        ledger := w.shared.ledger.request request
        waiting := w.shared.waiting.insert request.id id } })

/-- The id that the code chose, or a fresh one. -/
def chosenId (id : Option String) (c : Context) : String × Context :=
  match id with
  | some id => (id, c)
  | none => c.freshId

def activity (type : String) (input : Json) (shape : Shape) (o : ActivityOptions) (w : Run) :
    Except Error Future × Run :=
  let (id, c) := chosenId o.id w.shared
  let w : Run := { w with shared := c }
  if c.ledger.isLive ⟨.activity, id⟩ then
    (.error (.invalidInput ("activity id " ++ id ++ " is already in use")), w)
  else
    let (f, w) := w.ask
      (.activity {
        activityId := id
        activityType := type
        taskList := o.taskList.getD c.info.taskList
        input := some (Codec.encodeValue input)
        scheduleToCloseTimeoutSeconds := o.scheduleToClose.timeoutSeconds
        scheduleToStartTimeoutSeconds := o.scheduleToStart.timeoutSeconds
        startToCloseTimeoutSeconds := o.startToClose.timeoutSeconds
        heartbeatTimeoutSeconds := o.heartbeat.timeoutSeconds })
      (.activity id shape)
    (.ok f, w)

def timerTooLong : String := "attempt to add with overflow"

/-- Starts a timer, or panics.  A timer without delay fires at once and is no request; one that is
too long takes its id and its placeholder before it panics. -/
def timer (delay : Span) (w : Run) : Except String Future × Run :=
  if delay.isZero then
    let (id, board) := w.board.make
    let (_, board) := board.resolve id (.completed none)
    (.ok (.request (.timer none) id false), { w with board })
  else
    let (id, c) := w.shared.freshId
    match delay.timerSeconds? with
    | some startToFireTimeoutSeconds =>
      let (f, w) := Run.ask (.timer { timerId := id, startToFireTimeoutSeconds })
        (.timer (some id)) { w with shared := c }
      (.ok f, w)
    | none =>
      let (placeholder, board) := w.board.make
      (.error timerTooLong, { board := board.drop placeholder, shared := c })

/-- The id that the code chose for a child, or a fresh one that begins with the id of the run. -/
def childId (id : Option String) (c : Context) : String × Context :=
  match id with
  | some id => (id, c)
  | none =>
    let (n, c) := c.freshId
    (c.info.execution.runId ++ "_" ++ n, c)

def child (type : String) (input : Json) (shape : Shape) (o : ChildOptions) (w : Run) :
    Except Error Future × Run :=
  let (id, c) := childId o.id w.shared
  let w : Run := { w with shared := c }
  if c.ledger.isLive ⟨.childWorkflow, id⟩ then
    (.error (.invalidInput ("child workflow id " ++ id ++ " is already in use")), w)
  else
    let (f, w) := w.ask
      (.child {
        domain := o.domain.getD c.info.domain
        workflowId := id
        workflowType := type
        taskList := o.taskList.getD c.info.taskList
        input := some (Codec.encodeValue input)
        executionStartToCloseTimeoutSeconds := o.execution.timeoutSeconds
        taskStartToCloseTimeoutSeconds := o.task.timeoutSeconds } none none)
      (.child id shape)
    (.ok f, w)

def signalExternal (run : Execution) (signal : String) (input : Json) (childOnly : Bool)
    (w : Run) : Future × Run :=
  let (control, c) := w.shared.freshId
  Run.ask
    (.signal {
      domain := c.info.domain
      execution := run
      signalName := signal
      input := some (Codec.encodeValue input)
      control
      childWorkflowOnly := childOnly })
    (.external ⟨.signalExternalWorkflow, control⟩ run.workflowId) { w with shared := c }

def cancelExternal (run : Execution) (childOnly : Bool) (w : Run) : Future × Run :=
  let (control, c) := w.shared.freshId
  Run.ask
    (.cancelExternal {
      domain := c.info.domain
      workflowId := run.workflowId
      runId := run.runId
      control
      childWorkflowOnly := childOnly })
    (.external ⟨.cancelExternalWorkflow, control⟩ run.workflowId) { w with shared := c }

def upsert (attributes : List (String × Json)) (w : Run) : Except Error Unit × Run :=
  if attributes.isEmpty then
    (.error (.invalidInput "search attributes must not be empty"), w)
  else
    let (id, c) := w.shared.freshId
    let encoded := attributes.map (fun a => (a.1, Codec.encodeValue a.2))
    (.ok (), { w with shared := { c with ledger := c.ledger.upsert id encoded } })

/-! ## Canceling -/

def settle (id : DecisionId) (o : Outcome) (w : Run) : Run :=
  match w.shared.waiting.get? id with
  | none => w
  | some p =>
    { board := (w.board.resolve p o).2
      shared := { w.shared with waiting := w.shared.waiting.erase id } }

/-- Asks for a request to be canceled.  A timer that can be canceled ends at once; all else ends
when the history says so. -/
def requestCancel (id : DecisionId) (w : Run) : Bool × Run :=
  match w.shared.ledger.requestCancel? id with
  | none => (false, w)
  | some ledger =>
    let w : Run := { w with shared := { w.shared with ledger } }
    (true, if id.target = .timer then w.settle id (.canceled none) else w)

def cancel (f : Future) (w : Run) : Future × Run :=
  match f with
  | .request promise placeholder accepted =>
    match promise.decisionId? with
    | none => (f, w)
    | some id =>
      let (accepted', w) := w.requestCancel id
      (.request promise placeholder (accepted || accepted'), w)
  | _ => (f, w)

def drop (f : Future) (w : Run) : Run :=
  match f.placeholder? with
  | some id => { w with board := w.board.drop id }
  | none => w

/-! ## Side effects -/

/-- Runs a closure once in the life of a run: its result is recorded, and a replay takes the
recorded result.  A replay that finds none has left the history. -/
def sideEffect (closure : Closure) (shape : Shape) (w : Run) : SideEffect × Run :=
  let (number, c) := w.shared.freshSideEffect
  let record (details : Option Payload) (c : Context) : SideEffect × Run :=
    let marker : Decision.RecordMarker :=
      { markerName := Context.sideEffectMarker, markerId := number, details }
    (.result (Codec.decodeValue shape details),
      { w with shared := { c with ledger := c.ledger.request (.marker marker) } })
  match c.sideEffects.get? number with
  | some details => record details c
  | none =>
    if c.replaying then
      let e : ReplayError := .malformedHistory (.unrecordedSideEffect number)
      (.result (.error (.replay e)), { w with shared := c.contradict e })
    else
      let c := c.report closure.entry
      match closure.result with
      | .ok v => record (some (Codec.encodeValue v)) c
      | .error message => (.panicked message, { w with shared := c })

/-! ## The meaning of calls -/

def read {α : Type} (f : Context → α) (w : Run) : α × Run := (f w.shared, w)

def perform (_ : TaskId) : (c : Call) → Run → c.Reply × Run
  | .activity type input shape options, w => w.activity type input shape options
  | .timer delay, w => w.timer delay
  | .child type input shape options, w => w.child type input shape options
  | .signalExternal run signal input childOnly, w => w.signalExternal run signal input childOnly
  | .cancelExternal run childOnly, w => w.cancelExternal run childOnly
  | .cancel f, w => w.cancel f
  | .drop f, w => ((), w.drop f)
  | .sideEffect closure shape, w => w.sideEffect closure shape
  | .upsert attributes, w => w.upsert attributes
  | .info, w => w.read Context.info
  | .time, w => w.read Context.time
  | .now, w => w.read Context.now
  | .isReplaying, w => w.read Context.replaying
  | .isCancelRequested, w => w.read Context.cancelRequested
  | .randomWord, w =>
    let (x, random) := w.shared.random.nextU64
    (x, { w with shared := { w.shared with random } })
  | .randomUuid, w =>
    let (x, random) := w.shared.random.nextUuid
    (x, { w with shared := { w.shared with random } })
  | .report entry, w => ((), { w with shared := w.shared.report entry })

def look (me : TaskId) : Await → Future.Ground → (Option Arrival × Await) × Future.Ground
  | .first fs, g =>
    let ((a, fs), g) := lookFirst me fs g
    ((a.map (fun a => ⟨a.1, a.2⟩), .first fs), g)
  | .every items, g =>
    let (items, g) := lookAll me items g
    (((Item.results? items).map (fun rs => { result := allResults rs }), .every items), g)

def meaning : Meaning calls := ⟨perform, look⟩

end Run

end WorkflowReplay
