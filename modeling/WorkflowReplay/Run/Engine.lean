import WorkflowReplay.History.Batch
import WorkflowReplay.History.Task
import WorkflowReplay.Metrics
import WorkflowReplay.Run.Events
import WorkflowReplay.Run.Workflow

/-!
# The engine of a run

An `Engine` answers the decision tasks of one run.  It goes through the history of a task batch by
batch: it applies the events of a batch, lets the workflow code run, and at the end collects the
decisions that the code made.  An engine that is kept between tasks skips the events that it has
applied.  When a task shows that the last answer never took effect, the engine starts again from
the first event.
-/

set_option autoImplicit false

namespace WorkflowReplay

open Schedule

structure Completion where
  decisions : List Decision
  /-- The decisions end the run, or earlier ones did. -/
  workflowCompleted : Bool
  deriving DecidableEq, Repr

inductive Fault where
  | error (e : Error)
  | panicked (message : String)
  deriving DecidableEq, Repr

structure Engine where
  workflow : Workflow
  scheduler : Scheduler calls
  root : Option TaskId := none
  completionEmitted : Bool := false
  lastEventId : EventId := 0
  /-- The start of the last task that was answered live; zero before the first. -/
  lastLiveId : EventId := 0

namespace Engine

def new (info : RunInfo) (workflow : Workflow) : Engine :=
  { workflow, scheduler := { world := { shared := .new info } } }

def context (e : Engine) : Context := e.scheduler.world.shared

def info (e : Engine) : RunInfo := e.context.info

def inRun (e : Engine) (f : Run → Run) : Engine :=
  { e with scheduler := { e.scheduler with world := f e.scheduler.world } }

def inContext (e : Engine) (f : Context → Context) : Engine :=
  e.inRun (fun w => { w with shared := f w.shared })

/-! ## Lost answers -/

def isLostAnswer (e : Engine) (event : HistoryEvent) : Bool :=
  e.lastLiveId < event.id &&
    (event.type == .decisionTaskFailed || event.type == .decisionTaskTimedOut)

/-- The task shows that the last live answer never took effect. -/
def isStaleFor (e : Engine) (t : DecisionTask) : Bool :=
  e.lastLiveId != 0 &&
    ((0 < t.previousStartedEventId && t.previousStartedEventId != e.lastLiveId) ||
      t.history.any e.isLostAnswer)

def reset (e : Engine) : Engine := new e.info e.workflow

/-! ## Batches -/

def startRoot (e : Engine) (input : Option Payload) : Except Fault Unit × Engine :=
  match e.root with
  | some _ => (.ok (), e)
  | none =>
    match e.workflow.start input with
    | .error message => (.error (.panicked message), e)
    | .ok code =>
      let (id, scheduler) := e.scheduler.spawn code
      (.ok (), { e with scheduler, root := some id })

def applyEvent (e : Engine) (event : HistoryEvent) : Except Fault Unit × Engine :=
  if event.id ≤ e.lastEventId then (.ok (), e)
  else
    let e := { e with lastEventId := event.id }
    match event.attributes with
    | .workflowExecutionStarted a => e.startRoot a.input
    | _ =>
      match Run.applyEvent event e.scheduler.world with
      | .error err => (.error (.error (.replay err)), e)
      | .ok world => (.ok (), e.inRun fun _ => world)

/-- Applies events in turn, up to the first that is refused. -/
def applyEvents (e : Engine) : List HistoryEvent → Except Fault Unit × Engine
  | [] => (.ok (), e)
  | event :: rest =>
    match e.applyEvent event with
    | (.ok (), e) => e.applyEvents rest
    | failed => failed

def failureText (f : TaskFailure) : String := f.task.text ++ ": " ++ f.message

/-- Lets the workflow code run.  A contradiction with the history is worse than a panic. -/
def runTasks (e : Engine) : Except Fault Unit × Engine :=
  let (report, scheduler) := e.scheduler.run Run.meaning
  let e := { e with scheduler }
  match e.context.contradiction with
  | some err =>
    (.error (.error (.replay err)), e.inContext fun c => { c with contradiction := none })
  | none =>
    match report.failures with
    | [] => (.ok (), e)
    | f :: _ => (.error (.error (.panicked (failureText f))), e)

/-- The code of a batch runs as a replay: the batch lies before the task that is answered, and its
decisions were accepted.  The decisions of a task that failed or ran out of time are not in the
history, so its code runs as if it were live. -/
def accepts (b : Batch) : Bool := b.replay && b.isCompleted

def applyBatch (e : Engine) (b : Batch) : Except Fault Unit × Engine :=
  let e := if b.replay then e else { e with lastLiveId := b.taskStartedId }
  let e := e.inContext fun c =>
    { c with replaying := accepts b, time := b.time.millis }.loadMarkers b.markers
  match e.applyEvents b.events with
  | (.ok (), e) =>
    match e.runTasks with
    | (.ok (), e) =>
      let e :=
        if accepts b then
          e.inContext fun c => { c with ledger := c.ledger.notifySent }
        else e
      e.applyEvents b.decisionEvents
    | failed => failed
  | failed => failed

def applyBatches (e : Engine) : List Batch → Except Fault Unit × Engine
  | [] => (.ok (), e)
  | b :: rest =>
    match e.applyBatch b with
    | (.ok (), e) => e.applyBatches rest
    | failed => failed

/-! ## Decisions -/

def terminalDecision : Except Error Json → Decision
  | .ok v => .completeWorkflowExecution (some (Codec.encodeValue v))
  | .error err =>
    .failWorkflowExecution err.reason
      (match err with
        | .workflowFailed _ (some details) => some details
        | _ => some (Codec.encodeValue (.str err.message)))

def takeTerminal (e : Engine) : Option Decision × Engine :=
  if e.completionEmitted then (none, e)
  else
    match e.root with
    | none => (none, e)
    | some id =>
      let (output, board) := e.scheduler.world.board.takeOutput id
      let e := e.inRun fun w => { w with board }
      match output with
      | none => (none, e)
      | some r => (some (terminalDecision r), { e with completionEmitted := true })

/-- Takes the decisions that were made and not yet sent; the one that ends the run is the last. -/
def takeDecisions (e : Engine) : List Decision × Engine :=
  let (decisions, ledger) := e.context.ledger.collect
  let e := e.inContext fun c => { c with ledger }
  match e.takeTerminal with
  | (none, e) => (decisions, e)
  | (some d, e) => (decisions ++ [d], e)

/-! ## Tasks -/

def staleText (e : Engine) : String :=
  "last answered task " ++ toString e.lastLiveId.toInt ++ " of " ++ e.info.execution.text ++
    " never took effect"

def replay (e : Engine) (t : DecisionTask) : Except Fault Unit × Engine :=
  match BatchQueue.ofHistory t.history t.startedEventId with
  | .error err => (.error (.error (.replay err)), e)
  | .ok q =>
    match e.applyBatches q.drain.1 with
    | (.ok (), e) =>
      if e.root.isNone && !e.completionEmitted then
        (.error (.error (.replay (.malformedHistory .neverStarted))), e)
      else (.ok (), e)
    | failed => failed

/-- Answers a task.  An engine that did not answer is of no more use. -/
def process (e : Engine) (t : DecisionTask) : Except Fault Completion × Engine :=
  if e.isStaleFor t && !t.hasFullHistory then (.error (.error (.staleState e.staleText)), e)
  else
    match (if e.isStaleFor t then e.reset else e).replay t with
    | (.error fault, e) => (.error fault, e)
    | (.ok (), e) =>
      let (decisions, e) := e.takeDecisions
      (.ok { decisions, workflowCompleted := e.completionEmitted }, e)

def takeReports (e : Engine) : List Json × Engine :=
  (e.context.reports, e.inContext fun c => { c with reports := [] })

end Engine

/-! ## Metrics -/

def Metrics.ofAnswer (m : Metrics) : Except Fault Completion → Metrics
  | .ok c =>
    let m := match c.decisions.getLast? with
      | some (.completeWorkflowExecution _) => m.count .workflowCompleted 1
      | some (.failWorkflowExecution _ _) => m.count .workflowFailed 1
      | _ => m
    m.record .decisionTaskReplayLatency ⟨0⟩
  | .error (.error (.panicked _)) => m.count .workflowPanicked 1
  | .error _ => m

end WorkflowReplay
