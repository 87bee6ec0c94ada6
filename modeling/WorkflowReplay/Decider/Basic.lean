import WorkflowReplay.Decider.Cache
import WorkflowReplay.Decider.Fetch
import WorkflowReplay.Decider.Registry
import WorkflowReplay.Run.Engine

/-!
# Deciders

A `Decider` answers the decision tasks of many runs.  It fetches the rest of the history of a task,
lets the engine of the run answer, and sends one response.  The engines of the runs that were used
last are kept; an engine is kept only after an answer that was delivered and that did not end the
run.
-/

set_option autoImplicit false

namespace WorkflowReplay

inductive Handling where
  | completed (decisions : Nat) (workflowCompleted : Bool)
  | failed (cause : FailedCause)
  deriving DecidableEq, Repr

structure Decider where
  config : Config
  registry : Registry Workflow
  cache : Cache Engine
  metrics : Metrics := .empty

structure Processed where
  result : Except (FailedCause × Error) Completion
  reports : List Json := []
  decider : Decider

structure Handled where
  result : Except Error Handling
  /-- The responses that were sent, also one that was refused. -/
  responses : List Response
  requests : List PageRequest
  reports : List Json
  decider : Decider

namespace Decider

def new (config : Config) (registry : Registry Workflow) : Decider :=
  { config, registry, cache := .new config.maxCachedWorkflows }

def count (d : Decider) (metric : Metric) (n : Nat) : Decider :=
  { d with metrics := d.metrics.count metric n }

def forget (d : Decider) (run : Execution) : Decider :=
  { d with cache := (d.cache.evict run).2 }

def keep (d : Decider) (run : Execution) (e : Engine) : Decider :=
  let (evicted, cache) := d.cache.insert run e
  let d := { d with cache }
  if evicted.isSome then d.count .cacheEviction 1 else d

def startsRun (t : DecisionTask) : Bool :=
  match t.history with
  | [] => false
  | e :: _ => e.type == .workflowExecutionStarted

def newEngine (d : Decider) (t : DecisionTask) : Except (FailedCause × Error) Engine :=
  if startsRun t then
    match d.registry.get? t.workflowType with
    | none => .error (.workflowWorkerUnhandledFailure, .workflowNotFound t.workflowType)
    | some workflow =>
      .ok (.new
        { execution := t.execution
          workflowType := t.workflowType
          domain := d.config.domain
          taskList := d.config.taskList }
        workflow)
  else
    .error (.resetStickyTaskList, .historyUnavailable
      ("no cached state for " ++ t.execution.text ++ " and history is partial"))

def engineFor (d : Decider) (t : DecisionTask) :
    Except (FailedCause × Error) Engine × Decider :=
  let (kept, cache) := d.cache.get t.execution
  let d := { d with cache }
  match kept with
  | some e => (.ok e, d.count .cacheHit 1)
  | none => (d.newEngine t, d.count .cacheMiss 1)

def faultError : Fault → Error
  | .error e => e
  | .panicked message => .panicked message

/-- Lets an engine answer a task, and keeps it if it can go on. -/
def process (d : Decider) (t : DecisionTask) : Processed :=
  match d.engineFor t with
  | (.error failure, d) => { result := .error failure, decider := d }
  | (.ok e, d) =>
    let (answer, e) := e.process t
    let (reports, e) := e.takeReports
    let d := { d with metrics := d.metrics.ofAnswer answer }
    match answer with
    | .ok c =>
      { result := .ok c
        reports
        decider := if c.workflowCompleted then d.forget t.execution else d.keep t.execution e }
    | .error fault =>
      let err := faultError fault
      { result := .error (.ofError err, err), reports, decider := d.forget t.execution }

def answer (d : Decider) (t : DecisionTask) (fetch : Fetch) : Processed :=
  let d := d.count .historyPagesFetched fetch.pages
  match fetch.result with
  | .ok t => d.process t
  | .error e =>
    { result := .error (.workflowWorkerUnhandledFailure, e), decider := d.forget t.execution }

/-- Answers a task with one response.  The time that this took counts only if the response was
delivered, and an engine whose decisions were not delivered is forgotten. -/
def handle (d : Decider) (source : HistorySource) (sink : Sink) (t : DecisionTask) : Handled :=
  let fetch := d.config.fetch source t
  let p := d.answer t fetch
  match p.result with
  | .ok c =>
    let d := (p.decider.count .decisionTaskCompleted 1).count .decisionsSent c.decisions.length
    let response := .completed t.token c.decisions d.config.identity
    let handled (result : Except Error Handling) (d : Decider) : Handled :=
      { result, responses := [response], requests := fetch.requests, reports := p.reports
        decider := d }
    match sink response with
    | some e => handled (.error e) (d.forget t.execution)
    | none =>
      handled (.ok (.completed c.decisions.length c.workflowCompleted))
        { d with metrics := d.metrics.record .decisionTaskLatency ⟨0⟩ }
  | .error (cause, e) =>
    let d := p.decider.count .decisionTaskFailed 1
    let response := .failed t.token cause (some (Text.utf8 e.message)) d.config.identity
    let handled (result : Except Error Handling) (d : Decider) : Handled :=
      { result, responses := [response], requests := fetch.requests, reports := p.reports
        decider := d }
    match sink response with
    | some e => handled (.error e) d
    | none =>
      handled (.ok (.failed cause))
        { d with metrics := d.metrics.record .decisionTaskLatency ⟨0⟩ }

end Decider

end WorkflowReplay
