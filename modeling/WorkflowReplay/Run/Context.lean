import WorkflowReplay.Codec
import WorkflowReplay.Decision.Ledger
import WorkflowReplay.Random
import WorkflowReplay.Schedule.Waiting
import WorkflowReplay.Time.Span

/-!
# The context of a run

What a run knows besides its tasks: its requests and who waits for them, the clock, the signals
that nobody has received yet, and the side effects that the history recorded.  All of it is
derived from the history and from what the workflow code did, so that a replay derives it again.
-/

set_option autoImplicit false

namespace WorkflowReplay

open Schedule

structure RunInfo where
  execution : Execution := {}
  workflowType : String := ""
  domain : String := ""
  taskList : String := ""
  deriving DecidableEq, Repr

structure ActivityOptions where
  id : Option String := none
  taskList : Option String := none
  scheduleToClose : Span := .ofSeconds 300
  scheduleToStart : Span := .ofSeconds 60
  startToClose : Span := .ofSeconds 240
  heartbeat : Span := .ofSeconds 0
  deriving DecidableEq, Repr

structure ChildOptions where
  id : Option String := none
  domain : Option String := none
  taskList : Option String := none
  execution : Span := .ofSeconds 3600
  task : Span := .ofSeconds 10
  deriving DecidableEq, Repr

structure Context where
  info : RunInfo
  ledger : Ledger := .empty
  /-- The placeholders of the requests whose outcome is not known. -/
  waiting : Table DecisionId PlaceholderId := .empty
  /-- The code runs for a task whose decisions were accepted before. -/
  replaying : Bool := false
  time : Int := 0
  nextId : Nat := 0
  nextSideEffect : Nat := 0
  sideEffects : Table String (Option Payload) := .empty
  /-- The signals that nobody has received, by their names. -/
  signals : Table String (List (Option Payload)) := .empty
  /-- Who waits for a signal, the first one first. -/
  signalWaiters : Table String (List PlaceholderId) := .empty
  cancelRequested : Bool := false
  random : Random
  /-- Where the code left the history. -/
  contradiction : Option ReplayError := none
  reports : List Json := []

namespace Context

def new (info : RunInfo) : Context := { info, random := .ofRunId info.execution.runId }

/-- The clock as a point in time; a clock that no point in time shows stands at 1970. -/
def now (c : Context) : Timestamp := (Timestamp.ofMillis? c.time).getD ⟨0, 0⟩

def freshId (c : Context) : String × Context :=
  (toString c.nextId, { c with nextId := c.nextId + 1 })

def freshSideEffect (c : Context) : String × Context :=
  (toString c.nextSideEffect, { c with nextSideEffect := c.nextSideEffect + 1 })

/-- Notes where the code left the history; the first place stays. -/
def contradict (c : Context) (e : ReplayError) : Context :=
  { c with contradiction := some (c.contradiction.getD e) }

def report (c : Context) (entry : Json) : Context := { c with reports := c.reports ++ [entry] }

/-! ## Markers -/

def sideEffectMarker : String := "SideEffect"

def loadMarker (c : Context) (e : HistoryEvent) : Context :=
  match e.attributes with
  | .markerRecorded a =>
    if a.markerName = sideEffectMarker then
      { c with sideEffects := c.sideEffects.insert a.markerId a.details }
    else c
  | _ => c

def loadMarkers (c : Context) (events : List HistoryEvent) : Context :=
  events.foldl loadMarker c

/-! ## Signals -/

def takeSignal? (c : Context) (name : String) : Option (Option Payload × Context) :=
  match c.signals.getD name [] with
  | [] => none
  | input :: rest => some (input, { c with signals := c.signals.insert name rest })

def bufferSignal (c : Context) (name : String) (input : Option Payload) : Context :=
  { c with signals := c.signals.insert name (c.signals.getD name [] ++ [input]) }

def awaitSignal (c : Context) (name : String) (id : PlaceholderId) : Context :=
  { c with
    signalWaiters := c.signalWaiters.insert name (c.signalWaiters.getD name [] ++ [id]) }

end Context

end WorkflowReplay
