import WorkflowReplay.Decision.Machine
import WorkflowReplay.Error
import WorkflowReplay.Table

/-!
# The requests of a run

A `Ledger` owns the machine of every request that a run ever made.  A history event finds its
machine by the id that the workflow chose, or by the event that accepted the request; the latter
is remembered as an alias.  Search attribute events name nothing and belong to the oldest upsert
that was not matched yet.  A miss means that the history and the workflow disagree.

Pending decisions are collected in the order in which the requests were last touched.
-/

set_option autoImplicit false

namespace WorkflowReplay

inductive RouteKey where
  | caller (id : DecisionId)
  | follower (target : DecisionTarget) (eventId : EventId)
  | nextUpsert
  deriving DecidableEq, Repr

inductive EventRole where
  | initiated
  | started
  | completion
  | canceled
  | cancelInitiated
  | cancelFailed
  | externalCancelResolved
  deriving DecidableEq, Repr

structure Route where
  key : RouteKey
  role : EventRole
  deriving DecidableEq, Repr

/-- Where an event belongs; `none` for events that concern no request. -/
def Route.of : EventAttributes → Option Route
  | .activityTaskScheduled a => some ⟨.caller ⟨.activity, a.activityId⟩, .initiated⟩
  | .activityTaskStarted a => some ⟨.follower .activity a.scheduledEventId, .started⟩
  | .activityTaskCompleted a => some ⟨.follower .activity a.scheduledEventId, .completion⟩
  | .activityTaskFailed a => some ⟨.follower .activity a.scheduledEventId, .completion⟩
  | .activityTaskTimedOut a => some ⟨.follower .activity a.scheduledEventId, .completion⟩
  | .activityTaskCanceled a => some ⟨.follower .activity a.scheduledEventId, .canceled⟩
  | .activityTaskCancelRequested a => some ⟨.caller ⟨.activity, a.activityId⟩, .cancelInitiated⟩
  | .requestCancelActivityTaskFailed a => some ⟨.caller ⟨.activity, a.activityId⟩, .cancelFailed⟩
  | .timerStarted a => some ⟨.caller ⟨.timer, a.timerId⟩, .initiated⟩
  | .timerFired a => some ⟨.follower .timer a.startedEventId, .completion⟩
  | .timerCanceled a => some ⟨.follower .timer a.startedEventId, .canceled⟩
  | .cancelTimerFailed a => some ⟨.caller ⟨.timer, a.timerId⟩, .cancelFailed⟩
  | .startChildWorkflowExecutionInitiated a =>
    some ⟨.caller ⟨.childWorkflow, a.workflowId⟩, .initiated⟩
  | .startChildWorkflowExecutionFailed a =>
    some ⟨.follower .childWorkflow a.initiatedEventId, .completion⟩
  | .childWorkflowExecutionStarted a => some ⟨.follower .childWorkflow a.initiatedEventId, .started⟩
  | .childWorkflowExecutionCompleted a =>
    some ⟨.follower .childWorkflow a.initiatedEventId, .completion⟩
  | .childWorkflowExecutionFailed a =>
    some ⟨.follower .childWorkflow a.initiatedEventId, .completion⟩
  | .childWorkflowExecutionTimedOut a =>
    some ⟨.follower .childWorkflow a.initiatedEventId, .completion⟩
  | .childWorkflowExecutionTerminated a =>
    some ⟨.follower .childWorkflow a.initiatedEventId, .completion⟩
  | .childWorkflowExecutionCanceled a =>
    some ⟨.follower .childWorkflow a.initiatedEventId, .canceled⟩
  | .requestCancelExternalWorkflowExecutionInitiated a =>
    if a.childWorkflowOnly then
      some ⟨.caller ⟨.childWorkflow, a.workflowExecution.workflowId⟩, .cancelInitiated⟩
    else some ⟨.caller ⟨.cancelExternalWorkflow, a.control⟩, .initiated⟩
  | .requestCancelExternalWorkflowExecutionFailed a =>
    some ⟨.follower .cancelExternalWorkflow a.initiatedEventId, .externalCancelResolved⟩
  | .externalWorkflowExecutionCancelRequested a =>
    some ⟨.follower .cancelExternalWorkflow a.initiatedEventId, .externalCancelResolved⟩
  | .signalExternalWorkflowExecutionInitiated a =>
    some ⟨.caller ⟨.signalExternalWorkflow, a.control⟩, .initiated⟩
  | .signalExternalWorkflowExecutionFailed a =>
    some ⟨.follower .signalExternalWorkflow a.initiatedEventId, .completion⟩
  | .externalWorkflowExecutionSignaled a =>
    some ⟨.follower .signalExternalWorkflow a.initiatedEventId, .completion⟩
  | .markerRecorded a => some ⟨.caller ⟨.marker, a.markerId⟩, .initiated⟩
  | .upsertWorkflowSearchAttributes _ => some ⟨.nextUpsert, .initiated⟩
  | .workflowExecutionStarted _ | .workflowExecutionCompleted _ | .workflowExecutionFailed _
  | .workflowExecutionCancelRequested _ | .workflowExecutionSignaled _ | .decisionTaskScheduled _
  | .decisionTaskStarted _ | .decisionTaskCompleted _ | .decisionTaskFailed _
  | .decisionTaskTimedOut _ => none

structure Ledger where
  /-- Every machine ever made; a machine is known by its index. -/
  machines : List Machine := []
  /-- The latest machine of each id. -/
  byId : Table DecisionId Nat := .empty
  /-- The machines by the events that accepted them. -/
  aliases : Table (DecisionTarget × EventId) Nat := .empty
  /-- The machines that may have decisions, the one touched last at the end. -/
  order : List Nat := []
  pendingUpserts : List Nat := []
  deriving Inhabited

namespace Ledger

def empty : Ledger := {}

/-! ## Looking at requests -/

def machine? (m : Ledger) (id : DecisionId) : Option Machine :=
  (m.byId.get? id).bind (fun i => m.machines[i]?)

def stateOf? (m : Ledger) (id : DecisionId) : Option DecisionState :=
  (m.machine? id).map Machine.state

def contains (m : Ledger) (id : DecisionId) : Bool := m.byId.contains id

def isLive (m : Ledger) (id : DecisionId) : Bool :=
  match m.machine? id with
  | some machine => !machine.isTerminal
  | none => false

def isTerminalAt (m : Ledger) (i : Nat) : Bool :=
  match m.machines[i]? with
  | some machine => machine.isTerminal
  | none => true

/-- The number of ids that name a request which is not settled. -/
def liveCount (m : Ledger) : Nat := m.byId.values.countP (fun i => !m.isTerminalAt i)

/-! ## Making requests -/

/-- Makes a request.  An id that names a request which is not settled keeps naming it, and the
new request is dropped. -/
def request (m : Ledger) (r : Request) : Ledger :=
  let index := m.machines.length
  let fresh (order : List Nat) : Ledger :=
    { m with
      machines := m.machines ++ [{ request := r }]
      byId := m.byId.insert r.id index
      order := order ++ [index] }
  match m.byId.get? r.id with
  | some existing =>
    if m.isTerminalAt existing then fresh (m.order.filter (· ≠ existing)) else m
  | none => fresh m.order

/-- Makes a request to change search attributes, which waits for the next event of its kind. -/
def upsert (m : Ledger) (id : String) (attributes : SearchAttributes) : Ledger :=
  let m := m.request (.upsert id attributes)
  match m.byId.get? ⟨.upsertSearchAttributes, id⟩ with
  | some i =>
    if m.pendingUpserts.contains i then m
    else { m with pendingUpserts := m.pendingUpserts ++ [i] }
  | none => m

/-- Asks for a request to be canceled, which touches it.  `none` if it cannot be canceled. -/
def requestCancel? (m : Ledger) (id : DecisionId) : Option Ledger := do
  let i ← m.byId.get? id
  let machine ← m.machines[i]?
  let machine ← machine.requestCancel?
  return { m with
    machines := m.machines.set i machine
    order := m.order.filter (· ≠ i) ++ [i] }

/-! ## Events -/

/-- The machine that an event belongs to, and the upserts that wait after it. -/
def locate (m : Ledger) (key : RouteKey) (e : HistoryEvent) :
    Except ReplayError (Nat × List Nat) :=
  match key with
  | .caller id =>
    match m.byId.get? id with
    | some i => .ok (i, m.pendingUpserts)
    | none => .error (.unknownDecision id e.id e.type)
  | .follower target eventId =>
    match m.aliases.get? (target, eventId) with
    | some i => .ok (i, m.pendingUpserts)
    | none => .error (.unknownAlias target eventId e.id e.type)
  | .nextUpsert =>
    match m.pendingUpserts with
    | i :: rest => .ok (i, rest)
    | [] => .error (.unmatchedEvent e.id e.type)

structure Reaction where
  machine : Machine
  outcome : Option Outcome := none
  /-- The target under which later events name the machine by this event. -/
  newAlias : Option DecisionTarget := none
  deriving DecidableEq, Repr

/-- The reaction of a machine to an event of the given role; `none` if it ignores the event. -/
def react? (machine : Machine) (role : EventRole) (e : HistoryEvent) : Option Reaction :=
  match role with
  | .initiated =>
    (machine.initiated? e).map (fun m => { machine := m, newAlias := some machine.id.target })
  | .started => (machine.started? e).map (fun m => { machine := m })
  | .completion => (machine.completed? e).map (fun r => { machine := r.2, outcome := some r.1 })
  | .canceled => (machine.canceled? e).map (fun r => { machine := r.2, outcome := some r.1 })
  | .cancelInitiated =>
    (machine.cancelInitiated? e).map (fun m =>
      { machine := m
        newAlias := if machine.id.target = .childWorkflow then some .cancelExternalWorkflow
          else none })
  | .cancelFailed => (machine.cancelFailed? e).map (fun m => { machine := m })
  | .externalCancelResolved =>
    if machine.id.target = .childWorkflow then
      if e.type = .requestCancelExternalWorkflowExecutionFailed then
        (machine.cancelFailed? e).map (fun m => { machine := m })
      else none
    else (machine.completed? e).map (fun r => { machine := r.2, outcome := some r.1 })

def handleEvent (m : Ledger) (e : HistoryEvent) :
    Except ReplayError (Option Resolution × Ledger) :=
  match Route.of e.attributes with
  | none => .ok (none, m)
  | some route =>
    match m.locate route.key e with
    | .error err => .error err
    | .ok (i, pendingUpserts) =>
      let m := { m with pendingUpserts }
      match m.machines[i]?.bind (fun machine => react? machine route.role e) with
      | none => .ok (none, m)
      | some r =>
        .ok (r.outcome.map (fun o => ⟨r.machine.id, o⟩),
          { m with
            machines := m.machines.set i r.machine
            aliases := match r.newAlias with
              | some target => m.aliases.insertIfNew (target, e.id) i
              | none => m.aliases })

/-! ## Collecting decisions -/

def pendingOf (machines : List Machine) (order : List Nat) : List Decision :=
  order.flatMap (fun i =>
    match machines[i]? with
    | some machine => machine.pending
    | none => [])

def pending (m : Ledger) : List Decision := pendingOf m.machines m.order

/-- Counts all pending decisions as sent, and forgets the place of settled requests. -/
def notifySent (m : Ledger) : Ledger :=
  let machines := m.order.foldl (fun ms i => ms.modify i Machine.markSent) m.machines
  let m := { m with machines }
  { m with order := m.order.filter (fun i => !m.isTerminalAt i) }

def collect (m : Ledger) : List Decision × Ledger := (m.pending, m.notifySent)

end Ledger

end WorkflowReplay
