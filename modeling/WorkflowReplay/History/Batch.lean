import WorkflowReplay.Error

/-!
# Batches of a history

A history is handled one decision task at a time.  A batch reaches from the current position
through the event that closes a decision task; when the task was completed, the events that the
orchestrator wrote right after it for the decisions of that task belong to the batch as well.
The last batch of a history has no closing event: its decision task is the live one.

A `BatchQueue` holds the part of a history that was delivered and not yet handed out.  Pages may
arrive at any time; a batch is handed out only when no later page can change it.
-/

set_option autoImplicit false

namespace WorkflowReplay

structure Batch where
  /-- The events up to and with the closing event. -/
  events : List HistoryEvent
  decisionEvents : List HistoryEvent
  markers : List HistoryEvent
  /-- The batch lies before the task that is being answered. -/
  replay : Bool
  /-- What workflow code sees as the current time. -/
  time : Timestamp
  taskStartedId : EventId
  closing : Option EventType
  deriving DecidableEq, Repr

namespace Batch

def isCompleted (b : Batch) : Bool := b.closing == some .decisionTaskCompleted

def lastEventId? (b : Batch) : Option EventId :=
  (b.decisionEvents.getLast?.or b.events.getLast?).map (·.id)

end Batch

inductive NextBatch where
  | ready (batch : Batch)
  /-- More pages are needed, or the history does not reach the live task. -/
  | incomplete
  | exhausted
  deriving DecidableEq, Repr

structure BatchQueue where
  startedEventId : EventId
  buffer : List HistoryEvent := []
  lastEventId : EventId := 0
  morePages : Bool := false
  liveReached : Bool := false
  deriving DecidableEq, Repr

namespace BatchQueue

def new (startedEventId : EventId) : BatchQueue := { startedEventId }

/-- Walks over the ids of a page.  Answers the last id that was in order and, if there is one, the
id that is not larger than it. -/
def checkIds (last : EventId) : List HistoryEvent → EventId × Option EventId
  | [] => (last, none)
  | e :: rest => if e.id ≤ last then (last, some e.id) else checkIds e.id rest

/-- Appends a page.  A page with an id out of order is refused, but the ids before that one
still count as seen. -/
def pushPage (q : BatchQueue) (events : List HistoryEvent) (morePages : Bool) :
    Option ReplayError × BatchQueue :=
  match checkIds q.lastEventId events with
  | (last, some bad) =>
    (some (.malformedHistory (.outOfOrder bad last)), { q with lastEventId := last })
  | (last, none) =>
    (none, { q with buffer := q.buffer ++ events, lastEventId := last, morePages })

def ofHistory (events : List HistoryEvent) (startedEventId : EventId) :
    Except ReplayError BatchQueue :=
  match (new startedEventId).pushPage events false with
  | (some e, _) => .error e
  | (none, q) => .ok q

/-- Cuts the events after the first closing one: what lies before and at it, the type of the
closing event, and the rest; `none` if no event closes a decision task. -/
def splitAtClosing : List HistoryEvent →
    Option (List HistoryEvent × EventType × List HistoryEvent)
  | [] => none
  | e :: rest =>
    if e.type.isDecisionTaskClosing then some ([e], e.type, rest)
    else
      match splitAtClosing rest with
      | some (events, type, after) => some (e :: events, type, after)
      | none => none

def lastStarted? (events : List HistoryEvent) : Option HistoryEvent :=
  events.reverse.find? (fun e => e.type.isDecisionTaskStarted)

def closedTask (e : HistoryEvent) : EventId :=
  match e.attributes with
  | .decisionTaskCompleted a => a.startedEventId
  | .decisionTaskFailed a => a.startedEventId
  | .decisionTaskTimedOut a => a.startedEventId
  | _ => e.id

/-- When a batch began: the id and the time of its start event.  A history that begins after that
event has the id from the closing event and the time of the closing event itself. -/
def startOf (events : List HistoryEvent) : EventId × Timestamp :=
  match lastStarted? events with
  | some e => (e.id, e.timestamp)
  | none =>
    match events.getLast? with
    | some e => (closedTask e, e.timestamp)
    | none => (0, ⟨0, 0⟩)

def handOut (q : BatchQueue) (events decisionEvents : List HistoryEvent)
    (closing : Option EventType) (rest : List HistoryEvent) : NextBatch × BatchQueue :=
  let (taskStartedId, time) := startOf events
  let replay := !q.liveReached && taskStartedId < q.startedEventId
  (.ready
    { events, decisionEvents, replay, time, taskStartedId, closing
      markers := (events ++ decisionEvents).filter (·.isMarker) },
    { q with buffer := rest, liveReached := q.liveReached || !replay })

def poll (q : BatchQueue) : NextBatch × BatchQueue :=
  if q.buffer.isEmpty then (if q.morePages then .incomplete else .exhausted, q)
  else
    match splitAtClosing q.buffer with
    | some (events, type, after) =>
      if type = .decisionTaskCompleted then
        let decisionEvents := after.takeWhile (fun e => e.type.isDecisionEvent)
        let rest := after.dropWhile (fun e => e.type.isDecisionEvent)
        if rest.isEmpty && q.morePages then (.incomplete, q)
        else q.handOut events decisionEvents (some type) rest
      else q.handOut events [] (some type) after
    | none =>
      let live := match lastStarted? q.buffer with
        | some e => q.startedEventId ≤ e.id
        | none => false
      if q.morePages || !live then (.incomplete, q) else q.handOut q.buffer [] none []

/-- All batches that a queue hands out before it has none ready.  `fuel` bounds their number and
is never short when it exceeds the number of buffered events. -/
def pollAll (q : BatchQueue) : Nat → List Batch × BatchQueue
  | 0 => ([], q)
  | fuel + 1 =>
    match q.poll with
    | (.ready batch, q) =>
      let (batches, q) := pollAll q fuel
      (batch :: batches, q)
    | (_, q) => ([], q)

def drain (q : BatchQueue) : List Batch × BatchQueue := q.pollAll (q.buffer.length + 1)

end BatchQueue

end WorkflowReplay
