import WorkflowReplay.Proofs.Decision.Awaiting
import WorkflowReplay.Proofs.Run.Delivery
import WorkflowReplay.Proofs.Run.Exchange

/-!
# Canceling a timer

A timer that is canceled ends at once, before the history knows of it, while its machine goes on:
the cancel decision is sent or not, refused or confirmed, and the timer may fire all the same.  So
the future of a timer has two sources for its outcome.  It is the first of them that counts, a
request to cancel or the event that ends the timer, and nothing that comes later is an error, wakes
anyone or changes what the future gives.
-/

set_option autoImplicit false

namespace WorkflowReplay

open Schedule

/-! ## The life of a timer -/

namespace Lifecycle

/-- The life stands where the events left it: `begun` is the event that accepted the request, if
there was one. -/
structure StandsAt (l : Lifecycle) (begun : Option EventId) : Prop where
  created : l.state = .created ↔ begun = none
  event : ∀ k, begun = some k → l.initiatedEventId = some k

structure IsRunning (l : Lifecycle) : Prop where
  state : l.state = .created ∨ l.state = .initiated
  unasked : l.cancelRequested = false
  unsent : l.cancelEmitted = false

variable {l l' : Lifecycle} {begun : Option EventId} {k : EventId}

theorem StandsAt.markSent (h : l.StandsAt begun) : l.markSent.StandsAt begun :=
  ⟨l.markSent_created.trans h.created, fun k known => by simp [h.event k known]⟩

theorem StandsAt.of_later (h : l.StandsAt (some k)) (later : l.Later l') :
    l'.StandsAt (some k) where
  created := iff_of_false later.after (by simp)
  event k' known := later.accepted.trans (h.event k' known)

theorem standsAt_of_initiate? (accepted : l.initiate? k = some l') : l'.StandsAt (some k) := by
  obtain ⟨-, left, event, -⟩ := initiate?_leaves_created accepted
  exact ⟨iff_of_false left (by simp), fun k' known => event.trans known⟩

namespace IsRunning

/-- No cancel decision is due, so that sending decisions leaves the state alone. -/
theorem markSent (h : l.IsRunning) : l.markSent.IsRunning := by
  have due : l.cancelPending = false := by simp [cancelPending, h.unasked]
  unfold Lifecycle.markSent
  simp only [due, Bool.false_eq_true, if_false]
  exact ⟨h.state, h.unasked, h.unsent⟩

theorem requestCancel? (h : l.IsRunning) : ∃ l', l.requestCancel? = some l' := by
  have unsettled : l.isTerminal = false := by
    rcases h.state with state | state <;> simp [isTerminal, state, DecisionState.isTerminal]
  exact ⟨{ l with cancelRequested := true }, by simp [Lifecycle.requestCancel?, unsettled]⟩

theorem initiate? (h : l.IsRunning) (accepted : l.initiate? k = some l') : l'.IsRunning := by
  obtain ⟨-, rfl⟩ := initiate?_cases accepted
  exact ⟨.inr (by simp [h.unsent]), h.unasked, h.unsent⟩

theorem state_eq_initiated (h : l.IsRunning) (begun : l.StandsAt (some k)) :
    l.state = .initiated := by
  rcases h.state with state | state
  · simpa using begun.created.mp state
  · exact state

end IsRunning

end Lifecycle

def Machine.IsTimer (m : Machine) (id : String) : Prop := ∃ a, m.request = .timer a ∧ a.timerId = id

theorem Machine.IsTimer.id_eq {m : Machine} {id : String} (timer : m.IsTimer id) :
    m.id = ⟨.timer, id⟩ := by
  obtain ⟨a, request, rfl⟩ := timer
  simp only [Machine.id, request, Request.id]

/-! ## What the history says about a timer -/

/-- An event of the timer with this id; `begun` is the event that started it, before and after.  The
timer is started by an event after `last`.  From then on it may be said to have fired or to be
canceled, and its cancellation to be refused, any number of times and in any order. -/
inductive TimerEvent (id : String) (last : EventId) (e : HistoryEvent) :
    (begun begun' : Option EventId) → Prop where
  | started (a : Event.TimerStarted) (attributes : e.attributes = .timerStarted a)
      (named : a.timerId = id) (later : last < e.id) : TimerEvent id last e none (some e.id)
  | fired (a : Event.TimerFired) (attributes : e.attributes = .timerFired a) :
      TimerEvent id last e (some a.startedEventId) (some a.startedEventId)
  | canceled (a : Event.TimerCanceled) (attributes : e.attributes = .timerCanceled a) :
      TimerEvent id last e (some a.startedEventId) (some a.startedEventId)
  | cancelFailed (a : Event.CancelTimerFailed) (attributes : e.attributes = .cancelTimerFailed a)
      (named : a.timerId = id) (k : EventId) : TimerEvent id last e (some k) (some k)

def timerOutcome? (e : HistoryEvent) : Option Outcome :=
  match e.attributes with
  | .timerFired _ => some (.completed none)
  | .timerCanceled _ => some (.canceled none)
  | _ => none

theorem TimerEvent.exists_route {id : String} {last : EventId} {e : HistoryEvent}
    {begun begun' : Option EventId} (own : TimerEvent id last e begun begun') :
    (∃ route, Route.of e.attributes = some route) ∧ begun' ≠ none := by
  cases own with
  | started a attributes => exact ⟨⟨_, by simp only [attributes, Route.of]; rfl⟩, by simp⟩
  | fired a attributes => exact ⟨⟨_, by simp only [attributes, Route.of]; rfl⟩, by simp⟩
  | canceled a attributes => exact ⟨⟨_, by simp only [attributes, Route.of]; rfl⟩, by simp⟩
  | cancelFailed a attributes => exact ⟨⟨_, by simp only [attributes, Route.of]; rfl⟩, by simp⟩

namespace Ledger

/-- The id names the machine of a timer, which stands where the events left it and is found by them
from then on. -/
structure HasTimer (m : Ledger) (id : String) (begun : Option EventId) (i : Nat)
    (machine : Machine) : Prop where
  name : m.byId.get? ⟨.timer, id⟩ = some i
  found : m.machines[i]? = some machine
  timer : machine.IsTimer id
  stands : machine.life.StandsAt begun
  followed : ∀ k, begun = some k → m.aliases.get? (.timer, k) = some i

namespace HasTimer

variable {m m' : Ledger} {id : String} {begun begun' : Option EventId} {i : Nat}
  {machine machine' : Machine} {e : HistoryEvent}

theorem of_machine_set (h : m.HasTimer id begun i machine) (byId : m'.byId = m.byId)
    (machines : m'.machines = m.machines.set i machine')
    (request : machine'.request = machine.request) (stands : machine'.life.StandsAt begun')
    (followed : ∀ k, begun' = some k → m'.aliases.get? (.timer, k) = some i) :
    m'.HasTimer id begun' i machine' where
  name := byId ▸ h.name
  found := by
    obtain ⟨there, -⟩ := List.getElem?_eq_some_iff.mp h.found
    rw [machines, List.getElem?_set_self there]
  timer := by
    obtain ⟨a, timer, named⟩ := h.timer
    exact ⟨a, request.trans timer, named⟩
  stands := stands
  followed := followed

theorem notifySent (h : m.HasTimer id begun i machine) :
    ∃ machine', m.notifySent.HasTimer id begun i machine' ∧
      (machine.life.IsRunning → machine'.life.IsRunning) := by
  by_cases placed : i ∈ m.order
  · have found : m.notifySent.machines[i]? = some machine.markSent := by
      rw [notifySent_machine, if_pos placed, h.found, Option.map_some]
    obtain ⟨a, request, named⟩ := h.timer
    exact ⟨machine.markSent, ⟨h.name, found, ⟨a, request, named⟩, h.stands.markSent, h.followed⟩,
      fun running => running.markSent⟩
  · have found : m.notifySent.machines[i]? = some machine := by
      rw [notifySent_machine, if_neg placed, h.found]
    exact ⟨machine, ⟨h.name, found, h.timer, h.stands, h.followed⟩, fun running => running⟩

theorem accepts_cancel (h : m.HasTimer id begun i machine) (running : machine.life.IsRunning) :
    ∃ m', m.requestCancel? ⟨.timer, id⟩ = some m' := by
  obtain ⟨l, asked⟩ := running.requestCancel?
  obtain ⟨a, request, -⟩ := h.timer
  have canceled : machine.requestCancel? = some (machine.withLife l) := by
    simp [Machine.requestCancel?, request, Request.cancelDecision, asked]
  refine ⟨{ m.put i (machine.withLife l) with order := m.order.filter (· ≠ i) ++ [i] }, ?_⟩
  simp only [requestCancel?, h.name, h.found, canceled, Option.bind_eq_bind, Option.bind_some]
  rfl

theorem requestCancel? (h : m.HasTimer id begun i machine)
    (asked : m.requestCancel? ⟨.timer, id⟩ = some m') :
    ∃ machine', m'.HasTimer id begun i machine' := by
  obtain ⟨j, old, new, name, found, canceled, rfl⟩ := requestCancel?_eq asked
  obtain rfl : i = j := Option.some.inj (h.name.symm.trans name)
  obtain rfl : machine = old := Option.some.inj (h.found.symm.trans found)
  obtain ⟨l, life, rfl⟩ := Machine.requestCancel?_eq canceled
  obtain ⟨-, rfl⟩ := Lifecycle.requestCancel?_eq life
  exact ⟨_, h.of_machine_set rfl rfl rfl ⟨h.stands.created, h.stands.event⟩ h.followed⟩

/-! ### Events -/

theorem handleEvent_of_located (h : m.HasTimer id begun i machine) {key : RouteKey}
    {role : EventRole} (routed : Route.of e.attributes = some ⟨key, role⟩)
    (located : m.locate key e = .ok (i, m.pendingUpserts)) :
    m.handleEvent e = .ok (match react? machine role e with
      | none => (none, m)
      | some r => (r.outcome.map (⟨r.machine.id, ·⟩),
        { m.put i r.machine with
          aliases := match r.newAlias with
            | some target => m.aliases.insertIfNew (target, e.id) i
            | none => m.aliases })) := by
  unfold handleEvent
  simp only [routed, located, h.found, Option.bind_some]
  cases react? machine role e <;> rfl

theorem handleEvent_of_timerStarted (h : m.HasTimer id none i machine) {a : Event.TimerStarted}
    (attributes : e.attributes = .timerStarted a) (named : a.timerId = id)
    (new : m.aliases.get? (.timer, e.id) = none) :
    ∃ m' machine', m.handleEvent e = .ok (none, m') ∧ m'.HasTimer id (some e.id) i machine' ∧
      (machine.life.IsRunning → machine'.life.IsRunning) := by
  obtain ⟨r, request, timerId⟩ := h.timer
  have created : machine.life.state = .created := h.stands.created.mpr rfl
  obtain ⟨l, accepted⟩ : ∃ l, machine.life.initiate? e.id = some l :=
    ⟨_, by simp only [Lifecycle.initiate?, created, if_true]; rfl⟩
  have routed : Route.of e.attributes = some ⟨.caller ⟨.timer, id⟩, .initiated⟩ := by
    simp only [attributes, Route.of, named]
  have reacts : react? machine .initiated e =
      some { machine := machine.withLife l, newAlias := some .timer } := by
    simp only [react?, Machine.initiated?, request, attributes, named, timerId, if_true, accepted,
      Option.map_some, h.timer.id_eq]
  have handled := h.handleEvent_of_located routed (by simp only [locate, h.name])
  rw [reacts] at handled
  refine ⟨_, machine.withLife l, handled, ?_, fun running => running.initiate? accepted⟩
  refine h.of_machine_set rfl rfl rfl (Lifecycle.standsAt_of_initiate? accepted) ?_
  intro k known
  cases known
  simp [Table.get?_insertIfNew, new]

theorem react?_own_event {k : EventId} (h : m.HasTimer id (some k) i machine) {last : EventId}
    (own : TimerEvent id last e (some k) begun') :
    begun' = some k ∧ ∃ key role l?, Route.of e.attributes = some ⟨key, role⟩ ∧
      m.locate key e = .ok (i, m.pendingUpserts) ∧
      react? machine role e = l?.map (fun l =>
        { machine := machine.withLife l, outcome := timerOutcome? e }) ∧
      (∀ l, l? = some l → machine.life.Later l) ∧
      (machine.life.IsRunning → l?.isSome = (timerOutcome? e).isSome) := by
  obtain ⟨r, request, timerId⟩ := h.timer
  have accepted : machine.life.references k = true := by
    simp [Lifecycle.references, h.stands.event k rfl]
  cases own with
  | fired a attributes =>
    refine ⟨rfl, .follower .timer a.startedEventId, .completion, machine.life.complete?, ?_, ?_, ?_,
      fun l => Lifecycle.complete?_later, fun running => ?_⟩
    · simp only [attributes, Route.of]
    · simp only [locate, h.followed _ rfl]
    · simp [react?, Machine.completed?, request, attributes, Machine.ending?, accepted,
        timerOutcome?, Function.comp_def]
    · simp [Lifecycle.complete?, running.state_eq_initiated h.stands, timerOutcome?, attributes]
  | canceled a attributes =>
    refine ⟨rfl, .follower .timer a.startedEventId, .canceled, machine.life.cancel?, ?_, ?_, ?_,
      fun l => Lifecycle.cancel?_later, fun running => ?_⟩
    · simp only [attributes, Route.of]
    · simp only [locate, h.followed _ rfl]
    · simp [react?, Machine.canceled?, request, attributes, Machine.cancellation?, accepted,
        timerOutcome?, Function.comp_def]
    · simp [Lifecycle.cancel?, running.state_eq_initiated h.stands, timerOutcome?, attributes]
  | cancelFailed a attributes named =>
    refine ⟨rfl, .caller ⟨.timer, id⟩, .cancelFailed, machine.life.failCancel?, ?_, ?_, ?_,
      fun l => Lifecycle.failCancel?_later, fun running => ?_⟩
    · simp only [attributes, Route.of, named]
    · simp only [locate, h.name]
    · simp [react?, Machine.cancelFailed?, request, attributes, named, timerId, timerOutcome?,
        Function.comp_def]
    · -- There is no cancellation that could be refused.
      simp [Lifecycle.failCancel?, running.state_eq_initiated h.stands, timerOutcome?, attributes]

/-- No event of a timer is refused.  As long as the timer runs, what is said to end it does so, and
nothing else stops it. -/
theorem handleEvent_own_event (h : m.HasTimer id begun i machine) {last : EventId}
    (own : TimerEvent id last e begun begun')
    (early : begun = none → ∀ key j, m.aliases.get? key = some j → key.2 ≤ last) :
    ∃ outcome? m' machine', m.handleEvent e = .ok (outcome?.map (⟨⟨.timer, id⟩, ·⟩), m') ∧
      m'.HasTimer id begun' i machine' ∧
      (machine.life.IsRunning → outcome? = timerOutcome? e ∧
        (outcome? = none → machine'.life.IsRunning)) := by
  cases begun with
  | none =>
    cases own with
    | started a attributes named later =>
      -- All aliases were written for earlier events.
      have new : m.aliases.get? (.timer, e.id) = none := by
        cases old : m.aliases.get? (.timer, e.id) with
        | none => rfl
        | some j => exact absurd (Int64.lt_of_lt_of_le later (early rfl _ j old)) Int64.lt_irrefl
      obtain ⟨m', machine', handled, timer, runs⟩ :=
        h.handleEvent_of_timerStarted attributes named new
      refine ⟨none, m', machine', handled, timer, fun running => ⟨?_, fun _ => runs running⟩⟩
      simp only [timerOutcome?, attributes]
  | some k =>
    obtain ⟨rfl, key, role, l?, routed, located, reacts, later, ends⟩ := h.react?_own_event own
    have handled := h.handleEvent_of_located routed located
    rw [reacts] at handled
    cases l? with
    | none =>
      refine ⟨none, m, machine, handled, h, fun running => ⟨?_, fun _ => running⟩⟩
      have nothing := ends running
      cases outcome : timerOutcome? e <;> simp [outcome] at nothing ⊢
    | some l =>
      have same : (machine.withLife l).id = ⟨.timer, id⟩ := h.timer.id_eq
      simp only [Option.map_some, same] at handled
      refine ⟨timerOutcome? e, _, machine.withLife l, handled, ?_,
        fun running => ⟨rfl, fun nothing => ?_⟩⟩
      · exact h.of_machine_set rfl rfl rfl (h.stands.of_later (later l rfl)) h.followed
      · have ended := ends running
        simp [nothing] at ended

end HasTimer

end Ledger

/-! ## Runs and futures -/

namespace Run

theorem settle_of_unawaited {w : Run} {id : DecisionId}
    (forgotten : w.shared.waiting.get? id = none) (o : Outcome) : w.settle id o = w := by
  simp only [settle, forgotten]

theorem settle_forgets_waiter {w : Run} {id : DecisionId} {p : PlaceholderId}
    (waits : w.shared.waiting.get? id = some p) (o : Outcome) :
    (w.settle id o).shared.waiting.get? id = none := by
  simp [settle, waits]

theorem settle_ledger (id : DecisionId) (o : Outcome) (w : Run) :
    (w.settle id o).shared.ledger = w.shared.ledger := by
  obtain ⟨waiting, eq⟩ := settle_shared id o w
  rw [eq]

end Run

structure Awaited where
  future : Future
  run : Run
  answers : List (Except Error Json) := []

namespace Awaited

inductive Action where
  | cancel
  | collect
  | notify
  | look (me : TaskId)
  | event (e : HistoryEvent)

namespace Action

def outcome? : Action → Option Outcome
  | .cancel => some (.canceled none)
  | .event e => timerOutcome? e
  | .collect | .notify | .look _ => none

def isLook : Action → Bool
  | .look _ => true
  | _ => false

end Action

def result? (t : Awaited) (me : TaskId) : Option (Except Error Json) :=
  (t.future.look me t.run.ground).1.1

def act (t : Awaited) : Action → Except ReplayError Awaited
  | .cancel =>
    let (future, run) := t.run.cancel t.future
    .ok { t with future, run }
  | .collect => .ok { t with run := t.run.withLedger t.run.shared.ledger.collect.2 }
  | .notify => .ok { t with run := t.run.withLedger t.run.shared.ledger.notifySent }
  | .look me =>
    let looked := t.future.look me t.run.ground
    .ok { future := looked.1.2
          run := t.run.onGround looked.2
          answers := t.answers ++ looked.1.1.toList }
  | .event e => (t.run.applyEvent e).map fun run => { t with run }

def conduct (t : Awaited) (actions : List Action) : Except ReplayError Awaited :=
  actions.foldlM act t

theorem act_cancel {t : Awaited} {promise : Promise} {p : PlaceholderId} {accepted : Bool}
    (future : t.future = .request promise p accepted) {id : DecisionId}
    (named : promise.decisionId? = some id) :
    t.act .cancel = .ok { t with
      future := .request promise p (accepted || (t.run.requestCancel id).1)
      run := (t.run.requestCancel id).2 } := by
  simp only [act, Run.cancel, future, named]

theorem act_look {t : Awaited} {promise : Promise} {p : PlaceholderId} {accepted : Bool}
    (future : t.future = .request promise p accepted) (me : TaskId) :
    t.act (.look me) = .ok { t with
      run := { t.run with board := { t.run.board with
        waiting := (t.run.board.waiting.look me p).2 } }
      answers :=
        t.answers ++ ((t.run.board.waiting.look me p).1.map promise.result).toList } := by
  obtain ⟨future, run, answers⟩ := t
  subst future
  rfl

/-- What concerns the timer with this id: the code cancels it or looks at it, decisions are sent, and
its own events come.  `begun` is the event that started it, before and after. -/
inductive Own (id : String) (last : EventId) (begun : Option EventId) :
    Action → Option EventId → Prop where
  | aside {action : Action} (quiet : ∀ e, action ≠ .event e) : Own id last begun action begun
  | event {e : HistoryEvent} {begun' : Option EventId} (own : TimerEvent id last e begun begun') :
    Own id last begun (.event e) begun'

inductive Owns (id : String) (last : EventId) :
    Option EventId → List Action → Option EventId → Prop where
  | nil (begun : Option EventId) : Owns id last begun [] begun
  | cons {begun begun' begun'' : Option EventId} {action : Action} {rest : List Action}
      (first : Own id last begun action begun') (later : Owns id last begun' rest begun'') :
    Owns id last begun (action :: rest) begun''

def decision? (actions : List Action) : Option Outcome := actions.findSome? Action.outcome?

theorem decision?_cons (action : Action) (rest : List Action) :
    decision? (action :: rest) = action.outcome?.or (decision? rest) := by
  cases outcome : action.outcome? <;> simp [decision?, outcome]

/-- The future of a timer is settled once: it gave the outcome that was decided, or would give it
now, and nothing else.  Until something is decided, the timer can be canceled and its events end it;
from then on they touch neither the tasks nor the placeholders. -/
structure Settles (t : Awaited) (id : String) (last : EventId) (begun : Option EventId)
    (decided : Option Outcome) : Prop where
  results : ∀ me, t.answers ++ (t.result? me).toList =
    (decided.map (Promise.result (.timer (some id)))).toList
  cancels : decided = none → (t.run.requestCancel ⟨.timer, id⟩).1 = true
  ends : decided = none → ∀ {e : HistoryEvent} {begun' : Option EventId},
    TimerEvent id last e begun begun' → ∃ ledger, t.run.shared.ledger.handleEvent e =
      .ok ((timerOutcome? e).map (⟨⟨.timer, id⟩, ·⟩), ledger)
  rests : decided ≠ none → ∀ {action : Action} {begun' : Option EventId},
    Own id last begun action begun' → action.isLook = false →
      ∃ t', t.act action = .ok t' ∧ t'.run.board = t.run.board

/-! ## What is kept -/

/-- Where the outcome is: nobody has it, the placeholder holds it, or the future gave it. -/
inductive Fate (t : Awaited) (id : String) (p : PlaceholderId) : Option Outcome → Prop where
  | waits (waiting : t.run.shared.waiting.get? ⟨.timer, id⟩ = some p)
      (content : t.run.board.waiting.content? p = some none) (answers : t.answers = []) :
    Fate t id p none
  | held (o : Outcome) (forgotten : t.run.shared.waiting.get? ⟨.timer, id⟩ = none)
      (content : t.run.board.waiting.content? p = some (some o)) (answers : t.answers = []) :
    Fate t id p (some o)
  | given (o : Outcome) (forgotten : t.run.shared.waiting.get? ⟨.timer, id⟩ = none)
      (content : t.run.board.waiting.content? p = none)
      (answers : t.answers = [Promise.result (.timer (some id)) o]) :
    Fate t id p (some o)

structure Tracks (t : Awaited) (id : String) (last : EventId) (p : PlaceholderId)
    (begun : Option EventId) (decided : Option Outcome) : Prop where
  future : ∃ accepted, t.future = .request (.timer (some id)) p accepted
  timer : ∃ i machine, t.run.shared.ledger.HasTimer id begun i machine ∧
    (decided = none → machine.life.IsRunning)
  early : begun = none → ∀ key j, t.run.shared.ledger.aliases.get? key = some j → key.2 ≤ last
  fate : t.Fate id p decided

namespace Fate

variable {t : Awaited} {id : String} {p : PlaceholderId} {decided : Option Outcome}

theorem unawaited_of_decided {o : Outcome} (h : t.Fate id p (some o)) :
    t.run.shared.waiting.get? ⟨.timer, id⟩ = none := by
  cases h <;> assumption

theorem withLedger (h : t.Fate id p decided) (future : Future) (ledger : Ledger) :
    Fate { t with future, run := t.run.withLedger ledger } id p decided := by
  cases h with
  | waits waiting content answers => exact .waits waiting content answers
  | held o forgotten content answers => exact .held o forgotten content answers
  | given o forgotten content answers => exact .given o forgotten content answers

theorem settle (h : t.Fate id p decided) (o : Outcome) :
    Fate { t with run := t.run.settle ⟨.timer, id⟩ o } id p (decided.or (some o)) ∧
      (decided ≠ none → t.run.settle ⟨.timer, id⟩ o = t.run) := by
  cases decided with
  | none =>
    cases h with
    | waits waiting content answers =>
      have still := (Waiting.isOpen_iff_content _ p).mpr content
      have given := Session.settle_fills_open waiting still o
      refine ⟨.held o (Run.settle_forgets_waiter waiting o) ?_ answers, fun some => absurd rfl some⟩
      simp [Waiting.content?, given]
  | some first =>
    have same := Run.settle_of_unawaited h.unawaited_of_decided o
    rw [same]
    exact ⟨h, fun _ => rfl⟩

/-- What the future gave and what it would give now are together what was decided. -/
theorem result_eq_decided {accepted : Bool} (h : t.Fate id p decided)
    (future : t.future = .request (.timer (some id)) p accepted) (me : TaskId) :
    t.answers ++ (t.result? me).toList =
      (decided.map (Promise.result (.timer (some id)))).toList := by
  have looked : t.result? me =
      (t.run.board.waiting.content? p).join.map (Promise.result (.timer (some id))) := by
    simp only [result?, future, Future.look, Run.ground, Waiting.look_value]
  cases h with
  | waits waiting content answers => simp [looked, content, answers]
  | held o forgotten content answers => simp [looked, content, answers]
  | given o forgotten content answers => simp [looked, content, answers]

theorem after_look {accepted : Bool} (h : t.Fate id p decided)
    (future : t.future = .request (.timer (some id)) p accepted) (me : TaskId) :
    ∃ t', t.act (.look me) = .ok t' ∧ t'.future = t.future ∧ t'.run.shared = t.run.shared ∧
      t'.Fate id p decided := by
  have value := Waiting.look_value t.run.board.waiting me p
  have left := Waiting.content?_look t.run.board.waiting me p p
  refine ⟨_, act_look future me, rfl, rfl, ?_⟩
  cases h with
  | waits waiting content answers =>
    simp only [content, Option.join_some] at value
    refine .waits waiting (left.trans ?_) ?_
    · simp [value, content]
    · simp [value, answers]
  | held o forgotten content answers =>
    simp only [content, Option.join_some] at value
    refine .given o forgotten (left.trans ?_) ?_
    · simp [value]
    · simp [value, answers]
  | given o forgotten content answers =>
    simp only [content, Option.join_none] at value
    refine .given o forgotten (left.trans ?_) ?_
    · simp [value, content]
    · simp [value, answers]

end Fate

namespace Tracks

variable {t : Awaited} {id : String} {last : EventId} {p : PlaceholderId}
  {begun begun' : Option EventId} {decided : Option Outcome}

theorem after_notifySent (h : t.Tracks id last p begun decided) :
    ({ t with run := t.run.withLedger t.run.shared.ledger.notifySent } : Awaited).Tracks
      id last p begun decided := by
  obtain ⟨i, machine, timer, running⟩ := h.timer
  obtain ⟨machine', timer', runs⟩ := timer.notifySent
  exact ⟨h.future, ⟨i, machine', timer', fun undecided => runs (running undecided)⟩, h.early,
    h.fate.withLedger t.future _⟩

theorem requestCancel_accepted (h : t.Tracks id last p begun none) :
    (t.run.requestCancel ⟨.timer, id⟩).1 = true := by
  obtain ⟨i, machine, timer, running⟩ := h.timer
  obtain ⟨ledger, asked⟩ := timer.accepts_cancel (running rfl)
  simp only [Run.requestCancel, asked]

theorem after_cancel (h : t.Tracks id last p begun decided) :
    ∃ t', t.act .cancel = .ok t' ∧ t'.Tracks id last p begun (decided.or (some (.canceled none))) ∧
      (decided ≠ none → t'.run.board = t.run.board) := by
  obtain ⟨accepted, future⟩ := h.future
  obtain ⟨i, machine, timer, running⟩ := h.timer
  refine ⟨_, act_cancel future rfl, ?_⟩
  simp only [Run.requestCancel]
  cases asked : t.run.shared.ledger.requestCancel? ⟨.timer, id⟩ with
  | none =>
    -- It is refused only if something was decided before.
    cases decided with
    | none =>
      obtain ⟨ledger, granted⟩ := timer.accepts_cancel (running rfl)
      simp [granted] at asked
    | some o =>
      refine ⟨⟨⟨_, rfl⟩, ⟨i, machine, timer, running⟩, h.early, ?_⟩, fun _ => rfl⟩
      exact h.fate.withLedger _ t.run.shared.ledger
  | some ledger =>
    obtain ⟨machine', timer'⟩ := timer.requestCancel? asked
    have aliases := (Ledger.requestCancel?_length_and_aliases asked).2
    obtain ⟨fate, rests⟩ := (h.fate.withLedger
      (.request (.timer (some id)) p (accepted || true)) ledger).settle (.canceled none)
    simp only [if_true]
    refine ⟨⟨⟨_, rfl⟩, ⟨i, machine', ?_, by simp⟩, ?_, fate⟩, fun some => ?_⟩
    · rw [Run.settle_ledger]
      exact timer'
    · rw [Run.settle_ledger]
      exact aliases ▸ h.early
    · exact (congrArg World.board (rests some)).trans rfl

theorem after_event (h : t.Tracks id last p begun decided) {e : HistoryEvent}
    (own : TimerEvent id last e begun begun') :
    ∃ t', t.act (.event e) = .ok t' ∧ t'.Tracks id last p begun' (decided.or (timerOutcome? e)) ∧
      (decided ≠ none → t'.run.board = t.run.board) := by
  obtain ⟨i, machine, timer, running⟩ := h.timer
  obtain ⟨outcome?, ledger, machine', handled, timer', ends⟩ :=
    timer.handleEvent_own_event own h.early
  obtain ⟨⟨route, routed⟩, known⟩ := own.exists_route
  have applied := Run.applyEvent_handled routed outcome? handled
  have fate := h.fate.withLedger t.future ledger
  have early : begun' = none → ∀ key j, ledger.aliases.get? key = some j → key.2 ≤ last :=
    fun unknown => absurd unknown known
  refine ⟨_, by simp only [act, applied]; rfl, ?_⟩
  cases decided with
  | none =>
    obtain ⟨rfl, runs⟩ := ends (running rfl)
    refine ⟨?_, fun some => absurd rfl some⟩
    cases outcome : timerOutcome? e with
    | none => exact ⟨h.future, ⟨i, machine', timer', fun _ => runs outcome⟩, early, fate⟩
    | some o =>
      refine ⟨h.future, ⟨i, machine', ?_, by simp⟩, ?_, (fate.settle o).1⟩
      · simp only [Option.elim_some, Run.settle_ledger]
        exact timer'
      · simp only [Option.elim_some, Run.settle_ledger]
        exact early
  | some first =>
    -- Nothing waits any more, whatever outcome the event brings.
    have unmoved : outcome?.elim (t.run.withLedger ledger) ((t.run.withLedger ledger).settle
        ⟨.timer, id⟩) = t.run.withLedger ledger := by
      cases outcome? with
      | none => rfl
      | some o =>
        exact Run.settle_of_unawaited (w := t.run.withLedger ledger)
          h.fate.unawaited_of_decided o
    simp only [unmoved]
    exact ⟨⟨h.future, ⟨i, machine', timer', by simp⟩, early, fate⟩, fun _ => rfl⟩

/-- What one action does: it is no error, and it counts if nothing was decided before. -/
theorem after_own_action {action : Action} (h : t.Tracks id last p begun decided)
    (own : Own id last begun action begun') :
    ∃ t', t.act action = .ok t' ∧ t'.Tracks id last p begun' (decided.or action.outcome?) ∧
      (decided ≠ none → action.isLook = false → t'.run.board = t.run.board) := by
  cases own with
  | event own =>
    obtain ⟨t', done, tracks, rests⟩ := h.after_event own
    exact ⟨t', done, tracks, fun some _ => rests some⟩
  | aside quiet =>
    cases action with
    | cancel =>
      obtain ⟨t', done, tracks, rests⟩ := h.after_cancel
      exact ⟨t', done, tracks, fun some _ => rests some⟩
    | collect =>
      refine ⟨_, rfl, ?_, fun _ _ => rfl⟩
      simp only [Action.outcome?, Option.or_none]
      exact h.after_notifySent
    | notify =>
      refine ⟨_, rfl, ?_, fun _ _ => rfl⟩
      simp only [Action.outcome?, Option.or_none]
      exact h.after_notifySent
    | look me =>
      obtain ⟨accepted, future⟩ := h.future
      obtain ⟨t', done, same, shared, fate⟩ := h.fate.after_look future me
      refine ⟨t', done, ?_, fun _ look => by simp [Action.isLook] at look⟩
      simp only [Action.outcome?, Option.or_none]
      exact ⟨same ▸ h.future, shared ▸ h.timer, shared ▸ h.early, fate⟩
    | event e => exact absurd rfl (quiet e)

theorem after_own_actions {actions : List Action} (h : t.Tracks id last p begun decided)
    (own : Owns id last begun actions begun') :
    ∃ t', t.conduct actions = .ok t' ∧
      t'.Tracks id last p begun' (decided.or (decision? actions)) := by
  induction own generalizing t decided with
  | nil begun => exact ⟨t, rfl, by simpa [decision?] using h⟩
  | cons first later ih =>
    obtain ⟨t₁, done, tracks, -⟩ := h.after_own_action first
    obtain ⟨t₂, last, final⟩ := ih tracks
    refine ⟨t₂, ?_, ?_⟩
    · simp only [Awaited.conduct, List.foldlM_cons, done]
      exact last
    · rw [decision?_cons, ← Option.or_assoc]
      exact final

theorem settles (h : t.Tracks id last p begun decided) : t.Settles id last begun decided := by
  obtain ⟨accepted, future⟩ := h.future
  refine ⟨h.fate.result_eq_decided future, ?_, ?_, ?_⟩
  · rintro rfl
    exact h.requestCancel_accepted
  · rintro rfl e begun' own
    obtain ⟨i, machine, timer, running⟩ := h.timer
    obtain ⟨outcome?, ledger, machine', handled, -, ends⟩ := timer.handleEvent_own_event own h.early
    obtain ⟨rfl, -⟩ := ends (running rfl)
    exact ⟨ledger, handled⟩
  · intro decided action begun' own acts
    obtain ⟨t', done, -, rests⟩ := h.after_own_action own
    exact ⟨t', done, rests decided acts⟩

end Tracks

end Awaited

/-! ## Timers that are started -/

namespace Run

theorem timer_eq_ok {delay : Span} (lasting : delay.isZero = false) {w w' : Run} {f : Future}
    (started : w.timer delay = (.ok f, w')) :
    ∃ a : Decision.StartTimer, a.timerId = toString w.shared.nextId ∧
      (f, w') = Run.ask (.timer a) (.timer (some a.timerId))
        { w with shared := w.shared.freshId.2 } := by
  unfold timer at started
  rw [if_neg (by simp [lasting])] at started
  generalize delay.timerSeconds? = seconds? at started
  cases seconds? with
  | none => simp at started
  | some seconds =>
    obtain ⟨future, run⟩ := Prod.mk.inj started
    refine ⟨{ timerId := w.shared.freshId.1, startToFireTimeoutSeconds := seconds }, rfl, ?_⟩
    exact (Prod.ext (Except.ok.inj future) run).symm

end Run

theorem Ledger.request_hasTimer {m : Ledger} {a : Decision.StartTimer}
    (unused : m.byId.get? ⟨.timer, a.timerId⟩ = none) :
    (m.request (.timer a)).HasTimer a.timerId none m.machines.length { request := .timer a } := by
  have made : m.request (.timer a) = m.made (.timer a) :=
    request_eq_made_of_free (isLive_of_unused unused)
  rw [made]
  exact {
    name := by simp [Ledger.made, Request.id]
    found := by simp [Ledger.made]
    timer := ⟨a, rfl, rfl⟩
    stands := ⟨by simp, by simp⟩
    followed := by simp }

open Awaited in
theorem ask_tracks {w : Run} {a : Decision.StartTimer} {last : EventId}
    (unused : w.shared.ledger.byId.get? ⟨.timer, a.timerId⟩ = none)
    (early : ∀ key j, w.shared.ledger.aliases.get? key = some j → key.2 ≤ last) :
    Tracks
      { future := (w.ask (.timer a) (.timer (some a.timerId))).1
        run := (w.ask (.timer a) (.timer (some a.timerId))).2 }
      a.timerId last w.board.make.1 none none := by
  have made : w.shared.ledger.request (.timer a) = w.shared.ledger.made (.timer a) :=
    Ledger.request_eq_made_of_free (Ledger.isLive_of_unused unused)
  refine ⟨⟨false, rfl⟩, ⟨_, _, Ledger.request_hasTimer unused, fun _ => ⟨.inl rfl, rfl, rfl⟩⟩,
    fun _ key j written => early key j ?_, .waits ?_ ?_ rfl⟩
  · simp only [Run.ask, made] at written
    exact written
  · simp [Run.ask, Request.id]
  · exact (Waiting.content?_make w.board.waiting w.board.make.1).trans (if_pos rfl)

open Awaited in
/-- Whatever becomes of a timer, its future gives one result: that of the first of the requests to
cancel it and the events that end it.  Nothing is an error, whatever comes first is accepted, and
nothing that follows touches the board. -/
theorem timer_settles_once {info : RunInfo} {s : Session} (reached : Session.Reached info s)
    {delay : Span} (lasting : delay.isZero = false) {f : Future} {w : Run}
    (started : s.run.timer delay = (.ok f, w)) :
    ∃ id p, f = .request (.timer (some id)) p false ∧
      ∀ {actions : List Action} {begun : Option EventId},
        Owns id s.lastEventId none actions begun →
        ∃ t, Awaited.conduct { future := f, run := w } actions = .ok t ∧
          t.Settles id s.lastEventId begun (decision? actions) := by
  have linked := reached.linked
  obtain ⟨a, fresh, asked⟩ := Run.timer_eq_ok lasting started
  obtain ⟨rfl, rfl⟩ := Prod.mk.inj asked
  have tracks : Tracks _ a.timerId s.lastEventId _ none none :=
    ask_tracks (w := { s.run with shared := s.run.shared.freshId.2 }) (a := a)
      (fresh ▸ linked.numbered.unused_id .timer trivial) linked.past
  refine ⟨a.timerId, _, rfl, ?_⟩
  intro actions begun own
  obtain ⟨t, done, tracks'⟩ := tracks.after_own_actions own
  exact ⟨t, done, tracks'.settles⟩

namespace Awaited

/-- The timer was canceled, but it fired before the cancel decision came, which is refused. -/
def lateCancellation : List Action := [
  .collect, .event (eventOf 5 (.timerStarted { timerId := "0" })), .cancel, .notify,
  .event (eventOf 7 (.timerFired { timerId := "0", startedEventId := 5 })),
  .event (eventOf 9 (.cancelTimerFailed { timerId := "0" })), .cancel]

theorem lateCancellation_owns : Owns "0" 0 none lateCancellation (some 5) :=
  .cons (.aside (by simp)) <| .cons (.event (.started _ rfl rfl (by decide))) <|
    .cons (.aside (by simp)) <| .cons (.aside (by simp)) <|
    .cons (.event (.fired { timerId := "0", startedEventId := 5 } rfl)) <|
    .cons (.event (.cancelFailed { timerId := "0" } rfl rfl _)) <|
    .cons (.aside (by simp)) <| .nil _

end Awaited

open Awaited in
theorem late_cancellation_settles : ∃ w t,
    (Session.start {}).run.timer (.ofSeconds 60) =
      (.ok (.request (.timer (some "0")) ⟨1⟩ false), w) ∧
    Awaited.conduct { future := .request (.timer (some "0")) ⟨1⟩ false, run := w }
      lateCancellation = .ok t ∧
    t.answers ++ (t.result? ⟨0⟩).toList = [.error (.canceled "timer 0 canceled")] := by
  have future : ((Session.start {}).run.timer (.ofSeconds 60)).1 =
      .ok (.request (.timer (some "0")) ⟨1⟩ false) := by cbv
  have started : (Session.start {}).run.timer (.ofSeconds 60) =
      (.ok (.request (.timer (some "0")) ⟨1⟩ false),
        ((Session.start {}).run.timer (.ofSeconds 60)).2) := Prod.ext future rfl
  obtain ⟨id, p, same, settles⟩ := timer_settles_once .start (by decide) started
  cases same
  obtain ⟨t, done, settled⟩ := settles lateCancellation_owns
  exact ⟨_, t, started, done, settled.results ⟨0⟩⟩

end WorkflowReplay
