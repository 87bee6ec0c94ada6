import Mathlib.Data.List.Nodup
import WorkflowReplay.Proofs.Run.Stages
import WorkflowReplay.Proofs.Run.Waiters

/-!
# Exchanges of signals

An `Exchange` is a run together with the calls that asked for signals and the signals that the
history brought, in any order of calls, polls, drops and events.  A call stands in the line of its
name by what it was given: the signal that it took, the one that its placeholder holds, or none.
-/

set_option autoImplicit false

namespace WorkflowReplay

open Schedule

/-! ## Calls that receive -/

inductive Fate where
  | waits (p : PlaceholderId)
  | answered (result : Except Error Json)
  | dropped

structure Receiver where
  name : String
  shape : Shape
  fate : Fate
  /-- The signal that it took, or that its placeholder held when it was dropped. -/
  input : Option (Option Payload) := none

def heldBy (w : Waiting Outcome (Except Error Json)) (p : PlaceholderId) :
    Option (Option Payload) :=
  match w.content? p with
  | some (some (.completed input)) => some input
  | _ => none

namespace Receiver

def placeholder? (r : Receiver) : Option PlaceholderId :=
  match r.fate with
  | .waits p => some p
  | _ => none

/-- The signal that the call was given: it took it, or its placeholder holds it. -/
def input? (w : Waiting Outcome (Except Error Json)) (r : Receiver) : Option (Option Payload) :=
  match r.fate with
  | .waits p => heldBy w p
  | _ => r.input

def Waits (w : Waiting Outcome (Except Error Json)) (r : Receiver) : Prop :=
  r.placeholder?.isSome = true ∧ r.input? w = none

def standing (w : Waiting Outcome (Except Error Json)) (r : Receiver) : Standing :=
  match r.input? w, r.placeholder? with
  | some input, _ => .got input
  | none, some p => .waits p
  | none, none => .left

def Apart (r r' : Receiver) : Prop :=
  ∀ p, r.placeholder? = some p → ∀ p', r'.placeholder? = some p' → p ≠ p'

theorem Apart.symm {r r' : Receiver} (apart : r.Apart r') : r'.Apart r :=
  fun p there p' there' same => apart p' there' p there same.symm

def isDropped (r : Receiver) : Bool :=
  match r.fate with
  | .dropped => true
  | _ => false

def polled (p : PlaceholderId) (input : Option (Option Payload))
    (result : Option (Except Error Json)) (r : Receiver) : Receiver :=
  match result with
  | some result => if r.placeholder? = some p then { r with fate := .answered result, input } else r
  | none => r

@[simp] theorem polled_unanswered (p : PlaceholderId) (input : Option (Option Payload)) :
    Receiver.polled p input none = id := rfl

theorem polled_own {p : PlaceholderId} {r : Receiver} (own : r.placeholder? = some p)
    (input : Option (Option Payload)) (result : Except Error Json) :
    r.polled p input (some result) = { r with fate := .answered result, input } := if_pos own

def dropped (p : PlaceholderId) (input : Option (Option Payload)) (r : Receiver) : Receiver :=
  if r.placeholder? = some p then { r with fate := .dropped, input } else r

theorem dropped_own {p : PlaceholderId} {r : Receiver} (own : r.placeholder? = some p)
    (input : Option (Option Payload)) :
    r.dropped p input = { r with fate := .dropped, input } := if_pos own

end Receiver

/-! ## Exchanges -/

namespace Run

def signalOf? (e : HistoryEvent) : Option (String × Option Payload) :=
  match e.attributes with
  | .workflowExecutionSignaled a => some (a.signalName, a.input)
  | _ => none

theorem applyEvent_signal {e : HistoryEvent} {name : String} {input : Option Payload}
    (signal : signalOf? e = some (name, input)) (w : Run) :
    applyEvent e w =
      .ok (deliver name input (w.shared.signalWaiters.getD name []) w) := by
  unfold signalOf? at signal
  split at signal
  · next a signaled =>
    cases signal
    simp only [applyEvent, signaled]
  · simp at signal

theorem not_signaled_of_signalOf? {e : HistoryEvent} (signal : signalOf? e = none) (a) :
    e.attributes ≠ .workflowExecutionSignaled a := by
  intro signaled
  simp [signalOf?, signaled] at signal

def ground (w : Run) : Future.Ground := (w.board.waiting, w.shared)

def onGround (w : Run) (g : Future.Ground) : Run :=
  { board := { w.board with waiting := g.1 }, shared := g.2 }

end Run

theorem Run.look_keeps_signals (me : TaskId) {f : Future}
    (asked : ∀ name shape, f ≠ .signal name shape none) (w : Run) : Run.Quiet w
      (w.onGround (f.look me w.ground).2) := by
  cases f with
  | request promise id accepted =>
    exact Run.quiet_of_board (fun p => (Waiting.isOpen_look _ me id p).mp)
      (Waiting.look_next _ me id)
  | signal name shape id =>
    cases id with
    | none => exact absurd rfl (asked name shape)
    | some id =>
      exact Run.quiet_of_board (fun p => (Waiting.isOpen_look _ me id p).mp)
        (Waiting.look_next _ me id)
  | task id =>
    exact Run.quiet_of_board (fun p => (Waiting.isOpen_lookOutput _ me id p).mp)
      (Waiting.lookOutput_next _ me id)

theorem Run.look_keeps_content (me : TaskId) {f : Future}
    (asked : ∀ name shape, f ≠ .signal name shape none) {p : PlaceholderId}
    (kept : f.placeholder? ≠ some p) (w : Run) :
    Run.Spares p w (w.onGround (f.look me w.ground).2) := by
  have other (id : PlaceholderId) (apart : id ≠ p) :
      (w.board.waiting.look me id).2.content? p = w.board.waiting.content? p := by
    simp [Waiting.content?_look, apart]
  cases f with
  | request promise id accepted => exact other id fun same => kept (congrArg some same)
  | signal name shape id =>
    cases id with
    | none => exact absurd rfl (asked name shape)
    | some id => exact other id fun same => kept (congrArg some same)
  | task id => exact Waiting.content?_lookOutput _ me id p

/-- A run between steps, with the calls that asked for signals, the first one first, and the
signals that the history brought. -/
structure Exchange where
  run : Run
  calls : List Receiver := []
  delivered : List (String × Option Payload) := []

namespace Exchange

def start (info : RunInfo) : Exchange := { run := { shared := .new info } }

abbrev waiting (x : Exchange) : Waiting Outcome (Except Error Json) := x.run.board.waiting

/-- The signals of a name that nobody was given. -/
def buffered (x : Exchange) (name : String) : List (Option Payload) :=
  x.run.shared.signals.getD name []

/-- A call asks for a signal: its future is looked at for the first time. -/
def receive (x : Exchange) (me : TaskId) (name : String) (shape : Shape) : Exchange :=
  let looked := Future.look me (.signal name shape none) x.run.ground
  let fate : Fate :=
    match looked.1.1, looked.1.2.placeholder? with
    | some result, _ => .answered result
    | none, some p => .waits p
    | none, none => .dropped
  { x with
    run := x.run.onGround looked.2
    calls := x.calls ++ [{ name, shape, fate, input := (x.buffered name).head? }] }

def poll (x : Exchange) (me : TaskId) (name : String) (shape : Shape) (p : PlaceholderId) :
    Exchange :=
  let looked := Future.look me (.signal name shape (some p)) x.run.ground
  { x with
    run := x.run.onGround looked.2
    calls := x.calls.map (Receiver.polled p (heldBy x.waiting p) looked.1.1) }

def drop (x : Exchange) (me : TaskId) (name : String) (shape : Shape) (p : PlaceholderId) :
    Exchange :=
  { x with
    run := (Run.perform me (.drop (.signal name shape (some p))) x.run).2
    calls := x.calls.map (Receiver.dropped p (heldBy x.waiting p)) }

/-- The history brings an event; one that is refused leaves the run as it was. -/
def applied (x : Exchange) (e : HistoryEvent) : Exchange :=
  { x with
    run := (Run.applyEvent e x.run).toOption.getD x.run
    delivered := x.delivered ++ (Run.signalOf? e).toList }

def placeholders (x : Exchange) : List PlaceholderId := x.calls.filterMap Receiver.placeholder?

/-- What can happen, in any order.  A call owns its placeholder: nothing else looks at it or drops
it. -/
inductive Step (x : Exchange) : Exchange → Prop where
  | receive (me : TaskId) (name : String) (shape : Shape) : Step x (x.receive me name shape)
  | poll (me : TaskId) {r : Receiver} {p : PlaceholderId} (call : r ∈ x.calls)
      (waits : r.placeholder? = some p) : Step x (x.poll me r.name r.shape p)
  | drop (me : TaskId) {r : Receiver} {p : PlaceholderId} (call : r ∈ x.calls)
      (waits : r.placeholder? = some p) : Step x (x.drop me r.name r.shape p)
  | event (e : HistoryEvent) : Step x (x.applied e)
  | call (me : TaskId) (c : Call)
      (kept : ∀ f, c = .drop f → ∀ p ∈ x.placeholders, f.placeholder? ≠ some p) :
    Step x { x with run := (Run.perform me c x.run).2 }
  | look (me : TaskId) (f : Future) (asked : ∀ name shape, f ≠ .signal name shape none)
      (kept : ∀ p ∈ x.placeholders, f.placeholder? ≠ some p) :
    Step x { x with run := x.run.onGround (f.look me x.run.ground).2 }
  /-- Tasks are started, queued and ended. -/
  | tasks (board : Board Outcome (Except Error Json))
      (placeholders : board.waiting.placeholders = x.waiting.placeholders)
      (next : board.waiting.nextPlaceholder = x.waiting.nextPlaceholder) :
    Step x { x with run := { x.run with board } }
  | enter (replaying : Bool) (time : Int) (markers : List HistoryEvent) :
    Step x { x with
      run := { x.run with
        shared := { x.run.shared with replaying, time }.loadMarkers markers } }
  | collect : Step x { x with run := x.run.withLedger x.run.shared.ledger.notifySent }

inductive Reached (info : RunInfo) : Exchange → Prop where
  | start : Reached info (start info)
  | step {x x' : Exchange} (reached : Reached info x) (step : Step x x') : Reached info x'

/-! ## Lines of an exchange -/

def callsFor (x : Exchange) (name : String) : List Receiver :=
  x.calls.filter (fun r => r.name = name)

def line (x : Exchange) (name : String) : Line :=
  (x.callsFor name).map (Receiver.standing x.waiting)

def arrived (x : Exchange) (name : String) : List (Option Payload) :=
  (x.delivered.filter (fun d => d.1 = name)).map Prod.snd

def queue (x : Exchange) (name : String) : List PlaceholderId :=
  x.run.shared.signalWaiters.getD name []

/-! ## What a call is given -/

section Standing

variable {w w' : Waiting Outcome (Except Error Json)} {r : Receiver}

theorem input?_congr
    (same : ∀ p, r.placeholder? = some p → w'.content? p = w.content? p) :
    r.input? w' = r.input? w := by
  unfold Receiver.input?
  unfold Receiver.placeholder? at same
  cases fate : r.fate with
  | waits p =>
    simp only [fate] at same ⊢
    simp only [heldBy, same p rfl]
  | answered | dropped => rfl

theorem standing_congr
    (same : ∀ p, r.placeholder? = some p → w'.content? p = w.content? p) :
    r.standing w' = r.standing w := by
  simp only [Receiver.standing, input?_congr same]

theorem standing_placeholder (w : Waiting Outcome (Except Error Json)) (r : Receiver) :
    (r.standing w).placeholder? = if (r.input? w).isNone then r.placeholder? else none := by
  unfold Receiver.standing
  cases r.input? w with
  | some input => rfl
  | none => cases r.placeholder? <;> rfl

theorem standing_placeholder_ne {p : PlaceholderId} (other : r.placeholder? ≠ some p) :
    (r.standing w).placeholder? ≠ some p := by
  rw [standing_placeholder]
  split
  · exact other
  · simp

theorem standing_input (w : Waiting Outcome (Except Error Json)) (r : Receiver) :
    (r.standing w).input? = r.input? w := by
  unfold Receiver.standing
  cases r.input? w with
  | some input => rfl
  | none => cases r.placeholder? <;> rfl

theorem input?_of_placeholder {p : PlaceholderId} (waits : r.placeholder? = some p) :
    r.input? w = heldBy w p := by
  unfold Receiver.placeholder? at waits
  unfold Receiver.input?
  split at waits
  · next fate => simp_all
  · simp at waits

theorem input?_of_ended (ended : r.placeholder? = none) : r.input? w = r.input := by
  unfold Receiver.placeholder? at ended
  unfold Receiver.input?
  split at ended
  · simp at ended
  · rfl

theorem input?_of_dropped (gone : r.isDropped = true) : r.input? w = r.input := by
  refine input?_of_ended ?_
  unfold Receiver.isDropped at gone
  unfold Receiver.placeholder?
  split at gone
  · next fate => rw [fate]
  · simp at gone

theorem standing_waits : (r.standing w).placeholder? ≠ none ↔ r.Waits w := by
  rw [standing_placeholder, Receiver.Waits]
  cases r.input? w with
  | none => cases r.placeholder? <;> simp
  | some input => simp

theorem heldBy_open {p : PlaceholderId} (still : w.IsOpen p) : heldBy w p = none := by
  simp [heldBy, (w.isOpen_iff_content p).mp still]

end Standing

/-! ## Lines under a step -/

theorem line_waiters (x : Exchange) (name : String) :
    (x.line name).waiters =
      ((x.callsFor name).filter fun r => (r.input? x.waiting).isNone).filterMap
        Receiver.placeholder? := by
  simp only [line, Line.waiters, List.filterMap_map, List.filterMap_filter, Function.comp_def,
    standing_placeholder]

theorem line_waiters_sublist (x : Exchange) (name : String) :
    (x.line name).waiters.Sublist x.placeholders := by
  rw [line_waiters]
  exact (List.filter_sublist.trans List.filter_sublist).filterMap _

theorem mem_line_waiters {x : Exchange} {name : String} {p : PlaceholderId}
    (there : p ∈ (x.line name).waiters) :
    ∃ r ∈ x.calls, r.placeholder? = some p ∧ r.name = name := by
  rw [line_waiters] at there
  obtain ⟨r, call, waits⟩ := List.mem_filterMap.mp there
  obtain ⟨call, named⟩ := List.mem_filter.mp (List.mem_filter.mp call).1
  exact ⟨r, call, waits, by simpa using named⟩

theorem line_of_map {x x' : Exchange} {f : Receiver → Receiver} {g : Standing → Standing}
    (calls : x'.calls = x.calls.map f) (names : ∀ r, (f r).name = r.name)
    (standings : ∀ r, (f r).standing x'.waiting = g (r.standing x.waiting)) (name : String) :
    x'.line name = (x.line name).map g := by
  have kept : x'.callsFor name = (x.callsFor name).map f := by
    simp only [callsFor, calls, List.filter_map]
    refine congrArg (List.map f) (List.filter_congr fun r _ => ?_)
    simp [names r]
  simp only [line, kept, List.map_map]
  exact List.map_congr_left fun r _ => standings r

theorem line_of_concat (x x' : Exchange) {r : Receiver} (calls : x'.calls = x.calls ++ [r])
    (same : ∀ r ∈ x.calls, r.standing x'.waiting = r.standing x.waiting) (name : String) :
    x'.line name =
      if r.name = name then x.line name ++ [r.standing x'.waiting] else x.line name := by
  have old : (x.callsFor name).map (Receiver.standing x'.waiting) = x.line name :=
    List.map_congr_left fun r member => same r (List.mem_filter.mp member).1
  have eq : x'.line name = (x.callsFor name).map (Receiver.standing x'.waiting) ++
      ([r].filter fun r => r.name = name).map (Receiver.standing x'.waiting) := by
    simp only [line, callsFor, calls, List.filter_append, List.map_append]
  rw [eq, old]
  by_cases own : r.name = name <;> simp [own]

theorem placeholders_of_concat {x x' : Exchange} {r : Receiver}
    (calls : x'.calls = x.calls ++ [r]) :
    x'.placeholders = x.placeholders ++ r.placeholder?.toList := by
  simp only [placeholders, calls, List.filterMap_append]
  cases waits : r.placeholder? <;> simp [waits]

theorem queue_of_insert (x x' : Exchange) {name : String} {rest : List PlaceholderId}
    (waiters : x'.run.shared.signalWaiters = x.run.shared.signalWaiters.insert name rest)
    (name' : String) : x'.queue name' = if name = name' then rest else x.queue name' := by
  simp only [queue, waiters, Table.getD_insert]

theorem buffered_of_insert (x x' : Exchange) {name : String} {rest : List (Option Payload)}
    (signals : x'.run.shared.signals = x.run.shared.signals.insert name rest)
    (name' : String) : x'.buffered name' = if name = name' then rest else x.buffered name' := by
  simp only [buffered, signals, Table.getD_insert]

theorem arrived_of_concat (x x' : Exchange) {name : String} {input : Option Payload}
    (delivered : x'.delivered = x.delivered ++ [(name, input)]) (name' : String) :
    x'.arrived name' = if name = name' then x.arrived name' ++ [input] else x.arrived name' := by
  by_cases own : name = name' <;> simp [arrived, delivered, own]

/-- A signal goes to a placeholder; some waiters are left in the queue. -/
def gave (x : Exchange) (name : String) (input : Option Payload) (p : PlaceholderId)
    (behind : List PlaceholderId) : Exchange :=
  { x with
    run := {
      board := (x.run.board.resolve p (.completed input)).2
      shared := { x.run.shared with
        signalWaiters := x.run.shared.signalWaiters.insert name behind } }
    delivered := x.delivered ++ [(name, input)] }

theorem content?_gave {x : Exchange} {p : PlaceholderId} (still : x.waiting.IsOpen p)
    (name : String) (input : Option Payload) (behind : List PlaceholderId) (q : PlaceholderId) :
    (x.gave name input p behind).waiting.content? q =
      if p = q then some (some (.completed input)) else x.waiting.content? q := by
  have taken := (Board.resolve_taken_iff x.run.board p (.completed input)).mpr still
  exact (Board.content?_resolve _ _ _ _).trans (by simp [taken])

theorem isOpen_gave (x : Exchange) (name : String) (input : Option Payload) (p : PlaceholderId)
    (behind : List PlaceholderId) (q : PlaceholderId) :
    (x.gave name input p behind).waiting.IsOpen q ↔ p ≠ q ∧ x.waiting.IsOpen q :=
  Board.isOpen_resolve _ _ _ _

def took (x : Exchange) (name : String) (shape : Shape) (input : Option Payload)
    (rest : List (Option Payload)) : Exchange :=
  { x with
    run := { x.run with
      shared := { x.run.shared with signals := x.run.shared.signals.insert name rest } }
    calls := x.calls ++ [{
      name, shape
      fate := .answered (Codec.decodeValue shape input)
      input := some input }] }

theorem receive_of_buffered {x : Exchange} (me : TaskId) {name : String} (shape : Shape)
    {input : Option Payload} {rest : List (Option Payload)}
    (there : x.buffered name = input :: rest) :
    x.receive me name shape = x.took name shape input rest := by
  have signals : x.run.shared.signals.getD name [] = input :: rest := there
  simp [receive, took, Future.look, Run.ground, Run.onGround, Context.takeSignal?, signals, there]

def joined (x : Exchange) (me : TaskId) (name : String) (shape : Shape) : Exchange :=
  let p := x.waiting.make.1
  { x with
    run := {
      board := { x.run.board with waiting := (x.waiting.make.2.look me p).2 }
      shared := x.run.shared.awaitSignal name p }
    calls := x.calls ++ [{ name, shape, fate := .waits p }] }

theorem receive_of_empty {x : Exchange} (me : TaskId) {name : String} (shape : Shape)
    (empty : x.buffered name = []) : x.receive me name shape = x.joined me name shape := by
  have signals : x.run.shared.signals.getD name [] = [] := empty
  have nothing : (x.waiting.make.2.look me x.waiting.make.1).1 = none := by
    simp [Waiting.look_value]
  simp [receive, joined, Future.look, Run.ground, Run.onGround, Context.takeSignal?, signals,
    empty, nothing, Future.placeholder?]

theorem content?_joined (x : Exchange) (me : TaskId) (name : String) (shape : Shape)
    (q : PlaceholderId) :
    (x.joined me name shape).waiting.content? q =
      if x.waiting.make.1 = q then some none else x.waiting.content? q := by
  have nothing : (x.waiting.make.2.look me x.waiting.make.1).1 = none := by
    simp [Waiting.look_value]
  exact (Waiting.content?_look _ _ _ _).trans (by simp [nothing])

theorem nextPlaceholder_joined (x : Exchange) (me : TaskId) (name : String) (shape : Shape) :
    (x.joined me name shape).waiting.nextPlaceholder = x.waiting.nextPlaceholder + 1 :=
  Waiting.look_next _ _ _

theorem isOpen_joined (x : Exchange) (me : TaskId) (name : String) (shape : Shape)
    (q : PlaceholderId) :
    (x.joined me name shape).waiting.IsOpen q ↔ x.waiting.make.1 = q ∨ x.waiting.IsOpen q := by
  rw [Waiting.isOpen_iff_content, Waiting.isOpen_iff_content, content?_joined]
  by_cases same : x.waiting.make.1 = q <;> simp [same]

theorem placeholders_joined (x : Exchange) (me : TaskId) (name : String) (shape : Shape) :
    (x.joined me name shape).placeholders = x.placeholders ++ [x.waiting.make.1] :=
  placeholders_of_concat (r := { name, shape, fate := .waits x.waiting.make.1 }) rfl

theorem queue_joined (x : Exchange) (me : TaskId) (name : String) (shape : Shape)
    (name' : String) : (x.joined me name shape).queue name' =
      if name = name' then x.queue name ++ [x.waiting.make.1] else x.queue name' :=
  queue_of_insert x (x.joined me name shape) rfl name'

theorem make_ne_of_lt {x : Exchange} {p : PlaceholderId}
    (bound : p.number < x.waiting.nextPlaceholder) : x.waiting.make.1 ≠ p := by
  rintro rfl
  exact Nat.lt_irrefl _ bound

theorem filter_isOpen_of_closed {w w' : Waiting Outcome (Except Error Json)} {p : PlaceholderId}
    (closed : ∀ q, w'.IsOpen q ↔ p ≠ q ∧ w.IsOpen q) (l : List PlaceholderId) :
    l.filter (fun q => w'.IsOpen q) = (l.filter fun q => w.IsOpen q).filter (· ≠ p) := by
  rw [List.filter_filter]
  refine List.filter_congr fun q _ => ?_
  simp [closed, eq_comm]

end Exchange

end WorkflowReplay
