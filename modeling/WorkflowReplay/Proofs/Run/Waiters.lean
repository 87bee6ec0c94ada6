import Mathlib.Data.List.Basic
import WorkflowReplay.Proofs.Run.Effects

/-!
# Calls that wait for a signal

The calls that asked for signals of one name stand in a line, in the order in which they asked.
Each signal of the name goes to the first call of the line that still waits, and to the buffer if
there is none; a call that comes later takes from the buffer first.  `Line.Serves` is what such a
line keeps: no signal is with two calls, none is lost, and none overtakes.

A run keeps these lines in its queues of waiters.  Only a signal, and a call that looks at its own
placeholder, touch them; all else is quiet and spares the placeholders of such calls.
-/

set_option autoImplicit false

namespace WorkflowReplay

open Schedule

inductive Standing where
  /-- It can be given a signal through this placeholder. -/
  | waits (p : PlaceholderId)
  | got (input : Option Payload)
  /-- It was dropped before it was given a signal. -/
  | left
  deriving DecidableEq

namespace Standing

def placeholder? : Standing → Option PlaceholderId
  | .waits p => some p
  | .got _ | .left => none

def input? : Standing → Option (Option Payload)
  | .got input => some input
  | .waits _ | .left => none

def leave (p : PlaceholderId) : Standing → Standing
  | .waits q => if q = p then .left else .waits q
  | s => s

def give (p : PlaceholderId) (input : Option Payload) : Standing → Standing
  | .waits q => if q = p then .got input else .waits q
  | s => s

@[simp] theorem leave_input (p : PlaceholderId) (s : Standing) : (s.leave p).input? = s.input? := by
  cases s with
  | waits q =>
    simp only [leave]
    split <;> rfl
  | got | left => rfl

theorem leave_placeholder (p : PlaceholderId) (s : Standing) :
    (s.leave p).placeholder? = s.placeholder?.filter (· ≠ p) := by
  cases s with
  | waits q => by_cases same : q = p <;> simp [leave, placeholder?, Option.filter, same]
  | got | left => rfl

theorem give_placeholder (p : PlaceholderId) (input : Option Payload) (s : Standing) :
    (s.give p input).placeholder? = s.placeholder?.filter (· ≠ p) := by
  cases s with
  | waits q => by_cases same : q = p <;> simp [give, placeholder?, Option.filter, same]
  | got | left => rfl

theorem leave_other {p : PlaceholderId} {s : Standing} (other : s.placeholder? ≠ some p) :
    s.leave p = s := by
  cases s with
  | waits q =>
    have apart : q ≠ p := fun same => other (congrArg some same)
    simp [leave, apart]
  | got | left => rfl

theorem give_other {p : PlaceholderId} {s : Standing} (other : s.placeholder? ≠ some p)
    (input : Option Payload) : s.give p input = s := by
  cases s with
  | waits q =>
    have apart : q ≠ p := fun same => other (congrArg some same)
    simp [give, apart]
  | got | left => rfl

end Standing

abbrev Line := List Standing

namespace Line

def waiters (l : Line) : List PlaceholderId := l.filterMap Standing.placeholder?

def inputs (l : Line) : List (Option Payload) := l.filterMap Standing.input?

@[simp] theorem waiters_append (l l' : Line) :
    Line.waiters (l ++ l') = l.waiters ++ l'.waiters := List.filterMap_append

@[simp] theorem inputs_append (l l' : Line) :
    Line.inputs (l ++ l') = l.inputs ++ l'.inputs := List.filterMap_append

@[simp] theorem inputs_got (input : Option Payload) (l : Line) :
    Line.inputs (.got input :: l) = input :: l.inputs := rfl

@[simp] theorem inputs_waits (p : PlaceholderId) (l : Line) :
    Line.inputs (.waits p :: l) = l.inputs := rfl

theorem filterMap_filter_placeholder (l : Line) (p : PlaceholderId) :
    l.filterMap (fun s => s.placeholder?.filter (· ≠ p)) = l.waiters.filter (· ≠ p) := by
  simp only [waiters, List.filter_filterMap]

theorem waiters_leave (l : Line) (p : PlaceholderId) :
    Line.waiters (l.map (Standing.leave p)) = l.waiters.filter (· ≠ p) := by
  rw [← filterMap_filter_placeholder]
  simp only [waiters, List.filterMap_map, Function.comp_def, Standing.leave_placeholder]

theorem waiters_give (l : Line) (p : PlaceholderId) (input : Option Payload) :
    Line.waiters (l.map (Standing.give p input)) = l.waiters.filter (· ≠ p) := by
  rw [← filterMap_filter_placeholder]
  simp only [waiters, List.filterMap_map, Function.comp_def, Standing.give_placeholder]

/-- No call behind one that waits was given a signal. -/
def InTurn (l : Line) : Prop :=
  l.Pairwise fun s s' => s.placeholder? ≠ none → s'.input? = none

/-- The signals that arrived are those that the calls of the line were given, followed by those in
the buffer.  They were given in turn, and the buffer is empty while a call waits. -/
structure Serves (arrived buffered : List (Option Payload)) (l : Line) : Prop where
  account : arrived = l.inputs ++ buffered
  turns : l.InTurn
  empty : l.waiters ≠ [] → buffered = []

theorem serves_nil : Serves [] [] [] := ⟨rfl, .nil, fun _ => rfl⟩

/-- The first call that waits splits the line: nobody waits before it, and nobody behind it was
given a signal. -/
theorem exists_split_at_first_waiter {l : Line} (turns : l.InTurn) {p : PlaceholderId}
    {rest : List PlaceholderId}
    (first : l.waiters = p :: rest) : ∃ before after : Line, l = before ++ .waits p :: after ∧
      before.waiters = [] ∧ after.waiters = rest ∧ after.inputs = [] := by
  induction l with
  | nil => simp [waiters] at first
  | cons s l ih =>
    obtain ⟨ahead, turns'⟩ := List.pairwise_cons.mp turns
    cases s with
    | waits q =>
      obtain ⟨rfl, waiters⟩ := List.cons.inj first
      refine ⟨[], l, rfl, rfl, waiters, ?_⟩
      simp only [inputs, List.filterMap_eq_nil_iff]
      exact fun s' member => ahead s' member (by simp [Standing.placeholder?])
    | got input =>
      obtain ⟨before, after, rfl, none, rest, inputs⟩ := ih turns' first
      exact ⟨.got input :: before, after, rfl, none, rest, inputs⟩
    | left =>
      obtain ⟨before, after, rfl, none, rest, inputs⟩ := ih turns' first
      exact ⟨.left :: before, after, rfl, none, rest, inputs⟩

theorem map_give_other {l : Line} {p : PlaceholderId} (other : p ∉ l.waiters)
    (input : Option Payload) : l.map (Standing.give p input) = l := by
  refine (List.map_congr_left fun s member => ?_).trans (List.map_id l)
  refine Standing.give_other (fun waits => other ?_) input
  exact List.mem_filterMap.mpr ⟨s, member, waits⟩

namespace Serves

variable {arrived buffered : List (Option Payload)} {l : Line}

theorem waiters_eq_nil_of_buffered (h : Serves arrived buffered l) (some : buffered ≠ []) :
    l.waiters = [] :=
  by_contra fun waits => some (h.empty waits)

theorem concat_inTurn (h : Serves arrived buffered l) {s : Standing}
    (behind : s.input? ≠ none → l.waiters = []) : Line.InTurn (l ++ [s]) := by
  refine List.pairwise_append.mpr ⟨h.turns, List.pairwise_singleton _ _, ?_⟩
  intro s' member s'' last waits
  obtain rfl := List.mem_singleton.mp last
  by_contra input
  obtain ⟨p, waits⟩ := Option.ne_none_iff_exists'.mp waits
  have there : p ∈ l.waiters := List.mem_filterMap.mpr ⟨s', member, waits⟩
  simp [behind input] at there

theorem concat_got {input : Option Payload} (h : Serves arrived (input :: buffered) l) :
    Serves arrived buffered (l ++ [.got input]) where
  account := by simp [h.account, inputs, Standing.input?]
  turns := h.concat_inTurn fun _ => h.waiters_eq_nil_of_buffered (by simp)
  empty waits := by
    rw [waiters_append, h.waiters_eq_nil_of_buffered (by simp)] at waits
    exact absurd rfl waits

theorem concat_waits (h : Serves arrived [] l) (p : PlaceholderId) :
    Serves arrived [] (l ++ [.waits p]) where
  account := by simp [h.account, inputs, Standing.input?]
  turns := h.concat_inTurn fun input => absurd rfl input
  empty _ := rfl

theorem map_leave (h : Serves arrived buffered l) (p : PlaceholderId) :
    Serves arrived buffered (l.map (Standing.leave p)) where
  account := by
    rw [h.account]
    simp only [inputs, List.filterMap_map, Function.comp_def, Standing.leave_input]
  turns := by
    refine List.pairwise_map.mpr (h.turns.imp fun {s s'} turn waits => ?_)
    rw [Standing.leave_input]
    refine turn fun none => waits ?_
    rw [Standing.leave_placeholder, none]
    rfl
  empty waits := by
    refine h.empty fun nobody => waits ?_
    rw [waiters_leave, nobody]
    rfl

theorem map_give (h : Serves arrived buffered l) {p : PlaceholderId} {rest : List PlaceholderId}
    (first : l.waiters = p :: rest) (apart : p ∉ rest) (input : Option Payload) :
    Serves (arrived ++ [input]) buffered (l.map (Standing.give p input)) := by
  obtain ⟨before, after, rfl, nobody, waiters, unserved⟩ :=
    exists_split_at_first_waiter h.turns first
  have empty : buffered = [] := h.empty (by simp [first])
  have given : (before ++ .waits p :: after).map (Standing.give p input) =
      before ++ .got input :: after := by
    rw [List.map_append, List.map_cons, map_give_other (by simp [nobody]),
      map_give_other (by rwa [waiters])]
    simp [Standing.give]
  obtain ⟨turnsBefore, turnsAfter, -⟩ := List.pairwise_append.mp h.turns
  rw [given]
  constructor
  · simp [h.account, unserved, empty]
  · refine List.pairwise_append.mpr ⟨turnsBefore, ?_, ?_⟩
    · refine List.pairwise_cons.mpr ⟨?_, (List.pairwise_cons.mp turnsAfter).2⟩
      exact fun s _ waits => absurd rfl waits
    · intro s member s' _ waits
      obtain ⟨q, waits⟩ := Option.ne_none_iff_exists'.mp waits
      have there : q ∈ before.waiters := List.mem_filterMap.mpr ⟨s, member, waits⟩
      simp [nobody] at there
  · exact fun _ => empty

theorem buffer_input (h : Serves arrived buffered l) (nobody : l.waiters = [])
    (input : Option Payload) : Serves (arrived ++ [input]) (buffered ++ [input]) l where
  account := by rw [h.account, List.append_assoc]
  turns := h.turns
  empty waits := absurd nobody waits

end Serves

end Line

/-! ## What leaves signals alone -/

namespace Run

/-- A step that leaves the signals and their waiters alone, and opens only new placeholders. -/
structure Quiet (w w' : Run) : Prop where
  signals : w'.shared.signals = w.shared.signals
  signalWaiters : w'.shared.signalWaiters = w.shared.signalWaiters
  next : w.board.waiting.nextPlaceholder ≤ w'.board.waiting.nextPlaceholder
  opened : ∀ p, w'.board.waiting.IsOpen p →
    w.board.waiting.IsOpen p ∨ w.board.waiting.nextPlaceholder ≤ p.number
  requests : ∀ id p, w'.shared.waiting.get? id = some p →
    (∃ id', w.shared.waiting.get? id' = some p) ∨
      w.board.waiting.nextPlaceholder ≤ p.number ∧
        p.number < w'.board.waiting.nextPlaceholder

def Spares (p : PlaceholderId) (w w' : Run) : Prop :=
  w'.board.waiting.content? p = w.board.waiting.content? p

theorem quiet_of_shared {w : Run} {shared : Context} (signals : shared.signals = w.shared.signals)
    (signalWaiters : shared.signalWaiters = w.shared.signalWaiters)
    (waiting : shared.waiting = w.shared.waiting) : Quiet w { w with shared } :=
  ⟨signals, signalWaiters, Nat.le_refl _, fun _ still => .inl still,
    fun id _ waits => .inl ⟨id, waiting ▸ waits⟩⟩

theorem quiet_of_board {w : Run} {board : Board Outcome (Except Error Json)}
    (closed : ∀ p, board.waiting.IsOpen p → w.board.waiting.IsOpen p)
    (next : board.waiting.nextPlaceholder = w.board.waiting.nextPlaceholder) :
    Quiet w { w with board } :=
  ⟨rfl, rfl, Nat.le_of_eq next.symm, fun p still => .inl (closed p still),
    fun id _ waits => .inl ⟨id, waits⟩⟩

theorem settle_keeps_signals (id : DecisionId) (o : Outcome) (w : Run) :
    Quiet w (w.settle id o) := by
  unfold settle
  split
  · exact quiet_of_shared rfl rfl rfl
  · next p waits =>
    refine ⟨rfl, rfl, ?_, fun q still => .inl ((Board.isOpen_resolve _ _ _ _).mp still).2, ?_⟩
    · exact Nat.le_of_eq (Board.resolve_next _ _ _).symm
    · intro id' q waits'
      simp only [Table.get?_erase] at waits'
      split at waits'
      · simp at waits'
      · exact .inl ⟨id', waits'⟩

theorem settle_keeps_content {p : PlaceholderId} {w : Run} (id : DecisionId)
    (away : w.shared.waiting.get? id ≠ some p) (o : Outcome) : Spares p w (w.settle id o) := by
  unfold settle
  split
  · rfl
  · next q waits =>
    have apart : q ≠ p := fun same => away (same ▸ waits)
    simp [Spares, Board.content?_resolve, apart]

theorem Effect.keeps_signals {w w' : Run} {numbered : Bool} {handed : Option PlaceholderId}
    (effect : Effect w numbered handed w') : Quiet w w' := by
  cases effect with
  | aside aside =>
    obtain ⟨_, _, _, _, -, eq⟩ := aside.shared
    exact ⟨by rw [eq], by rw [eq], aside.next, fun p still => .inl (aside.closed p still),
      fun id p waits => .inl ⟨id, by rwa [eq] at waits⟩⟩
  | @asked w₁ request promise aside free =>
    obtain ⟨_, _, _, _, -, eq⟩ := aside.shared
    have grows := aside.next
    refine ⟨by simp [ask, eq], by simp [ask, eq], Nat.le_succ_of_le grows, ?_, ?_⟩
    · intro p still
      rcases (Waiting.isOpen_make _ p).mp still with rfl | before
      · exact .inr grows
      · exact .inl (aside.closed p before)
    · intro id p waits
      simp only [ask, Table.get?_insert] at waits
      split at waits
      · cases waits
        exact .inr ⟨grows, Nat.lt_succ_self _⟩
      · exact .inl ⟨id, by rwa [eq] at waits⟩
  | recorded | unrecorded | upserted | canceled => exact quiet_of_shared rfl rfl rfl
  | @ended _ id ledger asked outcome =>
    have settled := settle_keeps_signals id outcome (w.withLedger ledger)
    exact ⟨settled.signals, settled.signalWaiters, settled.next, settled.opened, settled.requests⟩

section Spares

variable {p : PlaceholderId} {w : Run}

theorem ask_keeps_content (old : p.number < w.board.waiting.nextPlaceholder) (request : Request)
    (promise : Promise) : Spares p w (w.ask request promise).2 := by
  have apart : (⟨w.board.waiting.nextPlaceholder⟩ : PlaceholderId) ≠ p := by
    rintro rfl
    exact Nat.lt_irrefl _ old
  simp [Spares, ask, Board.make, Waiting.make, Waiting.content?, apart]

theorem timer_keeps_content (old : p.number < w.board.waiting.nextPlaceholder) (delay : Span) :
    Spares p w (w.timer delay).2 := by
  have apart : w.board.waiting.make.1 ≠ p := by
    rintro rfl
    exact Nat.lt_irrefl _ old
  unfold timer
  by_cases zero : delay.isZero = true
  · rw [if_pos zero]
    simp [Spares, Board.make, Board.content?_resolve, apart]
  · rw [if_neg zero]
    cases delay.timerSeconds? with
    | some seconds =>
      exact ask_keeps_content (w := { w with shared := w.shared.freshId.2 }) old _
        (.timer (some w.shared.freshId.1))
    | none => simp [Spares, Board.make, Board.drop, apart]

theorem cancel_keeps_content (away : ∀ id, w.shared.waiting.get? id ≠ some p) (f : Future) :
    Spares p w (w.cancel f).2 := by
  unfold cancel
  split
  · split
    · rfl
    · next id named =>
      unfold requestCancel
      cases asked : w.shared.ledger.requestCancel? id with
      | none => rfl
      | some ledger =>
        simp only
        split
        · exact settle_keeps_content (w := w.withLedger ledger) id (away id) _
        · rfl
  · rfl

/-- A call spares what it is not about: a placeholder that waits for no request and that it does
not drop. -/
theorem perform_keeps_content (old : p.number < w.board.waiting.nextPlaceholder)
    (away : ∀ id, w.shared.waiting.get? id ≠ some p) (me : TaskId) {c : Call}
    (kept : ∀ f, c = .drop f → f.placeholder? ≠ some p) : Spares p w (perform me c w).2 := by
  cases c with
  | activity type input shape o =>
    simp only [perform, activity]
    split
    · rfl
    · exact ask_keeps_content (w := { w with shared := (chosenId o.id w.shared).2 }) old _
        (.activity (chosenId o.id w.shared).1 shape)
  | timer delay => exact timer_keeps_content old delay
  | child type input shape o =>
    simp only [perform, child]
    split
    · rfl
    · exact ask_keeps_content (w := { w with shared := (childId o.id w.shared).2 }) old _
        (.child (childId o.id w.shared).1 shape)
  | signalExternal | cancelExternal =>
    exact ask_keeps_content (w := { w with shared := w.shared.freshId.2 }) old _ _
  | cancel f => exact cancel_keeps_content away f
  | drop f =>
    have other := kept f rfl
    simp only [perform, drop]
    split
    · next q named =>
      have apart : q ≠ p := fun same => other (same ▸ named)
      simp [Spares, Board.drop, apart]
    · rfl
  | sideEffect closure shape =>
    simp only [perform, sideEffect]
    split
    · rfl
    · split
      · rfl
      · split <;> rfl
  | upsert attributes =>
    simp only [perform, upsert]
    split <;> rfl
  | info | time | now | isReplaying | isCancelRequested | randomWord | randomUuid | report => rfl

theorem applyEvent_keeps_signals {e : HistoryEvent} {w' : Run}
    (unsignaled : ∀ a, e.attributes ≠ .workflowExecutionSignaled a)
    (applied : applyEvent e w = .ok w') :
    Quiet w w' ∧ ∀ p, (∀ id, w.shared.waiting.get? id ≠ some p) → Spares p w w' := by
  unfold applyEvent at applied
  split at applied
  · next a signaled => exact absurd signaled (unsignaled a)
  · cases applied
    exact ⟨quiet_of_shared rfl rfl rfl, fun _ _ => rfl⟩
  · split at applied
    · simp at applied
    · next resolution ledger handled =>
      simp only at applied
      split at applied
      · cases applied
        exact ⟨quiet_of_shared rfl rfl rfl, fun _ _ => rfl⟩
      · next r =>
        cases applied
        have settled := settle_keeps_signals r.id r.outcome (w.withLedger ledger)
        exact ⟨⟨settled.signals, settled.signalWaiters, settled.next, settled.opened,
          settled.requests⟩,
          fun p away => settle_keeps_content (w := w.withLedger ledger) r.id (away r.id) _⟩

end Spares

/-! ## Who is given a signal -/

theorem deliver_of_all_closed (name : String) (input : Option Payload)
    {waiters : List PlaceholderId} {w : Run} (closed : ∀ p ∈ waiters, ¬ w.board.waiting.IsOpen p) :
    deliver name input waiters w =
      { w with
        shared := { w.shared with
          signalWaiters := w.shared.signalWaiters.insert name [] }.bufferSignal name input } := by
  induction waiters with
  | nil => rfl
  | cons p rest ih =>
    have refused := Waiting.resolve?_closed (closed p List.mem_cons_self) (Outcome.completed input)
    simp only [deliver, Board.resolve, refused]
    exact ih fun q member => closed q (List.mem_cons_of_mem p member)

theorem deliver_to_first_open (name : String) (input : Option Payload)
    {before rest : List PlaceholderId}
    {p : PlaceholderId} {w : Run} (closed : ∀ q ∈ before, ¬ w.board.waiting.IsOpen q)
    (first : w.board.waiting.IsOpen p) :
    deliver name input (before ++ p :: rest) w =
      { board := (w.board.resolve p (.completed input)).2
        shared := { w.shared with signalWaiters := w.shared.signalWaiters.insert name rest } } := by
  induction before with
  | nil =>
    have taken := (Board.resolve_taken_iff w.board p (.completed input)).mpr first
    simp only [List.nil_append, deliver]
    split
    · next board resolved => rw [resolved]
    · next board resolved => simp [resolved] at taken
  | cons q before ih =>
    have refused := Waiting.resolve?_closed (closed q List.mem_cons_self) (Outcome.completed input)
    simp only [List.cons_append, deliver, Board.resolve, refused]
    exact ih fun q' member => closed q' (List.mem_cons_of_mem q member)

end Run

end WorkflowReplay
