import Mathlib
import WorkflowReplay.Proofs.Run.Exchange

/-!
# Where signals go

A signal goes through up to three places: the buffer of its name, the placeholder of a call that
waits, and the call that takes it.  Every signal of a name is in exactly one of these places, and
the calls were served in turn.  A call that is dropped takes the signal in its placeholder with it;
the main result says that nothing else loses one.
-/

set_option autoImplicit false

namespace WorkflowReplay

open Schedule

namespace Exchange

/-! ## What an exchange keeps -/

/-- Each call that waits has a placeholder of its own, which no request waits for and no later
call is given. -/
structure Placed (x : Exchange) : Prop where
  apart : x.placeholders.Nodup
  below : ∀ p ∈ x.placeholders, p.number < x.waiting.nextPlaceholder
  requests : ∀ id p, x.run.shared.waiting.get? id = some p →
    p.number < x.waiting.nextPlaceholder ∧ p ∉ x.placeholders
  queued : ∀ name, ∀ p ∈ x.queue name, p.number < x.waiting.nextPlaceholder

/-- What an exchange keeps: the placeholders of its calls hold signals if anything, the open ones
stand in the queues, and each line serves the signals that arrived. -/
structure Sound (x : Exchange) : Prop where
  placed : x.Placed
  held : ∀ p ∈ x.placeholders, x.waiting.IsOpen p ∨
    ∃ input, x.waiting.content? p = some (some (.completed input))
  queued : ∀ name, (x.queue name).filter (fun p => x.waiting.IsOpen p) = (x.line name).waiters
  serves : ∀ name, (x.line name).Serves (x.arrived name) (x.buffered name)
  results : ∀ r ∈ x.calls, ∀ result, r.fate = .answered result →
    ∃ input, r.input = some input ∧ result = Codec.decodeValue r.shape input

theorem held_of_same_content {w w' : Waiting Outcome (Except Error Json)} {p : PlaceholderId}
    (same : w'.content? p = w.content? p)
    (held : w.IsOpen p ∨ ∃ input, w.content? p = some (some (.completed input))) :
    w'.IsOpen p ∨ ∃ input, w'.content? p = some (some (.completed input)) := by
  rw [Waiting.isOpen_iff_content, same, ← Waiting.isOpen_iff_content]
  exact held

theorem start_placed (info : RunInfo) : (start info).Placed where
  apart := .nil
  below := by simp [start, placeholders]
  requests := by simp [start, Context.new]
  queued := by simp [start, queue, Context.new, Table.getD]

theorem start_sound (info : RunInfo) : (start info).Sound where
  placed := start_placed info
  held := by simp [start, placeholders]
  queued name := by simp [start, queue, Context.new, Table.getD, line, callsFor, Line.waiters]
  serves name := by
    simpa [start, line, callsFor, arrived, buffered, Context.new, Table.getD] using Line.serves_nil
  results := by simp [start]

theorem Placed.of_later {x x' : Exchange} (h : x.Placed)
    (next : x.waiting.nextPlaceholder ≤ x'.waiting.nextPlaceholder)
    (requests : ∀ id p, x'.run.shared.waiting.get? id = some p →
      (∃ id', x.run.shared.waiting.get? id' = some p) ∨
        x.waiting.nextPlaceholder ≤ p.number ∧ p.number < x'.waiting.nextPlaceholder)
    (fewer : x'.placeholders.Sublist x.placeholders)
    (queue : ∀ name, x'.queue name ⊆ x.queue name) : x'.Placed where
  apart := h.apart.sublist fewer
  below p there := Nat.lt_of_lt_of_le (h.below p (fewer.subset there)) next
  requests id p waits := by
    rcases requests id p waits with ⟨id', old⟩ | ⟨new, bound⟩
    · obtain ⟨bound, other⟩ := h.requests id' p old
      exact ⟨Nat.lt_of_lt_of_le bound next, fun there => other (fewer.subset there)⟩
    · exact ⟨bound, fun there => Nat.not_lt.mpr new (h.below p (fewer.subset there))⟩
  queued name p queued := Nat.lt_of_lt_of_le (h.queued name p (queue name queued)) next

theorem Placed.call_unique {x : Exchange} (h : x.Placed) {r r' : Receiver} {p : PlaceholderId}
    (call : r ∈ x.calls) (call' : r' ∈ x.calls) (waits : r.placeholder? = some p)
    (waits' : r'.placeholder? = some p) : r = r' := by
  have symm : Std.Symm Receiver.Apart := ⟨fun _ _ => Receiver.Apart.symm⟩
  have apart : x.calls.Pairwise Receiver.Apart := List.pairwise_filterMap.mp h.apart
  by_contra other
  exact apart.forall call call' other p waits p waits' rfl

theorem Placed.line_unique {x : Exchange} (h : x.Placed) {name name' : String} {p : PlaceholderId}
    (there : p ∈ (x.line name).waiters) (there' : p ∈ (x.line name').waiters) : name = name' := by
  obtain ⟨r, call, waits, named⟩ := mem_line_waiters there
  obtain ⟨r', call', waits', named'⟩ := mem_line_waiters there'
  cases h.call_unique call call' waits waits'
  exact named.symm.trans named'

theorem Placed.gave {x : Exchange} (h : x.Placed) {name : String} (input : Option Payload)
    {before behind : List PlaceholderId} {p : PlaceholderId}
    (queue : x.queue name = before ++ p :: behind) : (x.gave name input p behind).Placed := by
  refine h.of_later ?_ (fun id p waits => .inl ⟨id, waits⟩) (.refl _) ?_
  · exact Nat.le_of_eq (Board.resolve_next _ _ _).symm
  · intro name' q member
    rw [queue_of_insert x _ rfl] at member
    split at member
    · next own =>
      subst own
      rw [queue]
      exact List.mem_append_right _ (List.mem_cons_of_mem _ member)
    · exact member

theorem Placed.joined {x : Exchange} (h : x.Placed) (me : TaskId) (name : String) (shape : Shape) :
    (x.joined me name shape).Placed := by
  have next := nextPlaceholder_joined x me name shape
  refine ⟨?_, ?_, ?_, ?_⟩
  · rw [placeholders_joined]
    refine List.nodup_append.mpr ⟨h.apart, List.nodup_singleton _, ?_⟩
    intro p there q last
    obtain rfl := List.mem_singleton.mp last
    exact (make_ne_of_lt (h.below p there)).symm
  · intro p member
    rw [placeholders_joined] at member
    rw [next]
    rcases List.mem_append.mp member with there | last
    · exact Nat.lt_succ_of_lt (h.below p there)
    · obtain rfl := List.mem_singleton.mp last
      exact Nat.lt_succ_self _
  · intro id p waits
    obtain ⟨bound, other⟩ := h.requests id p waits
    rw [placeholders_joined, next]
    refine ⟨Nat.lt_succ_of_lt bound, fun member => ?_⟩
    rcases List.mem_append.mp member with there | last
    · exact other there
    · exact make_ne_of_lt bound (List.mem_singleton.mp last).symm
  · intro name' p queued
    rw [queue_joined] at queued
    rw [next]
    split at queued
    · rcases List.mem_append.mp queued with old | last
      · exact Nat.lt_succ_of_lt (h.queued name p old)
      · obtain rfl := List.mem_singleton.mp last
        exact Nat.lt_succ_self _
    · exact Nat.lt_succ_of_lt (h.queued name' p queued)

theorem Placed.joined_line {x : Exchange} (h : x.Placed) (me : TaskId) (name : String)
    (shape : Shape) (name' : String) :
    (x.joined me name shape).line name' =
      if name = name' then x.line name' ++ [.waits x.waiting.make.1] else x.line name' := by
  have content := content?_joined x me name shape
  have last : Receiver.standing (x.joined me name shape).waiting
      { name, shape, fate := .waits x.waiting.make.1 } = .waits x.waiting.make.1 := by
    simp [Receiver.standing, Receiver.input?, Receiver.placeholder?, heldBy, content]
  rw [← last]
  refine line_of_concat x (x.joined me name shape) rfl (fun r call => ?_) name'
  refine standing_congr fun q waits => ?_
  have there : q ∈ x.placeholders := List.mem_filterMap.mpr ⟨r, call, waits⟩
  exact (content q).trans (if_neg (make_ne_of_lt (h.below q there)))

structure Ends (x x' : Exchange) (p : PlaceholderId) (f : Receiver → Receiver) : Prop where
  quiet : Run.Quiet x.run x'.run
  calls : x'.calls = x.calls.map f
  delivered : x'.delivered = x.delivered
  content : ∀ q, x'.waiting.content? q = if p = q then none else x.waiting.content? q
  others : ∀ r, r.placeholder? ≠ some p → f r = r
  ends : ∀ r, r.placeholder? = some p → (f r).placeholder? = none ∧ (f r).name = r.name ∧
    (f r).input = heldBy x.waiting p

namespace Ends

variable {x x' : Exchange} {p : PlaceholderId} {f : Receiver → Receiver}

theorem isOpen_iff (ends : Ends x x' p f) (q : PlaceholderId) :
    x'.waiting.IsOpen q ↔ p ≠ q ∧ x.waiting.IsOpen q := by
  rw [Waiting.isOpen_iff_content, Waiting.isOpen_iff_content, ends.content]
  by_cases same : p = q <;> simp [same]

theorem name_eq (ends : Ends x x' p f) (r : Receiver) : (f r).name = r.name := by
  by_cases own : r.placeholder? = some p
  · exact (ends.ends r own).2.1
  · rw [ends.others r own]

theorem standing_eq (ends : Ends x x' p f) (r : Receiver) :
    (f r).standing x'.waiting = (r.standing x.waiting).leave p := by
  by_cases own : r.placeholder? = some p
  · obtain ⟨gone, -, input⟩ := ends.ends r own
    simp only [Receiver.standing, gone, input?_of_ended gone, input, own,
      input?_of_placeholder own]
    cases heldBy x.waiting p <;> simp [Standing.leave]
  · rw [ends.others r own, Standing.leave_other (standing_placeholder_ne own)]
    refine standing_congr fun q waits => (ends.content q).trans (if_neg ?_)
    rintro rfl
    exact own waits

theorem placeholders_eq (ends : Ends x x' p f) :
    x'.placeholders = x.placeholders.filter (· ≠ p) := by
  simp only [Exchange.placeholders, ends.calls, List.filterMap_map, List.filter_filterMap,
    Function.comp_def]
  refine List.filterMap_congr fun r _ => ?_
  by_cases own : r.placeholder? = some p
  · simp [(ends.ends r own).1, own, Option.filter]
  · rw [ends.others r own]
    cases waits : r.placeholder? with
    | none => rfl
    | some q =>
      have other : q ≠ p := fun same => own (same ▸ waits)
      simp [Option.filter, other]

end Ends

namespace Sound

variable {x : Exchange}

theorem mem_of_queued (h : x.Sound) {name : String} {p : PlaceholderId} (queued : p ∈ x.queue name)
    (still : x.waiting.IsOpen p) : p ∈ x.placeholders := by
  refine (line_waiters_sublist x name).subset ?_
  rw [← h.queued name]
  exact List.mem_filter.mpr ⟨queued, by simpa using still⟩

theorem of_quiet (h : x.Sound) {w' : Run} (quiet : Run.Quiet x.run w')
    (spares : ∀ p ∈ x.placeholders, Run.Spares p x.run w') : Sound { x with run := w' } := by
  have line (name : String) : Exchange.line { x with run := w' } name = x.line name := by
    refine List.map_congr_left fun r member => standing_congr fun p waits => ?_
    exact spares p (List.mem_filterMap.mpr ⟨r, (List.mem_filter.mp member).1, waits⟩)
  have queue (name : String) : Exchange.queue { x with run := w' } name = x.queue name := by
    simp only [Exchange.queue, quiet.signalWaiters]
  have buffered (name : String) :
      Exchange.buffered { x with run := w' } name = x.buffered name := by
    simp only [Exchange.buffered, quiet.signals]
  have still (p : PlaceholderId) (there : p ∈ x.placeholders) :
      w'.board.waiting.IsOpen p ↔ x.waiting.IsOpen p := by
    rw [Waiting.isOpen_iff_content, Waiting.isOpen_iff_content, spares p there]
  refine ⟨?_, ?_, ?_, ?_, h.results⟩
  · exact h.placed.of_later quiet.next quiet.requests (.refl _) fun name => by
      rw [queue]
      exact List.Subset.refl _
  · exact fun p there => held_of_same_content (spares p there) (h.held p there)
  · intro name
    rw [line, queue, ← h.queued name]
    refine List.filter_congr fun p queued => decide_eq_decide.mpr ⟨fun opened => ?_, fun old => ?_⟩
    · rcases quiet.opened p opened with old | new
      · exact old
      · exact absurd (h.placed.queued name p queued) (Nat.not_lt.mpr new)
    · exact (still p (h.mem_of_queued queued old)).mpr old
  · intro name
    rw [line, buffered]
    exact h.serves name

theorem of_ends (h : x.Sound) {x' : Exchange} {p : PlaceholderId} {f : Receiver → Receiver}
    (ends : Ends x x' p f)
    (results : ∀ r ∈ x.calls, r.placeholder? = some p → ∀ result, (f r).fate = .answered result →
      ∃ input, (f r).input = some input ∧ result = Codec.decodeValue (f r).shape input) :
    x'.Sound := by
  have line := line_of_map ends.calls ends.name_eq ends.standing_eq
  have queue (name : String) : x'.queue name = x.queue name := by
    simp only [Exchange.queue, ends.quiet.signalWaiters]
  have buffered (name : String) : x'.buffered name = x.buffered name := by
    simp only [Exchange.buffered, ends.quiet.signals]
  have arrived (name : String) : x'.arrived name = x.arrived name := by
    simp only [Exchange.arrived, ends.delivered]
  refine ⟨?_, ?_, ?_, ?_, ?_⟩
  · refine h.placed.of_later ends.quiet.next ends.quiet.requests ?_ fun name => ?_
    · exact ends.placeholders_eq ▸ List.filter_sublist
    · exact queue name ▸ List.Subset.refl _
  · intro q member
    rw [ends.placeholders_eq] at member
    obtain ⟨there, other⟩ := List.mem_filter.mp member
    have other : p ≠ q := fun same => by simp [same] at other
    exact held_of_same_content ((ends.content q).trans (if_neg other)) (h.held q there)
  · intro name
    rw [line, queue, Line.waiters_leave, ← h.queued name]
    exact filter_isOpen_of_closed ends.isOpen_iff _
  · intro name
    rw [line, buffered, arrived]
    exact (h.serves name).map_leave p
  · intro r' member result answered
    rw [ends.calls] at member
    obtain ⟨r, call, rfl⟩ := List.mem_map.mp member
    by_cases own : r.placeholder? = some p
    · exact results r call own result answered
    · rw [ends.others r own] at answered ⊢
      exact h.results r call result answered

/-! ### Signals that arrive -/

theorem deliver_to_nobody (h : x.Sound) {name : String} (input : Option Payload)
    (nobody : (x.line name).waiters = []) :
    Sound { x with
      run := Run.deliver name input (x.queue name) x.run
      delivered := x.delivered ++ [(name, input)] } := by
  have closed : ∀ p ∈ x.queue name, ¬ x.waiting.IsOpen p := by
    simpa [List.filter_eq_nil_iff] using (h.queued name).trans nobody
  rw [Run.deliver_of_all_closed name input closed]
  refine ⟨?_, h.held, ?_, ?_, h.results⟩
  · refine h.placed.of_later (Nat.le_refl _) (fun id p waits => .inl ⟨id, waits⟩) (.refl _) ?_
    intro name' p member
    rw [queue_of_insert x _ rfl] at member
    split at member
    · simp at member
    · exact member
  · intro name'
    rw [queue_of_insert x _ rfl]
    split
    · next own => exact (own ▸ nobody).symm
    · exact h.queued name'
  · intro name'
    rw [arrived_of_concat x _ rfl, buffered_of_insert x _ rfl]
    have serves := h.serves name'
    split
    · next own =>
      subst own
      exact serves.buffer_input nobody input
    · exact serves

theorem gave_standing {p : PlaceholderId} (still : x.waiting.IsOpen p) (name : String)
    (input : Option Payload) (behind : List PlaceholderId) (r : Receiver) :
    r.standing (x.gave name input p behind).waiting = (r.standing x.waiting).give p input := by
  by_cases own : r.placeholder? = some p
  · have holds := (content?_gave still name input behind p).trans (if_pos rfl)
    simp only [Receiver.standing, input?_of_placeholder own, own, heldBy_open still]
    simp [heldBy, holds, Standing.give]
  · rw [Standing.give_other (standing_placeholder_ne own)]
    refine standing_congr fun q waits => (content?_gave still name input behind q).trans (if_neg ?_)
    rintro rfl
    exact own waits

theorem gave_line {p : PlaceholderId} (still : x.waiting.IsOpen p) (name : String)
    (input : Option Payload) (behind : List PlaceholderId) (name' : String) :
    (x.gave name input p behind).line name' = (x.line name').map (Standing.give p input) := by
  simp only [Exchange.line, List.map_map]
  exact List.map_congr_left fun r _ => gave_standing still name input behind r

theorem waiters_eq_of_first_open (h : x.Sound) {name : String} {before behind : List PlaceholderId}
    {p : PlaceholderId} (queue : x.queue name = before ++ p :: behind)
    (closed : ∀ q ∈ before, ¬ x.waiting.IsOpen q) (still : x.waiting.IsOpen p) :
    (x.line name).waiters = p :: behind.filter (fun q => x.waiting.IsOpen q) := by
  rw [← h.queued name, queue, List.filter_append, List.filter_cons_of_pos (by simpa using still),
    List.filter_eq_nil_iff.mpr (by simpa using closed)]
  rfl

theorem gave (h : x.Sound) {name : String} (input : Option Payload)
    {before behind : List PlaceholderId} {p : PlaceholderId}
    (queue : x.queue name = before ++ p :: behind) (closed : ∀ q ∈ before, ¬ x.waiting.IsOpen q)
    (still : x.waiting.IsOpen p) : (x.gave name input p behind).Sound := by
  have first := h.waiters_eq_of_first_open queue closed still
  have apart : p ∉ behind.filter (fun q => x.waiting.IsOpen q) := by
    have nodup := h.placed.apart.sublist (line_waiters_sublist x name)
    rw [first] at nodup
    exact (List.nodup_cons.mp nodup).1
  have content := content?_gave still name input behind
  have opened := isOpen_gave x name input p behind
  have line := gave_line still name input behind
  refine ⟨h.placed.gave input queue, ?_, ?_, ?_, h.results⟩
  · intro q there
    by_cases same : p = q
    · exact .inr ⟨input, (content q).trans (if_pos same)⟩
    · exact held_of_same_content ((content q).trans (if_neg same)) (h.held q there)
  · intro name'
    rw [queue_of_insert x _ rfl, line, Line.waiters_give, filter_isOpen_of_closed opened]
    split
    · next own =>
      subst own
      rw [first, List.filter_cons_of_neg (by simp)]
    · rw [← h.queued name']
  · intro name'
    rw [line, arrived_of_concat x _ rfl]
    have serves := h.serves name'
    split
    · next own =>
      subst own
      exact serves.map_give first apart input
    · next other =>
      -- The one call that waits for the placeholder asked for the other name.
      have absent : p ∉ (x.line name').waiters := fun there =>
        other (h.placed.line_unique (first ▸ List.mem_cons_self) there)
      rw [Line.map_give_other absent]
      exact serves

theorem applied (h : x.Sound) (e : HistoryEvent) : (x.applied e).Sound := by
  unfold Exchange.applied
  cases signal : Run.signalOf? e with
  | some d =>
    obtain ⟨name, input⟩ := d
    rw [Run.applyEvent_signal signal]
    simp only [Except.toOption, Option.getD_some, Option.toList_some]
    cases waiters : (x.line name).waiters with
    | nil => exact h.deliver_to_nobody input waiters
    | cons p rest =>
      obtain ⟨before, behind, queue, closed, still, -⟩ :=
        List.filter_eq_cons_iff.mp ((h.queued name).trans waiters)
      have still : x.waiting.IsOpen p := by simpa using still
      have closed : ∀ q ∈ before, ¬ x.waiting.IsOpen q := by simpa using closed
      have given := h.gave input queue closed still
      unfold Exchange.queue at queue
      rw [queue, Run.deliver_to_first_open name input closed still]
      exact given
  | none =>
    simp only [Option.toList_none, List.append_nil]
    cases result : Run.applyEvent e x.run with
    | error err => exact h
    | ok run =>
      obtain ⟨quiet, spares⟩ :=
        Run.applyEvent_keeps_signals (Run.not_signaled_of_signalOf? signal) result
      refine h.of_quiet quiet fun p there => spares p fun id waits => ?_
      exact (h.placed.requests id p waits).2 there

/-! ### Calls that ask -/

theorem took (h : x.Sound) {name : String} (shape : Shape) {input : Option Payload}
    {rest : List (Option Payload)} (there : x.buffered name = input :: rest) :
    (x.took name shape input rest).Sound := by
  have placeholders : (x.took name shape input rest).placeholders = x.placeholders :=
    (placeholders_of_concat rfl).trans (List.append_nil _)
  have line := line_of_concat x (x.took name shape input rest) rfl fun _ _ => rfl
  refine ⟨?_, ?_, ?_, ?_, ?_⟩
  · exact h.placed.of_later (Nat.le_refl _) (fun id p waits => .inl ⟨id, waits⟩)
      (placeholders ▸ .refl _) fun name' => List.Subset.refl _
  · intro p member
    exact h.held p (placeholders ▸ member)
  · intro name'
    rw [line]
    split
    · rw [Line.waiters_append]
      exact (h.queued name').trans (List.append_nil _).symm
    · exact h.queued name'
  · intro name'
    rw [line, buffered_of_insert x _ rfl]
    have serves := h.serves name'
    by_cases own : name = name'
    · subst own
      rw [there] at serves
      rw [if_pos rfl, if_pos rfl]
      exact serves.concat_got
    · rw [if_neg own, if_neg own]
      exact serves
  · intro r member result answered
    rcases List.mem_append.mp member with call | last
    · exact h.results r call result answered
    · obtain rfl := List.mem_singleton.mp last
      cases answered
      exact ⟨input, rfl, rfl⟩

theorem joined (h : x.Sound) (me : TaskId) {name : String} (shape : Shape)
    (empty : x.buffered name = []) : (x.joined me name shape).Sound := by
  have content := content?_joined x me name shape
  have opened := isOpen_joined x me name shape
  have line (name' : String) := h.placed.joined_line me name shape name'
  refine ⟨h.placed.joined me name shape, ?_, ?_, ?_, ?_⟩
  · intro p member
    rw [placeholders_joined] at member
    rcases List.mem_append.mp member with there | last
    · have other := make_ne_of_lt (h.placed.below p there)
      exact held_of_same_content ((content p).trans (if_neg other)) (h.held p there)
    · exact .inl ((opened p).mpr (.inl (List.mem_singleton.mp last).symm))
  · intro name'
    have old : (x.queue name').filter (fun p => (x.joined me name shape).waiting.IsOpen p) =
        (x.line name').waiters := by
      rw [← h.queued name']
      refine List.filter_congr fun p queued => decide_eq_decide.mpr ((opened p).trans ?_)
      exact or_iff_right (make_ne_of_lt (h.placed.queued name' p queued))
    rw [queue_joined, line]
    by_cases same : name = name'
    · subst same
      have last : (x.joined me name shape).waiting.IsOpen x.waiting.make.1 :=
        (opened _).mpr (.inl rfl)
      rw [if_pos rfl, if_pos rfl, List.filter_append, Line.waiters_append]
      exact congrArg₂ _ old (List.filter_cons_of_pos (by simpa using last))
    · rw [if_neg same, if_neg same]
      exact old
  · intro name'
    have serves := h.serves name'
    rw [line]
    by_cases same : name = name'
    · subst same
      rw [if_pos rfl]
      rw [empty] at serves
      exact empty ▸ serves.concat_waits x.waiting.make.1
    · rw [if_neg same]
      exact serves
  · intro r member result answered
    rcases List.mem_append.mp member with call | last
    · exact h.results r call result answered
    · obtain rfl := List.mem_singleton.mp last
      cases answered

theorem receive (h : x.Sound) (me : TaskId) (name : String) (shape : Shape) :
    (x.receive me name shape).Sound := by
  cases there : x.buffered name with
  | nil =>
    rw [receive_of_empty me shape there]
    exact h.joined me shape there
  | cons input rest =>
    rw [receive_of_buffered me shape there]
    exact h.took shape there

/-! ### Calls that wait -/

theorem poll (h : x.Sound) (me : TaskId) {r : Receiver} {p : PlaceholderId} (call : r ∈ x.calls)
    (waits : r.placeholder? = some p) : (x.poll me r.name r.shape p).Sound := by
  have looks := Waiting.look_value x.waiting me p
  have content := Waiting.content?_look x.waiting me p
  have quiet : Run.Quiet x.run
      (x.run.onGround (Future.look me (.signal r.name r.shape (some p)) x.run.ground).2) :=
    Run.look_keeps_signals me (by simp) x.run
  rcases h.held p (List.mem_filterMap.mpr ⟨r, call, waits⟩) with still | ⟨input, holds⟩
  · -- There is nothing to take, and the call goes on waiting.
    have nothing : (x.waiting.look me p).1 = none := by
      rw [looks, (Waiting.isOpen_iff_content _ _).mp still]
      rfl
    have eq : x.poll me r.name r.shape p = { x with
        run := x.run.onGround
          (Future.look me (.signal r.name r.shape (some p)) x.run.ground).2 } := by
      simp only [Exchange.poll, Future.look, Run.ground, nothing, Option.map_none,
        Receiver.polled_unanswered, List.map_id]
    rw [eq]
    refine h.of_quiet quiet fun q _ => (content q).trans ?_
    simp [nothing]
  · have taken : (x.waiting.look me p).1 = some (.completed input) := by
      rw [looks, holds]
      rfl
    have calls : (x.poll me r.name r.shape p).calls =
        x.calls.map (Receiver.polled p (heldBy x.waiting p)
          (some (Codec.decodeValue r.shape input))) := by
      simp only [Exchange.poll, Future.look, Run.ground, taken, Option.map_some, signalResult]
    refine h.of_ends (p := p) ⟨quiet, calls, rfl, fun q => ?_, fun r' other => ?_, fun r' own => ?_⟩
      ?_
    · refine (content q).trans ?_
      simp [taken]
    · simp [Receiver.polled, other]
    · rw [Receiver.polled_own own]
      exact ⟨rfl, rfl, rfl⟩
    · intro r' call' own result answered
      cases h.placed.call_unique call call' waits own
      rw [Receiver.polled_own waits] at answered ⊢
      cases answered
      exact ⟨input, by simp [heldBy, holds], rfl⟩

theorem drop (h : x.Sound) (me : TaskId) (name : String) (shape : Shape) (p : PlaceholderId) :
    (x.drop me name shape p).Sound := by
  refine h.of_ends (p := p) ⟨(Run.perform_effect me _ x.run).keeps_signals, rfl, rfl, fun q => ?_,
    fun r' other => ?_, fun r' own => ?_⟩ ?_
  · exact Waiting.content?_drop x.waiting p q
  · simp [Receiver.dropped, other]
  · rw [Receiver.dropped_own own]
    exact ⟨rfl, rfl, rfl⟩
  · intro r' _ own result answered
    simp [Receiver.dropped_own own] at answered

theorem step {x' : Exchange} (h : x.Sound) (step : Step x x') : x'.Sound := by
  cases step with
  | receive me name shape => exact h.receive me name shape
  | poll me call waits => exact h.poll me call waits
  | drop me call waits => exact h.drop me _ _ _
  | event e => exact h.applied e
  | call me c kept =>
    refine h.of_quiet (Run.perform_effect me c x.run).keeps_signals fun p there => ?_
    exact Run.perform_keeps_content (h.placed.below p there)
      (fun id waits => (h.placed.requests id p waits).2 there) me fun f same => kept f same p there
  | look me f asked kept =>
    exact h.of_quiet (Run.look_keeps_signals me asked x.run) fun p there =>
      Run.look_keeps_content me asked (kept p there) x.run
  | tasks board placeholders next =>
    have content (p : PlaceholderId) : board.waiting.content? p = x.waiting.content? p := by
      simp only [Waiting.content?, placeholders]
    refine h.of_quiet (Run.quiet_of_board (fun p still => ?_) next) fun p _ => content p
    rw [Waiting.isOpen_iff_content, content] at still
    exact (Waiting.isOpen_iff_content _ _).mpr still
  | enter replaying time markers =>
    obtain ⟨sideEffects, eq⟩ :=
      Context.loadMarkers_eq { x.run.shared with replaying, time } markers
    rw [eq]
    exact h.of_quiet (Run.quiet_of_shared rfl rfl rfl) fun _ _ => rfl
  | collect => exact h.of_quiet (Run.quiet_of_shared rfl rfl rfl) fun _ _ => rfl

end Sound

theorem Reached.sound {info : RunInfo} {x : Exchange} (reached : Reached info x) : x.Sound := by
  induction reached with
  | start => exact start_sound info
  | step _ step ih => exact ih.step step

/-! ## Where every signal is -/

def kept (x : Exchange) (name : String) : List Receiver :=
  (x.callsFor name).filter fun r => !r.isDropped

/-- Signals of the name are neither lost, duplicated nor reordered: what the calls that were not
dropped were given, in the order of the calls, followed by what further calls obtain, is what
arrived, and no call was given a signal before a call that asked earlier. -/
structure Conserves (x : Exchange) (name : String) : Prop where
  account : x.arrived name =
    (x.kept name).filterMap (Receiver.input? x.waiting) ++ x.buffered name
  turns : (x.kept name).Pairwise fun r r' =>
    r.input? x.waiting = none → r'.input? x.waiting = none

/-- What holds of the signals of a name whichever calls were dropped. -/
structure Places (x : Exchange) (name : String) : Prop where
  /-- Every signal that arrived is with one call, perhaps a dropped one, or buffered. -/
  account : x.arrived name =
    (x.callsFor name).filterMap (Receiver.input? x.waiting) ++ x.buffered name
  /-- A call that waits is not overtaken. -/
  turns : (x.callsFor name).Pairwise fun r r' =>
    r.Waits x.waiting → r'.input? x.waiting = none
  empty : ∀ r ∈ x.callsFor name, r.Waits x.waiting → x.buffered name = []
  answers : ∀ r ∈ x.callsFor name, ∀ result, r.fate = .answered result →
    ∃ input, r.input? x.waiting = some input ∧ result = Codec.decodeValue r.shape input
  polls : ∀ r ∈ x.callsFor name, ∀ p, r.placeholder? = some p → ∀ me,
    (Future.look me (.signal name r.shape (some p)) x.run.ground).1.1 =
      (r.input? x.waiting).map (Codec.decodeValue r.shape)
  /-- The next call obtains the first signal of the buffer. -/
  next : ∀ me shape, (Future.look me (.signal name shape none) x.run.ground).1.1 =
    (x.buffered name).head?.map (Codec.decodeValue shape)

theorem line_inputs (x : Exchange) (name : String) :
    (x.line name).inputs = (x.callsFor name).filterMap (Receiver.input? x.waiting) := by
  simp only [line, Line.inputs, List.filterMap_map, Function.comp_def, standing_input]

theorem look_unasked_answer (x : Exchange) (me : TaskId) (name : String) (shape : Shape) :
    (Future.look me (.signal name shape none) x.run.ground).1.1 =
      (x.buffered name).head?.map (Codec.decodeValue shape) := by
  cases there : x.buffered name with
  | nil =>
    have signals : x.run.shared.signals.getD name [] = [] := there
    simp [Future.look, Run.ground, Context.takeSignal?, signals, Waiting.look_value]
  | cons input rest =>
    have signals : x.run.shared.signals.getD name [] = input :: rest := there
    simp [Future.look, Run.ground, Context.takeSignal?, signals]

namespace Sound

variable {x : Exchange}

theorem look_asked_answer (h : x.Sound) (me : TaskId) {r : Receiver} {p : PlaceholderId}
    (call : r ∈ x.calls) (waits : r.placeholder? = some p) :
    (Future.look me (.signal r.name r.shape (some p)) x.run.ground).1.1 =
      (r.input? x.waiting).map (Codec.decodeValue r.shape) := by
  have looks := Waiting.look_value x.waiting me p
  simp only [Future.look, Run.ground, looks, input?_of_placeholder waits]
  rcases h.held p (List.mem_filterMap.mpr ⟨r, call, waits⟩) with still | ⟨input, holds⟩
  · rw [heldBy_open still, (Waiting.isOpen_iff_content _ _).mp still]
    rfl
  · simp [heldBy, holds, signalResult]

theorem input_of_answered (h : x.Sound) {r : Receiver} (call : r ∈ x.calls)
    {result : Except Error Json} (answered : r.fate = .answered result) :
    ∃ input, r.input? x.waiting = some input ∧
      result = Codec.decodeValue r.shape input := by
  obtain ⟨input, given, same⟩ := h.results r call result answered
  have ended : r.placeholder? = none := by simp [Receiver.placeholder?, answered]
  exact ⟨input, (input?_of_ended ended).trans given, same⟩

theorem waits_of_kept (h : x.Sound) {r : Receiver} (call : r ∈ x.calls)
    (kept : r.isDropped = false) (unserved : r.input? x.waiting = none) : r.Waits x.waiting := by
  refine ⟨?_, unserved⟩
  cases fate : r.fate with
  | waits p => simp [Receiver.placeholder?, fate]
  | answered result =>
    obtain ⟨input, given, -⟩ := h.input_of_answered call fate
    simp [given] at unserved
  | dropped => simp [Receiver.isDropped, fate] at kept

theorem places_signals (h : x.Sound) (name : String) : x.Places name := by
  have serves := h.serves name
  have turns := List.pairwise_map.mp serves.turns
  have call {r : Receiver} (member : r ∈ x.callsFor name) : r ∈ x.calls ∧ r.name = name := by
    obtain ⟨call, named⟩ := List.mem_filter.mp member
    exact ⟨call, by simpa using named⟩
  refine ⟨?_, ?_, ?_, ?_, ?_, fun me shape => look_unasked_answer x me name shape⟩
  · rw [← line_inputs]
    exact serves.account
  · refine turns.imp fun {r r'} turn waits => ?_
    rw [← standing_input]
    exact turn (standing_waits.mpr waits)
  · intro r member waits
    obtain ⟨p, there⟩ := Option.ne_none_iff_exists'.mp (standing_waits.mpr waits)
    refine serves.empty (List.ne_nil_of_mem (a := p) ?_)
    exact List.mem_filterMap.mpr ⟨_, List.mem_map_of_mem member, there⟩
  · intro r member result answered
    exact h.input_of_answered (call member).1 answered
  · intro r member p waits me
    obtain ⟨there, rfl⟩ := call member
    exact h.look_asked_answer me there waits

end Sound

/-- Filtering before a partial map loses nothing exactly when only what has no image is filtered
out. -/
theorem filterMap_filter_eq_iff {α β : Type} (f : α → Option β) (q : α → Bool) (l : List α) :
    (l.filter q).filterMap f = l.filterMap f ↔ ∀ a ∈ l, q a = false → f a = none := by
  induction l with
  | nil => simp
  | cons a l ih =>
    rw [List.forall_mem_cons, ← ih]
    cases keep : q a with
    | true => cases image : f a <;> simp [keep, image]
    | false =>
      cases image : f a with
      | none => simp [keep, image]
      | some b =>
        have shorter : ((l.filter q).filterMap f).length ≤ (l.filterMap f).length :=
          (List.filter_sublist.filterMap f).length_le
        refine iff_of_false (fun same => ?_) fun all => by simpa [image] using all.1 rfl
        rw [List.filter_cons_of_neg (by simp [keep]), List.filterMap_cons_some image] at same
        rw [same] at shorter
        exact Nat.not_succ_le_self _ shorter

/-- Whatever happened, every signal of a name is with one call or in the buffer, the calls were
served in turn, and calls obtain what is left in its order.  So nothing is lost, duplicated or
reordered exactly as long as no call was dropped with a signal in its placeholder. -/
theorem conserves_iff_no_signal_dropped {info : RunInfo} {x : Exchange}
    (reached : Reached info x) (name : String) :
    x.Places name ∧
      (x.Conserves name ↔ ∀ r ∈ x.callsFor name, r.isDropped = true → r.input = none) := by
  have sound := reached.sound
  have places := sound.places_signals name
  refine ⟨places, ?_⟩
  have dropped (r : Receiver) (gone : r.isDropped = true) : r.input? x.waiting = r.input :=
    input?_of_dropped gone
  have lossless := filterMap_filter_eq_iff (Receiver.input? x.waiting) (fun r => !r.isDropped)
    (x.callsFor name)
  constructor
  · intro conserves r member gone
    have same := List.append_cancel_right (conserves.account.symm.trans places.account)
    exact (dropped r gone) ▸ lossless.mp same r member (by simp [gone])
  · intro none
    constructor
    · rw [places.account]
      refine congrArg (· ++ _) (lossless.mpr fun r member gone => ?_).symm
      have gone : r.isDropped = true := by simpa using gone
      rw [dropped r gone]
      exact none r member gone
    · refine ((places.turns.filter _).imp_of_mem fun {r r'} member _ turn unserved => ?_)
      obtain ⟨member, kept⟩ := List.mem_filter.mp member
      refine turn (sound.waits_of_kept (List.mem_filter.mp member).1 ?_ unserved)
      simpa using kept

/-! ## A drop before and a drop after -/

def twoWait : Exchange :=
  ((start {}).receive ⟨1⟩ "order" .value).receive ⟨2⟩ "order" .value

theorem twoWait_reached : Reached {} twoWait :=
  .step (.step .start (.receive _ _ _)) (.receive _ _ _)

def orderSignal : HistoryEvent :=
  eventOf 5 (.workflowExecutionSignaled { signalName := "order", input := some [55] })

def droppedFirst : Exchange := (twoWait.drop ⟨1⟩ "order" .value ⟨1⟩).applied orderSignal

def droppedLast : Exchange := (twoWait.applied orderSignal).drop ⟨1⟩ "order" .value ⟨1⟩

theorem droppedFirst_reached : Reached {} droppedFirst :=
  have call : ⟨"order", .value, .waits ⟨1⟩, none⟩ ∈ twoWait.calls := List.mem_cons_self
  .step (.step twoWait_reached (.drop ⟨1⟩ call rfl)) (.event orderSignal)

theorem droppedLast_reached : Reached {} droppedLast :=
  have call : ⟨"order", .value, .waits ⟨1⟩, none⟩ ∈ (twoWait.applied orderSignal).calls :=
    List.mem_cons_self
  .step (.step twoWait_reached (.event orderSignal)) (.drop ⟨1⟩ call rfl)

/-- A call that is dropped before the signal arrives leaves it to the next. -/
theorem signal_kept_when_dropped_first : Reached {} droppedFirst ∧
    droppedFirst.Conserves "order" ∧
      (droppedFirst.kept "order").map (Receiver.input? droppedFirst.waiting) =
        [some (some [55])] := by
  have fates : (droppedFirst.callsFor "order").map (fun r => (r.isDropped, r.input)) =
      [(true, none), (false, none)] := by cbv
  refine ⟨droppedFirst_reached, ?_, by cbv⟩
  refine (conserves_iff_no_signal_dropped droppedFirst_reached "order").2.mpr ?_
  intro r member gone
  have fate : (r.isDropped, r.input) ∈ [(true, none), (false, none)] :=
    fates ▸ List.mem_map_of_mem member
  rw [gone] at fate
  simpa using fate

/-- A call that is dropped after the signal arrived takes it along: the second call waits on, and
nothing is left for it. -/
theorem signal_lost_when_dropped_last : Reached {} droppedLast ∧
    droppedLast.arrived "order" = [some [55]] ∧ droppedLast.buffered "order" = [] ∧
      (droppedLast.kept "order").map (Receiver.input? droppedLast.waiting) = [none] ∧
        ¬ droppedLast.Conserves "order" := by
  have arrived : droppedLast.arrived "order" = [some [55]] := by cbv
  have buffered : droppedLast.buffered "order" = [] := by cbv
  have given : (droppedLast.kept "order").filterMap (Receiver.input? droppedLast.waiting) = [] := by
    cbv
  refine ⟨droppedLast_reached, arrived, buffered, by cbv, fun conserves => ?_⟩
  have account := conserves.account
  simp [arrived, buffered, given] at account

end Exchange

end WorkflowReplay
