import WorkflowReplay.Proofs.Decision.Operations
import WorkflowReplay.Proofs.Schedule.Placeholders
import WorkflowReplay.Proofs.Schedule.Turns
import WorkflowReplay.Run.Events

/-!
# What workflow code does to a run

A call of workflow code has one of a few effects: it makes a request and hands out a placeholder,
records a side effect, writes search attributes, asks for a cancellation, or stays aside.
`perform_effect` says so for every call; what holds of all effects then holds of every call, turn
and run.
-/

set_option autoImplicit false

namespace WorkflowReplay.Run

open Schedule

/-! ## Effects -/

/-- The targets of the requests whose ids are never chosen by the code. -/
def IsGenerated : DecisionTarget → Prop
  | .timer | .upsertSearchAttributes | .cancelExternalWorkflow | .signalExternalWorkflow => True
  | .activity | .childWorkflow | .marker => False

/-- A change that concerns no request: it opens no placeholder. -/
structure Aside (w w' : Run) : Prop where
  shared : ∃ nextId random contradiction reports, w.shared.nextId ≤ nextId ∧
    w'.shared = { w.shared with nextId, random, contradiction, reports }
  closed : ∀ p, w'.board.waiting.IsOpen p → w.board.waiting.IsOpen p
  next : w.board.waiting.nextPlaceholder ≤ w'.board.waiting.nextPlaceholder

/-- An id for a new request: it was made for this request alone, or the code may choose such ids
and it names nothing that is not settled. -/
def Free (c : Context) (nextId : Nat) (id : DecisionId) : Prop :=
  (IsGenerated id.target ∧ id.id = toString c.nextId ∧ c.nextId < nextId) ∨
    ((id.target = .activity ∨ id.target = .childWorkflow) ∧ c.ledger.isLive id = false)

def withLedger (w : Run) (ledger : Ledger) : Run :=
  { w with shared := { w.shared with ledger } }

def withMarker (w : Run) (details : Option Payload) (reports : List Json) : Run :=
  { w with
    shared := { w.shared with
      nextSideEffect := w.shared.nextSideEffect + 1
      ledger := w.shared.ledger.request (.marker {
        markerName := Context.sideEffectMarker
        markerId := toString w.shared.nextSideEffect
        details })
      reports } }

def withoutMarker (w : Run) (contradiction : Option ReplayError) (reports : List Json) : Run :=
  { w with
    shared := { w.shared with
      nextSideEffect := w.shared.nextSideEffect + 1
      contradiction
      reports } }

/-- What one call does to a run: whether it is numbered as a side effect, the placeholder that it
hands out, and the run after it. -/
inductive Effect (w : Run) : Bool → Option PlaceholderId → Run → Prop where
  | aside {handed : Option PlaceholderId} {w' : Run} (aside : Aside w w') :
    Effect w false handed w'
  | asked {w₁ : Run} (request : Request) (promise : Promise) (aside : Aside w w₁)
      (free : Free w.shared w₁.shared.nextId request.id) :
    Effect w false (some w₁.board.make.1) (w₁.ask request promise).2
  | recorded (details : Option Payload) (reports : List Json) :
    Effect w true none (w.withMarker details reports)
  | unrecorded {handed : Option PlaceholderId} (contradiction : Option ReplayError)
      (reports : List Json) :
    Effect w true handed (w.withoutMarker contradiction reports)
  | upserted (attributes : SearchAttributes) :
    Effect w false none
      { w with
        shared := { w.shared with
          nextId := w.shared.nextId + 1
          ledger := w.shared.ledger.upsert (toString w.shared.nextId) attributes } }
  | canceled {handed : Option PlaceholderId} {id : DecisionId} {ledger : Ledger}
      (asked : w.shared.ledger.requestCancel? id = some ledger) :
    Effect w false handed (w.withLedger ledger)
  | ended {handed : Option PlaceholderId} {id : DecisionId} {ledger : Ledger}
      (asked : w.shared.ledger.requestCancel? id = some ledger) (outcome : Outcome) :
    Effect w false handed ((w.withLedger ledger).settle id outcome)

theorem Aside.refl (w : Run) : Aside w w :=
  ⟨⟨_, _, _, _, Nat.le_refl _, rfl⟩, fun _ h => h, Nat.le_refl _⟩

/-! ## The effect of each call -/

theorem aside_freshId (w : Run) : Aside w { w with shared := w.shared.freshId.2 } :=
  ⟨⟨w.shared.nextId + 1, _, _, _, by omega, rfl⟩, fun _ h => h, Nat.le_refl _⟩

theorem aside_context (w : Run) (c : Context) (h : ∃ nextId random contradiction reports,
    w.shared.nextId ≤ nextId ∧
      c = { w.shared with nextId, random, contradiction, reports }) :
    Aside w { w with shared := c } :=
  ⟨h, fun _ h => h, Nat.le_refl _⟩

theorem aside_board (w : Run) (board : Board Outcome (Except Error Json))
    (closed : ∀ p, board.waiting.IsOpen p → w.board.waiting.IsOpen p)
    (next : w.board.waiting.nextPlaceholder ≤ board.waiting.nextPlaceholder) :
    Aside w { w with board } :=
  ⟨⟨_, _, _, _, Nat.le_refl _, rfl⟩, closed, next⟩

def handedOut : (c : Call) → c.Reply → Option PlaceholderId
  | .activity .., r | .child .., r => r.toOption.bind Future.placeholder?
  | .timer _, r => r.toOption.bind Future.placeholder?
  | .signalExternal .., f | .cancelExternal .., f => f.placeholder?
  | .cancel _, _ | .drop _, _ | .sideEffect .., _ | .upsert _, _ | .info, _ | .time, _ | .now, _
  | .isReplaying, _ | .isCancelRequested, _ | .randomWord, _ | .randomUuid, _ | .report _, _ => none

theorem ask_effect {w w₁ : Run} (request : Request) (promise : Promise) (aside : Aside w w₁)
    (free : Free w.shared w₁.shared.nextId request.id) :
    Effect w false (w₁.ask request promise).1.placeholder? (w₁.ask request promise).2 :=
  .asked request promise aside free

theorem chosenId_aside (id : Option String) (w : Run) :
    Aside w { w with shared := (chosenId id w.shared).2 } ∧
      (chosenId id w.shared).2.ledger = w.shared.ledger := by
  cases id with
  | none => exact ⟨aside_freshId w, rfl⟩
  | some id => exact ⟨.refl w, rfl⟩

theorem childId_aside (id : Option String) (w : Run) :
    Aside w { w with shared := (childId id w.shared).2 } ∧
      (childId id w.shared).2.ledger = w.shared.ledger := by
  cases id with
  | none => exact ⟨aside_freshId w, rfl⟩
  | some id => exact ⟨.refl w, rfl⟩

theorem activity_effect (type : String) (input : Json) (shape : Shape) (o : ActivityOptions)
    (w : Run) :
    Effect w false ((w.activity type input shape o).1.toOption.bind Future.placeholder?)
      (w.activity type input shape o).2 := by
  obtain ⟨aside, ledger⟩ := chosenId_aside o.id w
  unfold activity
  generalize chosenId o.id w.shared = chosen at aside ledger
  obtain ⟨id, c⟩ := chosen
  simp only at aside ledger ⊢
  cases live : c.ledger.isLive ⟨.activity, id⟩ with
  | true => exact .aside aside
  | false =>
    rw [ledger] at live
    simp only [Bool.false_eq_true, if_false, Except.toOption, Option.bind_some]
    exact ask_effect _ _ aside (.inr ⟨.inl rfl, live⟩)

theorem child_effect (type : String) (input : Json) (shape : Shape) (o : ChildOptions)
    (w : Run) :
    Effect w false ((w.child type input shape o).1.toOption.bind Future.placeholder?)
      (w.child type input shape o).2 := by
  obtain ⟨aside, ledger⟩ := childId_aside o.id w
  unfold child
  generalize childId o.id w.shared = chosen at aside ledger
  obtain ⟨id, c⟩ := chosen
  simp only at aside ledger ⊢
  cases live : c.ledger.isLive ⟨.childWorkflow, id⟩ with
  | true => exact .aside aside
  | false =>
    rw [ledger] at live
    simp only [Bool.false_eq_true, if_false, Except.toOption, Option.bind_some]
    exact ask_effect _ _ aside (.inr ⟨.inr rfl, live⟩)

theorem isOpen_of_make {w : Waiting Outcome (Except Error Json)} {p : PlaceholderId}
    (opened : w.make.1 ≠ p ∧ w.make.2.IsOpen p) : w.IsOpen p := by
  rcases (Waiting.isOpen_make w p).mp opened.2 with rfl | before
  · exact absurd rfl opened.1
  · exact before

theorem timer_effect (delay : Span) (w : Run) :
    Effect w false ((w.timer delay).1.toOption.bind Future.placeholder?) (w.timer delay).2 := by
  unfold timer
  by_cases zero : delay.isZero = true
  · rw [if_pos zero]
    refine .aside (aside_board w _ (fun p opened => ?_) ?_)
    · exact isOpen_of_make ((Board.isOpen_resolve _ _ _ _).mp opened)
    · rw [Board.resolve_next]
      exact Nat.le_succ _
  · rw [if_neg zero]
    cases delay.timerSeconds? with
    | some seconds =>
      exact ask_effect
        (.timer { timerId := w.shared.freshId.1, startToFireTimeoutSeconds := seconds })
        (.timer (some w.shared.freshId.1)) (aside_freshId w)
        (.inl ⟨trivial, rfl, Nat.lt_succ_self _⟩)
    | none =>
      refine .aside ⟨⟨w.shared.nextId + 1, _, _, _, Nat.le_succ _, rfl⟩, ?_, Nat.le_succ _⟩
      intro p opened
      exact isOpen_of_make ((Waiting.isOpen_drop _ _ _).mp opened)

theorem cancel_effect (f : Future) (handed : Option PlaceholderId) (w : Run) :
    Effect w false handed (w.cancel f).2 := by
  unfold cancel
  split
  · next promise placeholder accepted =>
    split
    · exact .aside (.refl w)
    · next id named =>
      unfold requestCancel
      cases asked : w.shared.ledger.requestCancel? id with
      | none => exact .aside (.refl w)
      | some ledger =>
        simp only
        split
        · exact .ended asked _
        · exact .canceled asked
  · exact .aside (.refl w)

theorem drop_aside (f : Future) (w : Run) : Aside w (w.drop f) := by
  unfold drop
  split
  · next id named =>
    exact aside_board w _ (fun p opened => ((Waiting.isOpen_drop _ _ _).mp opened).2)
      (Nat.le_refl _)
  · exact .refl w

/-! ### Side effects -/

section SideEffect

variable {w : Run} {closure : Closure} {shape : Shape}

theorem sideEffect_of_record {details : Option Payload}
    (found : w.shared.sideEffects.get? (toString w.shared.nextSideEffect) = some details) :
    w.sideEffect closure shape =
      (.result (Codec.decodeValue shape details), w.withMarker details w.shared.reports) := by
  unfold sideEffect
  simp only [Context.freshSideEffect, found]
  rfl

theorem sideEffect_replaying_without_record
    (missing : w.shared.sideEffects.get? (toString w.shared.nextSideEffect) = none)
    (replaying : w.shared.replaying = true) :
    let e : ReplayError :=
      .malformedHistory (.unrecordedSideEffect (toString w.shared.nextSideEffect))
    w.sideEffect closure shape =
      (.result (.error (.replay e)),
        w.withoutMarker (some (w.shared.contradiction.getD e)) w.shared.reports) := by
  unfold sideEffect
  simp only [Context.freshSideEffect, missing]
  exact if_pos replaying

theorem sideEffect_live {v : Json}
    (missing : w.shared.sideEffects.get? (toString w.shared.nextSideEffect) = none)
    (live : w.shared.replaying = false) (value : closure.result = .ok v) :
    w.sideEffect closure shape =
      (.result (Codec.decodeValue shape (some (Codec.encodeValue v))),
        w.withMarker (some (Codec.encodeValue v)) (w.shared.reports ++ [closure.entry])) := by
  unfold sideEffect
  simp only [Context.freshSideEffect, missing]
  refine (if_neg (by simp [live])).trans ?_
  rw [value]
  rfl

theorem sideEffect_live_panics {message : String}
    (missing : w.shared.sideEffects.get? (toString w.shared.nextSideEffect) = none)
    (live : w.shared.replaying = false) (panicked : closure.result = .error message) :
    w.sideEffect closure shape =
      (.panicked message,
        w.withoutMarker w.shared.contradiction (w.shared.reports ++ [closure.entry])) := by
  unfold sideEffect
  simp only [Context.freshSideEffect, missing]
  refine (if_neg (by simp [live])).trans ?_
  rw [panicked]
  rfl

theorem sideEffect_effect (closure : Closure) (shape : Shape) (w : Run) :
    Effect w true none (w.sideEffect closure shape).2 := by
  cases found : w.shared.sideEffects.get? (toString w.shared.nextSideEffect) with
  | some details => rw [sideEffect_of_record found]; exact .recorded details _
  | none =>
    cases mode : w.shared.replaying with
    | true => rw [sideEffect_replaying_without_record found mode]; exact .unrecorded _ _
    | false =>
      cases result : closure.result with
      | ok v => rw [sideEffect_live found mode result]; exact .recorded _ _
      | error message => rw [sideEffect_live_panics found mode result]; exact .unrecorded _ _

end SideEffect

theorem upsert_effect (attributes : List (String × Json)) (w : Run) :
    Effect w false none (w.upsert attributes).2 := by
  unfold upsert
  split
  · exact .aside (.refl w)
  · exact .upserted _

def isSideEffect : Call → Bool
  | .sideEffect .. => true
  | _ => false

theorem perform_effect (me : TaskId) (c : Call) (w : Run) :
    Effect w (isSideEffect c) (handedOut c (perform me c w).1) (perform me c w).2 := by
  cases c with
  | activity type input shape o => exact activity_effect type input shape o w
  | timer delay => exact timer_effect delay w
  | child type input shape o => exact child_effect type input shape o w
  | signalExternal run signal input childOnly =>
    exact ask_effect _ _ (aside_freshId w) (.inl ⟨trivial, rfl, Nat.lt_succ_self _⟩)
  | cancelExternal run childOnly =>
    exact ask_effect _ _ (aside_freshId w) (.inl ⟨trivial, rfl, Nat.lt_succ_self _⟩)
  | cancel f => exact cancel_effect f _ w
  | drop f => exact .aside (drop_aside f w)
  | sideEffect closure shape => exact sideEffect_effect closure shape w
  | upsert attributes => exact upsert_effect attributes w
  | info => exact .aside (.refl w)
  | time => exact .aside (.refl w)
  | now => exact .aside (.refl w)
  | isReplaying => exact .aside (.refl w)
  | isCancelRequested => exact .aside (.refl w)
  | randomWord => exact .aside (aside_context w _ ⟨_, _, _, _, Nat.le_refl _, rfl⟩)
  | randomUuid => exact .aside (aside_context w _ ⟨_, _, _, _, Nat.le_refl _, rfl⟩)
  | report entry => exact .aside (aside_context w _ ⟨_, _, _, _, Nat.le_refl _, rfl⟩)

/-! ## The effect of a look -/

/-- A look at what a task waits for takes values and signals, and opens no placeholder but new
ones. -/
structure Looked (g g' : Future.Ground) : Prop where
  shared : ∃ signals signalWaiters, g'.2 = { g.2 with signals, signalWaiters }
  opened : ∀ p, g'.1.IsOpen p → g.1.IsOpen p ∨ g.1.nextPlaceholder ≤ p.number
  next : g.1.nextPlaceholder ≤ g'.1.nextPlaceholder

theorem Looked.refl (g : Future.Ground) : Looked g g :=
  ⟨⟨_, _, rfl⟩, fun _ h => .inl h, Nat.le_refl _⟩

theorem Looked.trans {a b c : Future.Ground} (first : Looked a b) (second : Looked b c) :
    Looked a c := by
  obtain ⟨signals₁, waiters₁, shared₁⟩ := first.shared
  obtain ⟨signals₂, waiters₂, shared₂⟩ := second.shared
  refine ⟨⟨signals₂, waiters₂, by rw [shared₂, shared₁]⟩, ?_,
    Nat.le_trans first.next second.next⟩
  intro p opened
  rcases second.opened p opened with before | new
  · exact first.opened p before
  · exact .inr (Nat.le_trans first.next new)

theorem looked_placeholder (g : Future.Ground) (me : TaskId) (id : PlaceholderId) :
    Looked g ((g.1.look me id).2, g.2) := by
  refine ⟨⟨_, _, rfl⟩, fun p opened => .inl ((Waiting.isOpen_look _ _ _ _).mp opened), ?_⟩
  unfold Waiting.look
  split <;> exact Nat.le_refl _

theorem look_looked (me : TaskId) (f : Future) (g : Future.Ground) :
    Looked g (f.look me g).2 := by
  cases f with
  | request promise id accepted => exact looked_placeholder g me id
  | task id =>
    refine ⟨⟨_, _, rfl⟩, fun p opened => .inl ((Waiting.isOpen_lookOutput _ _ _ _).mp opened), ?_⟩
    simp only [Future.look, Waiting.lookOutput]
    split <;> exact Nat.le_refl _
  | signal name shape id =>
    cases id with
    | some id => exact looked_placeholder g me id
    | none =>
      simp only [Future.look]
      cases taken : g.2.takeSignal? name with
      | some r =>
        obtain ⟨input, c⟩ := r
        unfold Context.takeSignal? at taken
        split at taken
        · simp at taken
        · cases taken
          exact ⟨⟨_, _, rfl⟩, fun _ h => .inl h, Nat.le_refl _⟩
      | none =>
        have made : Looked g (g.1.make.2, g.2.awaitSignal name g.1.make.1) := by
          refine ⟨⟨_, _, rfl⟩, ?_, Nat.le_succ _⟩
          intro p opened
          rcases (Waiting.isOpen_make _ _).mp opened with rfl | before
          · exact .inr (Nat.le_refl _)
          · exact .inl before
        exact made.trans (looked_placeholder (g.1.make.2, g.2.awaitSignal name g.1.make.1) me _)

theorem lookFirst_looked (me : TaskId) (fs : List Future) (g : Future.Ground) :
    Looked g (lookFirst me fs g).2 := by
  induction fs generalizing g with
  | nil => exact .refl g
  | cons f rest ih =>
    have first := look_looked me f g
    simp only [lookFirst]
    split
    · next seen => rw [seen] at first; exact first
    · next seen => rw [seen] at first; exact first.trans (ih _)

theorem lookAll_looked (me : TaskId) (items : List Item) (g : Future.Ground) :
    Looked g (lookAll me items g).2 := by
  induction items generalizing g with
  | nil => exact .refl g
  | cons item rest ih =>
    cases item with
    | closed r => exact ih g
    | «open» f => exact (look_looked me f g).trans (ih _)

theorem await_looked (me : TaskId) (s : Await) (g : Future.Ground) :
    Looked g (look me s g).2 := by
  cases s with
  | first fs => exact lookFirst_looked me fs g
  | every items => exact lookAll_looked me items g

/-! ## The effect of an event -/

/-- What an event does to a run: it concerns no request, or the ledger handles it and its
resolution is passed on. -/
inductive Applied (e : HistoryEvent) (w : Run) : Run → Prop where
  | aside {w' : Run} (shared : ∃ signals signalWaiters cancelRequested,
      w'.shared = { w.shared with signals, signalWaiters, cancelRequested })
    (closed : ∀ p, w'.board.waiting.IsOpen p → w.board.waiting.IsOpen p)
    (next : w'.board.waiting.nextPlaceholder = w.board.waiting.nextPlaceholder) :
    Applied e w w'
  | unresolved {ledger : Ledger} (handled : w.shared.ledger.handleEvent e = .ok (none, ledger)) :
    Applied e w (w.withLedger ledger)
  | resolved {ledger : Ledger} {r : Resolution}
    (handled : w.shared.ledger.handleEvent e = .ok (some r, ledger)) :
    Applied e w ((w.withLedger ledger).settle r.id r.outcome)

theorem deliver_applied (e : HistoryEvent) (name : String) (input : Option Payload)
    (waiters : List PlaceholderId) (w : Run) : Applied e w (deliver name input waiters w) := by
  suffices h : ∀ w₁ : Run, w₁.shared = w.shared →
      (∀ p, w₁.board.waiting.IsOpen p → w.board.waiting.IsOpen p) →
      w₁.board.waiting.nextPlaceholder = w.board.waiting.nextPlaceholder →
      Applied e w (deliver name input waiters w₁) from h w rfl (fun _ h => h) rfl
  induction waiters with
  | nil =>
    intro w₁ shared closed next
    have left : (deliver name input [] w₁).shared =
        { w.shared with signalWaiters := w.shared.signalWaiters.insert name [] }.bufferSignal name
          input := by
      simp only [deliver, shared]
    exact .aside ⟨_, _, w.shared.cancelRequested, left⟩ closed next
  | cons p rest ih =>
    intro w₁ shared closed next
    have opened := Board.isOpen_resolve w₁.board p
    have bound := Board.resolve_next w₁.board p (.completed input)
    simp only [deliver]
    split
    · next board taken =>
      rw [taken] at bound
      refine .aside ⟨w.shared.signals, w.shared.signalWaiters.insert name rest,
        w.shared.cancelRequested, by simp only [shared]⟩ (fun q still => ?_) (bound.trans next)
      have := opened q (.completed input)
      rw [taken] at this
      exact closed q (this.mp still).2
    · next board taken =>
      rw [taken] at bound
      refine ih _ shared (fun q still => ?_) (bound.trans next)
      have := opened q (.completed input)
      rw [taken] at this
      exact closed q (this.mp still).2

theorem applyEvent_applied {e : HistoryEvent} {w w' : Run} (applied : applyEvent e w = .ok w') :
    Applied e w w' := by
  unfold applyEvent at applied
  split at applied
  · cases applied
    exact deliver_applied e _ _ _ w
  · cases applied
    exact .aside ⟨_, _, true, rfl⟩ (fun _ h => h) rfl
  · split at applied
    · simp at applied
    · next resolution ledger handled =>
      simp only at applied
      split at applied
      · cases applied
        exact .unresolved handled
      · cases applied
        exact .resolved handled

theorem applyEvent_handled {e : HistoryEvent} {w : Run} {route : Route}
    (routed : Route.of e.attributes = some route) {id : DecisionId} (outcome? : Option Outcome)
    {ledger : Ledger}
    (handled : w.shared.ledger.handleEvent e = .ok (outcome?.map (⟨id, ·⟩), ledger)) :
    applyEvent e w =
      .ok (outcome?.elim (w.withLedger ledger) ((w.withLedger ledger).settle id)) := by
  unfold applyEvent
  split
  · next a signaled => simp [signaled, Route.of] at routed
  · next a requested => simp [requested, Route.of] at routed
  · simp only [handled]
    cases outcome? <;> rfl

/-! ## What all effects keep -/

theorem settle_shared (id : DecisionId) (o : Outcome) (w : Run) :
    ∃ waiting, (w.settle id o).shared = { w.shared with waiting } := by
  unfold settle
  split
  · exact ⟨w.shared.waiting, rfl⟩
  · exact ⟨_, rfl⟩

/-- What no call changes: the recorded side effects, whether the code runs as a replay, the clock,
and what is fixed about the run. -/
structure Fixed (c c' : Context) : Prop where
  sideEffects : c'.sideEffects = c.sideEffects
  replaying : c'.replaying = c.replaying
  time : c'.time = c.time
  info : c'.info = c.info

theorem Fixed.refl (c : Context) : Fixed c c := ⟨rfl, rfl, rfl, rfl⟩

theorem Fixed.trans {a b c : Context} (first : Fixed a b) (second : Fixed b c) : Fixed a c :=
  ⟨second.sideEffects.trans first.sideEffects, second.replaying.trans first.replaying,
    second.time.trans first.time, second.info.trans first.info⟩

theorem Aside.shared_eq {w w' : Run} (aside : Aside w w') :
    w'.shared.ledger = w.shared.ledger ∧ w'.shared.waiting = w.shared.waiting ∧
      w'.shared.nextSideEffect = w.shared.nextSideEffect ∧ Fixed w.shared w'.shared ∧
      w.shared.nextId ≤ w'.shared.nextId := by
  obtain ⟨nextId, random, contradiction, reports, more, eq⟩ := aside.shared
  rw [eq]
  exact ⟨rfl, rfl, rfl, ⟨rfl, rfl, rfl, rfl⟩, more⟩

theorem Effect.fixed {w w' : Run} {numbered : Bool} {handed : Option PlaceholderId}
    (effect : Effect w numbered handed w') : Fixed w.shared w'.shared := by
  cases effect with
  | aside aside => exact aside.shared_eq.2.2.2.1
  | asked request promise aside free =>
    obtain ⟨-, -, -, fixed, -⟩ := aside.shared_eq
    exact ⟨fixed.sideEffects, fixed.replaying, fixed.time, fixed.info⟩
  | recorded | unrecorded | upserted | canceled => exact ⟨rfl, rfl, rfl, rfl⟩
  | @ended _ id ledger asked outcome =>
    obtain ⟨waiting, eq⟩ := settle_shared id outcome (w.withLedger ledger)
    rw [eq]
    exact ⟨rfl, rfl, rfl, rfl⟩

theorem Effect.nextSideEffect_eq {w w' : Run} {numbered : Bool} {handed : Option PlaceholderId}
    (effect : Effect w numbered handed w') :
    w'.shared.nextSideEffect = w.shared.nextSideEffect + if numbered then 1 else 0 := by
  cases effect with
  | aside aside => exact aside.shared_eq.2.2.1
  | asked request promise aside free => exact aside.shared_eq.2.2.1
  | recorded | unrecorded | upserted | canceled => rfl
  | @ended _ id ledger asked outcome =>
    obtain ⟨waiting, eq⟩ := settle_shared id outcome (w.withLedger ledger)
    rw [eq]
    rfl

theorem Effect.ledger_grows {w w' : Run} {numbered : Bool} {handed : Option PlaceholderId}
    (effect : Effect w numbered handed w') : w.shared.ledger.Grows w'.shared.ledger := by
  cases effect with
  | aside aside => rw [aside.shared_eq.1]; exact .refl _
  | asked request promise aside free =>
    have same := aside.shared_eq.1
    rw [← same]
    exact Ledger.request_grows _ request
  | recorded => exact Ledger.request_grows _ _
  | unrecorded => exact .refl _
  | upserted => exact Ledger.upsert_grows _ _ _
  | canceled asked => exact Ledger.requestCancel?_grows asked
  | @ended _ id ledger asked outcome =>
    obtain ⟨waiting, eq⟩ := settle_shared id outcome (w.withLedger ledger)
    rw [eq]
    exact Ledger.requestCancel?_grows asked

/-- What the effects of calls respect, and what does not depend on signals, is respected by a
run. -/
theorem keeps_of_effects {R : Context → Context → Prop} (refl : ∀ c, R c c)
    (trans : ∀ {a b c}, R a b → R b c → R a c)
    (effects : ∀ {w numbered handed w'}, Effect w numbered handed w' → R w.shared w'.shared)
    (signals : ∀ c signals signalWaiters, R c { c with signals, signalWaiters }) :
    meaning.Keeps R where
  refl := refl
  trans := trans
  perform me c w := effects (perform_effect me c w)
  look me s g := by
    obtain ⟨received, waiters, eq⟩ := (await_looked me s g).shared
    exact eq ▸ signals g.2 received waiters

theorem keeps_fixed : meaning.Keeps Fixed :=
  keeps_of_effects Fixed.refl Fixed.trans Effect.fixed fun _ _ _ => ⟨rfl, rfl, rfl, rfl⟩

theorem keeps_grows : meaning.Keeps fun c c' => c.ledger.Grows c'.ledger :=
  keeps_of_effects (fun _ => .refl _) .trans Effect.ledger_grows fun _ _ _ => .refl _

theorem numbers_sideEffects : meaning.Numbers Context.nextSideEffect isSideEffect where
  perform me c w := (perform_effect me c w).nextSideEffect_eq
  look me s g := by
    obtain ⟨received, waiters, eq⟩ := (await_looked me s g).shared
    change (look me s g).2.2.nextSideEffect = g.2.nextSideEffect
    rw [eq]

theorem Applied.fixed {e : HistoryEvent} {w w' : Run} (applied : Applied e w w') :
    Fixed w.shared w'.shared ∧ w'.shared.nextSideEffect = w.shared.nextSideEffect := by
  cases applied with
  | aside shared =>
    obtain ⟨_, _, _, eq⟩ := shared
    rw [eq]
    exact ⟨⟨rfl, rfl, rfl, rfl⟩, rfl⟩
  | unresolved => exact ⟨⟨rfl, rfl, rfl, rfl⟩, rfl⟩
  | @resolved ledger r handled =>
    obtain ⟨waiting, eq⟩ := settle_shared r.id r.outcome (w.withLedger ledger)
    rw [eq]
    exact ⟨⟨rfl, rfl, rfl, rfl⟩, rfl⟩

theorem Applied.ledger_grows {e : HistoryEvent} {w w' : Run} (applied : Applied e w w') :
    w.shared.ledger.Grows w'.shared.ledger := by
  cases applied with
  | aside shared =>
    obtain ⟨_, _, _, eq⟩ := shared
    rw [eq]
    exact .refl _
  | unresolved handled => exact Ledger.handleEvent_grows handled
  | @resolved ledger r handled =>
    obtain ⟨waiting, eq⟩ := settle_shared r.id r.outcome (w.withLedger ledger)
    rw [eq]
    exact Ledger.handleEvent_grows handled

end WorkflowReplay.Run
