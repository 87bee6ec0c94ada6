import WorkflowReplay.Proofs.Run.Effects
import WorkflowReplay.Proofs.Schedule.Lockstep

/-!
# What code cannot see

Workflow code that never asks whether it runs as a replay sees nothing of that, of what was
reported, of how the outputs of tasks are kept, and of the table of recorded side effects but the
values that it takes from it.  These make up the `Backdrop` of a run.  Calls, looks and events do
the same against any backdrop, so two runs that are alike but for it stay alike.
-/

set_option autoImplicit false

namespace WorkflowReplay

open Schedule

structure Backdrop where
  replaying : Bool
  time : Int
  sideEffects : Table String (Option Payload)
  reports : List Json
  outputs : Table TaskId (Slot (Except Error Json))

/-- The context before another backdrop. -/
def Context.against (c : Context) (b : Backdrop) : Context :=
  { c with
    replaying := b.replaying
    time := b.time
    sideEffects := b.sideEffects
    reports := b.reports }

namespace Run

variable {w w' : Run}

def against (w : Run) (b : Backdrop) : Run :=
  { board := { w.board with waiting := { w.board.waiting with outputs := b.outputs } }
    shared := w.shared.against b }

def backdrop (w : Run) : Backdrop :=
  ⟨w.shared.replaying, w.shared.time, w.shared.sideEffects, w.shared.reports,
    w.board.waiting.outputs⟩

/-- The same run before another backdrop, with the same outputs to be taken. -/
def Alike (w w' : Run) : Prop :=
  ∃ b, w' = w.against b ∧
    ∀ id, w.board.waiting.outputSlot id = w'.board.waiting.outputSlot id

theorem Alike.refl (w : Run) : Alike w w := ⟨w.backdrop, rfl, fun _ => rfl⟩

theorem Alike.symm (alike : Alike w w') : Alike w' w := by
  obtain ⟨b, rfl, slots⟩ := alike
  exact ⟨w.backdrop, rfl, fun id => (slots id).symm⟩

theorem Alike.trans {a b c : Run} (first : Alike a b) (second : Alike b c) : Alike a c := by
  obtain ⟨back, rfl, slots⟩ := first
  obtain ⟨back', rfl, slots'⟩ := second
  exact ⟨back', rfl, fun id => (slots id).trans (slots' id)⟩

theorem Alike.of_commutes {α : Type} {f : Run → α × Run}
    (commutes : ∀ b, b.time = w.shared.time → f (w.against b) = ((f w).1, (f w).2.against b))
    (alike : Alike w w') (time : w'.shared.time = w.shared.time) :
    (f w).1 = (f w').1 ∧ Alike (f w).2 (f w').2 := by
  obtain ⟨b, rfl, slots⟩ := alike
  have other := commutes b time
  have same : (f w).2 = (f w).2.against w.backdrop := congrArg Prod.snd (commutes w.backdrop rfl)
  have outputs : (f w).2.board.waiting.outputs = w.board.waiting.outputs := by
    rw [same]
    rfl
  rw [other]
  refine ⟨rfl, b, rfl, ?_⟩
  intro id
  have slot := slots id
  simp only [Waiting.outputSlot, against, outputs] at slot ⊢
  exact slot

/-! ## Calls -/

theorem resolve_outputs (board : Board Outcome (Except Error Json))
    (outputs : Table TaskId (Slot (Except Error Json))) (id : PlaceholderId) (o : Outcome) :
    Board.resolve { board with waiting := { board.waiting with outputs } } id o =
      ((board.resolve id o).1, { (board.resolve id o).2 with
        waiting := { (board.resolve id o).2.waiting with outputs } }) := by
  simp only [Board.resolve, Waiting.resolve?]
  cases board.waiting.placeholders.get? id with
  | none => rfl
  | some slot =>
    obtain ⟨value, waiter⟩ := slot
    cases value with
    | some v => rfl
    | none =>
      cases waiter with
      | none => rfl
      | some task =>
        simp only [Board.wakeWaiter, Board.wake]
        split <;> rfl

theorem chosenId_against (id : Option String) (c : Context) (b : Backdrop) :
    chosenId id (c.against b) = ((chosenId id c).1, (chosenId id c).2.against b) := by
  cases id <;> rfl

theorem childId_against (id : Option String) (c : Context) (b : Backdrop) :
    childId id (c.against b) = ((childId id c).1, (childId id c).2.against b) := by
  cases id <;> rfl

theorem activity_against (type : String) (input : Json) (shape : Shape) (o : ActivityOptions)
    (w : Run) (b : Backdrop) :
    (w.against b).activity type input shape o =
      ((w.activity type input shape o).1, (w.activity type input shape o).2.against b) := by
  unfold activity
  rw [show (w.against b).shared = w.shared.against b from rfl, chosenId_against]
  generalize chosenId o.id w.shared = chosen
  obtain ⟨id, c⟩ := chosen
  have ledger : (c.against b).ledger = c.ledger := rfl
  cases live : c.ledger.isLive ⟨.activity, id⟩ with
  | true =>
    simp only [ledger, live, if_true]
    rfl
  | false =>
    simp only [ledger, live, Bool.false_eq_true, if_false]
    rfl

theorem child_against (type : String) (input : Json) (shape : Shape) (o : ChildOptions)
    (w : Run) (b : Backdrop) :
    (w.against b).child type input shape o =
      ((w.child type input shape o).1, (w.child type input shape o).2.against b) := by
  unfold child
  rw [show (w.against b).shared = w.shared.against b from rfl, childId_against]
  generalize childId o.id w.shared = chosen
  obtain ⟨id, c⟩ := chosen
  have ledger : (c.against b).ledger = c.ledger := rfl
  cases live : c.ledger.isLive ⟨.childWorkflow, id⟩ with
  | true =>
    simp only [ledger, live, if_true]
    rfl
  | false =>
    simp only [ledger, live, Bool.false_eq_true, if_false]
    rfl

theorem timer_against (delay : Span) (w : Run) (b : Backdrop) :
    (w.against b).timer delay = ((w.timer delay).1, (w.timer delay).2.against b) := by
  unfold timer
  by_cases zero : delay.isZero = true
  · rw [if_pos zero, if_pos zero]
    have resolved := resolve_outputs w.board.make.2 b.outputs w.board.make.1 (.completed none)
    simp only [against]
    refine Prod.ext rfl ?_
    exact congrArg (fun r : Bool × Board Outcome (Except Error Json) =>
      ({ board := r.2, shared := (w.against b).shared } : Run)) resolved
  · rw [if_neg zero, if_neg zero]
    cases delay.timerSeconds? <;> rfl

theorem settle_against (id : DecisionId) (o : Outcome) (w : Run) (b : Backdrop) :
    (w.against b).settle id o = (w.settle id o).against b := by
  unfold settle
  rw [show (w.against b).shared.waiting = w.shared.waiting from rfl]
  cases w.shared.waiting.get? id with
  | none => rfl
  | some p =>
    have resolved := congrArg Prod.snd (resolve_outputs w.board b.outputs p o)
    exact congrArg (fun board => ({
      board
      shared := { w.shared with waiting := w.shared.waiting.erase id }.against b } : Run)) resolved

theorem requestCancel_against (id : DecisionId) (w : Run) (b : Backdrop) :
    (w.against b).requestCancel id =
      ((w.requestCancel id).1, (w.requestCancel id).2.against b) := by
  unfold requestCancel
  have ledger : (w.against b).shared.ledger = w.shared.ledger := rfl
  rw [ledger]
  split
  · rfl
  · next asked =>
    simp only
    split
    · exact Prod.ext rfl (settle_against id _ (w.withLedger _) b)
    · rfl

theorem cancel_against (f : Future) (w : Run) (b : Backdrop) :
    (w.against b).cancel f = ((w.cancel f).1, (w.cancel f).2.against b) := by
  unfold cancel
  split
  · split
    · rfl
    · simp only [requestCancel_against]
  · rfl

theorem drop_against (f : Future) (w : Run) (b : Backdrop) :
    (w.against b).drop f = (w.drop f).against b := by
  unfold drop
  split <;> rfl

theorem upsert_against (attributes : List (String × Json)) (w : Run) (b : Backdrop) :
    (w.against b).upsert attributes =
      ((w.upsert attributes).1, (w.upsert attributes).2.against b) := by
  unfold upsert
  split <;> rfl

def IsBackdropCall : Call → Prop
  | .isReplaying | .sideEffect .. | .report _ => True
  | _ => False

theorem perform_against (me : TaskId) (c : Call) (other : ¬ IsBackdropCall c) (w : Run)
    (b : Backdrop) (time : b.time = w.shared.time) :
    perform me c (w.against b) = ((perform me c w).1, (perform me c w).2.against b) := by
  cases c with
  | activity type input shape o => exact activity_against type input shape o w b
  | timer delay => exact timer_against delay w b
  | child type input shape o => exact child_against type input shape o w b
  | signalExternal run signal input childOnly => rfl
  | cancelExternal run childOnly => rfl
  | cancel f => exact cancel_against f w b
  | drop f => exact Prod.ext rfl (drop_against f w b)
  | sideEffect closure shape => exact absurd trivial other
  | upsert attributes => exact upsert_against attributes w b
  | info => rfl
  | time => exact Prod.ext time rfl
  | now =>
    refine Prod.ext ?_ rfl
    change Option.getD (Timestamp.ofMillis? b.time) ⟨0, 0⟩ = _
    rw [time]
    rfl
  | isReplaying => exact absurd trivial other
  | isCancelRequested => rfl
  | randomWord => rfl
  | randomUuid => rfl
  | report entry => exact absurd trivial other

/-! ## Looks -/

def groundAgainst (g : Future.Ground) (b : Backdrop) : Future.Ground :=
  ({ g.1 with outputs := b.outputs }, g.2.against b)

def AlikeGround (g g' : Future.Ground) : Prop :=
  ∃ b, g' = groundAgainst g b ∧ ∀ id, g.1.outputSlot id = g'.1.outputSlot id

theorem look_placeholder_alike {g g' : Future.Ground} (alike : AlikeGround g g') (me : TaskId)
    (id : PlaceholderId) :
    (g.1.look me id).1 = (g'.1.look me id).1 ∧
      AlikeGround ((g.1.look me id).2, g.2) ((g'.1.look me id).2, g'.2) := by
  obtain ⟨b, rfl, slots⟩ := alike
  simp only [Waiting.look, groundAgainst]
  split <;> exact ⟨rfl, b, rfl, slots⟩

theorem outputSlot_insert_alike {w w' : Waiting Outcome (Except Error Json)}
    (slots : ∀ id, w.outputSlot id = w'.outputSlot id) (task : TaskId)
    (slot : Slot (Except Error Json)) (id : TaskId) :
    { w with outputs := w.outputs.insert task slot }.outputSlot id =
      { w' with outputs := w'.outputs.insert task slot }.outputSlot id := by
  rw [Waiting.outputSlot_insert, Waiting.outputSlot_insert, slots]

theorem look_output_alike {g g' : Future.Ground} (alike : AlikeGround g g') (me task : TaskId) :
    (g.1.lookOutput me task).1 = (g'.1.lookOutput me task).1 ∧
      AlikeGround ((g.1.lookOutput me task).2, g.2) ((g'.1.lookOutput me task).2, g'.2) := by
  obtain ⟨b, rfl, slots⟩ := alike
  have slot := slots task
  simp only [Waiting.lookOutput, ← slot]
  split
  · exact ⟨rfl, ⟨b.replaying, b.time, b.sideEffects, b.reports, _⟩, rfl,
      outputSlot_insert_alike slots task _⟩
  · exact ⟨rfl, ⟨b.replaying, b.time, b.sideEffects, b.reports, _⟩, rfl,
      outputSlot_insert_alike slots task _⟩

theorem takeSignal?_against (c : Context) (name : String) (b : Backdrop) :
    (c.against b).takeSignal? name =
      (c.takeSignal? name).map (fun r => (r.1, r.2.against b)) := by
  unfold Context.takeSignal?
  rw [show (c.against b).signals = c.signals from rfl]
  split <;> rfl

theorem look_alike {g g' : Future.Ground} (alike : AlikeGround g g') (me : TaskId) (f : Future) :
    (f.look me g).1 = (f.look me g').1 ∧ AlikeGround (f.look me g).2 (f.look me g').2 := by
  cases f with
  | request promise id accepted =>
    obtain ⟨outcome, after⟩ := look_placeholder_alike alike me id
    simp only [Future.look, outcome]
    exact ⟨trivial, after⟩
  | task id =>
    obtain ⟨output, after⟩ := look_output_alike alike me id
    simp only [Future.look, output]
    exact ⟨trivial, after⟩
  | signal name shape id =>
    cases id with
    | some id =>
      obtain ⟨outcome, after⟩ := look_placeholder_alike alike me id
      simp only [Future.look, outcome]
      exact ⟨trivial, after⟩
    | none =>
      obtain ⟨b, rfl, slots⟩ := alike
      have signal := takeSignal?_against g.2 name b
      simp only [Future.look]
      rw [show (groundAgainst g b).2 = g.2.against b from rfl, signal]
      cases g.2.takeSignal? name with
      | some r => exact ⟨rfl, b, rfl, slots⟩
      | none =>
        have made : AlikeGround (g.1.make.2, g.2.awaitSignal name g.1.make.1)
            ((groundAgainst g b).1.make.2, (g.2.against b).awaitSignal name g.1.make.1) :=
          ⟨b, rfl, slots⟩
        obtain ⟨outcome, after⟩ := look_placeholder_alike made me g.1.make.1
        simp only [Option.map_none]
        refine ⟨?_, after⟩
        exact congrArg (fun o => (Option.map (signalResult name shape) o,
          Future.signal name shape (some g.1.make.1))) outcome

theorem lookFirst_alike {g g' : Future.Ground} (alike : AlikeGround g g') (me : TaskId)
    (fs : List Future) :
    (lookFirst me fs g).1 = (lookFirst me fs g').1 ∧
      AlikeGround (lookFirst me fs g).2 (lookFirst me fs g').2 := by
  induction fs generalizing g g' with
  | nil => exact ⟨rfl, alike⟩
  | cons f rest ih =>
    obtain ⟨reply, after⟩ := look_alike alike me f
    simp only [lookFirst]
    generalize f.look me g = r at reply after
    generalize f.look me g' = r' at reply after
    obtain ⟨⟨result, f₁⟩, g₁⟩ := r
    obtain ⟨⟨result', f₁'⟩, g₁'⟩ := r'
    obtain ⟨rfl, rfl⟩ : result = result' ∧ f₁ = f₁' := by simpa using reply
    cases result with
    | some r => exact ⟨rfl, after⟩
    | none =>
      obtain ⟨later, last⟩ := ih after
      simp only [later]
      exact ⟨trivial, last⟩

theorem lookAll_alike {g g' : Future.Ground} (alike : AlikeGround g g') (me : TaskId)
    (items : List Item) :
    (lookAll me items g).1 = (lookAll me items g').1 ∧
      AlikeGround (lookAll me items g).2 (lookAll me items g').2 := by
  induction items generalizing g g' with
  | nil => exact ⟨rfl, alike⟩
  | cons item rest ih =>
    cases item with
    | closed r =>
      obtain ⟨later, last⟩ := ih alike
      simp only [lookAll, later]
      exact ⟨trivial, last⟩
    | «open» f =>
      obtain ⟨reply, after⟩ := look_alike alike me f
      obtain ⟨later, last⟩ := ih after
      simp only [lookAll, reply, later]
      exact ⟨trivial, last⟩

theorem await_alike {g g' : Future.Ground} (alike : AlikeGround g g') (me : TaskId) (s : Await) :
    (look me s g).1 = (look me s g').1 ∧ AlikeGround (look me s g).2 (look me s g').2 := by
  cases s with
  | first fs =>
    obtain ⟨reply, after⟩ := lookFirst_alike alike me fs
    simp only [look, reply]
    exact ⟨trivial, after⟩
  | every items =>
    obtain ⟨reply, after⟩ := lookAll_alike alike me items
    simp only [look, reply]
    exact ⟨trivial, after⟩

/-! ## Events -/

theorem deliver_against (name : String) (input : Option Payload) (waiters : List PlaceholderId)
    (w : Run) (b : Backdrop) :
    deliver name input waiters (w.against b) = (deliver name input waiters w).against b := by
  induction waiters generalizing w with
  | nil => rfl
  | cons p rest ih =>
    have resolved := resolve_outputs w.board b.outputs p (.completed input)
    simp only [deliver]
    rw [show (w.against b).board = { w.board with waiting := { w.board.waiting with
      outputs := b.outputs } } from rfl, resolved]
    cases taken : w.board.resolve p (.completed input) with
    | mk accepted board =>
      cases accepted with
      | true => rfl
      | false => exact ih { w with board }

theorem applyEvent_against (e : HistoryEvent) (w : Run) (b : Backdrop) :
    applyEvent e (w.against b) = (applyEvent e w).map (·.against b) := by
  unfold applyEvent
  split
  · exact congrArg Except.ok (deliver_against _ _ _ w b)
  · rfl
  · rw [show (w.against b).shared.ledger = w.shared.ledger from rfl]
    split
    · rfl
    · next resolution ledger handled =>
      cases resolution with
      | none => rfl
      | some r => exact congrArg Except.ok (settle_against r.id r.outcome (w.withLedger ledger) b)

theorem Alike.applyEvent (alike : Alike w w') (e : HistoryEvent) :
    (∃ err, applyEvent e w = .error err ∧ applyEvent e w' = .error err) ∨
      ∃ w₁ w₁', applyEvent e w = .ok w₁ ∧ applyEvent e w' = .ok w₁' ∧ Alike w₁ w₁' := by
  obtain ⟨b, rfl, slots⟩ := alike
  have same := applyEvent_against e w w.backdrop
  rw [show w.against w.backdrop = w from rfl] at same
  rw [applyEvent_against]
  cases applied : Run.applyEvent e w with
  | error err => exact .inl ⟨err, rfl, rfl⟩
  | ok w₁ =>
    rw [applied] at same
    have back : w₁ = w₁.against w.backdrop := Except.ok.inj same
    have outputs : w₁.board.waiting.outputs = w.board.waiting.outputs := by
      rw [back]
      rfl
    refine .inr ⟨w₁, w₁.against b, rfl, rfl, b, rfl, ?_⟩
    intro id
    have slot := slots id
    simp only [Waiting.outputSlot, against, outputs] at slot ⊢
    exact slot

end Run

end WorkflowReplay
