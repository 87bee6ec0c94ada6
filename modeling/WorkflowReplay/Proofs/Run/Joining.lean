import WorkflowReplay.Proofs.Schedule.Wakeups
import WorkflowReplay.Run.Events
import WorkflowReplay.Run.Workflow

/-!
# Who takes the output of a task

The output of a task is taken by whoever holds its handle, and a handle is given to the code that
started the task.  Code that was not given a handle does not make one up (`Code.NeverJoins`), so a
run leaves the output of a task alone whose handle no task holds: it is there after a run exactly
if it was there before, or the task ended in the run.
-/

set_option autoImplicit false

namespace WorkflowReplay

open Schedule

/-! ## Code that does not hold a handle -/

def Call.future? : (c : Call) → c.Reply → Option Future
  | .activity .., r | .child .., r => r.toOption
  | .timer _, r => r.toOption
  | .signalExternal .., f | .cancelExternal .., f | .cancel _, f => some f
  | .drop _, _ | .sideEffect .., _ | .upsert _, _ | .info, _ | .time, _ | .now, _
  | .isReplaying, _ | .isCancelRequested, _ | .randomWord, _ | .randomUuid, _ | .report _, _ => none

def Await.Joins (s : Await) (id : TaskId) : Prop :=
  match s with
  | .first fs => .task id ∈ fs
  | .every items => .open (.task id) ∈ items

/-- The code does not wait for the task, and neither do the tasks that it starts, whatever they are
told, as long as nobody gives them the handle of the task. -/
def Schedule.Code.NeverJoins (id : TaskId) : WorkflowCode → Prop
  | .done _ | .panic _ => True
  | .call c next =>
    c ≠ .cancel (.task id) ∧ ∀ r, c.future? r ≠ some (.task id) → (next r).NeverJoins id
  | .spawn body next => body.NeverJoins id ∧ ∀ id', id' ≠ id → (next id').NeverJoins id
  | .wait s next => ¬ s.Joins id ∧ ∀ a left, ¬ left.Joins id → (next a left).NeverJoins id
  | .turn next => next.NeverJoins id

def Schedule.Tasks.NeverJoin (id : TaskId) (tasks : Tasks calls) : Prop :=
  ∀ t ∈ tasks, t.2.NeverJoins id

/-- A workflow takes outputs only through the handles of the tasks that it starts. -/
def Workflow.JoinsOwn (w : Workflow) : Prop :=
  ∀ input code, w.start input = .ok code → ∀ id, code.NeverJoins id

/-! ## What leaves an output alone -/

/-- The step neither stores nor takes the output of the task, and gives no name back. -/
structure Run.LeavesOutput (id : TaskId) (w w' : Run) : Prop where
  slot : w'.board.waiting.outputSlot id = w.board.waiting.outputSlot id
  named : w.board.nextTask ≤ w'.board.nextTask

namespace Run

variable {id : TaskId} {w : Run}

theorem LeavesOutput.refl (w : Run) : LeavesOutput id w w := ⟨rfl, Nat.le_refl _⟩

theorem LeavesOutput.trans {a b c : Run} (first : LeavesOutput id a b)
    (second : LeavesOutput id b c) : LeavesOutput id a c :=
  ⟨second.slot.trans first.slot, Nat.le_trans first.named second.named⟩

theorem leavesOutput_shared (shared : Context) : LeavesOutput id w { w with shared } :=
  ⟨rfl, Nat.le_refl _⟩

theorem leavesOutput_resolve (p : PlaceholderId) (o : Outcome) (shared : Context) :
    LeavesOutput id w { board := (w.board.resolve p o).2, shared } where
  slot := Board.resolve_outputSlot w.board p o id
  named := Nat.le_of_eq (Board.touch_nextTask w.board (.resolve p o)).symm

theorem settle_leavesOutput (request : DecisionId) (o : Outcome) (w : Run) :
    LeavesOutput id w (w.settle request o) := by
  unfold settle
  split
  · exact .refl w
  · next p _ => exact leavesOutput_resolve p o _

theorem activity_leavesOutput (type : String) (input : Json) (shape : Shape) (o : ActivityOptions)
    (w : Run) : LeavesOutput id w (w.activity type input shape o).2 := by
  unfold activity
  dsimp only
  split
  · exact leavesOutput_shared _
  · exact ⟨rfl, Nat.le_refl _⟩

theorem child_leavesOutput (type : String) (input : Json) (shape : Shape) (o : ChildOptions)
    (w : Run) : LeavesOutput id w (w.child type input shape o).2 := by
  unfold child
  dsimp only
  split
  · exact leavesOutput_shared _
  · exact ⟨rfl, Nat.le_refl _⟩

theorem timer_leavesOutput (delay : Span) (w : Run) :
    LeavesOutput id w (w.timer delay).2 := by
  have made : LeavesOutput id w { w with board := w.board.make.2 } := ⟨rfl, Nat.le_refl _⟩
  unfold timer
  by_cases zero : delay.isZero = true
  · rw [if_pos zero]
    exact made.trans (leavesOutput_resolve w.board.make.1 (.completed none) w.shared)
  · rw [if_neg zero]
    cases delay.timerSeconds? with
    | some seconds => exact ⟨rfl, Nat.le_refl _⟩
    | none => exact ⟨rfl, Nat.le_refl _⟩

theorem cancel_leavesOutput (f : Future) (w : Run) : LeavesOutput id w (w.cancel f).2 := by
  unfold cancel requestCancel
  split
  · split
    · exact .refl w
    · next request _ =>
      dsimp only
      split
      · exact .refl w
      · split
        · exact (leavesOutput_shared _).trans (settle_leavesOutput request _ _)
        · exact leavesOutput_shared _
  · exact .refl w

theorem drop_leavesOutput (f : Future) (w : Run) : LeavesOutput id w (w.drop f) := by
  unfold drop
  split
  · exact ⟨rfl, Nat.le_refl _⟩
  · exact .refl w

theorem sideEffect_leavesOutput (closure : Closure) (shape : Shape) (w : Run) :
    LeavesOutput id w (w.sideEffect closure shape).2 := by
  unfold sideEffect
  dsimp only
  split
  · exact leavesOutput_shared _
  · split
    · exact leavesOutput_shared _
    · split <;> exact leavesOutput_shared _

theorem upsert_leavesOutput (attributes : List (String × Json)) (w : Run) :
    LeavesOutput id w (w.upsert attributes).2 := by
  unfold upsert
  split <;> exact ⟨rfl, Nat.le_refl _⟩

theorem perform_leavesOutput (me : TaskId) (c : Call) (w : Run) :
    LeavesOutput id w (perform me c w).2 := by
  cases c with
  | activity type input shape options => exact activity_leavesOutput type input shape options w
  | timer delay => exact timer_leavesOutput delay w
  | child type input shape options => exact child_leavesOutput type input shape options w
  | cancel f => exact cancel_leavesOutput f w
  | drop f => exact drop_leavesOutput f w
  | sideEffect closure shape => exact sideEffect_leavesOutput closure shape w
  | upsert attributes => exact upsert_leavesOutput attributes w
  | _ => exact ⟨rfl, Nat.le_refl _⟩

theorem activity_future_ne_task (type : String) (input : Json) (shape : Shape) (o : ActivityOptions)
    (w : Run) : (w.activity type input shape o).1.toOption ≠ some (.task id) := by
  unfold activity
  dsimp only
  split <;> simp [ask, Except.toOption]

theorem child_future_ne_task (type : String) (input : Json) (shape : Shape) (o : ChildOptions)
    (w : Run) : (w.child type input shape o).1.toOption ≠ some (.task id) := by
  unfold child
  dsimp only
  split <;> simp [ask, Except.toOption]

theorem timer_future_ne_task (delay : Span) (w : Run) :
    (w.timer delay).1.toOption ≠ some (.task id) := by
  unfold timer
  by_cases zero : delay.isZero = true
  · rw [if_pos zero]
    simp [Except.toOption]
  · rw [if_neg zero]
    cases delay.timerSeconds? with
    | some seconds => simp [ask, Except.toOption]
    | none => simp [Except.toOption]

theorem cancel_future_ne_task {f : Future} (other : f ≠ .task id) (w : Run) :
    (w.cancel f).1 ≠ .task id := by
  cases f with
  | request promise placeholder accepted =>
    simp only [cancel]
    split <;> simp
  | signal name shape placeholder => simp [cancel]
  | task task => exact other

/-- No reply is the handle of a task, unless it gives back what it was given. -/
theorem perform_future_ne_task (me : TaskId) {c : Call} (kept : c ≠ .cancel (.task id)) (w : Run) :
    c.future? (perform me c w).1 ≠ some (.task id) := by
  cases c with
  | activity type input shape options => exact activity_future_ne_task type input shape options w
  | timer delay => exact timer_future_ne_task delay w
  | child type input shape options => exact child_future_ne_task type input shape options w
  | cancel f =>
    have other : f ≠ .task id := fun same => kept (same ▸ rfl)
    exact fun given => cancel_future_ne_task other w (Option.some.inj given)
  | signalExternal run signal input childOnly =>
    simp [Call.future?, perform, signalExternal, ask]
  | cancelExternal run childOnly => simp [Call.future?, perform, cancelExternal, ask]
  | _ => simp [Call.future?]

theorem deliver_leavesOutput (name : String) (input : Option Payload)
    (waiters : List PlaceholderId) (w : Run) :
    LeavesOutput id w (deliver name input waiters w) := by
  induction waiters generalizing w with
  | nil => exact leavesOutput_shared _
  | cons p rest ih =>
    have resolved : LeavesOutput id w
        { w with board := (w.board.resolve p (.completed input)).2 } :=
      leavesOutput_resolve p (.completed input) w.shared
    simp only [deliver]
    split
    · next board taken =>
      rw [taken] at resolved
      exact resolved.trans (leavesOutput_shared _)
    · next board taken =>
      rw [taken] at resolved
      exact resolved.trans (ih _)

theorem applyEvent_leavesOutput {e : HistoryEvent} {w w' : Run}
    (applied : applyEvent e w = .ok w') : LeavesOutput id w w' := by
  unfold applyEvent at applied
  split at applied
  · cases applied
    exact deliver_leavesOutput _ _ _ w
  · cases applied
    exact leavesOutput_shared _
  · split at applied
    · simp at applied
    · dsimp only at applied
      split at applied
      · cases applied
        exact leavesOutput_shared _
      · cases applied
        exact (leavesOutput_shared _).trans (settle_leavesOutput _ _ _)

end Run

/-! ## Looks -/

section Looks

variable {id : TaskId}

theorem Future.look_keeps_output {f : Future} (other : f ≠ .task id) (me : TaskId)
    (g : Future.Ground) :
    (f.look me g).1.2 ≠ .task id ∧ (f.look me g).2.1.outputSlot id = g.1.outputSlot id := by
  cases f with
  | request promise p accepted => exact ⟨other, Board.look_outputSlot g.1 me p id⟩
  | signal name shape p =>
    cases p with
    | some p => exact ⟨other, Board.look_outputSlot g.1 me p id⟩
    | none =>
      simp only [Future.look]
      split
      · exact ⟨other, rfl⟩
      · exact ⟨by simp, Board.look_outputSlot g.1.make.2 me g.1.make.1 id⟩
  | task task =>
    have apart : task ≠ id := fun same => other (same ▸ rfl)
    refine ⟨other, ?_⟩
    simp only [Future.look, Waiting.lookOutput]
    split
    · exact (Waiting.outputSlot_insert g.1 task id _).trans (if_neg apart)
    · exact (Waiting.outputSlot_insert g.1 task id _).trans (if_neg apart)

theorem lookFirst_keeps_output (me : TaskId) {fs : List Future} (others : .task id ∉ fs)
    (g : Future.Ground) :
    .task id ∉ (lookFirst me fs g).1.2 ∧
      (lookFirst me fs g).2.1.outputSlot id = g.1.outputSlot id := by
  induction fs generalizing g with
  | nil => exact ⟨by simp [lookFirst], rfl⟩
  | cons f rest ih =>
    simp only [List.mem_cons, not_or] at others
    obtain ⟨left, slot⟩ := f.look_keeps_output (Ne.symm others.1) me g
    simp only [lookFirst]
    split
    · next seen =>
      rw [seen] at left slot
      exact ⟨by simp [Ne.symm left, others.2], slot⟩
    · next f' g' seen =>
      rw [seen] at left slot
      obtain ⟨later, last⟩ := ih others.2 g'
      exact ⟨by simp [Ne.symm left, later], last.trans slot⟩

theorem lookAll_keeps_output (me : TaskId) {items : List Item} (others : .open (.task id) ∉ items)
    (g : Future.Ground) :
    .open (.task id) ∉ (lookAll me items g).1 ∧
      (lookAll me items g).2.1.outputSlot id = g.1.outputSlot id := by
  induction items generalizing g with
  | nil => exact ⟨by simp [lookAll], rfl⟩
  | cons item rest ih =>
    simp only [List.mem_cons, not_or] at others
    cases item with
    | closed r =>
      obtain ⟨later, last⟩ := ih others.2 g
      exact ⟨by simpa [lookAll] using later, last⟩
    | «open» f =>
      have other : f ≠ .task id := fun same => others.1 (same ▸ rfl)
      obtain ⟨left, slot⟩ := f.look_keeps_output other me g
      obtain ⟨later, last⟩ := ih others.2 (f.look me g).2
      refine ⟨?_, last.trans slot⟩
      simp only [lookAll, List.mem_cons, not_or]
      refine ⟨?_, later⟩
      split
      · simp
      · simpa using Ne.symm left

theorem look_keeps_output (me : TaskId) {s : Await} (others : ¬ s.Joins id) (g : Future.Ground) :
    ¬ (Run.look me s g).1.2.Joins id ∧
      (Run.look me s g).2.1.outputSlot id = g.1.outputSlot id := by
  cases s with
  | first fs => exact lookFirst_keeps_output me others g
  | every items => exact lookAll_keeps_output me others g

end Looks

/-! ## Turns -/

section Turns

variable {id : TaskId} {c : WorkflowCode} {w : Run}

structure Schedule.Turn.LeavesOutput (t : Turn calls) (id : TaskId) (w : Run) : Prop where
  spawned : Tasks.NeverJoin id t.spawned
  pending : ∀ c, t.verdict = .pending c → c.NeverJoins id
  world : Run.LeavesOutput id w t.world

theorem Schedule.Turn.LeavesOutput.after {t : Turn calls} {w₁ : Run}
    (later : t.LeavesOutput id w₁) (first : Run.LeavesOutput id w w₁) : t.LeavesOutput id w :=
  ⟨later.spawned, later.pending, first.trans later.world⟩

theorem Schedule.Code.run_leavesOutput (me : TaskId) (never : c.NeverJoins id)
    (named : id.number < w.board.nextTask) : (c.run Run.meaning me w).LeavesOutput id w := by
  induction c generalizing w with
  | done o => exact ⟨by simp [Code.run, Tasks.NeverJoin], by simp [Code.run], .refl w⟩
  | panic message => exact ⟨by simp [Code.run, Tasks.NeverJoin], by simp [Code.run], .refl w⟩
  | call c next ih =>
    have performed : Run.LeavesOutput id w _ := Run.perform_leavesOutput me c w
    have reply := Run.perform_future_ne_task me never.1 w
    have later := ih (Run.perform me c w).1 (never.2 _ reply)
      (Nat.lt_of_lt_of_le named performed.named)
    exact later.after performed
  | spawn body next _ ih =>
    -- The name of a new task is beyond all names that were given.
    have apart : w.board.newTask.1 ≠ id := by
      rintro rfl
      exact Nat.lt_irrefl _ named
    have opened : Run.LeavesOutput id w { w with board := w.board.newTask.2 } := by
      refine ⟨congrArg (fun v => Waiting.outputSlot v id) (Board.wake_waiting _ _), ?_⟩
      simp [Board.newTask]
    have later := (ih w.board.newTask.1 (never.2 _ apart)
      (Nat.lt_of_lt_of_le named opened.named)).after opened
    refine ⟨?_, later.pending, later.world⟩
    intro t member
    rcases List.mem_cons.mp member with rfl | member
    · exact never.1
    · exact later.spawned t member
  | wait s next ih =>
    obtain ⟨left, slot⟩ := look_keeps_output me never.1 (w.board.waiting, w.shared)
    have looked : Run.LeavesOutput id w (World.looked Run.meaning me s w) :=
      ⟨slot, Nat.le_refl _⟩
    simp only [Code.run]
    split
    · next a _ =>
      exact (ih a _ (w := World.looked Run.meaning me s w) (never.2 a _ left) named).after looked
    · refine ⟨by simp [Tasks.NeverJoin], ?_, looked⟩
      intro c' pending
      cases pending
      exact ⟨left, never.2⟩
  | turn next _ =>
    refine ⟨by simp [Code.run, Tasks.NeverJoin], ?_, ?_, ?_⟩
    · intro c' pending
      cases pending
      exact never
    · exact congrArg (fun v => Waiting.outputSlot v id) (Board.wake_waiting _ _)
    · simp [Code.run]

theorem Schedule.Turn.LeavesOutput.replacing {t : Turn calls} {me : TaskId}
    {before after : Tasks calls} (turn : t.LeavesOutput id w)
    (never : Tasks.NeverJoin id (before ++ (me, c) :: after)) :
    Tasks.NeverJoin id (t.replacing me before after) := by
  intro task member
  rcases Turn.mem_replacing member with old | old | new | ⟨c', verdict, rfl⟩
  · exact never task (by simp [old])
  · exact never task (by simp [old])
  · exact turn.spawned task new
  · exact turn.pending c' verdict

theorem Schedule.Board.finish_isFinished {V O : Type} (b : Board V O) (me id : TaskId) (o : O) :
    (b.finish me o).waiting.isFinished id = true ↔ me = id ∨ b.waiting.isFinished id = true := by
  have slot := Waiting.outputSlot_insert b.waiting me id { value := some o }
  simp only [Board.finish, Waiting.finish, Waiting.isFinished, Board.wakeWaiter_waiting, slot]
  by_cases same : me = id <;> simp [same]

theorem Schedule.Turn.LeavesOutput.settled {t : Turn calls} (turn : t.LeavesOutput id w)
    (me : TaskId) (report : RunReport) :
    w.board.nextTask ≤ (t.settled me).board.nextTask ∧
      ((t.settled me).board.waiting.isFinished id = true ∨ id ∈ report.completed ↔
        w.board.waiting.isFinished id = true ∨ id ∈ (t.addTo me report).completed) := by
  have slot : t.world.board.waiting.isFinished id = w.board.waiting.isFinished id := by
    rw [Waiting.isFinished, turn.world.slot, Waiting.isFinished]
  unfold Turn.settled Turn.addTo
  cases t.verdict with
  | finished o =>
    have next : (t.world.board.finish me o).nextTask = t.world.board.nextTask :=
      Board.touch_nextTask t.world.board (.finish me o)
    refine ⟨next ▸ turn.world.named, ?_⟩
    rw [Board.finish_isFinished, slot, List.mem_cons]
    grind
  | panicked message => exact ⟨turn.world.named, by rw [slot]⟩
  | pending code => exact ⟨turn.world.named, by rw [slot]⟩

end Turns

/-! ## Runs -/

/-- A run in which no task holds the handle of the task `id`: its output is there afterwards if it
was there before or the task ended in the run. -/
theorem takeTurns_leavesOutput {id : TaskId} (tasks : Tasks calls) (w : Run)
    (never : Tasks.NeverJoin id tasks) (named : id.number < w.board.nextTask) :
    let rest := takeTurns Run.meaning tasks w
    Tasks.NeverJoin id rest.tasks ∧ id.number < rest.world.board.nextTask ∧
      (rest.world.board.waiting.isFinished id = true ↔
        w.board.waiting.isFinished id = true ∨ id ∈ rest.report.completed) := by
  induction tasks, w using turns_induction Run.meaning with
  | idle tasks w idle =>
    rw [takeTurns_idle _ tasks w idle]
    exact ⟨never, named, by simp⟩
  | gone tasks w me ready head gone ih =>
    rw [takeTurns_gone _ tasks w head gone]
    exact ih never named
  | turn tasks w me ready before code after head found ih =>
    rw [Tasks.eq_of_split? found] at never
    have turn : (code.run Run.meaning me (w.dequeued ready)).LeavesOutput id (w.dequeued ready) :=
      code.run_leavesOutput me (never (me, code) (by simp)) named
    obtain ⟨kept, -⟩ := turn.settled me {}
    obtain ⟨left, bound, output⟩ := ih (turn.replacing never) (Nat.lt_of_lt_of_le named kept)
    rw [takeTurns_turn _ tasks w head found]
    exact ⟨left, bound, output.trans (turn.settled me _).2⟩

theorem takeTurns_nil {tasks : Tasks calls} (nobody : tasks = []) (w : Run) :
    let rest := takeTurns Run.meaning tasks w
    rest.report.completed = [] ∧ rest.tasks = [] ∧
      rest.world.board.waiting = w.board.waiting := by
  induction tasks, w using turns_induction Run.meaning with
  | idle tasks w idle =>
    rw [takeTurns_idle _ tasks w idle]
    exact ⟨rfl, nobody, rfl⟩
  | gone tasks w me ready head gone ih =>
    rw [takeTurns_gone _ tasks w head gone]
    exact ih nobody
  | turn tasks w me ready before code after head found ih =>
    simp [nobody, Tasks.split?] at found

end WorkflowReplay
