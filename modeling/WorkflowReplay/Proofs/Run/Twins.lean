import WorkflowReplay.Proofs.Run.Backdrop
import WorkflowReplay.Proofs.Run.Stages

/-!
# Engines that answer alike

Two engines are twins when they differ in the backdrop of their runs only.  Twins stay twins
through events, and through a run of the code if every side effect that the code asks for has the
same result on both sides: one runs the closure, the other runs it too or takes the result from the
history.
-/

set_option autoImplicit false

namespace WorkflowReplay

open Schedule

namespace Run

/-! ## Code in lockstep -/

section InStep

variable {known known' : Table String (Option Payload)} {replaying : Bool} {w w' : Run}

/-- Two runs are alike, the first one live, with the given side effects recorded. -/
structure InStep (known known' : Table String (Option Payload)) (replaying : Bool) (w w' : Run) :
    Prop where
  alike : Alike w w'
  time : w'.shared.time = w.shared.time
  live : w.shared.replaying = false
  known : w.shared.sideEffects = known
  replaying : w'.shared.replaying = replaying
  known' : w'.shared.sideEffects = known'

/-- The command gets the same reply in both runs: a side effect is new to the first one, and the
second one finds its result recorded or runs it too. -/
def Foreseen (known known' : Table String (Option Payload)) (replaying : Bool)
    (g : Given calls) : Prop :=
  match g.command with
  | .isReplaying => False
  | .sideEffect closure _ => ∃ v, closure.result = .ok v ∧
    known.get? (toString g.world.shared.nextSideEffect) = none ∧
      (known'.get? (toString g.world.shared.nextSideEffect) = some (some (Codec.encodeValue v)) ∨
        known'.get? (toString g.world.shared.nextSideEffect) = none ∧ replaying = false)
  | _ => True

theorem InStep.of_alike_fixed {w₁ w₁' : Run} (h : InStep known known' replaying w w')
    (alike : Alike w₁ w₁') (fixed : Fixed w.shared w₁.shared)
    (fixed' : Fixed w'.shared w₁'.shared) :
    InStep known known' replaying w₁ w₁' where
  alike := alike
  time := by rw [fixed.time, fixed'.time, h.time]
  live := fixed.replaying.trans h.live
  known := fixed.sideEffects.trans h.known
  replaying := fixed'.replaying.trans h.replaying
  known' := fixed'.sideEffects.trans h.known'

theorem wakeWaiter_outputs (board : Board Outcome (Except Error Json))
    (outputs : Table TaskId (Slot (Except Error Json))) (waiter : Option TaskId) :
    Board.wakeWaiter { board with waiting := { board.waiting with outputs } } waiter =
      { board.wakeWaiter waiter with
        waiting := { (board.wakeWaiter waiter).waiting with outputs } } := by
  cases waiter with
  | none => rfl
  | some task =>
    unfold Board.wakeWaiter Board.wake
    dsimp only
    split <;> rfl

theorem Alike.onBoard {f : Board Outcome (Except Error Json) → Board Outcome (Except Error Json)}
    (commutes : ∀ (board : Board Outcome (Except Error Json)) outputs,
      f { board with waiting := { board.waiting with outputs } } =
        { f board with waiting := { (f board).waiting with outputs } })
    (alike : Alike w w') :
    Alike { w with board := f w.board } { w' with board := f w'.board } := by
  obtain ⟨b, rfl, slots⟩ := alike
  have outputs : (f w.board).waiting.outputs = w.board.waiting.outputs :=
    congrArg (fun board => board.waiting.outputs) (commutes w.board w.board.waiting.outputs)
  refine ⟨b, ?_, ?_⟩
  · exact congrArg (fun board => ({ board, shared := w.shared.against b } : Run))
      (commutes w.board b.outputs)
  · intro id
    have slot := slots id
    have other := congrArg (fun board => board.waiting.outputs) (commutes w.board b.outputs)
    simp only [Waiting.outputSlot, against] at slot other ⊢
    rw [outputs, other]
    exact slot

theorem Alike.finish (alike : Alike w w') (id : TaskId) (o : Except Error Json) :
    Alike { w with board := w.board.finish id o } { w' with board := w'.board.finish id o } := by
  obtain ⟨b, rfl, slots⟩ := alike
  have slot := slots id
  let storing (board : Board Outcome (Except Error Json)) : Board Outcome (Except Error Json) :=
    { board with waiting := (board.waiting.finish id o).2 }
  refine ⟨{ b with outputs := b.outputs.insert id { value := some o } }, ?_, ?_⟩
  · have stored : ({ w with board := w.board.finish id o } : Run) =
        { w with
          board := Board.wakeWaiter (storing w.board) (w.board.waiting.outputSlot id).waiter } :=
      rfl
    have woken := wakeWaiter_outputs (storing w.board) (b.outputs.insert id { value := some o })
      (w.board.waiting.outputSlot id).waiter
    rw [stored]
    refine Eq.trans ?_
      (congrArg (fun board => ({ board, shared := w.shared.against b } : Run)) woken)
    simp only [Board.finish, Waiting.finish, slot]
    rfl
  · intro id'
    simp only [Board.finish, Waiting.finish, Board.wakeWaiter_waiting]
    exact outputSlot_insert_alike slots id _ id'

theorem sideEffect_alike (h : InStep known known' replaying w w') {closure : Closure}
    (shape : Shape) {v : Json} (value : closure.result = .ok v)
    (new : known.get? (toString w.shared.nextSideEffect) = none)
    (same : known'.get? (toString w.shared.nextSideEffect) = some (some (Codec.encodeValue v)) ∨
      known'.get? (toString w.shared.nextSideEffect) = none ∧ replaying = false) :
    (w.sideEffect closure shape).1 = (w'.sideEffect closure shape).1 ∧
      Alike (w.sideEffect closure shape).2 (w'.sideEffect closure shape).2 := by
  rw [← h.known] at new
  rw [sideEffect_live new h.live value]
  rw [← h.known'] at same
  have number : w.shared.nextSideEffect = w'.shared.nextSideEffect := by
    obtain ⟨b, rfl, -⟩ := h.alike
    rfl
  rw [number] at same
  have marked (reports reports' : List Json) :
      Alike (w.withMarker (some (Codec.encodeValue v)) reports)
        (w'.withMarker (some (Codec.encodeValue v)) reports') := by
    obtain ⟨b, rfl, slots⟩ := h.alike
    exact ⟨{ b with reports := reports' }, rfl, slots⟩
  rcases same with found | ⟨missing, live⟩
  · rw [sideEffect_of_record found]
    exact ⟨rfl, marked _ _⟩
  · rw [sideEffect_live missing (h.replaying.trans live) value]
    exact ⟨rfl, marked _ _⟩

theorem perform_alike (h : InStep known known' replaying w w') (me : TaskId) (c : Call)
    (foreseen : Foreseen known known' replaying ⟨me, c, w⟩) :
    (perform me c w).1 = (perform me c w').1 ∧ Alike (perform me c w).2 (perform me c w').2 := by
  by_cases other : IsBackdropCall c
  · cases c with
    | isReplaying => exact absurd foreseen id
    | sideEffect closure shape =>
      obtain ⟨v, value, new, same⟩ := foreseen
      exact sideEffect_alike h shape value new same
    | report entry =>
      obtain ⟨b, rfl, slots⟩ := h.alike
      exact ⟨rfl, { b with reports := b.reports ++ [entry] }, rfl, slots⟩
    | _ => exact absurd other id
  · exact h.alike.of_commutes (fun b time => perform_against me c other w b time) h.time

theorem meaning_mirrors_inStep (known known' : Table String (Option Payload)) (replaying : Bool) :
    meaning.Mirrors (InStep known known' replaying) (Foreseen known known' replaying) where
  ready h := by
    obtain ⟨b, rfl, -⟩ := h.alike
    rfl
  nextTask h := by
    obtain ⟨b, rfl, -⟩ := h.alike
    rfl
  dequeued ready h :=
    h.of_alike_fixed (h.alike.onBoard (f := fun board => { board with ready }) fun _ _ => rfl)
      (.refl _) (.refl _)
  newTask h :=
    h.of_alike_fixed (h.alike.onBoard (f := fun board => board.newTask.2) fun board outputs =>
      wakeWaiter_outputs { board with nextTask := board.nextTask + 1 } outputs
        (some ⟨board.nextTask⟩)) (.refl _) (.refl _)
  wake id h :=
    h.of_alike_fixed (h.alike.onBoard (f := fun board => board.wake id) fun board outputs =>
      wakeWaiter_outputs board outputs (some id)) (.refl _) (.refl _)
  finish id o h := h.of_alike_fixed (h.alike.finish id o) (.refl _) (.refl _)
  perform me c h foreseen := by
    obtain ⟨reply, alike⟩ := perform_alike h me c foreseen
    exact ⟨reply, h.of_alike_fixed alike (perform_effect me c _).fixed
      (perform_effect me c _).fixed⟩
  look {w w'} me s h := by
    obtain ⟨b, rfl, slots⟩ := h.alike
    have ground : AlikeGround (w.board.waiting, w.shared)
        ((against w b).board.waiting, (against w b).shared) := ⟨b, rfl, slots⟩
    obtain ⟨answer, b', after, slots'⟩ := await_alike ground me s
    refine ⟨answer, h.of_alike_fixed ⟨b', ?_, slots'⟩
      (keeps_fixed.look me s (w.board.waiting, w.shared))
      (keeps_fixed.look me s ((against w b).board.waiting, (against w b).shared))⟩
    exact congrArg (fun g : Future.Ground => ({
      board := { w.board with waiting := g.1 }
      shared := g.2 } : Run)) after

end InStep

end Run

/-! ## Twins -/

namespace Engine

/-- The same engine but for the backdrop of its run, and for what it remembers of the history. -/
structure Twins (e e' : Engine) : Prop where
  workflow : e.workflow = e'.workflow
  runnable : e.runnable = e'.runnable
  root : e.root = e'.root
  completionEmitted : e.completionEmitted = e'.completionEmitted
  alike : Run.Alike e.scheduler.world e'.scheduler.world

variable {e e' : Engine}

theorem Twins.refl (e : Engine) : Twins e e := ⟨rfl, rfl, rfl, rfl, .refl _⟩

theorem Twins.symm (h : Twins e e') : Twins e' e :=
  ⟨h.workflow.symm, h.runnable.symm, h.root.symm, h.completionEmitted.symm, h.alike.symm⟩

theorem Twins.trans {a b c : Engine} (first : Twins a b) (second : Twins b c) : Twins a c :=
  ⟨first.workflow.trans second.workflow, first.runnable.trans second.runnable,
    first.root.trans second.root, first.completionEmitted.trans second.completionEmitted,
    first.alike.trans second.alike⟩

theorem Twins.withRun (h : Twins e e') {w w' : Run} (alike : Run.Alike w w') :
    Twins (e.inRun fun _ => w) (e'.inRun fun _ => w') :=
  ⟨h.workflow, h.runnable, h.root, h.completionEmitted, alike⟩

theorem enter_world (e : Engine) (b : Batch) :
    (e.enter b).scheduler.world = { e.scheduler.world with shared := (e.enter b).context } := by
  unfold enter
  split <;> rfl

theorem twins_enter (e : Engine) (b : Batch) : Twins e (e.enter b) := by
  refine ⟨?_, ?_, ?_, ?_, ?_⟩
  · unfold enter
    split <;> rfl
  · unfold enter
    split <;> rfl
  · unfold enter
    split <;> rfl
  · unfold enter
    split <;> rfl
  · obtain ⟨sideEffects, entered⟩ := enter_eq e b
    rw [enter_world e b, entered]
    exact ⟨⟨accepts b, b.time.millis, sideEffects, e.context.reports,
      e.scheduler.world.board.waiting.outputs⟩, rfl, fun _ => rfl⟩

theorem Twins.enter (h : Twins e e') (b b' : Batch) : Twins (e.enter b) (e'.enter b') :=
  (twins_enter e b).symm.trans (h.trans (twins_enter e' b'))

structure Abreast (e e' : Engine) : Prop extends Twins e e' where
  lastEventId : e.lastEventId = e'.lastEventId

theorem Abreast.startRoot (h : Abreast e e') (input : Option Payload) :
    (e.startRoot input).1 = (e'.startRoot input).1 ∧
      Abreast (e.startRoot input).2 (e'.startRoot input).2 := by
  unfold Engine.startRoot
  rw [← h.root, ← h.workflow]
  split
  · exact ⟨rfl, h⟩
  · split
    · exact ⟨rfl, h⟩
    · next code _ =>
      have board := h.alike.onBoard (f := fun board => board.newTask.2) fun board outputs =>
        Run.wakeWaiter_outputs { board with nextTask := board.nextTask + 1 } outputs
          (some ⟨board.nextTask⟩)
      have id : e.scheduler.world.board.newTask.1 = e'.scheduler.world.board.newTask.1 := by
        obtain ⟨back, other, -⟩ := h.alike
        rw [other]
        rfl
      have runnable := congrArg (· ++ [(e.scheduler.world.board.newTask.1, code)]) h.runnable
      simp only [Engine.runnable, List.append_assoc] at runnable
      refine ⟨rfl, ⟨⟨rfl, ?_, congrArg some id, h.completionEmitted, board⟩, h.lastEventId⟩⟩
      simp only [Engine.runnable, Scheduler.spawn]
      rw [runnable, id]

theorem Abreast.applyEvent (h : Abreast e e') (event : HistoryEvent) :
    (e.applyEvent event).1 = (e'.applyEvent event).1 ∧
      Abreast (e.applyEvent event).2 (e'.applyEvent event).2 := by
  have skipped := h.lastEventId
  have seen : Abreast { e with lastEventId := event.id } { e' with lastEventId := event.id } :=
    ⟨⟨h.workflow, h.runnable, h.root, h.completionEmitted, h.alike⟩, rfl⟩
  unfold Engine.applyEvent
  rw [← skipped]
  split
  · exact ⟨rfl, h⟩
  · split
    · exact seen.startRoot _
    · dsimp only
      rcases h.alike.applyEvent event with ⟨err, left, right⟩ | ⟨w, w', left, right, alike⟩
      · rw [left, right]
        exact ⟨rfl, seen⟩
      · rw [left, right]
        exact ⟨rfl, ⟨seen.toTwins.withRun alike, rfl⟩⟩

theorem Abreast.applyEvents (h : Abreast e e') (es : List HistoryEvent) :
    (e.applyEvents es).1 = (e'.applyEvents es).1 ∧
      Abreast (e.applyEvents es).2 (e'.applyEvents es).2 := by
  induction es generalizing e e' with
  | nil => exact ⟨rfl, h⟩
  | cons event rest ih =>
    obtain ⟨result, after⟩ := h.applyEvent event
    simp only [Engine.applyEvents]
    generalize e.applyEvent event = r at result after
    generalize e'.applyEvent event = r' at result after
    obtain ⟨result₁, e₁⟩ := r
    obtain ⟨result₁', e₁'⟩ := r'
    obtain rfl : result₁ = result₁' := result
    cases result₁ with
    | ok => exact ih after
    | error fault => exact ⟨rfl, after⟩

/-- The code has the same result in twins, if all its commands are foreseen. -/
theorem Twins.runTasks {known known' : Table String (Option Payload)} {replaying : Bool}
    (h : Twins e e')
    (step : Run.InStep known known' replaying e.scheduler.world e'.scheduler.world)
    (foreseen : ∀ g ∈ e.callsOfRun, Run.Foreseen known known' replaying g) :
    e.runTasks.1 = e'.runTasks.1 ∧ Twins e.runTasks.2 e'.runTasks.2 := by
  obtain ⟨report, tasks, after⟩ :=
    takeTurns_mirrors (Run.meaning_mirrors_inStep known known' replaying) e.runnable step foreseen
  rw [show takeTurns Run.meaning e.runnable e'.scheduler.world =
    takeTurns Run.meaning e'.runnable e'.scheduler.world from by rw [h.runnable]]
    at report tasks after
  have contradiction :
      (takeTurns Run.meaning e.runnable e.scheduler.world).world.shared.contradiction =
      (takeTurns Run.meaning e'.runnable e'.scheduler.world).world.shared.contradiction := by
    obtain ⟨back, other, -⟩ := after.alike
    rw [other]
    rfl
  have cleared {w w' : Run} (alike : Run.Alike w w') :
      Run.Alike { w with shared := { w.shared with contradiction := none } }
        { w' with shared := { w'.shared with contradiction := none } } := by
    obtain ⟨back, rfl, slots⟩ := alike
    exact ⟨back, rfl, slots⟩
  have left (w : Run) (r : Rest calls) :
      ({
        workflow := e.workflow
        scheduler :=
          { world := w, tasks := r.tasks } : Engine }).runnable = r.tasks := List.append_nil _
  unfold Engine.runTasks
  simp only [Scheduler.run, context]
  rw [show e.scheduler.tasks ++ e.scheduler.spawned = e.runnable from rfl,
    show e'.scheduler.tasks ++ e'.scheduler.spawned = e'.runnable from rfl, ← contradiction,
    ← report, ← tasks]
  split
  · exact ⟨rfl, h.workflow, rfl, h.root, h.completionEmitted, cleared after.alike⟩
  · split
    · exact ⟨rfl, h.workflow, rfl, h.root, h.completionEmitted, after.alike⟩
    · exact ⟨rfl, h.workflow, rfl, h.root, h.completionEmitted, after.alike⟩

theorem Twins.notified (h : Twins e e') : Twins e.notified e'.notified := by
  obtain ⟨back, other, slots⟩ := h.alike
  refine ⟨h.workflow, h.runnable, h.root, h.completionEmitted, back, ?_, slots⟩
  simp only [Engine.notified, inContext, inRun, other]
  rfl

theorem Twins.pending_eq (h : Twins e e') :
    e.context.ledger.pending = e'.context.ledger.pending := by
  obtain ⟨back, other, -⟩ := h.alike
  simp only [context, other]
  rfl

theorem Twins.takeTerminal (h : Twins e e') :
    e.takeTerminal.1 = e'.takeTerminal.1 ∧ Twins e.takeTerminal.2 e'.takeTerminal.2 := by
  unfold Engine.takeTerminal
  rw [← h.completionEmitted, ← h.root]
  split
  · exact ⟨rfl, h⟩
  · split
    · exact ⟨rfl, h⟩
    · next id root =>
      obtain ⟨back, other, slots⟩ := h.alike
      have slot := slots id
      have taken : Run.Alike
          { e.scheduler.world with board := (e.scheduler.world.board.takeOutput id).2 }
          { e'.scheduler.world with board := (e'.scheduler.world.board.takeOutput id).2 } := by
        refine ⟨{ back with outputs :=
          back.outputs.insert id { (e.scheduler.world.board.waiting.outputSlot id) with
            value := none } }, ?_, ?_⟩
        · simp only [Board.takeOutput, Waiting.takeOutput, ← slot]
          rw [other]
          rfl
        · intro id'
          simp only [Board.takeOutput, Waiting.takeOutput, ← slot]
          exact Run.outputSlot_insert_alike slots id _ id'
      have output : (e.scheduler.world.board.takeOutput id).1 =
          (e'.scheduler.world.board.takeOutput id).1 := congrArg Slot.value slot
      simp only [← output]
      split
      · exact ⟨rfl, h.withRun taken⟩
      · exact ⟨rfl, h.workflow, h.runnable, h.root, rfl, taken⟩

theorem Twins.takeDecisions (h : Twins e e') :
    e.takeDecisions.1 = e'.takeDecisions.1 ∧ Twins e.takeDecisions.2 e'.takeDecisions.2 := by
  obtain ⟨terminal, after⟩ := h.notified.takeTerminal
  rw [takeDecisions_eq, takeDecisions_eq]
  refine ⟨?_, after⟩
  change _ ++ _ = _ ++ _
  rw [h.pending_eq, terminal]

end Engine

end WorkflowReplay
