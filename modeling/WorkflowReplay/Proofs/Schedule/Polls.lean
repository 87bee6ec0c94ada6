import WorkflowReplay.Proofs.Schedule.Turns

/-!
# The polls of a run

A run takes task after task from its queue.  A task that is taken is polled, or passed over when it
is not there any more.  `takings` lists what was taken, each with the world in which it was taken,
and the report of a run is read off the polls among them: how many there were, which of them brought
their tasks to an end, and which ended in a panic.
-/

set_option autoImplicit false

namespace WorkflowReplay.Schedule

variable {I : Interface}

/-- A task that is polled: its code, and the world after it left the queue. -/
structure Poll (I : Interface) where
  task : TaskId
  code : Code I
  world : World I

inductive Taking (I : Interface) where
  | polled (p : Poll I)
  | passed (task : TaskId) (world : World I)

namespace Taking

def task : Taking I → TaskId
  | .polled p => p.task
  | .passed task _ => task

def world : Taking I → World I
  | .polled p => p.world
  | .passed _ world => world

def poll? : Taking I → Option (Poll I)
  | .polled p => some p
  | .passed .. => none

end Taking

def Poll.turn (m : Meaning I) (p : Poll I) : Turn I := p.code.run m p.task p.world

def Poll.output? (m : Meaning I) (p : Poll I) : Option I.Output :=
  match (p.turn m).verdict with
  | .finished o => some o
  | _ => none

def Poll.failure? (m : Meaning I) (p : Poll I) : Option TaskFailure :=
  match (p.turn m).verdict with
  | .panicked message => some ⟨p.task, message⟩
  | _ => none

def Poll.ends (m : Meaning I) (p : Poll I) : Bool :=
  match (p.turn m).verdict with
  | .pending _ => false
  | _ => true

set_option linter.unusedVariables false in
def takings (m : Meaning I) (tasks : Tasks I) (world : World I) : List (Taking I) :=
  match hr : world.board.ready with
  | [] => []
  | id :: ready =>
    let world : World I := world.dequeued ready
    match hs : Tasks.split? id tasks with
    | none => .passed id world :: takings m tasks world
    | some (before, code, after) =>
      let t := code.run m id world
      .polled ⟨id, code, world⟩ :: takings m (t.replacing id before after) (t.settled id)
termination_by (tasks.backlog, world.board.ready.length)
decreasing_by
  · rw [hr]
    exact .right _ (Nat.lt_succ_self _)
  · rw [hr, Tasks.eq_of_split? hs]
    exact Turn.decreases (code.run_progressed m id _) rfl before after

theorem takings_idle (m : Meaning I) (tasks : Tasks I) (w : World I)
    (idle : w.board.ready = []) : takings m tasks w = [] := by
  rw [takings]
  split
  · rfl
  · next h => simp [idle] at h

theorem takings_gone (m : Meaning I) (tasks : Tasks I) (w : World I) {id : TaskId}
    {ready : List TaskId} (head : w.board.ready = id :: ready)
    (gone : Tasks.split? id tasks = none) :
    takings m tasks w = .passed id (w.dequeued ready) :: takings m tasks (w.dequeued ready) := by
  rw [takings]
  split
  · next h => simp [head] at h
  · next id' ready' h =>
    obtain ⟨rfl, rfl⟩ := List.cons.inj (head.symm.trans h)
    split
    · rfl
    · next hs => simp [gone] at hs

theorem takings_turn (m : Meaning I) (tasks : Tasks I) (w : World I) {id : TaskId}
    {ready : List TaskId} {code : Code I} {before after : Tasks I}
    (head : w.board.ready = id :: ready)
    (found : Tasks.split? id tasks = some (before, code, after)) :
    let t := code.run m id (w.dequeued ready)
    takings m tasks w = .polled ⟨id, code, w.dequeued ready⟩ ::
      takings m (t.replacing id before after) (t.settled id) := by
  intro t
  rw [takings]
  split
  · next h => simp [head] at h
  · next id' ready' h =>
    obtain ⟨rfl, rfl⟩ := List.cons.inj (head.symm.trans h)
    split
    · next hs => simp [found] at hs
    · next hs =>
      obtain ⟨rfl, rfl, rfl⟩ : _ ∧ _ ∧ _ := by simpa using found.symm.trans hs
      rfl

def polls (m : Meaning I) (tasks : Tasks I) (w : World I) : List (Poll I) :=
  (takings m tasks w).filterMap Taking.poll?

theorem polls_idle (m : Meaning I) (tasks : Tasks I) (w : World I)
    (idle : w.board.ready = []) : polls m tasks w = [] := by
  rw [polls, takings_idle m tasks w idle, List.filterMap_nil]

theorem polls_gone (m : Meaning I) (tasks : Tasks I) (w : World I) {id : TaskId}
    {ready : List TaskId} (head : w.board.ready = id :: ready)
    (gone : Tasks.split? id tasks = none) :
    polls m tasks w = polls m tasks (w.dequeued ready) := by
  rw [polls, takings_gone m tasks w head gone]
  exact List.filterMap_cons_none rfl

theorem polls_turn (m : Meaning I) (tasks : Tasks I) (w : World I) {id : TaskId}
    {ready : List TaskId} {code : Code I} {before after : Tasks I}
    (head : w.board.ready = id :: ready)
    (found : Tasks.split? id tasks = some (before, code, after)) :
    let t := code.run m id (w.dequeued ready)
    polls m tasks w = ⟨id, code, w.dequeued ready⟩ ::
      polls m (t.replacing id before after) (t.settled id) := by
  intro t
  rw [polls, takings_turn m tasks w head found]
  exact List.filterMap_cons_some rfl

/-! ## The report -/

def reportOf (m : Meaning I) (ps : List (Poll I)) : RunReport where
  polls := ps.length
  completed := (ps.filter fun p => (p.output? m).isSome).map Poll.task
  failures := ps.filterMap (Poll.failure? m)

theorem Turn.addTo_reportOf (m : Meaning I) (p : Poll I) (rest : List (Poll I)) :
    (p.turn m).addTo p.task (reportOf m rest) = reportOf m (p :: rest) := by
  unfold Turn.addTo
  cases verdict : (p.turn m).verdict <;>
    simp [reportOf, Poll.output?, Poll.failure?, verdict]

theorem takeTurns_report (m : Meaning I) (tasks : Tasks I) (w : World I) :
    (takeTurns m tasks w).report = reportOf m (polls m tasks w) := by
  induction tasks, w using turns_induction m with
  | idle tasks w idle =>
    rw [takeTurns_idle m tasks w idle, polls_idle m tasks w idle]
    rfl
  | gone tasks w id ready head gone ih =>
    rw [takeTurns_gone m tasks w head gone, polls_gone m tasks w head gone, ih]
  | turn tasks w id ready before code after head found ih =>
    rw [takeTurns_turn m tasks w head found, polls_turn m tasks w head found]
    rw [ih]
    exact Turn.addTo_reportOf m ⟨id, code, w.dequeued ready⟩ _

def RunReport.ended (r : RunReport) : List TaskId := r.completed ++ r.failures.map TaskFailure.task

/-- A poll that brings its task to an end is reported, once, as completed or as a failure. -/
theorem reportOf_ended (m : Meaning I) (ps : List (Poll I)) :
    (reportOf m ps).ended.Perm ((ps.filter (Poll.ends m)).map Poll.task) := by
  induction ps with
  | nil => exact .refl _
  | cons p rest ih =>
    unfold RunReport.ended reportOf at ih ⊢
    cases verdict : (p.turn m).verdict with
    | pending c =>
      have goes : p.output? m = none ∧ p.failure? m = none ∧ p.ends m = false := by
        simp [Poll.output?, Poll.failure?, Poll.ends, verdict]
      simpa [goes] using ih
    | finished o =>
      have completes : p.output? m = some o ∧ p.failure? m = none ∧ p.ends m = true := by
        simp [Poll.output?, Poll.failure?, Poll.ends, verdict]
      simpa [completes] using ih
    | panicked message =>
      have fails : p.output? m = none ∧ p.failure? m = some ⟨p.task, message⟩ ∧
          p.ends m = true := by
        simp [Poll.output?, Poll.failure?, Poll.ends, verdict]
      simpa [fails] using List.perm_middle.trans (ih.cons p.task)

/-! ## Relations that a run respects -/

/-- What every turn respects relates the shared state of a run to that at each of its polls. -/
theorem polls_keep {m : Meaning I} {R : I.Shared → I.Shared → Prop} (h : m.Keeps R)
    (tasks : Tasks I) (w : World I) : ∀ p ∈ polls m tasks w, R w.shared p.world.shared := by
  induction tasks, w using turns_induction m with
  | idle tasks w idle => simp [polls_idle m tasks w idle]
  | gone tasks w id ready head gone ih =>
    rw [polls_gone m tasks w head gone]
    exact ih
  | turn tasks w id ready before code after head found ih =>
    rw [polls_turn m tasks w head found]
    intro p member
    rcases List.mem_cons.mp member with rfl | later
    · exact h.refl _
    · have first := Code.run_keeps h id code (w.dequeued ready)
      rw [Turn.settled_shared] at ih
      exact h.trans first (ih p later)

end WorkflowReplay.Schedule
