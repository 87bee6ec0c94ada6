import WorkflowReplay.Schedule.Progress

/-!
# The scheduler

A `Scheduler` owns the tasks of one run and lets them take turns in the order in which they were
queued, until no task is ready.  It never waits: what tasks wait for is supplied between two runs.
A task that panics is dropped and reported; the other tasks keep running.
-/

set_option autoImplicit false

namespace WorkflowReplay.Schedule

variable {I : Interface}

abbrev Tasks (I : Interface) := List (TaskId × Code I)

/-- Takes a task out: those before it, its code, those after it. -/
def Tasks.split? (id : TaskId) : Tasks I → Option (Tasks I × Code I × Tasks I)
  | [] => none
  | (id', c) :: rest =>
    if id' = id then some ([], c, rest)
    else (split? id rest).map (fun r => ((id', c) :: r.1, r.2))

theorem Tasks.eq_of_split? {id : TaskId} {tasks : Tasks I} {r : Tasks I × Code I × Tasks I}
    (h : Tasks.split? id tasks = some r) : tasks = r.1 ++ (id, r.2.1) :: r.2.2 := by
  induction tasks generalizing r with
  | nil => simp [Tasks.split?] at h
  | cons t rest ih =>
    obtain ⟨id', c⟩ := t
    unfold Tasks.split? at h
    split at h
    · next he => cases h; simp [he]
    · obtain ⟨r', hr', rfl⟩ := Option.map_eq_some_iff.1 h
      simp [← ih hr']

def Tasks.backlog (tasks : Tasks I) : Backlog I := ⟨tasks.map (fun t => t.2.stage)⟩

structure TaskFailure where
  task : TaskId
  message : String
  deriving DecidableEq, Repr

structure RunReport where
  polls : Nat := 0
  completed : List TaskId := []
  failures : List TaskFailure := []
  deriving DecidableEq, Repr

def RunReport.hasFailures (r : RunReport) : Bool := !r.failures.isEmpty

/-! ## Taking turns -/

structure Rest (I : Interface) where
  report : RunReport
  tasks : Tasks I
  world : World I

/-- The tasks after a turn: a task that goes on keeps its place, and those that it started follow
it. -/
def Turn.replacing (t : Turn I) (id : TaskId) (before after : Tasks I) : Tasks I :=
  match t.verdict with
  | .pending c => before ++ ((id, c) :: t.spawned) ++ after
  | _ => before ++ t.spawned ++ after

def Turn.settled (t : Turn I) (id : TaskId) : World I :=
  match t.verdict with
  | .finished o => { t.world with board := t.world.board.finish id o }
  | _ => t.world

def Turn.addTo (t : Turn I) (id : TaskId) (r : RunReport) : RunReport :=
  match t.verdict with
  | .finished _ => { r with polls := r.polls + 1, completed := id :: r.completed }
  | .panicked message =>
    { r with polls := r.polls + 1, failures := ⟨id, message⟩ :: r.failures }
  | .pending _ => { r with polls := r.polls + 1 }

/-- The tasks come closer to their ends, or one task less is ready. -/
theorem Turn.decreases {t : Turn I} {start : Stage I} {ready : List TaskId}
    (h : Progressed start ready t) {id : TaskId} {c : Code I} (hc : c.stage = start)
    (before after : Tasks I) :
    Prod.Lex WellFoundedRelation.rel (· < ·)
      ((t.replacing id before after).backlog, (t.settled id).board.ready.length)
      ((before ++ (id, c) :: after : Tasks I).backlog, ready.length + 1) := by
  have nearer (new : Tasks I) (hn : ∀ s ∈ new, s.2.stage.Less start) :
      WellFoundedRelation.rel (Tasks.backlog (before ++ new ++ after))
        (Tasks.backlog (before ++ (id, c) :: after)) := by
    simp only [Tasks.backlog, WellFoundedRelation.rel, InvImage, List.map_append, List.map_cons]
    refine .intro _ _ _ _ fun x hx => ?_
    obtain ⟨s, hs, rfl⟩ := List.mem_map.1 hx
    exact hc ▸ hn s hs
  unfold Turn.replacing Turn.settled
  cases hv : t.verdict with
  | finished o => exact .left _ _ (nearer _ h.spawned)
  | panicked message => exact .left _ _ (nearer _ h.spawned)
  | pending c' =>
    rcases h.pending c' hv with hl | ⟨he, hs, hr⟩
    · refine .left _ _ (nearer _ fun s hm => ?_)
      rcases List.mem_cons.1 hm with rfl | hm
      · exact hl
      · exact h.spawned s hm
    · have : Tasks.backlog (before ++ ((id, c') :: t.spawned) ++ after) =
          Tasks.backlog (before ++ (id, c) :: after) := by
        simp [Tasks.backlog, hs, he, hc]
      simp only [this, hr]
      exact .right _ (Nat.lt_succ_self _)

set_option linter.unusedVariables false in
def takeTurns (m : Meaning I) (tasks : Tasks I) (world : World I) : Rest I :=
  match hr : world.board.ready with
  | [] => ⟨{}, tasks, world⟩
  | id :: ready =>
    let world : World I := { world with board := { world.board with ready } }
    match hs : Tasks.split? id tasks with
    | none => takeTurns m tasks world
    | some (before, code, after) =>
      let t := code.run m id world
      let rest := takeTurns m (t.replacing id before after) (t.settled id)
      { rest with report := t.addTo id rest.report }
termination_by (tasks.backlog, world.board.ready.length)
decreasing_by
  · rw [hr]
    exact .right _ (Nat.lt_succ_self _)
  · rw [hr, Tasks.eq_of_split? hs]
    exact Turn.decreases (code.run_progressed m id _) rfl before after

/-! ## The scheduler -/

structure Scheduler (I : Interface) where
  world : World I
  /-- The tasks that took part in a run and have not ended. -/
  tasks : Tasks I := []
  /-- The tasks that were started since the last run. -/
  spawned : Tasks I := []

namespace Scheduler

/-- Starts a task; its first turn is in the next run. -/
def spawn (s : Scheduler I) (code : Code I) : TaskId × Scheduler I :=
  let (id, board) := s.world.board.newTask
  (id, { s with world := { s.world with board }, spawned := s.spawned ++ [(id, code)] })

def inWorld {α : Type} (s : Scheduler I) (f : World I → α × World I) : α × Scheduler I :=
  let (a, world) := f s.world
  (a, { s with world })

def liveTasks (s : Scheduler I) : Nat := s.tasks.length + s.spawned.length

def isIdle (s : Scheduler I) : Bool := s.world.board.isIdle

def run (m : Meaning I) (s : Scheduler I) : RunReport × Scheduler I :=
  let rest := takeTurns m (s.tasks ++ s.spawned) s.world
  (rest.report, { world := rest.world, tasks := rest.tasks })

def summary (s : Scheduler I) : String :=
  "DeterministicScheduler \x7b tasks: " ++ toString s.tasks.length ++ " \x7d"

end Scheduler

end WorkflowReplay.Schedule
