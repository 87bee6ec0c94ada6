import WorkflowReplay.Proofs.Schedule.QueueLog

/-!
# The life of a scheduler

Whatever is done with a scheduler is a list of deeds: tasks are started, its board is touched from
outside, and it is run.  All the deeds write one log, and it is proper.  So tasks are polled in the
order in which they were first queued since their last polls, and a task that has ended is reported
once and never polled again.
-/

set_option autoImplicit false

namespace WorkflowReplay.Schedule

variable {I : Interface} {m : Meaning I}

/-! ## Proper logs serve in order -/

structure ServesInOrder (log : List Mark) : Prop where
  /-- At no time does a task stand in the queue twice, and the set is always its content. -/
  sound : ∀ past, past <+: log → (MarkedQueue.after past).Sound
  /-- Who is polled has not ended and was queued since its last poll, and nobody who has not ended
  waits since an earlier time. -/
  polled : ∀ past id ends later, log = past ++ .polled id ends :: later →
    ¬ Ended past id ∧ ∃ k, WaitsSince past id k ∧
      ∀ other l, WaitsSince past other l → ¬ Ended past other → k ≤ l
  passed : ∀ past id later, log = past ++ .passed id :: later → Ended past id

theorem Proper.servesInOrder {log : List Mark} (proper : Proper log) : ServesInOrder log where
  sound past _ := MarkedQueue.after_sound past
  polled := by
    rintro past id ends later rfl
    exact ⟨(proper past (.polled id ends) later rfl).2, proper.first_served⟩
  passed := by
    rintro past id later rfl
    exact (proper past (.passed id) later rfl).2

def Mark.poll? : Mark → Option (TaskId × Bool)
  | .polled id ends => some (id, ends)
  | _ => none

theorem Mark.poll?_eq_some {mark : Mark} {poll : TaskId × Bool} :
    mark.poll? = some poll ↔ mark = .polled poll.1 poll.2 := by
  cases mark <;> simp [Mark.poll?, Prod.ext_iff]

theorem Proper.polled_once_ended {log : List Mark} (proper : Proper log) :
    (log.filterMap Mark.poll?).Pairwise fun a b => a.2 = true → b.1 ≠ a.1 := by
  induction log using List.reverseRecOn with
  | nil => exact .nil
  | append_singleton log mark ih =>
    obtain ⟨proper, fits⟩ := proper_concat.mp proper
    rw [List.filterMap_append]
    refine List.pairwise_append.mpr ⟨ih proper, ?_, ?_⟩
    · unfold List.filterMap
      cases mark.poll? <;> simp
    · intro first before last now ended same
      obtain ⟨mark', old, polled⟩ := List.mem_filterMap.mp before
      obtain ⟨mark'', new, polled'⟩ := List.mem_filterMap.mp now
      rw [Mark.poll?_eq_some] at polled polled'
      rw [List.mem_singleton.mp new] at polled'
      rw [polled'] at fits
      rw [polled, ended, ← same] at old
      exact fits.2 old

theorem marksOf_polls (b : Board I.Value I.Output) (ts : List (Touch I.Value I.Output)) :
    (b.marksOf ts).filterMap Mark.poll? = [] := by
  induction ts generalizing b with
  | nil => rfl
  | cons t rest ih =>
    rw [Board.marksOf, List.filterMap_append, ih, List.append_nil, Board.marks]
    cases b.queues? t <;> simp [Mark.poll?]

theorem runMarks_polls (T : m.Tracing) (tasks : Tasks I) (w : World I) :
    (runMarks T tasks w).filterMap Mark.poll? =
      (polls m tasks w).map fun p => (p.task, p.ends m) := by
  unfold runMarks polls
  induction takings m tasks w with
  | nil => rfl
  | cons taking rest ih =>
    rw [List.flatMap_cons, List.filterMap_append, ih]
    cases taking with
    | polled p =>
      have now : ((Taking.polled p).marks T).filterMap Mark.poll? = [(p.task, p.ends m)] := by
        have first : (Mark.polled p.task (p.ends m)).poll? = some (p.task, p.ends m) := rfl
        rw [Taking.marks, List.filterMap_cons_some first, marksOf_polls]
      rw [now]
      rfl
    | passed task world => rfl

/-! ## Deeds -/

inductive Deed (I : Interface) where
  | spawn (code : Code I)
  | touch (t : Touch I.Value I.Output)
  /-- Changes what the tasks share besides the board. -/
  | share (shared : I.Shared)
  | run

namespace Scheduler

def start (shared : I.Shared) : Scheduler I := { world := { shared } }

def does (m : Meaning I) (s : Scheduler I) : Deed I → Scheduler I
  | .spawn code => (s.spawn code).2
  | .touch t => { s with world := { s.world with board := s.world.board.touch t } }
  | .share shared => { s with world := { s.world with shared } }
  | .run => (s.run m).2

def doesAll (m : Meaning I) (s : Scheduler I) (deeds : List (Deed I)) : Scheduler I :=
  deeds.foldl (does m) s

/-- Nobody names tasks, takes them from the queue or ends them from outside; and wakers are those of
tasks that were started. -/
def Allows (s : Scheduler I) : Deed I → Prop
  | .touch t => t.IsOwn ∧ ∀ id, t.waker? = some id → s.world.board.Knows id
  | _ => True

def AllowsAll (m : Meaning I) : Scheduler I → List (Deed I) → Prop
  | _, [] => True
  | s, deed :: rest => s.Allows deed ∧ (s.does m deed).AllowsAll m rest

/-- The scheduler at the beginnings of its runs. -/
def runs (m : Meaning I) : Scheduler I → List (Deed I) → List (Scheduler I)
  | _, [] => []
  | s, .run :: rest => s :: (s.does m .run).runs m rest
  | s, deed :: rest => (s.does m deed).runs m rest

def takings (m : Meaning I) (s : Scheduler I) : List (Taking I) :=
  Schedule.takings m (s.tasks ++ s.spawned) s.world

def polls (m : Meaning I) (s : Scheduler I) : List (Poll I) :=
  Schedule.polls m (s.tasks ++ s.spawned) s.world

def reports (m : Meaning I) (s : Scheduler I) (deeds : List (Deed I)) : List RunReport :=
  (s.runs m deeds).map fun s => (s.run m).1

def taskIds (s : Scheduler I) : List TaskId := (s.tasks ++ s.spawned).map Prod.fst

def marks (T : m.Tracing) (s : Scheduler I) : Deed I → List Mark
  | .spawn _ => s.world.board.marks .newTask
  | .touch t => s.world.board.marks t
  | .share _ => []
  | .run => runMarks T (s.tasks ++ s.spawned) s.world

def log (T : m.Tracing) : Scheduler I → List (Deed I) → List Mark
  | _, [] => []
  | s, deed :: rest => s.marks T deed ++ (s.does m deed).log T rest

theorem AllowsAll.of_append {s : Scheduler I} {deeds later : List (Deed I)}
    (allowed : s.AllowsAll m (deeds ++ later)) : s.AllowsAll m deeds := by
  induction deeds generalizing s with
  | nil => trivial
  | cons deed rest ih => exact ⟨allowed.1, ih allowed.2⟩

theorem run_report (s : Scheduler I) : (s.run m).1 = reportOf m (s.polls m) :=
  takeTurns_report m _ _

variable {T : m.Tracing} {past : List Mark}

theorem does_logged (wakes : T.WakesTasks) {s : Scheduler I} {deed : Deed I}
    (allowed : s.Allows deed) (logged : Logged past s.taskIds s.world.board) :
    Logged (past ++ s.marks T deed) (s.does m deed).taskIds (s.does m deed).world.board := by
  cases deed with
  | spawn code =>
    have ids : (s.does m (.spawn code)).taskIds = s.taskIds ++ [s.world.board.newTask.1] := by
      simp [taskIds, does, spawn]
    rw [ids]
    exact logged.after_newTask
  | touch t =>
    obtain ⟨own, wakes⟩ := allowed
    have other := own.ne_next_and_ne_newTask
    exact logged.after_touch other.1 other.2 wakes
  | share shared =>
    rw [marks, List.append_nil]
    exact logged
  | run =>
    have ids : (s.does m .run).taskIds =
        (takeTurns m (s.tasks ++ s.spawned) s.world).tasks.map Prod.fst := by
      simp [taskIds, does, run]
    rw [ids]
    exact takeTurns_logged wakes (s.tasks ++ s.spawned) s.world logged

theorem doesAll_logged (wakes : T.WakesTasks) {s : Scheduler I} {deeds : List (Deed I)}
    (allowed : s.AllowsAll m deeds) (logged : Logged past s.taskIds s.world.board) :
    Logged (past ++ s.log T deeds) (s.doesAll m deeds).taskIds
      (s.doesAll m deeds).world.board := by
  induction deeds generalizing s past with
  | nil => simpa [log, doesAll] using logged
  | cons deed rest ih =>
    rw [log, ← List.append_assoc]
    exact ih allowed.2 (does_logged wakes allowed.1 logged)

theorem log_polls (s : Scheduler I) (deeds : List (Deed I)) :
    (s.log T deeds).filterMap Mark.poll? =
      ((s.runs m deeds).flatMap (polls m)).map fun p => (p.task, p.ends m) := by
  induction deeds generalizing s with
  | nil => rfl
  | cons deed rest ih =>
    rw [log, List.filterMap_append, ih]
    have outside (t : Touch I.Value I.Output) :
        (s.world.board.marks t).filterMap Mark.poll? = [] := by
      simpa [Board.marksOf] using marksOf_polls s.world.board [t]
    cases deed with
    | spawn code => simp [marks, runs, outside]
    | touch t => simp [marks, runs, outside]
    | share shared => simp [marks, runs]
    | run =>
      rw [marks, runMarks_polls, runs, List.flatMap_cons, List.map_append]
      rfl

theorem start_logged (shared : I.Shared) :
    Logged [] (start shared).taskIds (start shared).world.board := .empty

end Scheduler

/-! ## First come, first served -/

section Lives

variable {T : m.Tracing} {s : Scheduler I} {deeds : List (Deed I)}

structure FirstComeFirstServed (T : m.Tracing) (s : Scheduler I) (deeds : List (Deed I)) :
    Prop where
  order : ServesInOrder (s.log T deeds)
  queue : (MarkedQueue.after (s.log T deeds)).queue = (s.doesAll m deeds).world.board.ready
  /-- Within a run too, whoever is taken leaves the queue of the log so far, which is the board's. -/
  taken : ∀ past later, deeds = past ++ .run :: later → ∀ before taking after,
    (s.doesAll m past).takings m = before ++ taking :: after →
      (MarkedQueue.after (s.log T past ++ before.flatMap (Taking.marks T))).queue =
        taking.task :: taking.world.board.ready
  polls : (s.log T deeds).filterMap Mark.poll? =
    ((s.runs m deeds).flatMap (Scheduler.polls m)).map fun p => (p.task, p.ends m)
  live : ∀ id, id ∈ (s.doesAll m deeds).taskIds ↔
    (s.doesAll m deeds).world.board.Knows id ∧ ¬ Ended (s.log T deeds) id
  /-- After a run nobody waits who has not ended. -/
  served : ∀ past, deeds = past ++ [.run] → ∀ id k, WaitsSince (s.log T deeds) id k →
    Ended (s.log T deeds) id

theorem Logged.firstComeFirstServed (wakes : T.WakesTasks) (allowed : s.AllowsAll m deeds)
    (start : Logged [] s.taskIds s.world.board) : FirstComeFirstServed T s deeds := by
  have logged {past : List (Deed I)} (allowed : s.AllowsAll m past) :
      Logged (s.log T past) (s.doesAll m past).taskIds (s.doesAll m past).world.board :=
    Scheduler.doesAll_logged wakes allowed start
  have now := logged allowed
  refine ⟨now.proper.servesInOrder, now.queue, ?_, s.log_polls deeds, now.live, ?_⟩
  · rintro past later rfl before taking after split
    exact takings_queue wakes _ _ (logged allowed.of_append) split
  · intro past last id k waits
    by_contra goesOn
    have queued := (now.proper.served.waits id goesOn).mpr ⟨k, waits⟩
    -- Whoever waits stands in the queue, but a run leaves none.
    have idle : (s.doesAll m deeds).world.board.ready = [] := by
      rw [last, Scheduler.doesAll, List.foldl_concat]
      exact takeTurns_ready m _ _
    rw [now.queue, idle] at queued
    simp at queued

/-- Who ends is not polled again, and reported once, by the run in which it ends. -/
structure EndsOnce (m : Meaning I) (s : Scheduler I) (deeds : List (Deed I)) : Prop where
  silent : ((s.runs m deeds).flatMap (Scheduler.polls m)).Pairwise
    fun p q => p.ends m = true → q.task ≠ p.task
  reports : s.reports m deeds = (s.runs m deeds).map fun s => reportOf m (s.polls m)
  listed : ∀ r ∈ s.runs m deeds,
    (r.run m).1.ended.Perm (((r.polls m).filter (Poll.ends m)).map Poll.task)
  once : ((s.reports m deeds).flatMap RunReport.ended).Nodup

theorem Scheduler.run_ended (s : Scheduler I) :
    (s.run m).1.ended.Perm (((s.polls m).filter (Poll.ends m)).map Poll.task) := by
  rw [run_report]
  exact reportOf_ended m _

theorem Proper.endsOnce (proper : Proper (s.log T deeds)) : EndsOnce m s deeds := by
  have silent := proper.polled_once_ended
  rw [Scheduler.log_polls, List.pairwise_map] at silent
  refine ⟨silent, List.map_congr_left fun s _ => s.run_report, fun r _ => r.run_ended, ?_⟩
  have ended : ((s.reports m deeds).flatMap RunReport.ended).Perm
      ((((s.runs m deeds).flatMap (Scheduler.polls m)).filter (Poll.ends m)).map Poll.task) := by
    unfold Scheduler.reports
    induction s.runs m deeds with
    | nil => exact .refl _
    | cons first rest ih =>
      rw [List.map_cons, List.flatMap_cons, List.flatMap_cons, List.filter_append, List.map_append]
      exact first.run_ended.append ih
  rw [ended.nodup_iff, List.nodup_iff_pairwise_ne, List.pairwise_map]
  refine (List.pairwise_filter.mpr (silent.imp ?_))
  intro p q apart ends _ same
  exact apart ends same.symm

end Lives

end WorkflowReplay.Schedule
