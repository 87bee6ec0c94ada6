import WorkflowReplay.Proofs.Schedule.Wakeups

/-!
# Queued or parked

A scheduler is reached by starting tasks, by touching its board from outside, and by runs in which
every task waits only after it polled something that it keeps and that is not there yet.  In such a
scheduler every task is queued or parked: one turn keeps it so, and so do a run and all the rest.
-/

set_option autoImplicit false

namespace WorkflowReplay.Schedule

variable {I : Interface} {m : Meaning I}

/-! ## The tasks after a turn -/

def Turn.going (t : Turn I) (id : TaskId) : Tasks I :=
  match t.verdict with
  | .pending c => [(id, c)]
  | _ => []

def Turn.settling (t : Turn I) (id : TaskId) : List (Touch I.Value I.Output) :=
  match t.verdict with
  | .finished o => [.finish id o]
  | _ => []

theorem Turn.settled_board (t : Turn I) (id : TaskId) :
    (t.settled id).board = (t.settling id).foldl Board.touch t.world.board := by
  unfold Turn.settled Turn.settling
  cases t.verdict <;> rfl

theorem Turn.addTo_completed (t : Turn I) (id : TaskId) (r : RunReport) :
    (t.addTo id r).completed = (t.settling id).filterMap Touch.ended? ++ r.completed := by
  unfold Turn.addTo Turn.settling
  cases t.verdict <;> rfl

theorem Turn.settling_spares (t : Turn I) (id : TaskId) :
    ∀ touch ∈ t.settling id, touch ≠ .next ∧ touch ≠ .newTask ∧ touch.taken? = none := by
  unfold Turn.settling
  cases t.verdict <;> simp [Touch.taken?]

theorem Turn.replacing_perm (t : Turn I) (id : TaskId) (before after : Tasks I) :
    (t.replacing id before after).Perm (t.going id ++ t.spawned ++ (before ++ after)) := by
  have swap (new : Tasks I) : (before ++ new ++ after).Perm (new ++ (before ++ after)) := by
    rw [← List.append_assoc]
    exact List.perm_append_comm.append_right after
  unfold Turn.replacing Turn.going
  cases t.verdict with
  | finished o => exact swap t.spawned
  | panicked message => exact swap t.spawned
  | pending c => exact swap ((id, c) :: t.spawned)

def Tasks.numbers (tasks : Tasks I) : List Nat := tasks.map (fun t => t.1.number)

theorem Tasks.mem_numbers {tasks : Tasks I} {t : TaskId × Code I} (member : t ∈ tasks) :
    t.1.number ∈ tasks.numbers := List.mem_map.mpr ⟨t, member, rfl⟩

theorem Tasks.ne_of_split? {id : TaskId} {tasks : Tasks I} (gone : Tasks.split? id tasks = none) :
    ∀ t ∈ tasks, t.1 ≠ id := by
  induction tasks with
  | nil => simp
  | cons first rest ih =>
    unfold Tasks.split? at gone
    split at gone
    · simp at gone
    · next other =>
      intro t member
      rcases List.mem_cons.mp member with rfl | later
      · exact other
      · exact ih (Option.map_eq_none_iff.mp gone) t later

theorem Board.Attends.dequeued {w : World I} {id me : TaskId} {ready : List TaskId}
    {keys : List Awaited} (attends : w.board.Attends me keys)
    (head : w.board.ready = id :: ready) (apart : me ≠ id) :
    (w.dequeued ready).board.Attends me keys := by
  rcases attends with queued | parked
  · rw [head] at queued
    exact .inl ((List.mem_cons.mp queued).resolve_left apart)
  · exact .inr parked

structure Awake (T : m.Tracing) (tasks : Tasks I) (b : Board I.Value I.Output) : Prop where
  fresh : b.Fresh
  nodup : tasks.numbers.Nodup
  numbered : ∀ n ∈ tasks.numbers, n < b.nextTask
  attended : ∀ t ∈ tasks, b.Attends t.1 (T.keptBy t.2)

/-- What a task keeps while it waits is its own: no other task polls or drops it. -/
def Code.Exclusive (T : m.Tracing) (me : TaskId) (c : Code I) (w : World I) (others : Tasks I) :
    Prop :=
  ∀ t ∈ c.touches T me w, ∀ key, t.taken? = some key → ∀ other ∈ others, key ∉ T.keptBy other.2

instance (T : m.Tracing) (me : TaskId) (c : Code I) (w : World I) (others : Tasks I) :
    Decidable (c.Exclusive T me w others) :=
  decidable_of_iff
    (∀ t ∈ c.touches T me w, ∀ other ∈ others, ∀ key ∈ T.keptBy other.2, t.taken? ≠ some key)
    ⟨fun apart t touches key taken other member keeps =>
        apart t touches other member key keeps taken,
      fun exclusive t touches other member key keeps taken =>
        exclusive t touches key taken other member keeps⟩

namespace Awake

variable {T : m.Tracing} {tasks : Tasks I}

theorem of_perm {b : Board I.Value I.Output} {tasks' : Tasks I} (perm : tasks'.Perm tasks)
    (awake : Awake T tasks b) : Awake T tasks' b where
  fresh := awake.fresh
  nodup := (perm.map _).nodup_iff.mpr awake.nodup
  numbered n member := awake.numbered n ((perm.map _).mem_iff.mp member)
  attended t member := awake.attended t (perm.mem_iff.mp member)

theorem touch {b : Board I.Value I.Output} (awake : Awake T tasks b)
    {t : Touch I.Value I.Output} (own : t.IsOwn)
    (unkept : ∀ key, t.taken? = some key → ∀ task ∈ tasks, key ∉ T.keptBy task.2) :
    Awake T tasks (b.touch t) where
  fresh := awake.fresh.touch t
  nodup := awake.nodup
  numbered n member := by
    have := awake.numbered n member
    rw [Board.touch_nextTask]
    cases t with
    | newTask => exact own.elim
    | _ => exact this
  attended task member := by
    refine (awake.attended task member).touch awake.fresh own.ne_next_and_ne_newTask.1 ?_
    intro key keeps taken
    exact unkept key taken task member keeps

theorem spawn {b : Board I.Value I.Output} (awake : Awake T tasks b) (code : Code I) :
    Awake T (tasks ++ [(b.newTask.1, code)]) b.newTask.2 := by
  have number : b.newTask.2.nextTask = b.nextTask + 1 := Board.touch_nextTask b .newTask
  have numbers : Tasks.numbers (tasks ++ [(b.newTask.1, code)]) =
      tasks.numbers ++ [b.nextTask] := by
    rw [Tasks.numbers, List.map_append]
    rfl
  refine ⟨awake.fresh.touch .newTask, ?_, ?_, ?_⟩
  · rw [numbers, List.nodup_append]
    refine ⟨awake.nodup, by simp, ?_⟩
    intro n old n' last same
    have := awake.numbered n old
    have := List.mem_singleton.mp last
    omega
  · intro n member
    rw [numbers] at member
    rw [number]
    rcases List.mem_append.mp member with old | last
    · have := awake.numbered n old
      omega
    · have := List.mem_singleton.mp last
      omega
  · intro t member
    rcases List.mem_append.mp member with old | last
    · exact (awake.attended t old).touch awake.fresh (t := .newTask) (by simp)
        (by simp [Touch.taken?])
    · obtain rfl := List.mem_singleton.mp last
      exact .inl ((Board.mem_wake _ _ _).mpr (.inl rfl))

theorem turn_numbers {w : World I} {id : TaskId} {code : Code I} {others : Tasks I}
    (awake : Awake T ((id, code) :: others) w.board) (ready : List TaskId) :
    let t := code.run m id (w.dequeued ready)
    (Tasks.numbers (t.going id ++ t.spawned ++ others)).Nodup ∧
      ∀ n ∈ Tasks.numbers (t.going id ++ t.spawned ++ others), n < t.world.board.nextTask := by
  intro t
  obtain ⟨young, number, -⟩ := Code.run_spawned T id code (w.dequeued ready)
  have first : (w.dequeued ready).board.nextTask = w.board.nextTask := rfl
  rw [first] at young number
  let new := List.range' w.board.nextTask t.spawned.length
  let old := Tasks.numbers ((id, code) :: others)
  have distinct : (old ++ new).Nodup := by
    refine List.nodup_append.mpr ⟨awake.nodup, List.nodup_range', ?_⟩
    intro n before n' after same
    have := awake.numbered n before
    have := (List.mem_range'_1.mp after).1
    omega
  have below : ∀ n ∈ old ++ new, n < t.world.board.nextTask := by
    intro n member
    rw [number]
    rcases List.mem_append.mp member with before | after
    · have := awake.numbered n before
      omega
    · exact (List.mem_range'_1.mp after).2
  -- The first of the queue keeps its number or is gone, and the others keep theirs.
  have kept : (Tasks.numbers (t.going id)).Sublist [id.number] := by
    unfold Turn.going
    cases t.verdict <;> simp [Tasks.numbers]
  have numbers : Tasks.numbers (t.going id ++ t.spawned ++ others) =
      Tasks.numbers (t.going id) ++ (new ++ Tasks.numbers others) := by
    simp only [Tasks.numbers, List.map_append, List.append_assoc]
    rw [young]
  have part : (Tasks.numbers (t.going id ++ t.spawned ++ others)).Sublist
      (id.number :: (new ++ Tasks.numbers others)) :=
    numbers ▸ kept.append_right (new ++ Tasks.numbers others)
  have same : (id.number :: (new ++ Tasks.numbers others)).Perm (old ++ new) :=
    List.perm_append_comm.cons id.number
  exact ⟨part.nodup (same.nodup_iff.mpr distinct),
    fun n member => below n (same.mem_iff.mp (part.subset member))⟩

/-- Who goes on after a turn, and whoever it starts, is queued or parked. -/
theorem turn_new {w : World I} {id : TaskId} {code : Code I} (fresh : w.board.Fresh)
    (patient : code.Patient T id w) {task : TaskId × Code I}
    (member : task ∈ (code.run m id w).going id ++ (code.run m id w).spawned) :
    (code.run m id w).world.board.Attends task.1 (T.keptBy task.2) := by
  rcases List.mem_append.mp member with own | spawned
  · unfold Turn.going at own
    cases goes : (code.run m id w).verdict with
    | pending left =>
      rw [goes] at own
      obtain rfl := List.mem_singleton.mp own
      exact Code.run_attends T id code w fresh patient goes
    | _ => simp [goes] at own
  · obtain ⟨-, -, queued⟩ := Code.run_spawned T id code w
    exact .inl (queued task spawned)

/-- The others were not the first of the queue, and nobody takes from them what they keep. -/
theorem turn_others {w : World I} {id : TaskId} {ready : List TaskId} {code : Code I}
    {others : Tasks I} (awake : Awake T ((id, code) :: others) w.board)
    (head : w.board.ready = id :: ready) (exclusive : code.Exclusive T id (w.dequeued ready) others)
    {task : TaskId × Code I} (member : task ∈ others) :
    (code.run m id (w.dequeued ready)).world.board.Attends task.1 (T.keptBy task.2) := by
  have apart : task.1 ≠ id := by
    intro same
    have distinct := awake.nodup
    rw [Tasks.numbers, List.map_cons, List.nodup_cons] at distinct
    have listed := Tasks.mem_numbers member
    rw [same] at listed
    exact distinct.1 listed
  have before : (w.dequeued ready).board.Attends task.1 (T.keptBy task.2) :=
    (awake.attended task (List.mem_cons_of_mem _ member)).dequeued head apart
  have start : (w.dequeued ready).board.Fresh := awake.fresh
  rw [Code.run_board T]
  exact before.touches start (Code.touches_ne_next T id code _)
    fun touch touches key keeps taken => exclusive touch touches key taken task member keeps

theorem turn {w : World I} {id : TaskId} {ready : List TaskId} {code : Code I} {others : Tasks I}
    (awake : Awake T ((id, code) :: others) w.board) (head : w.board.ready = id :: ready)
    (patient : code.Patient T id (w.dequeued ready))
    (exclusive : code.Exclusive T id (w.dequeued ready) others) :
    let t := code.run m id (w.dequeued ready)
    Awake T (t.going id ++ t.spawned ++ others) (t.settled id).board := by
  intro t
  obtain ⟨nodup, numbered⟩ := awake.turn_numbers ready
  have start : (w.dequeued ready).board.Fresh := awake.fresh
  have fresh : t.world.board.Fresh := by
    rw [Code.run_board T]
    exact start.touches _
  have attended : ∀ task ∈ t.going id ++ t.spawned ++ others,
      t.world.board.Attends task.1 (T.keptBy task.2) := by
    intro task member
    rcases List.mem_append.mp member with new | old
    · exact turn_new start patient new
    · exact awake.turn_others head exclusive old
  refine ⟨?_, nodup, ?_, ?_⟩
  · rw [t.settled_board id]
    exact fresh.touches _
  · rw [t.settled_board id,
      Board.touches_nextTask fun touch member => (t.settling_spares id touch member).2.1]
    exact numbered
  · intro task member
    rw [t.settled_board id]
    refine (attended task member).touches fresh
      (fun touch settles => (t.settling_spares id touch settles).1) ?_
    intro touch settles key _ taken
    simp [(t.settling_spares id touch settles).2.2] at taken

end Awake

/-! ## Runs -/

/-- A run in which every task waits only after it polled something that it keeps and that is not
there, and what the others keep is left to them; and the touches of the run. -/
inductive Meaning.Tracing.Runs (T : m.Tracing) :
    Tasks I → World I → List (Touch I.Value I.Output) → Prop where
  | idle {tasks : Tasks I} {w : World I} (idle : w.board.ready = []) : T.Runs tasks w []
  | gone {tasks : Tasks I} {w : World I} {id : TaskId} {ready : List TaskId}
    {log : List (Touch I.Value I.Output)} (head : w.board.ready = id :: ready)
    (gone : Tasks.split? id tasks = none) (rest : T.Runs tasks (w.dequeued ready) log) :
    T.Runs tasks w (.next :: log)
  | turn {tasks : Tasks I} {w : World I} {id : TaskId} {ready : List TaskId} {code : Code I}
    {before after : Tasks I} {log : List (Touch I.Value I.Output)}
    (head : w.board.ready = id :: ready)
    (found : Tasks.split? id tasks = some (before, code, after))
    (patient : code.Patient T id (w.dequeued ready))
    (exclusive : code.Exclusive T id (w.dequeued ready) (before ++ after))
    (rest : T.Runs ((code.run m id (w.dequeued ready)).replacing id before after)
      ((code.run m id (w.dequeued ready)).settled id) log) :
    T.Runs tasks w (.next :: (code.touches T id (w.dequeued ready) ++
      ((code.run m id (w.dequeued ready)).settling id ++ log)))

namespace Meaning.Tracing.Runs

variable {T : m.Tracing} {tasks : Tasks I} {w : World I} {log : List (Touch I.Value I.Output)}

theorem touch_next_eq_dequeued {id : TaskId} {ready : List TaskId}
    (head : w.board.ready = id :: ready) :
    w.board.touch .next = (w.dequeued ready).board := by
  simp [Board.touch, World.dequeued, head]

theorem board_eq_foldl (runs : T.Runs tasks w log) :
    (takeTurns m tasks w).world.board = log.foldl Board.touch w.board := by
  induction runs with
  | idle idle => rw [takeTurns_idle m _ _ idle]; rfl
  | gone head gone _ ih =>
    rw [takeTurns_gone m _ _ head gone, ih, List.foldl_cons, touch_next_eq_dequeued head]
  | turn head found _ _ _ ih =>
    rw [takeTurns_turn m _ _ head found, ih, List.foldl_cons, touch_next_eq_dequeued head,
      List.foldl_append,
      List.foldl_append, ← Code.run_board T, ← Turn.settled_board]

theorem awake (runs : T.Runs tasks w log) (awake : Awake T tasks w.board) :
    Awake T (takeTurns m tasks w).tasks (takeTurns m tasks w).world.board := by
  induction runs with
  | idle idle =>
    rw [takeTurns_idle m _ _ idle]
    exact awake
  | @gone tasks w id ready log head gone _ ih =>
    rw [takeTurns_gone m _ _ head gone]
    refine ih ⟨awake.fresh, awake.nodup, awake.numbered, ?_⟩
    intro task member
    exact (awake.attended task member).dequeued head (Tasks.ne_of_split? gone task member)
  | @turn tasks w id ready code before after log head found patient exclusive _ ih =>
    rw [takeTurns_turn m _ _ head found]
    refine ih ?_
    have split : tasks.Perm ((id, code) :: (before ++ after)) := by
      rw [Tasks.eq_of_split? found]
      exact List.perm_middle
    exact ((awake.of_perm split.symm).turn head patient exclusive).of_perm
      (Turn.replacing_perm _ _ _ _)

/-- A run reports the tasks that it ended, in the order in which it ended them. -/
theorem completed_eq_ended (runs : T.Runs tasks w log) :
    (takeTurns m tasks w).report.completed = log.filterMap Touch.ended? := by
  induction runs with
  | idle idle => rw [takeTurns_idle m _ _ idle]; rfl
  | gone head gone _ ih =>
    rw [takeTurns_gone m _ _ head gone, ih]
    rfl
  | @turn tasks w id ready code before after log head found _ _ _ ih =>
    have own : (code.touches T id (w.dequeued ready)).filterMap Touch.ended? = [] :=
      List.filterMap_eq_nil_iff.mpr (Code.touches_ended T id code _)
    rw [takeTurns_turn m _ _ head found, Turn.addTo_completed, ih,
      List.filterMap_cons_none rfl, List.filterMap_append, List.filterMap_append, own]
    rfl

theorem exists_turn {id : TaskId} {ready : List TaskId} {code : Code I} {before after : Tasks I}
    (head : w.board.ready = id :: ready)
    (found : Tasks.split? id tasks = some (before, code, after))
    (patient : code.Patient T id (w.dequeued ready))
    (exclusive : code.Exclusive T id (w.dequeued ready) (before ++ after))
    (rest : ∃ log, T.Runs ((code.run m id (w.dequeued ready)).replacing id before after)
      ((code.run m id (w.dequeued ready)).settled id) log) :
    ∃ log, T.Runs tasks w log := by
  obtain ⟨log, rest⟩ := rest
  exact ⟨_, .turn head found patient exclusive rest⟩

end Meaning.Tracing.Runs

/-! ## Schedulers -/

/-- The schedulers that are reached by starting tasks, by touching the board from outside and by
runs, with all the touches on the way.  What a waiting task keeps is out of reach from outside. -/
inductive Meaning.Tracing.Reached (T : m.Tracing) :
    List (Touch I.Value I.Output) → Scheduler I → Prop where
  | start (shared : I.Shared) : T.Reached [] { world := { shared } }
  | spawn {log : List (Touch I.Value I.Output)} {s : Scheduler I} (reached : T.Reached log s)
    (code : Code I) : T.Reached (log ++ [.newTask]) (s.spawn code).2
  | touch {log : List (Touch I.Value I.Output)} {s : Scheduler I} (reached : T.Reached log s)
    {t : Touch I.Value I.Output} (own : t.IsOwn)
    (unkept : ∀ key, t.taken? = some key → ∀ task ∈ s.tasks ++ s.spawned, key ∉ T.keptBy task.2) :
    T.Reached (log ++ [t]) { s with world := { s.world with board := s.world.board.touch t } }
  | share {log : List (Touch I.Value I.Output)} {s : Scheduler I} (reached : T.Reached log s)
    (shared : I.Shared) : T.Reached log { s with world := { s.world with shared } }
  | run {log later : List (Touch I.Value I.Output)} {s : Scheduler I} (reached : T.Reached log s)
    (runs : T.Runs (s.tasks ++ s.spawned) s.world later) : T.Reached (log ++ later) (s.run m).2

namespace Meaning.Tracing.Reached

variable {T : m.Tracing} {log : List (Touch I.Value I.Output)} {s : Scheduler I}

theorem board_eq_after (reached : T.Reached log s) : s.world.board = Board.after log := by
  induction reached with
  | start => rfl
  | spawn _ code ih => rw [Board.after_concat, ← ih]; rfl
  | touch _ _ _ ih => rw [Board.after_concat, ← ih]
  | share _ _ ih => exact ih
  | run _ runs ih =>
    rw [Board.after_append, ← ih]
    exact runs.board_eq_foldl

theorem awake (reached : T.Reached log s) : Awake T (s.tasks ++ s.spawned) s.world.board := by
  induction reached with
  | start => exact ⟨Board.fresh_empty, .nil, by simp [Tasks.numbers], by simp⟩
  | spawn _ code ih =>
    change Awake T (_ ++ (_ ++ [_])) _
    rw [← List.append_assoc]
    exact ih.spawn code
  | touch _ own unkept ih => exact ih.touch own unkept
  | share _ _ ih => exact ih
  | run _ runs ih =>
    change Awake T (_ ++ []) _
    rw [List.append_nil]
    exact runs.awake ih

end Meaning.Tracing.Reached

end WorkflowReplay.Schedule
