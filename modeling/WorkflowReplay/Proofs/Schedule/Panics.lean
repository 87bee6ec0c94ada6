import WorkflowReplay.Proofs.Schedule.Fairness
import WorkflowReplay.Proofs.Schedule.Quiescence

/-!
# Panics

What the panic of a task does to the others is compared with no panic at all: the task rests for
ever where it would have panicked.  To that end an interface gets a wait that nothing ends, and a
command by which a task learns whether it shall rest.  The two runs go in lockstep, but for polls of
the tasks that rest: the polls of the others are the same, in the same order and in the same worlds,
and so are their outputs and their failures.
-/

set_option autoImplicit false

namespace WorkflowReplay.Schedule

variable {I : Interface} {m : Meaning I}

/-! ## Tasks that rest -/

/-- The new command asks whether the task shall rest. -/
@[reducible] def Interface.RestingReply (I : Interface) : Option I.Command → Type
  | none => Bool
  | some c => I.Reply c

@[reducible] def Interface.resting (I : Interface) : Interface :=
  { I with Command := Option I.Command, Reply := I.RestingReply, Wait := Option I.Wait }

def World.toResting (w : World I) : World I.resting := ⟨w.board, w.shared⟩

def World.ofResting (w : World I.resting) : World I := ⟨w.board, w.shared⟩

/-- These tasks rest; and nothing ends the new wait. -/
def Meaning.resting (m : Meaning I) (rests : TaskId → Bool) : Meaning I.resting where
  perform me
    | none, w => (rests me, w)
    | some c, w =>
      let r := m.perform me c w.ofResting
      (r.1, r.2.toResting)
  look me
    | none, g => ((none, none), g)
    | some s, g =>
      let r := m.look me s g
      ((r.1.1, some r.1.2), r.2)

def Code.rest (message : String) : Code I.resting := .wait none fun _ _ => .panic message

def Code.resting : Code I → Code I.resting
  | .done o => .done o
  | .panic message => .call none fun shall : Bool => if shall then .rest message else .panic message
  | .call c next => .call (some c) fun r => (next r).resting
  | .spawn body next => .spawn body.resting fun id => (next id).resting
  | .wait s next => .wait (some s) fun
    | a, some left => (next a left).resting
    | _, none => .panic unknownPanic
  | .turn next => .turn next.resting

def Verdict.resting (shall : Bool) : Verdict I → Verdict I.resting
  | .finished o => .finished o
  | .panicked message => if shall then .pending (.rest message) else .panicked message
  | .pending c => .pending c.resting

def Tasks.resting (tasks : Tasks I) : Tasks I.resting := tasks.map fun t => (t.1, t.2.resting)

def Turn.resting (shall : Bool) (t : Turn I) : Turn I.resting :=
  ⟨t.verdict.resting shall, Tasks.resting t.spawned, t.world.toResting⟩

def Poll.resting (p : Poll I) : Poll I.resting := ⟨p.task, p.code.resting, p.world.toResting⟩

variable {rests : TaskId → Bool}

theorem Code.run_rest_pending (me : TaskId) (message : String) (w : World I.resting) :
    (Code.rest message).run (m.resting rests) me w = ⟨.pending (.rest message), [], w⟩ := by
  have nothing : ((m.resting rests).look me none (w.board.waiting, w.shared)).1 = (none, none) :=
    rfl
  rw [Code.rest, Code.run_wait_none nothing]
  rfl

/-- A task does the same until it rests. -/
theorem Code.run_resting (me : TaskId) (c : Code I) (w : World I) :
    c.resting.run (m.resting rests) me w.toResting = (c.run m me w).resting (rests me) := by
  induction c generalizing w with
  | done o => rfl
  | panic message =>
    have asks : (Code.panic message : Code I).resting.run (m.resting rests) me w.toResting =
        (if rests me then Code.rest message else .panic message : Code I.resting).run
          (m.resting rests) me w.toResting := rfl
    rw [asks]
    simp only [Code.run, Turn.resting, Verdict.resting]
    cases rests me with
    | true => exact Code.run_rest_pending me message _
    | false => rfl
  | call c next ih => exact ih (m.perform me c w).1 (m.perform me c w).2
  | spawn body next _ ih =>
    have rest := ih w.board.newTask.1 { w with board := w.board.newTask.2 }
    have spawns (w : World I.resting) : (Code.spawn body next).resting.run (m.resting rests) me w =
        let t := (next w.board.newTask.1).resting.run (m.resting rests) me
          { w with board := w.board.newTask.2 }
        { t with spawned := (w.board.newTask.1, body.resting) :: t.spawned } := rfl
    rw [spawns]
    exact congrArg (fun t : Turn I.resting =>
      { t with spawned := (w.board.newTask.1, body.resting) :: t.spawned }) rest
  | wait s next ih =>
    cases looked : (m.look me s (w.board.waiting, w.shared)).1 with
    | mk answer left =>
      have looked' : ((m.resting rests).look me (some s)
          (w.toResting.board.waiting, w.toResting.shared)).1 = (answer, some left) :=
        congrArg (fun r : Option I.Answer × I.Wait => (r.1, some r.2)) looked
      rw [Code.resting]
      cases answer with
      | some a =>
        rw [Code.run_wait_some looked, Code.run_wait_some looked']
        exact ih a left (w.looked m me s)
      | none =>
        rw [Code.run_wait_none looked, Code.run_wait_none looked', Turn.resting, Verdict.resting,
          Code.resting]
        rfl
  | turn next _ => rfl

/-! ## Tasks beside tasks that rest -/

/-- The same tasks, and among them tasks that rest and would be gone. -/
inductive Tasks.Beside (gone : TaskId → Prop) : Tasks I → Tasks I.resting → Prop
  | nil : Beside gone [] []
  | task {t : TaskId × Code I} {tasks : Tasks I} {tasks' : Tasks I.resting} (here : ¬ gone t.1)
    (others : Beside gone tasks tasks') : Beside gone (t :: tasks) ((t.1, t.2.resting) :: tasks')
  | rests {id : TaskId} {message : String} {tasks : Tasks I} {tasks' : Tasks I.resting}
    (left : gone id) (others : Beside gone tasks tasks') :
    Beside gone tasks ((id, .rest message) :: tasks')

namespace Tasks.Beside

variable {gone : TaskId → Prop} {tasks : Tasks I} {tasks' : Tasks I.resting}

theorem not_gone (beside : Beside gone tasks tasks') : ∀ t ∈ tasks, ¬ gone t.1 := by
  induction beside with
  | nil => simp
  | task here _ ih =>
    intro t member
    rcases List.mem_cons.mp member with rfl | later
    · exact here
    · exact ih t later
  | rests _ _ ih => exact ih

theorem append {more : Tasks I} {more' : Tasks I.resting} (beside : Beside gone tasks tasks')
    (beside' : Beside gone more more') : Beside gone (tasks ++ more) (tasks' ++ more') := by
  induction beside with
  | nil => exact beside'
  | task here _ ih => exact .task here ih
  | rests left _ ih => exact .rests left ih

theorem of_not_gone (here : ∀ t ∈ tasks, ¬ gone t.1) : Beside gone tasks tasks.resting := by
  induction tasks with
  | nil => exact .nil
  | cons t rest ih =>
    exact .task (here t (by simp)) (ih fun t member => here t (List.mem_cons_of_mem _ member))

theorem mono {gone' : TaskId → Prop} (beside : Beside gone tasks tasks')
    (more : ∀ id, gone id → gone' id) (here : ∀ t ∈ tasks, ¬ gone' t.1) :
    Beside gone' tasks tasks' := by
  induction beside with
  | nil => exact .nil
  | task _ _ ih =>
    exact .task (here _ (by simp)) (ih fun t member => here t (List.mem_cons_of_mem _ member))
  | rests left _ ih => exact .rests (more _ left) (ih here)

theorem split?_of_found (beside : Beside gone tasks tasks') {id : TaskId} {before after : Tasks I}
    {code : Code I} (found : split? id tasks = some (before, code, after)) :
    ∃ before' after', split? id tasks' = some (before', code.resting, after') ∧
      Beside gone before before' ∧ Beside gone after after' := by
  induction beside generalizing before with
  | nil => simp [split?] at found
  | @task t tasks tasks' here others ih =>
    by_cases same : t.1 = id
    · simp only [split?, if_pos same, Option.some.injEq, Prod.mk.injEq] at found
      obtain ⟨rfl, rfl, rfl⟩ := found
      exact ⟨[], tasks', by simp [split?, same], .nil, others⟩
    · simp only [split?, if_neg same, Option.map_eq_some_iff] at found
      obtain ⟨⟨inner, code', after'⟩, found, rest⟩ := found
      cases rest
      obtain ⟨before', after', found', left, right⟩ := ih found
      exact ⟨(t.1, t.2.resting) :: before', after', by simp [split?, same, found'],
        .task here left, right⟩
  | @rests other message tasks tasks' left others ih =>
    have apart : other ≠ id := by
      rintro rfl
      have member : (other, code) ∈ tasks := by
        rw [Tasks.eq_of_split? found]
        simp
      exact others.not_gone _ member left
    obtain ⟨before', after', found', first, last⟩ := ih found
    exact ⟨(other, .rest message) :: before', after', by simp [split?, apart, found'],
      .rests left first, last⟩

theorem split?_of_absent (beside : Beside gone tasks tasks') {id : TaskId}
    (absent : split? id tasks = none) :
    split? id tasks' = none ∨ gone id ∧
      ∃ before' message after', split? id tasks' = some (before', .rest message, after') := by
  induction beside with
  | nil => exact .inl rfl
  | @task t tasks tasks' here others ih =>
    have apart : t.1 ≠ id := Tasks.ne_of_split? absent t (by simp)
    simp only [split?, if_neg apart, Option.map_eq_none_iff] at absent ⊢
    rcases ih absent with absent' | ⟨left, before', message, after', found'⟩
    · exact .inl absent'
    · exact .inr ⟨left, (t.1, t.2.resting) :: before', message, after', by simp [found']⟩
  | @rests other message tasks tasks' left others ih =>
    by_cases same : other = id
    · exact .inr ⟨same ▸ left, [], message, tasks', by simp [split?, same]⟩
    · simp only [split?, if_neg same, Option.map_eq_none_iff]
      rcases ih absent with absent' | ⟨left', before', message', after', found'⟩
      · exact .inl absent'
      · exact .inr ⟨left', (other, .rest message) :: before', message', after',
          by simp [found']⟩

end Tasks.Beside

/-! ## A turn -/

theorem Turn.mem_replacing_of_other (t : Turn I) {id : TaskId} {before after : Tasks I}
    {task : TaskId × Code I} (other : task ∈ before ∨ task ∈ after) :
    task ∈ t.replacing id before after := by
  unfold Turn.replacing
  rcases other with first | last
  · split <;> simp [first]
  · split <;> simp [last]

theorem Turn.mem_replacing_of_spawned (t : Turn I) {id : TaskId} {before after : Tasks I}
    {task : TaskId × Code I} (new : task ∈ t.spawned) : task ∈ t.replacing id before after := by
  unfold Turn.replacing
  split <;> simp [new]

structure RunReport.Without (rests : TaskId → Bool) (r r' : RunReport) : Prop where
  completed : r'.completed = r.completed
  failures : r'.failures = r.failures.filter fun f => !rests f.task

theorem Turn.settled_resting (t : Turn I) (id : TaskId) (shall : Bool) :
    (t.resting shall).settled id = (t.settled id).toResting := by
  unfold Turn.settled Turn.resting
  cases t.verdict with
  | finished o => rfl
  | panicked message => cases shall <;> rfl
  | pending c => rfl

theorem Turn.addTo_resting (t : Turn I) (id : TaskId) {r r' : RunReport}
    (later : r.Without rests r') :
    (t.addTo id r).Without rests ((t.resting (rests id)).addTo id r') := by
  obtain ⟨completed, failures⟩ := later
  unfold Turn.addTo Turn.resting
  cases t.verdict with
  | finished o => exact ⟨congrArg (id :: ·) completed, failures⟩
  | panicked message =>
    cases shall : rests id with
    | true => exact ⟨completed, by simp [Verdict.resting, shall, failures]⟩
    | false => exact ⟨completed, by simp [Verdict.resting, shall, failures]⟩
  | pending c => exact ⟨completed, failures⟩

theorem Turn.replacing_resting (t : Turn I) {gone gone' : TaskId → Prop} {id : TaskId}
    {before after : Tasks I} {before' after' : Tasks I.resting} {shall : Bool}
    (first : Tasks.Beside gone before before') (last : Tasks.Beside gone after after')
    (more : ∀ id, gone id → gone' id) (here : ∀ task ∈ t.replacing id before after, ¬ gone' task.1)
    (left : shall = true → (∀ c, t.verdict ≠ .pending c) → gone' id) :
    Tasks.Beside gone' (t.replacing id before after)
      ((t.resting shall).replacing id before' after') := by
  have others (task : TaskId × Code I) (other : task ∈ before ∨ task ∈ after) : ¬ gone' task.1 :=
    here task (t.mem_replacing_of_other other)
  have first := first.mono more fun task member => others task (.inl member)
  have last := last.mono more fun task member => others task (.inr member)
  have young : Tasks.Beside gone' t.spawned (Tasks.resting t.spawned) :=
    .of_not_gone fun task member => here task (t.mem_replacing_of_spawned member)
  unfold Turn.replacing Turn.resting at *
  cases verdict : t.verdict with
  | finished o => exact (first.append young).append last
  | panicked message =>
    cases shall with
    | true =>
      have resting : gone' id := left rfl (by simp [verdict])
      exact (first.append (.rests resting young)).append last
    | false => exact (first.append young).append last
  | pending c =>
    rw [verdict] at here
    have going : ¬ gone' id := here (id, c) (by simp)
    exact (first.append (.task going young)).append last

/-! ## Runs in lockstep -/

def pollsOfOthers {J : Interface} (rests : TaskId → Bool) (ps : List (Poll J)) : List (Poll J) :=
  ps.filter fun p => !rests p.task

theorem Poll.pollsOfOthers_cons (p : Poll I) {ps : List (Poll I)} {ps' : List (Poll I.resting)}
    (later : pollsOfOthers rests ps' = (pollsOfOthers rests ps).map Poll.resting) :
    pollsOfOthers rests (p.resting :: ps') =
      (pollsOfOthers rests (p :: ps)).map Poll.resting := by
  have task : p.resting.task = p.task := rfl
  unfold pollsOfOthers at later ⊢
  rw [List.filter_cons, List.filter_cons, task]
  split
  · exact congrArg (p.resting :: ·) later
  · exact later

section Rest

variable {tasks before after : Tasks I.resting} {w : World I.resting} {id : TaskId}
  {ready : List TaskId} {message : String}

theorem takeTurns_rest (head : w.board.ready = id :: ready)
    (found : Tasks.split? id tasks = some (before, .rest message, after)) :
    let rest := takeTurns (m.resting rests) tasks (w.dequeued ready)
    takeTurns (m.resting rests) tasks w =
      { rest with report := { rest.report with polls := rest.report.polls + 1 } } := by
  have same := Tasks.eq_of_split? found
  rw [takeTurns_turn _ tasks w head found, Code.run_rest_pending]
  simp only [Turn.replacing, Turn.settled, Turn.addTo, List.append_assoc, List.singleton_append,
    ← same]

theorem polls_rest (head : w.board.ready = id :: ready)
    (found : Tasks.split? id tasks = some (before, .rest message, after)) :
    polls (m.resting rests) tasks w =
      ⟨id, .rest message, w.dequeued ready⟩ ::
        polls (m.resting rests) tasks (w.dequeued ready) := by
  have same := Tasks.eq_of_split? found
  rw [polls_turn _ tasks w head found, Code.run_rest_pending]
  simp only [Turn.replacing, Turn.settled, List.append_assoc, List.singleton_append, ← same]

end Rest

/-- The task has ended, and rests if it panicked. -/
def Gone (rests : TaskId → Bool) (log : List Mark) (id : TaskId) : Prop :=
  Ended log id ∧ rests id = true

theorem Gone.append {log : List Mark} {id : TaskId} (gone : Gone rests log id)
    (later : List Mark) : Gone rests (log ++ later) id := ⟨gone.1.append later, gone.2⟩

theorem Logged.not_gone {log : List Mark} {tasks : Tasks I} {b : Board I.Value I.Output}
    (logged : Logged log (tasks.map Prod.fst) b) : ∀ t ∈ tasks, ¬ Gone rests log t.1 :=
  fun t member gone => ((logged.live t.1).mp (List.mem_map.mpr ⟨t, member, rfl⟩)).2 gone.1

theorem Poll.ended_marks (T : m.Tracing) (p : Poll I) (log : List Mark)
    (ends : ∀ c, (p.turn m).verdict ≠ .pending c) :
    Ended (log ++ (Taking.polled p).marks T) p.task := by
  have atEnd : p.ends m = true := by
    unfold Poll.ends
    cases verdict : (p.turn m).verdict with
    | pending c => exact absurd verdict (ends c)
    | _ => rfl
  refine List.mem_append_right log ?_
  rw [Taking.marks, atEnd]
  exact List.mem_cons_self

section Runs

variable {T : m.Tracing}

/-- A run goes the same way when some tasks rest instead of panicking. -/
theorem takeTurns_resting (wakes : T.WakesTasks) (tasks : Tasks I) (w : World I) {log : List Mark}
    (logged : Logged log (tasks.map Prod.fst) w.board) {tasks' : Tasks I.resting}
    (beside : Tasks.Beside (Gone rests log) tasks tasks') :
    let rest := takeTurns m tasks w
    let rest' := takeTurns (m.resting rests) tasks' w.toResting
    rest'.world = rest.world.toResting ∧
      Tasks.Beside (Gone rests (log ++ runMarks T tasks w)) rest.tasks rest'.tasks ∧
      rest.report.Without rests rest'.report ∧
      pollsOfOthers rests (polls (m.resting rests) tasks' w.toResting) =
        (pollsOfOthers rests (polls m tasks w)).map Poll.resting := by
  induction tasks, w using turns_induction m generalizing log tasks' with
  | idle tasks w idle =>
    have idle' : w.toResting.board.ready = [] := idle
    rw [runMarks_idle tasks w idle, takeTurns_idle m tasks w idle, takeTurns_idle _ tasks' _ idle',
      polls_idle m tasks w idle, polls_idle _ tasks' _ idle', List.append_nil]
    exact ⟨rfl, beside, ⟨rfl, rfl⟩, rfl⟩
  | gone tasks w id ready head gone ih =>
    have passed := (logged.after_passing_over head gone).2
    have head' : w.toResting.board.ready = id :: ready := head
    obtain ⟨world, others, report, polls⟩ :=
      ih passed (beside.mono (fun _ gone => gone.append _) passed.not_gone)
    rw [runMarks_gone tasks w head gone, takeTurns_gone m tasks w head gone,
      polls_gone m tasks w head gone, ← List.append_assoc]
    -- Where one run passes over a task that panicked, the other one polls it in vain.
    rcases beside.split?_of_absent gone with gone' | ⟨left, before', message, after', found⟩
    · rw [takeTurns_gone _ tasks' _ head' gone', polls_gone _ tasks' _ head' gone']
      exact ⟨world, others, report, polls⟩
    · rw [takeTurns_rest head' found, polls_rest head' found, pollsOfOthers,
        List.filter_cons_of_neg (by simp [left.2])]
      exact ⟨world, others, ⟨report.completed, report.failures⟩, polls⟩
  | turn tasks w id ready before code after head found ih =>
    let p : Poll I := ⟨id, code, w.dequeued ready⟩
    have turned := logged.after_turn wakes head found
    have head' : w.toResting.board.ready = id :: ready := head
    -- Nobody who is found rests, so the other run polls it too, with the same code.
    obtain ⟨before', after', found', first, last⟩ := beside.split?_of_found found
    have beside' :=
      (p.turn m).replacing_resting first last (fun _ gone => gone.append _) turned.not_gone
      fun shall ends => ⟨p.ended_marks T log ends, shall⟩
    obtain ⟨world, others, report, polls⟩ := ih turned beside'
    have turn : code.resting.run (m.resting rests) id (w.toResting.dequeued ready) =
        (p.turn m).resting (rests id) := code.run_resting id p.world
    rw [runMarks_turn tasks w head found, takeTurns_turn m tasks w head found,
      polls_turn m tasks w head found, takeTurns_turn _ tasks' _ head' found',
      polls_turn _ tasks' _ head' found', turn, Turn.settled_resting, ← List.append_assoc]
    exact ⟨world, others, (p.turn m).addTo_resting id report, p.pollsOfOthers_cons polls⟩

end Runs

/-! ## Lives in lockstep -/

def Deed.resting : Deed I → Deed I.resting
  | .spawn code => .spawn code.resting
  | .touch t => .touch t
  | .share shared => .share shared
  | .run => .run

structure Scheduler.Beside (gone : TaskId → Prop) (s : Scheduler I) (s' : Scheduler I.resting) :
    Prop where
  world : s'.world = s.world.toResting
  tasks : Tasks.Beside gone (s.tasks ++ s.spawned) (s'.tasks ++ s'.spawned)

/-- The same deeds, while these tasks rest instead of panicking: the world is the same in the end,
and run by run the others are polled in the same order, with the same code and in the same worlds,
the same tasks are completed, and the same failures are reported but for those of these tasks. -/
structure PanicsAlone (m : Meaning I) (rests : TaskId → Bool) (s : Scheduler I)
    (s' : Scheduler I.resting) (deeds : List (Deed I)) : Prop where
  world : (s'.doesAll (m.resting rests) (deeds.map .resting)).world =
    (s.doesAll m deeds).world.toResting
  polls : (s'.runs (m.resting rests) (deeds.map .resting)).map
      (fun r => pollsOfOthers rests (r.polls (m.resting rests))) =
    (s.runs m deeds).map fun r => (pollsOfOthers rests (r.polls m)).map Poll.resting
  completed : (s'.reports (m.resting rests) (deeds.map .resting)).map RunReport.completed =
    (s.reports m deeds).map RunReport.completed
  failures : (s'.reports (m.resting rests) (deeds.map .resting)).map RunReport.failures =
    (s.reports m deeds).map fun r => r.failures.filter fun f => !rests f.task

section Lives

variable {T : m.Tracing} {past : List Mark} {s : Scheduler I} {s' : Scheduler I.resting}

namespace Scheduler.Beside

theorem run (wakes : T.WakesTasks) (logged : Logged past s.taskIds s.world.board)
    (beside : s.Beside (Gone rests past) s') :
    (s.does m .run).Beside (Gone rests (past ++ s.marks T .run))
        (s'.does (m.resting rests) .run) ∧
      (s.run m).1.Without rests (s'.run (m.resting rests)).1 ∧
      pollsOfOthers rests (s'.polls (m.resting rests)) =
        (pollsOfOthers rests (s.polls m)).map Poll.resting := by
  obtain ⟨world, tasks, report, polls⟩ :=
    takeTurns_resting wakes (s.tasks ++ s.spawned) s.world logged beside.tasks
  rw [← beside.world] at world tasks report polls
  refine ⟨⟨world, ?_⟩, report, polls⟩
  change Tasks.Beside _ (_ ++ []) (_ ++ [])
  rw [List.append_nil, List.append_nil]
  exact tasks

theorem does (wakes : T.WakesTasks) (logged : Logged past s.taskIds s.world.board)
    (beside : s.Beside (Gone rests past) s') {deed : Deed I} (allowed : s.Allows deed) :
    (s.does m deed).Beside (Gone rests (past ++ s.marks T deed))
      (s'.does (m.resting rests) deed.resting) := by
  have here : ∀ t ∈ (s.does m deed).tasks ++ (s.does m deed).spawned,
      ¬ Gone rests (past ++ s.marks T deed) t.1 := (does_logged wakes allowed logged).not_gone
  have more (id : TaskId) (gone : Gone rests past id) : Gone rests (past ++ s.marks T deed) id :=
    gone.append _
  obtain ⟨world, tasks⟩ := beside
  cases deed with
  | spawn code =>
    have new : s'.world.board.newTask.1 = s.world.board.newTask.1 := by rw [world]; rfl
    refine ⟨?_, ?_⟩
    · simp only [Scheduler.does, Deed.resting, spawn, world]
      rfl
    · simp only [Scheduler.does, Deed.resting, spawn, ← List.append_assoc, new] at here ⊢
      have old := tasks.mono more fun t member => here t (List.mem_append_left _ member)
      exact old.append (.task (here _ (by simp)) .nil)
  | touch t =>
    refine ⟨?_, tasks.mono more here⟩
    simp only [Scheduler.does, Deed.resting, world]
    rfl
  | share shared =>
    refine ⟨?_, tasks.mono more here⟩
    simp only [Scheduler.does, Deed.resting, world]
    rfl
  | run => exact (run wakes logged ⟨world, tasks⟩).1

theorem panicsAlone (wakes : T.WakesTasks) {deeds : List (Deed I)}
    (allowed : s.AllowsAll m deeds) (logged : Logged past s.taskIds s.world.board)
    (beside : s.Beside (Gone rests past) s') : PanicsAlone m rests s s' deeds := by
  induction deeds generalizing past s s' with
  | nil => exact ⟨beside.world, rfl, rfl, rfl⟩
  | cons deed rest ih =>
    have later := ih allowed.2 (does_logged wakes allowed.1 logged)
      (beside.does wakes logged allowed.1)
    cases deed with
    | run =>
      obtain ⟨-, report, polls⟩ := beside.run wakes logged
      exact ⟨later.world, congrArg₂ List.cons polls later.polls,
        congrArg₂ List.cons report.completed later.completed,
        congrArg₂ List.cons report.failures later.failures⟩
    | _ => exact ⟨later.world, later.polls, later.completed, later.failures⟩

end Scheduler.Beside

/-- Tasks are scheduled first come, first served: the queue holds nobody twice; tasks are polled in
the order in which they were first queued since their last polls; who ends is reported once and
never polled again; and the panics of any tasks are to the others as if these tasks rested. -/
theorem scheduling_fair {T : m.Tracing} (wakes : T.WakesTasks) (shared : I.Shared)
    (deeds : List (Deed I)) (allowed : (Scheduler.start shared).AllowsAll m deeds) :
    FirstComeFirstServed T (.start shared) deeds ∧ EndsOnce m (.start shared) deeds ∧
      ∀ rests, PanicsAlone m rests (.start shared) (.start shared) deeds := by
  have start := Scheduler.start_logged shared
  have logged := Scheduler.doesAll_logged wakes allowed start
  rw [List.nil_append] at logged
  refine ⟨start.firstComeFirstServed wakes allowed, logged.proper.endsOnce, ?_⟩
  intro rests
  have beside : (Scheduler.start shared).Beside (Gone rests [])
      (Scheduler.start shared : Scheduler I.resting) := ⟨rfl, .nil⟩
  exact beside.panicsAlone wakes allowed start

end Lives

/-! ## An example -/

namespace Store

theorem tracing_wakesTasks : tracing.WakesTasks where
  performed me c w known t member id waker := by
    rcases performTouches_cases member with rfl | ⟨p, v, rfl⟩ | ⟨p, rfl⟩
    all_goals simp [Touch.waker?] at waker
  looked me s w known t member id waker := by
    have polls : ∃ key, t = .poll me key := by
      cases s with
      | first placeholders => exact firstTouches_poll member
      | output task => exact ⟨_, List.mem_singleton.mp member⟩
    obtain ⟨key, rfl⟩ := polls
    exact Option.some.inj waker ▸ known

def lostTask : List (Deed interface) := [
  .spawn (Statement.codeAll [.log .null, .panic "lost"]),
  .spawn (Statement.codeAll [.log (.bool true)]),
  .run, .touch (.wake ⟨1⟩), .run]

theorem lostTask_allowed : (Scheduler.start ({} : Store)).AllowsAll meaning lostTask := by
  refine ⟨trivial, trivial, trivial, ⟨trivial, ?_⟩, trivial, trivial⟩
  intro id woken
  obtain rfl : (⟨1⟩ : TaskId) = id := Option.some.inj woken
  constructor
  · decide
  · cbv

/-- The task that panicked is not polled again, and the other task ends as if it had not panicked. -/
theorem lost_task_passed_over :
    (Scheduler.start ({} : Store)).reports meaning lostTask =
      [{ polls := 2, completed := [⟨2⟩], failures := [⟨⟨1⟩, "lost"⟩] }, {}] ∧
    (Scheduler.start ({} : Store)).log tracing lostTask =
      [.queued ⟨1⟩, .queued ⟨2⟩, .polled ⟨1⟩ true, .polled ⟨2⟩ true, .queued ⟨1⟩, .passed ⟨1⟩] ∧
    (Scheduler.start (I := interface.resting) ({} : Store)).reports
        (meaning.resting fun id => id = ⟨1⟩) (lostTask.map .resting) =
      [{ polls := 2, completed := [⟨2⟩] }, { polls := 1 }] ∧
    FirstComeFirstServed tracing (.start ({} : Store)) lostTask ∧
    EndsOnce meaning (.start ({} : Store)) lostTask ∧
    PanicsAlone meaning (fun id => id = ⟨1⟩) (.start ({} : Store)) (.start ({} : Store))
      lostTask := by
  obtain ⟨served, ends, panics⟩ := scheduling_fair tracing_wakesTasks {} _ lostTask_allowed
  refine ⟨?_, ?_, ?_, served, ends, panics _⟩
  · cbv
  · cbv
  · cbv

end Store

end WorkflowReplay.Schedule
