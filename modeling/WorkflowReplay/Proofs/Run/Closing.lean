import WorkflowReplay.Proofs.Logs
import WorkflowReplay.Proofs.Run.LostAnswers
import WorkflowReplay.Proofs.Script.Handles

/-!
# The end of a run

A run ends when the task of its workflow ends.  Its output is there from then on, until an answer
takes it: nobody else holds its handle.  So the decision that ends the run stands in the first
answer that the engine gives after the workflow ended, whatever batch it ended in and whether or not
that batch was refused in the end, and in no other (`closed_once_and_last`).
-/

set_option autoImplicit false

namespace WorkflowReplay

open Schedule

namespace Engine

variable {e e' : Engine} {gone : List TaskId} {told : Bool}

/-! ## What happens over the tasks of a run -/

def endedBy (e : Engine) (b : Batch) : List TaskId :=
  match (e.enter b).applyEvents b.events with
  | (.ok (), e) => (e.scheduler.run Run.meaning).1.completed
  | _ => []

def endedByAll (e : Engine) : List Batch → List TaskId
  | [] => []
  | b :: rest =>
    e.endedBy b ++
      match e.applyBatch b with
      | (.ok (), e) => e.endedByAll rest
      | _ => []

def endedIn (e : Engine) (t : DecisionTask) : List TaskId :=
  if e.isStaleFor t then [] else e.endedByAll t.batches

/-- The engine after some decision tasks, answered or not. -/
def after (e : Engine) (ts : List DecisionTask) : Engine :=
  ts.foldl (fun e t => (e.process t).2) e

def ended (e : Engine) : List DecisionTask → List TaskId
  | [] => []
  | t :: ts => e.endedIn t ++ (e.process t).2.ended ts

def completions (e : Engine) : List DecisionTask → List Completion
  | [] => []
  | t :: ts => (e.process t).1.toOption.toList ++ (e.process t).2.completions ts

/-- The engine never starts again: it refuses a task that shows that its last answer was lost. -/
def GoesOn (e : Engine) : List DecisionTask → Prop
  | [] => True
  | t :: ts => (e.isStaleFor t = true → t.hasFullHistory = false) ∧ (e.process t).2.GoesOn ts

def RootIn (e : Engine) (gone : List TaskId) : Prop := ∃ id ∈ gone, e.root = some id

def RootEnded (e : Engine) (ts : List DecisionTask) : Prop := (e.after ts).RootIn (e.ended ts)

theorem after_concat (e : Engine) (ts : List DecisionTask) (t : DecisionTask) :
    e.after (ts ++ [t]) = ((e.after ts).process t).2 := List.foldl_concat ..

theorem ended_concat (e : Engine) (ts : List DecisionTask) (t : DecisionTask) :
    e.ended (ts ++ [t]) = e.ended ts ++ (e.after ts).endedIn t := by
  induction ts generalizing e with
  | nil => simp [ended, after]
  | cons t' rest ih =>
    simp only [List.cons_append, ended, ih, List.append_assoc]
    rfl

theorem completions_append (e : Engine) (first second : List DecisionTask) :
    e.completions (first ++ second) =
      e.completions first ++ (e.after first).completions second := by
  induction first generalizing e with
  | nil => rfl
  | cons t rest ih =>
    simp only [List.cons_append, completions, ih, List.append_assoc]
    rfl

theorem goesOn_append (e : Engine) (first second : List DecisionTask) :
    e.GoesOn (first ++ second) ↔ e.GoesOn first ∧ (e.after first).GoesOn second := by
  induction first generalizing e with
  | nil => simp [GoesOn, after]
  | cons t rest ih =>
    simp only [List.cons_append, GoesOn, ih, and_assoc]
    rfl

/-! ## The output of the workflow -/

/-- Between two steps of an engine, the output of the workflow is there exactly if the workflow is
one of the tasks that are gone and no answer told so. -/
structure Tracks (e : Engine) (gone : List TaskId) (told : Bool) : Prop where
  joinsOwn : e.workflow.JoinsOwn
  flag : e.completionEmitted = told
  unstarted : e.root = none → e.runnable = [] ∧ gone = [] ∧ told = false ∧
    ∀ id, e.scheduler.world.board.waiting.isFinished id = false
  named : ∀ id, e.root = some id → id.number < e.scheduler.world.board.nextTask
  never : ∀ id, e.root = some id → Tasks.NeverJoin id e.runnable
  output : ∀ id, e.root = some id → told = false →
    (e.scheduler.world.board.waiting.isFinished id = true ↔ id ∈ gone)
  ended : told = true → e.RootIn gone

theorem new_tracks (info : RunInfo) {workflow : Workflow} (joinsOwn : workflow.JoinsOwn) :
    Tracks (new info workflow) [] false where
  joinsOwn := joinsOwn
  flag := rfl
  unstarted _ := ⟨rfl, rfl, rfl, fun _ => rfl⟩
  named _ root := by cases root
  never _ root := by cases root
  output _ root := by cases root
  ended emitted := by cases emitted

namespace Tracks

/-- Nothing but a turn, a start and an answer touches what is tracked. -/
theorem of_unchanged_root (tracks : Tracks e gone told) (workflow : e'.workflow = e.workflow)
    (root : e'.root = e.root) (runnable : e'.runnable = e.runnable)
    (emitted : e'.completionEmitted = e.completionEmitted)
    (leaves : ∀ id, Run.LeavesOutput id e.scheduler.world e'.scheduler.world) :
    Tracks e' gone told := by
  have output (id : TaskId) : e'.scheduler.world.board.waiting.isFinished id =
      e.scheduler.world.board.waiting.isFinished id := by
    rw [Waiting.isFinished, (leaves id).slot, Waiting.isFinished]
  refine ⟨workflow ▸ tracks.joinsOwn, emitted.trans tracks.flag, ?_, ?_, ?_, ?_, ?_⟩
  · simpa only [root, runnable, output] using tracks.unstarted
  · intro id started
    exact Nat.lt_of_lt_of_le (tracks.named id (root ▸ started)) (leaves id).named
  · simpa only [root, runnable] using tracks.never
  · simpa only [root, output] using tracks.output
  · simpa only [RootIn, root] using tracks.ended

theorem inContext (tracks : Tracks e gone told) (f : Context → Context) :
    Tracks (e.inContext f) gone told :=
  tracks.of_unchanged_root rfl rfl rfl rfl fun _ => Run.leavesOutput_shared _

theorem enter (tracks : Tracks e gone told) (b : Batch) : Tracks (e.enter b) gone told := by
  have live : Tracks { e with lastLiveId := b.taskStartedId } gone told :=
    tracks.of_unchanged_root rfl rfl rfl rfl fun _ => .refl _
  unfold Engine.enter
  split
  · exact tracks.inContext _
  · exact live.inContext _

theorem acknowledge (tracks : Tracks e gone told) (b : Batch) :
    Tracks (e.acknowledge b) gone told := by
  unfold Engine.acknowledge
  split
  · exact tracks.inContext _
  · exact tracks

theorem startRoot (tracks : Tracks e gone told) (input : Option Payload) :
    Tracks (e.startRoot input).2 gone told := by
  unfold Engine.startRoot
  cases root : e.root with
  | some id => exact tracks
  | none =>
    obtain ⟨idle, nothing, silent, empty⟩ := tracks.unstarted root
    cases started : e.workflow.start input with
    | error message => exact tracks
    | ok code =>
      have alone : e.scheduler.tasks = [] ∧ e.scheduler.spawned = [] := by
        simpa [runnable] using idle
      -- The task of the workflow takes a new name, and the engine keeps its handle to itself.
      refine ⟨tracks.joinsOwn, tracks.flag, by simp, ?_, ?_, ?_, by simp [silent]⟩
      · rintro id ⟨⟩
        simp [Scheduler.spawn, Board.newTask]
      · rintro id ⟨⟩ task member
        simp only [runnable, Scheduler.spawn, alone.1, alone.2, List.nil_append,
          List.mem_singleton] at member
        exact member ▸ tracks.joinsOwn input code started _
      · rintro id ⟨⟩ -
        have out : (e.scheduler.spawn code).2.world.board.waiting =
            e.scheduler.world.board.waiting := Board.wake_waiting _ _
        rw [out, nothing]
        simp [empty]

theorem applyEvent (tracks : Tracks e gone told) (event : HistoryEvent) :
    Tracks (e.applyEvent event).2 gone told := by
  have passed : Tracks { e with lastEventId := event.id } gone told :=
    tracks.of_unchanged_root rfl rfl rfl rfl fun _ => .refl _
  unfold Engine.applyEvent
  split
  · exact tracks
  · split
    · exact passed.startRoot _
    · dsimp only
      split
      · exact passed
      · next world applied =>
        exact passed.of_unchanged_root rfl rfl rfl rfl fun _ => Run.applyEvent_leavesOutput applied

theorem applyEvents (tracks : Tracks e gone told) (events : List HistoryEvent) :
    Tracks (e.applyEvents events).2 gone told := by
  induction events generalizing e with
  | nil => exact tracks
  | cons event rest ih =>
    have first := tracks.applyEvent event
    simp only [Engine.applyEvents]
    split
    · next e₁ applied =>
      rw [applied] at first
      exact ih first
    · exact first

theorem runTasks (tracks : Tracks e gone told) :
    Tracks e.runTasks.2 (gone ++ (e.scheduler.run Run.meaning).1.completed) told := by
  have ran (id : TaskId) (root : e.root = some id) :=
    takeTurns_leavesOutput e.runnable e.scheduler.world (tracks.never id root)
      (tracks.named id root)
  -- The output is stored also when the run is refused for a contradiction or a panic.
  rw [runTasks_eq]
  refine ⟨tracks.joinsOwn, tracks.flag, ?_, fun id root => (ran id root).2.1, ?_, ?_, ?_⟩
  · intro root
    obtain ⟨idle, nothing, silent, empty⟩ := tracks.unstarted root
    obtain ⟨completed, tasks, waiting⟩ := takeTurns_nil idle e.scheduler.world
    refine ⟨by simpa [runnable] using tasks, ?_, silent, fun id => ?_⟩
    · rw [nothing]
      exact completed
    · simp only [waiting, empty]
  · intro id root
    simpa [runnable] using (ran id root).1
  · intro id root silent
    rw [List.mem_append, ← tracks.output id root silent]
    exact (ran id root).2.2
  · intro emitted
    obtain ⟨id, member, root⟩ := tracks.ended emitted
    exact ⟨id, List.mem_append_left _ member, root⟩

theorem applyBatch (tracks : Tracks e gone told) (b : Batch) :
    Tracks (e.applyBatch b).2 (gone ++ e.endedBy b) told := by
  have entered := (tracks.enter b).applyEvents b.events
  rw [applyBatch_eq_stages, endedBy]
  generalize (e.enter b).applyEvents b.events = r at entered ⊢
  obtain ⟨result, e₁⟩ := r
  cases result with
  | error fault => simpa using entered
  | ok =>
    have ran : Tracks e₁.runTasks.2 _ told := Tracks.runTasks entered
    dsimp only
    generalize e₁.runTasks = r at ran ⊢
    obtain ⟨result, e₂⟩ := r
    cases result with
    | error fault => exact ran
    | ok => exact Tracks.applyEvents (Tracks.acknowledge ran b) b.decisionEvents

theorem applyBatches (tracks : Tracks e gone told) (bs : List Batch) :
    Tracks (e.applyBatches bs).2 (gone ++ e.endedByAll bs) told := by
  induction bs generalizing e gone with
  | nil => simpa [endedByAll, Engine.applyBatches] using tracks
  | cons b rest ih =>
    have first := tracks.applyBatch b
    rw [Engine.applyBatches, endedByAll]
    generalize e.applyBatch b = r at first ⊢
    obtain ⟨result, e₁⟩ := r
    cases result with
    | error fault => simpa using first
    | ok =>
      rw [← List.append_assoc]
      exact ih first

theorem takeTerminal (tracks : Tracks e gone told) :
    Tracks e.takeTerminal.2 gone e.takeTerminal.2.completionEmitted ∧
      (e.takeTerminal.2.completionEmitted = true ↔ e.takeTerminal.2.RootIn gone) ∧
      (e.takeTerminal.1.isSome = true ↔
        told = false ∧ e.takeTerminal.2.completionEmitted = true) := by
  cases told with
  | true =>
    rw [takeTerminal_of_emitted tracks.flag]
    simpa [tracks.flag] using ⟨tracks, tracks.ended rfl⟩
  | false =>
    have flag := tracks.flag
    unfold Engine.takeTerminal
    rw [if_neg (by simp [flag])]
    cases root : e.root with
    | none => simpa [flag, RootIn, root] using tracks
    | some id =>
      have output := tracks.output id root rfl
      simp only [Board.takeOutput, Waiting.takeOutput]
      cases value : (e.scheduler.world.board.waiting.outputSlot id).value with
      -- Taking from an empty slot leaves it as it was.
      | none =>
        have alive : id ∉ gone := by simpa [Waiting.isFinished, value] using output
        simp only [inRun, flag]
        refine ⟨tracks.of_unchanged_root rfl rfl rfl flag.symm fun id' => ⟨?_, Nat.le_refl _⟩,
          ?_, by simp⟩
        · rw [Waiting.outputSlot_insert]
          split
          · next same => rw [← same, ← value]
          · rfl
        · simpa [RootIn, root] using alive
      | some r =>
        have done' : id ∈ gone := by simpa [Waiting.isFinished, value] using output
        have ended : e.RootIn gone := ⟨id, done', root⟩
        refine ⟨⟨tracks.joinsOwn, rfl, ?_, tracks.named, tracks.never, ?_, fun _ => ended⟩,
          iff_of_true rfl ended, by simp⟩
        · intro unstarted
          simp [inRun, root] at unstarted
        · intro _ _ silent
          cases silent

end Tracks

end Engine

/-! ## Decisions that end a run -/

theorem Request.initialDecision_isTerminal (r : Request) :
    r.initialDecision.isTerminal = false := by
  cases r <;> rfl

theorem Request.cancelDecision_isTerminal {r : Request} {d : Decision}
    (asked : r.cancelDecision = some d) : d.isTerminal = false := by
  cases r <;> cases asked <;> rfl

theorem Machine.pending_isTerminal {machine : Machine} {d : Decision}
    (member : d ∈ machine.pending) : d.isTerminal = false := by
  unfold pending at member
  rcases List.mem_append.mp member with member | member
  · split at member
    · simp at member
    · exact List.mem_singleton.mp member ▸ machine.request.initialDecision_isTerminal
  · split at member
    · exact Request.cancelDecision_isTerminal (Option.mem_toList.mp member)
    · simp at member

theorem Ledger.pending_isTerminal {m : Ledger} {d : Decision} (member : d ∈ m.pending) :
    d.isTerminal = false := by
  obtain ⟨i, -, member⟩ := List.mem_flatMap.mp member
  split at member
  · exact Machine.pending_isTerminal member
  · simp at member

/-- An answer after answers that did or did not tell that the run ended: the decision that ends the
run is its last one, and it is there if this answer is the first to tell. -/
structure Completion.Follows (c : Completion) (told : Bool) : Prop where
  stays : told = true → c.workflowCompleted = true
  last : ∀ d ∈ c.decisions.dropLast, d.isTerminal = false
  count : c.decisions.countP Decision.isTerminal =
    if told = false ∧ c.workflowCompleted = true then 1 else 0

theorem Completion.follows_of_taken {plain : List Decision} {last : Option Decision}
    {told completed : Bool}
    (ordinary : ∀ d ∈ plain, d.isTerminal = false) (terminal : ∀ d ∈ last, d.isTerminal = true)
    (stays : told = true → completed = true)
    (taken : last.isSome = true ↔ told = false ∧ completed = true) :
    Completion.Follows ⟨plain ++ last.toList, completed⟩ told := by
  have none : plain.countP Decision.isTerminal = 0 :=
    List.countP_eq_zero.mpr fun d member => by simp [ordinary d member]
  cases last with
  | none =>
    refine ⟨stays, fun d member => ordinary d ?_, ?_⟩
    · simpa using List.dropLast_subset _ member
    · rw [if_neg (by simpa using taken)]
      simpa using none
  | some d =>
    refine ⟨stays, by simpa using ordinary, ?_⟩
    rw [if_pos (taken.mp rfl)]
    simp [none, terminal d rfl]

namespace Engine

variable {e e' : Engine} {gone : List TaskId} {told : Bool}

structure Tells (e' : Engine) (gone : List TaskId) (told : Bool) (c : Completion) : Prop where
  tracks : Tracks e' gone c.workflowCompleted
  ended : c.workflowCompleted = true ↔ e'.RootIn gone
  follows : c.Follows told

theorem Tracks.takeDecisions (tracks : Tracks e gone told) :
    Tells e.takeDecisions.2 gone told
      ⟨e.takeDecisions.1, e.takeDecisions.2.completionEmitted⟩ := by
  have notified : Tracks e.notified gone told := tracks.inContext _
  obtain ⟨after, ended, taken⟩ := notified.takeTerminal
  rw [takeDecisions_eq]
  refine ⟨after, ended, Completion.follows_of_taken (fun d => Ledger.pending_isTerminal)
    (takeTerminal_isTerminal e.notified) ?_ taken⟩
  intro closed
  rw [takeTerminal_of_emitted (notified.flag.trans closed)]
  exact notified.flag.trans closed

inductive Processed (gone : List TaskId) (told : Bool) : Except Fault Completion × Engine → Prop
  | refused {fault : Fault} {e' : Engine} (tracks : Tracks e' gone told) :
    Processed gone told (.error fault, e')
  | answered {c : Completion} {e' : Engine} (tells : Tells e' gone told c) :
    Processed gone told (.ok c, e')

theorem replay_leaves_applied (e : Engine) (t : DecisionTask) :
    (e.replay t).2 = (e.applyBatches t.batches).2 := by
  cases queue : BatchQueue.ofHistory t.history t.startedEventId with
  | error err => simp [Engine.replay, DecisionTask.batches, queue, Engine.applyBatches]
  | ok q =>
    rw [replay_eq queue]
    split
    · next applied =>
      rw [applied]
      split <;> rfl
    · rfl

theorem Tracks.process (tracks : Tracks e gone told) {t : DecisionTask}
    (goesOn : e.isStaleFor t = true → t.hasFullHistory = false) :
    Processed (gone ++ e.endedIn t) told (e.process t) := by
  unfold Engine.process endedIn
  cases stale : e.isStaleFor t with
  | true =>
    simp only [goesOn stale, Bool.not_false, Bool.and_self, if_true, List.append_nil]
    exact .refused tracks
  | false =>
    have replayed := tracks.applyBatches t.batches
    rw [← replay_leaves_applied] at replayed
    simp only [Bool.false_and, Bool.false_eq_true, if_false]
    split
    · next fault e₁ failed =>
      rw [failed] at replayed
      exact .refused replayed
    · next e₁ ok =>
      rw [ok] at replayed
      exact .answered (Tracks.takeDecisions replayed)

/-! ## Runs -/

def terminals (cs : List Completion) : Nat :=
  (cs.flatMap Completion.decisions).countP Decision.isTerminal

def AnsweredEnd (e : Engine) (ts : List DecisionTask) : Prop :=
  ∃ past t later c, ts = past ++ t :: later ∧ ((e.after past).process t).1 = .ok c ∧
    e.RootEnded (past ++ [t])

theorem answeredEnd_concat (e : Engine) (ts : List DecisionTask) (t : DecisionTask) :
    e.AnsweredEnd (ts ++ [t]) ↔
      e.AnsweredEnd ts ∨
        (∃ c, ((e.after ts).process t).1 = .ok c) ∧ e.RootEnded (ts ++ [t]) := by
  constructor
  · rintro ⟨past, t', later, c, split, answered, ended⟩
    rcases concat_eq_split.mp split with ⟨rfl, rfl, -⟩ | ⟨before, -, rfl⟩
    · exact .inr ⟨⟨c, answered⟩, ended⟩
    · exact .inl ⟨past, t', before, c, rfl, answered, ended⟩
  · rintro (⟨past, t', later, c, rfl, answered, ended⟩ | ⟨⟨c, answered⟩, ended⟩)
    · exact ⟨past, t', later ++ [t], c, by simp, answered, ended⟩
    · exact ⟨ts, t, [], c, rfl, answered, ended⟩

theorem terminals_append (first second : List Completion) :
    terminals (first ++ second) = terminals first + terminals second := by
  simp [terminals, List.countP_append]

theorem terminals_pos (cs : List Completion) :
    0 < terminals cs ↔ ∃ c ∈ cs, ∃ d ∈ c.decisions, d.isTerminal = true := by
  rw [terminals, List.countP_pos_iff]
  simp only [List.mem_flatMap]
  constructor
  · rintro ⟨d, ⟨c, member, among⟩, terminal⟩
    exact ⟨c, member, d, among, terminal⟩
  · rintro ⟨c, member, d, among, terminal⟩
    exact ⟨d, ⟨c, member, among⟩, terminal⟩

/-- What is tracked over a whole run: no answer, or exactly one, held the decision that ends it, and
this is so since the first answer after the end. -/
structure Told (e : Engine) (ts : List DecisionTask) (told : Bool) : Prop where
  tracks : Tracks (e.after ts) (e.ended ts) told
  count : terminals (e.completions ts) = told.toNat
  answered : told = true ↔ e.AnsweredEnd ts

theorem told_after_process {ts : List DecisionTask} (before : Told e ts told) {t : DecisionTask}
    (goesOn : (e.after ts).isStaleFor t = true → t.hasFullHistory = false) :
    ∃ told', Told e (ts ++ [t]) told' ∧ ∀ c, ((e.after ts).process t).1 = .ok c →
      told' = c.workflowCompleted ∧ c.Follows told ∧
        (c.workflowCompleted = true ↔ e.RootEnded (ts ++ [t])) := by
  have processed := before.tracks.process goesOn
  have after := after_concat e ts t
  have completions := completions_append e ts [t]
  have answered := answeredEnd_concat e ts t
  rw [Engine.completions, Engine.completions, List.append_nil] at completions
  rw [← ended_concat] at processed
  generalize (e.after ts).process t = r at processed after completions answered
  cases processed with
  | refused tracks =>
    refine ⟨told, ⟨after ▸ tracks, ?_, ?_⟩, fun c same => by cases same⟩
    · rw [completions, terminals_append, before.count]
      rfl
    · rw [answered, before.answered]
      simp
  | @answered c e' tells =>
    have ended : c.workflowCompleted = true ↔ e.RootEnded (ts ++ [t]) := by
      rw [RootEnded, after]
      exact tells.ended
    refine ⟨c.workflowCompleted, ⟨after ▸ tells.tracks, ?_, ?_⟩, ?_⟩
    · have one : terminals [c] = if told = false ∧ c.workflowCompleted = true then 1 else 0 := by
        rw [← tells.follows.count]
        simp [terminals]
      have stays := tells.follows.stays
      rw [completions, terminals_append, before.count]
      change told.toNat + terminals [c] = _
      rw [one]
      cases told <;> cases completed : c.workflowCompleted <;> simp_all
    · rw [answered, ← before.answered, ← ended]
      simpa using tells.follows.stays
    · intro c' same
      cases same
      exact ⟨rfl, tells.follows, ended⟩

theorem exists_told_of_goesOn (info : RunInfo) {workflow : Workflow} (joinsOwn : workflow.JoinsOwn)
    (ts : List DecisionTask) (goesOn : (new info workflow).GoesOn ts) :
    ∃ told, Told (new info workflow) ts told := by
  induction ts using List.reverseRecOn with
  | nil =>
    refine ⟨false, new_tracks info joinsOwn, rfl, ?_⟩
    simp [AnsweredEnd]
  | append_singleton ts t ih =>
    obtain ⟨past, now⟩ := (goesOn_append _ ts [t]).mp goesOn
    obtain ⟨told, before⟩ := ih past
    obtain ⟨told', after, -⟩ := told_after_process before now.1
    exact ⟨told', after⟩

/-- The scripts take outputs only through handles, and a run of a workflow that does is closed once,
and last.  Over the answers that an engine gives to tasks without starting again, at most one
decision ends the run; it is the last of its answer; its answer is the first that the engine gives
after the workflow ended; and from this answer on, the answers say that the run is completed. -/
theorem closed_once_and_last :
    (∀ shape body, (Script.workflow shape body).JoinsOwn) ∧
    (∀ body panicOnCall, (Script.rawWorkflow body panicOnCall).JoinsOwn) ∧
    ∀ (info : RunInfo) (workflow : Workflow) (ts : List DecisionTask), workflow.JoinsOwn →
      (new info workflow).GoesOn ts →
      let e := new info workflow
      terminals (e.completions ts) ≤ 1 ∧
      ∀ past t later c, ts = past ++ t :: later → ((e.after past).process t).1 = .ok c →
        (∀ d ∈ c.decisions.dropLast, d.isTerminal = false) ∧
        ((∃ d ∈ c.decisions, d.isTerminal = true) ↔
          e.RootEnded (past ++ [t]) ∧ ¬ e.AnsweredEnd past) ∧
        (c.workflowCompleted = true ↔
          ∃ c' ∈ e.completions (past ++ [t]), ∃ d ∈ c'.decisions, d.isTerminal = true) := by
  refine ⟨Script.workflow_joinsOwn, Script.rawWorkflow_joinsOwn, ?_⟩
  intro info workflow ts joinsOwn goesOn e
  constructor
  · obtain ⟨told, all⟩ := exists_told_of_goesOn info joinsOwn ts goesOn
    rw [all.count]
    exact told.toNat_le
  · rintro past t later c rfl answered
    obtain ⟨first, now⟩ := (goesOn_append e past (t :: later)).mp goesOn
    obtain ⟨told, before⟩ := exists_told_of_goesOn info joinsOwn past first
    obtain ⟨told', after, tells⟩ := told_after_process before now.1
    obtain ⟨rfl, follows, ended⟩ := tells c answered
    refine ⟨follows.last, ?_, ?_⟩
    · have some : (∃ d ∈ c.decisions, d.isTerminal = true) ↔
          0 < c.decisions.countP Decision.isTerminal := List.countP_pos_iff.symm
      rw [some, follows.count, ← ended, ← before.answered]
      cases told <;> cases c.workflowCompleted <;> simp
    · have some : c.workflowCompleted = true ↔ 0 < c.workflowCompleted.toNat := by
        cases c.workflowCompleted <;> simp
      rw [some, ← after.count]
      exact terminals_pos (e.completions (past ++ [t]))

def givesResult : Workflow :=
  Script.workflow .value [
    .activity (.str "work") .null (.str "a") .null {} .value (.into (some "result")),
    .giveBack (.obj [("$", .str "result")])]

def resultTask : DecisionTask where
  history := historyOf [
    .workflowExecutionStarted {},
    .decisionTaskScheduled {},
    .decisionTaskStarted { scheduledEventId := 2 },
    .decisionTaskCompleted { scheduledEventId := 2, startedEventId := 3 },
    .activityTaskScheduled { activityId := "a" },
    .activityTaskStarted { scheduledEventId := 5 },
    .activityTaskCompleted { scheduledEventId := 5, result := some [91, 49, 93] },
    .decisionTaskScheduled {},
    .decisionTaskStarted { scheduledEventId := 8 }]
  startedEventId := 9

/-- The run is closed by the answer to the second of its tasks, and stays closed when that task is
delivered again. -/
theorem second_answer_closes :
    let e := new {} givesResult
    let tasks := [firstTask, resultTask, resultTask]
    givesResult.JoinsOwn ∧ e.GoesOn tasks ∧
      e.completions tasks = [
        schedulesActivity,
        ⟨[.completeWorkflowExecution (some [91, 49, 93])], true⟩,
        ⟨[], true⟩] ∧
      e.RootEnded [firstTask, resultTask] ∧ ¬ e.AnsweredEnd [firstTask] ∧
      e.AnsweredEnd [firstTask, resultTask] := by
  intro e tasks
  have answers : e.completions tasks = [
      schedulesActivity,
      ⟨[.completeWorkflowExecution (some [91, 49, 93])], true⟩,
      ⟨[], true⟩] := by cbv
  have second : ((e.after [firstTask]).process resultTask).1 =
      .ok ⟨[.completeWorkflowExecution (some [91, 49, 93])], true⟩ := by cbv
  have goesOn : e.GoesOn tasks := by
    have first : e.isStaleFor firstTask = false := by cbv
    have second : (e.process firstTask).2.isStaleFor resultTask = false := by cbv
    have third : ((e.process firstTask).2.process resultTask).2.isStaleFor resultTask = false := by
      cbv
    simp [tasks, GoesOn, first, second, third]
  obtain ⟨scripts, -, runs⟩ := closed_once_and_last
  obtain ⟨-, closes⟩ := runs {} givesResult tasks (scripts _ _) goesOn
  obtain ⟨ended, first⟩ := (closes [firstTask] resultTask [resultTask] _ rfl second).2.1.mp
    ⟨_, List.mem_singleton_self _, rfl⟩
  exact ⟨scripts _ _, goesOn, answers, ended, first,
    [firstTask], resultTask, [], _, rfl, second, ended⟩

end Engine

end WorkflowReplay
