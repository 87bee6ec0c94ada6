import WorkflowReplay.Proofs.History.Partition
import WorkflowReplay.Proofs.Run.Emission
import WorkflowReplay.Proofs.Run.Resting

/-!
# What an answer consumes

An engine works through a task in steps, and only one kind of step applies an event: one that is
above the last event that was applied.  So the events of a run of steps ascend, and each is applied
once.  An answer takes all events of the batches that the history of its task is cut into; a tail
of the history that does not reach the task is not cut into a batch, and stays unapplied behind the
answer.
-/

set_option autoImplicit false

namespace WorkflowReplay

namespace Engine

/-- The steps of an engine, with the events that they apply. -/
inductive Works : Engine → List HistoryEvent → Engine → Prop where
  | done (e : Engine) : Works e [] e
  | apply {e e₁ e' : Engine} {event : HistoryEvent} {later : List HistoryEvent}
      (new : e.lastEventId < event.id) (applied : e.applyEvent event = (.ok (), e₁))
      (rest : Works e₁ later e') : Works e (event :: later) e'
  | enter {e e' : Engine} {events : List HistoryEvent} (b : Batch)
      (rest : Works (e.enter b) events e') : Works e events e'
  | run {e e₁ e' : Engine} {events : List HistoryEvent} (ran : e.runTasks = (.ok (), e₁))
      (rest : Works e₁ events e') : Works e events e'
  | acknowledge {e e' : Engine} {events : List HistoryEvent} (b : Batch)
      (rest : Works (e.acknowledge b) events e') : Works e events e'
  | answer {e e' : Engine} {events : List HistoryEvent}
      (rest : Works e.takeDecisions.2 events e') : Works e events e'

def unseen (e : Engine) (events : List HistoryEvent) : List HistoryEvent :=
  events.filter (fun event => e.lastEventId < event.id)

section

variable {e e' : Engine}

theorem runTasks_lastEventId (ran : e.runTasks = (.ok (), e')) :
    e'.lastEventId = e.lastEventId := by
  obtain rfl : e.runTasks.2 = e' := congrArg Prod.snd ran
  rw [runTasks_eq]

end

namespace Works

variable {e e₁ e' : Engine}

theorem trans {first second : List HistoryEvent} (works : Works e first e₁)
    (further : Works e₁ second e') : Works e (first ++ second) e' := by
  induction works with
  | done => exact further
  | apply new applied _ ih => exact .apply new applied (ih further)
  | enter b _ ih => exact .enter b (ih further)
  | run ran _ ih => exact .run ran (ih further)
  | acknowledge b _ ih => exact .acknowledge b (ih further)
  | answer _ ih => exact .answer (ih further)

theorem events_ascend {events : List HistoryEvent} (works : Works e events e') :
    events.Pairwise (fun a b => a.id < b.id) ∧ (∀ event ∈ events, e.lastEventId < event.id) ∧
      e'.lastEventId = (events.getLast?.map (·.id)).getD e.lastEventId := by
  induction works with
  | done => simp
  | @apply e e₁ e' event later new applied _ ih =>
    obtain ⟨increasing, above, last⟩ := ih
    rw [applyEvent_lastEventId applied new] at above last
    refine ⟨List.pairwise_cons.mpr ⟨above, increasing⟩, ?_, ?_⟩
    · intro event' member
      rcases List.mem_cons.mp member with rfl | old
      · exact new
      · exact Int64.lt_trans new (above event' old)
    · rw [last, List.getLast?_cons]
      cases later.getLast? <;> rfl
  | enter b _ ih => rwa [enter_lastEventId] at ih
  | run ran _ ih =>
    rwa [runTasks_lastEventId ran] at ih
  | acknowledge b _ ih =>
    unfold Engine.acknowledge at ih
    split at ih <;> exact ih
  | @answer e e' events _ ih =>
    obtain ⟨outputs, completionEmitted, taken⟩ := takeTerminal_eq e.notified
    rw [takeDecisions_eq, taken] at ih
    exact ih

theorem unseen_eq {xs ys : List HistoryEvent}
    (increasing : (xs ++ ys).Pairwise (fun a b => a.id < b.id)) (works : Works e (e.unseen xs) e₁) :
    e₁.unseen ys = e.unseen ys := by
  obtain ⟨-, above, last⟩ := works.events_ascend
  -- Applying `xs` may move the boundary, but only to an id below all of `ys`.
  refine List.filter_congr fun y member => ?_
  have later := (List.pairwise_append.mp increasing).2.2
  rw [last]
  cases reached : (e.unseen xs).getLast? with
  | none => rfl
  | some x =>
    have seen := List.mem_of_getLast? reached
    have below := later x (List.mem_filter.mp seen).1 y member
    simp [below, Int64.lt_trans (above x seen) below]

theorem append {xs ys : List HistoryEvent}
    (increasing : (xs ++ ys).Pairwise (fun a b => a.id < b.id)) (works : Works e (e.unseen xs) e₁)
    (further : Works e₁ (e₁.unseen ys) e') : Works e (e.unseen (xs ++ ys)) e' := by
  rw [works.unseen_eq increasing] at further
  unfold unseen
  rw [List.filter_append]
  exact works.trans further

end Works

variable {e e' : Engine}

/-! ## Events, batches and tasks -/

theorem applyEvents_works {es : List HistoryEvent}
    (increasing : es.Pairwise (fun a b => a.id < b.id))
    (applied : e.applyEvents es = (.ok (), e')) : Works e (e.unseen es) e' := by
  induction es generalizing e with
  | nil =>
    cases applied
    exact .done _
  | cons event rest ih =>
    obtain ⟨below, increasing⟩ := List.pairwise_cons.mp increasing
    simp only [applyEvents] at applied
    split at applied
    · next e₁ first =>
      have later := ih increasing applied
      by_cases old : event.id ≤ e.lastEventId
      · have same : e₁ = e := by
          unfold applyEvent at first
          rw [if_pos old] at first
          exact (Prod.mk.inj first).2.symm
        subst same
        rwa [unseen, List.filter_cons_of_neg (by simpa using Int64.not_lt.mpr old)]
      · have new := Int64.not_le.mp old
        have all {last : EventId} (upTo : last ≤ event.id) :
            rest.filter (fun x => last < x.id) = rest :=
          List.filter_eq_self.mpr fun x member => by
            simpa using Int64.lt_of_le_of_lt upTo (below x member)
        rw [unseen, List.filter_cons_of_pos (by simpa using new), all (Int64.le_of_lt new)]
        rw [unseen, applyEvent_lastEventId first new, all (Int64.le_refl _)] at later
        exact .apply new first later
    · next failed => exact absurd applied (failed _)

theorem applyBatch_works {b : Batch} (increasing : b.all.Pairwise (fun a b => a.id < b.id))
    (applied : e.applyBatch b = (.ok (), e')) : Works e (e.unseen b.all) e' := by
  obtain ⟨entered, ran, events, turns, decisions⟩ := applyBatch_ok_stages applied
  obtain ⟨first, second, -⟩ := List.pairwise_append.mp increasing
  have works := applyEvents_works first events
  have further := applyEvents_works second decisions
  have same : (e.enter b).unseen b.events = e.unseen b.events := by
    unfold unseen
    rw [enter_lastEventId]
  have ready := works.trans (.run turns (.acknowledge b (.done _)))
  rw [same, List.append_nil] at ready
  exact .append increasing (.enter b ready) further

theorem applyBatches_works {bs : List Batch}
    (increasing : (bs.flatMap Batch.all).Pairwise (fun a b => a.id < b.id))
    (applied : e.applyBatches bs = (.ok (), e')) :
    Works e (e.unseen (bs.flatMap Batch.all)) e' := by
  induction bs generalizing e with
  | nil =>
    cases applied
    exact .done _
  | cons b rest ih =>
    rw [List.flatMap_cons] at increasing ⊢
    obtain ⟨first, second, -⟩ := List.pairwise_append.mp increasing
    simp only [applyBatches] at applied
    split at applied
    · next e₁ here => exact .append increasing (applyBatch_works first here) (ih second applied)
    · next failed => exact absurd applied (failed _)

/-- The engine that goes through the history of a task: a new one if the last answer was lost. -/
def startFor (e : Engine) (t : DecisionTask) : Engine := if e.isStaleFor t then e.reset else e

theorem process_ok_of_startFor {t : DecisionTask} {c : Completion}
    (answered : e.process t = (.ok c, e')) :
    ∃ replayed, (e.startFor t).replay t = (.ok (), replayed) ∧ e' = replayed.takeDecisions.2 ∧
      c = {
        decisions := replayed.takeDecisions.1
        workflowCompleted := replayed.takeDecisions.2.completionEmitted } := by
  unfold process at answered
  split at answered
  · simp at answered
  · split at answered
    · simp at answered
    · next replayed replay =>
      obtain ⟨completion, same⟩ := Prod.mk.inj answered
      exact ⟨replayed, replay, same.symm, (Except.ok.inj completion).symm⟩

theorem replay_history_accepted {t : DecisionTask} (replayed : e.replay t = (.ok (), e')) :
    ∃ q, BatchQueue.ofHistory t.history t.startedEventId = .ok q := by
  unfold replay at replayed
  split at replayed
  · simp at replayed
  · next q accepted => exact ⟨q, accepted⟩

def reach (id : EventId) (events : List HistoryEvent) : EventId :=
  match events.getLast? with
  | some last => max id last.id
  | none => id

theorem Works.lastEventId_eq {events : List HistoryEvent} (works : Works e (e.unseen events) e')
    (increasing : events.Pairwise (fun a b => a.id < b.id)) :
    e'.lastEventId = reach e.lastEventId events := by
  obtain ⟨-, -, stands⟩ := works.events_ascend
  unfold reach
  cases end' : events.getLast? with
  | none =>
    rw [List.getLast?_eq_none_iff.mp end'] at stands
    exact stands
  | some last =>
    obtain ⟨before, rfl⟩ := List.getLast?_eq_some_iff.mp end'
    have below := (List.pairwise_append.mp increasing).2.2
    change _ = if e.lastEventId ≤ last.id then last.id else e.lastEventId
    -- Either the last event is new, and then it is the last that is applied; or all are old.
    by_cases new : e.lastEventId < last.id
    · have seen : e.unseen (before ++ [last]) = e.unseen before ++ [last] := by
        simp [unseen, List.filter_append, new]
      rw [stands, seen, List.getLast?_concat, if_pos (Int64.le_of_lt new)]
      rfl
    · have old := Int64.not_lt.mp new
      have nothing : e.unseen (before ++ [last]) = [] := by
        refine List.filter_eq_nil_iff.mpr fun x member => ?_
        have upTo : x.id ≤ last.id := by
          rcases List.mem_append.mp member with earlier | here
          · exact Int64.le_of_lt (below x earlier last (by simp))
          · rw [List.mem_singleton.mp here]
            exact Int64.le_refl _
        simpa using Int64.not_lt.mpr (Int64.le_trans upTo old)
      rw [stands, nothing]
      split
      · next same => exact Int64.le_antisymm old same |>.symm
      · rfl

theorem process_history_accepted {t : DecisionTask} {c : Completion}
    (answered : e.process t = (.ok c, e')) :
    ∃ q, BatchQueue.ofHistory t.history t.startedEventId = .ok q := by
  obtain ⟨replayed, replay, -⟩ := process_ok_of_startFor answered
  exact replay_history_accepted replay

theorem handedOut_increasing {t : DecisionTask} {q : BatchQueue}
    (accepted : BatchQueue.ofHistory t.history t.startedEventId = .ok q) :
    t.handedOut.Pairwise (fun a b => a.id < b.id) := by
  obtain ⟨-, -, -, ordered, -⟩ := BatchQueue.ofHistory_eq_ok accepted
  rw [(DecisionTask.history_eq accepted).1] at ordered
  exact (List.pairwise_append.mp ordered).1

theorem process_works {t : DecisionTask} {c : Completion} (answered : e.process t = (.ok c, e')) :
    Works (e.startFor t) ((e.startFor t).unseen t.handedOut) e' := by
  obtain ⟨q, accepted⟩ := process_history_accepted answered
  obtain ⟨replayed, replay, rfl, -⟩ := process_ok_of_startFor answered
  have batches := applyBatches_works (handedOut_increasing accepted) (replay_ok_applyBatches replay)
  have taken := batches.trans (.answer (.done _))
  rwa [List.append_nil] at taken

/-- An answer applies the unseen events of the batches of its task, in the order of their ids and
each once, and nothing else.  The history of the task is those batches and a tail, which holds no
closing event and no start at or after the task that is answered.  There is no tail exactly if the
history ends where a batch ends: then the engine stands where the history ends. -/
theorem process_consumes {t : DecisionTask} {c : Completion}
    (answered : e.process t = (.ok c, e')) :
    let start := e.startFor t
    t.history = t.handedOut ++ t.leftOver ∧
      Works start (start.unseen t.handedOut) e' ∧
      (start.unseen t.handedOut).Pairwise (fun a b => a.id < b.id) ∧
      e'.lastEventId = reach start.lastEventId t.handedOut ∧
      (∀ event ∈ t.leftOver, event.type.isDecisionTaskClosing = false ∧
        (event.type.isDecisionTaskStarted = true → event.id < t.startedEventId)) ∧
      (t.leftOver = [] ↔ EndsWhole t.startedEventId t.history) ∧
      (EndsWhole t.startedEventId t.history →
        Works start (start.unseen t.history) e' ∧
          e'.lastEventId = reach start.lastEventId t.history) := by
  intro start
  obtain ⟨q, accepted⟩ := process_history_accepted answered
  obtain ⟨history, short⟩ := DecisionTask.history_eq accepted
  have increasing := handedOut_increasing accepted
  have works := process_works answered
  have nothing := DecisionTask.leftOver_eq_nil_iff accepted
  refine ⟨history, works, works.events_ascend.1, works.lastEventId_eq increasing, short, nothing,
    ?_⟩
  intro whole
  have all : t.history = t.handedOut := by
    rw [history, nothing.mpr whole, List.append_nil]
  rw [all]
  exact ⟨works, works.lastEventId_eq increasing⟩

def secondTask : DecisionTask where
  history := completedWith [.activityTaskScheduled { activityId := "a" }]
  startedEventId := 7
  previousStartedEventId := 3

def afterFirstTask : Engine :=
  ((new {} (.oneActivity "a")).process
    { history := secondTask.history.take 3, startedEventId := 3 }).2

/-- The second task brings an engine from the start of the first task, event 3, to its own start,
event 7. -/
theorem second_task_consumed :
    ∃ e', afterFirstTask.lastEventId = 3 ∧
      afterFirstTask.process secondTask =
        (.ok { decisions := [], workflowCompleted := false }, e') ∧
      Works afterFirstTask (secondTask.history.drop 3) e' ∧ e'.lastEventId = 7 := by
  have stands : afterFirstTask.lastEventId = 3 := by cbv
  have fresh : afterFirstTask.isStaleFor secondTask = false := by cbv
  have outcome : (afterFirstTask.process secondTask).1 =
      .ok { decisions := [], workflowCompleted := false } := by cbv
  obtain ⟨-, -, -, -, -, -, consumed⟩ := process_consumes (Prod.ext outcome rfl)
  have opened : LeavesOpen 7 secondTask.history :=
    ⟨secondTask.history.take 6, eventOf 7 (.decisionTaskStarted {}), [], rfl, rfl, by decide,
      by simp⟩
  obtain ⟨works, reached⟩ := consumed (.opened opened)
  have start : afterFirstTask.startFor secondTask = afterFirstTask := by
    unfold startFor
    rw [fresh]
    rfl
  have unseen : afterFirstTask.unseen secondTask.history = secondTask.history.drop 3 := by
    unfold Engine.unseen
    rw [stands]
    decide
  rw [start, unseen] at works
  rw [start, stands] at reached
  exact ⟨_, stands, Prod.ext outcome rfl, works, reached⟩

end Engine

/-! ## A tail behind an answer -/

def Workflow.immediate : Workflow where
  start _ := .ok (.done (.ok (.int 1)))

/-- A task whose history ends, with a signal, before the start of the task. -/
def shortTask : DecisionTask where
  history := historyOf [
    .workflowExecutionStarted {},
    .decisionTaskScheduled {},
    .decisionTaskStarted { scheduledEventId := 2 },
    .decisionTaskCompleted { scheduledEventId := 2, startedEventId := 3 },
    .workflowExecutionSignaled { signalName := "s1" }]
  startedEventId := 7

/-- The task is answered, and the signal is not applied. -/
theorem Engine.signal_left_behind_answer :
    ((new {} .immediate).process shortTask).1 = .ok {
        decisions := [.completeWorkflowExecution (some [91, 49, 93])]
        workflowCompleted := true } ∧
      shortTask.leftOver = [eventOf 5 (.workflowExecutionSignaled { signalName := "s1" })] ∧
      ((new {} .immediate).process shortTask).2.lastEventId = 4 ∧
      ((new {} .immediate).process shortTask).2.lastEventId ≠
        reach ((new {} .immediate).startFor shortTask).lastEventId shortTask.history := by
  have outcome : ((new {} .immediate).process shortTask).1 = .ok {
      decisions := [.completeWorkflowExecution (some [91, 49, 93])]
      workflowCompleted := true } := by cbv
  have stands : ((new {} .immediate).process shortTask).2.lastEventId = 4 := by cbv
  refine ⟨outcome, by decide, stands, ?_⟩
  rw [stands]
  decide

end WorkflowReplay
