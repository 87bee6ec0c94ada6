import WorkflowReplay.Proofs.Run.Consumption

/-!
# Answers that are lost

An answer is lost when its task failed or ran out of time, or when the orchestrator never received
it and delivers the task again.  An engine that sees from a task that its last answer was lost
starts again from the first event, and answers as a new engine does.  An engine that does not see
it finds nothing to do: its decisions count as sent, so it answers with none.
-/

set_option autoImplicit false

namespace WorkflowReplay

open Schedule

theorem Ledger.pending_of_settled {m : Ledger} (settled : m.notifySent = m) : m.pending = [] := by
  unfold Ledger.pending pendingOf
  refine List.flatMap_eq_nil_iff.mpr fun i member => ?_
  cases found : m.machines[i]? with
  | none => rfl
  | some machine =>
    have sent := notifySent_machine m i
    rw [settled, if_pos member, found, Option.map_some] at sent
    have same : machine.life.markSent = machine.life :=
      congrArg Machine.life (Option.some.inj sent).symm
    exact Machine.pending_of_settled (same ▸ Lifecycle.markSent_settled machine.life)

namespace Engine

variable {e e₁ e' : Engine}

/-! ## The run that an engine belongs to -/

structure SameRun (e e' : Engine) : Prop where
  info : e'.info = e.info
  workflow : e'.workflow = e.workflow

theorem SameRun.refl (e : Engine) : SameRun e e := ⟨rfl, rfl⟩

theorem SameRun.trans {a b c : Engine} (first : SameRun a b) (second : SameRun b c) : SameRun a c :=
  ⟨second.info.trans first.info, second.workflow.trans first.workflow⟩

theorem SameRun.reset_eq_new (same : SameRun e e') : e'.reset = new e.info e.workflow := by
  rw [Engine.reset, same.info, same.workflow]

theorem applyEvent_workflow (e : Engine) (event : HistoryEvent) :
    (e.applyEvent event).2.workflow = e.workflow := by
  unfold applyEvent startRoot
  dsimp only
  split
  · rfl
  · split
    · split
      · rfl
      · split <;> rfl
    · split <;> rfl

theorem Works.sameRun {events : List HistoryEvent} (works : Works e events e') :
    SameRun e e' := by
  induction works with
  | done e => exact .refl e
  | @apply e e₁ e' event later new applied _ ih =>
    refine .trans ⟨?_, ?_⟩ ih
    · have fixed := (applyEvents_fixed e [event]).1.info
      simp only [applyEvents, applied] at fixed
      exact fixed
    · have same := applyEvent_workflow e event
      rwa [applied] at same
  | @enter e e' events b _ ih =>
    obtain ⟨sideEffects, entered⟩ := enter_eq e b
    refine .trans ⟨?_, (twins_enter e b).workflow.symm⟩ ih
    rw [info, entered]
    rfl
  | @run e e₁ e' events ran _ ih =>
    obtain rfl : e.runTasks.2 = e₁ := congrArg Prod.snd ran
    refine .trans ⟨(runTasks_fixed e).info, ?_⟩ ih
    rw [runTasks_eq]
  | @acknowledge e e' events b _ ih =>
    refine .trans ⟨(acknowledge_fixed e b).1.info, ?_⟩ ih
    unfold Engine.acknowledge
    split <;> rfl
  | @answer e e' events _ ih =>
    obtain ⟨outputs, completionEmitted, taken⟩ := takeTerminal_eq e.notified
    refine .trans ⟨?_, ?_⟩ ih
    · rw [info, takeDecisions_context]
      rfl
    · rw [takeDecisions_eq, taken]
      rfl

theorem startFor_sameRun (e : Engine) (t : DecisionTask) : SameRun e (e.startFor t) := by
  unfold startFor
  split <;> exact ⟨rfl, rfl⟩

theorem process_sameRun {t : DecisionTask} {c : Completion}
    (answered : e.process t = (.ok c, e')) : SameRun e e' :=
  (startFor_sameRun e t).trans (process_works answered).sameRun

/-! ## After an answer -/

theorem takeTerminal_of_emitted (emitted : e.completionEmitted = true) :
    e.takeTerminal = (none, e) := by
  simp [takeTerminal, emitted]

theorem takeTerminal_eq_none_of_goesOn (goesOn : e.takeTerminal.2.completionEmitted = false) :
    e.takeTerminal.1 = none := by
  unfold takeTerminal at goesOn ⊢
  cases emitted : e.completionEmitted with
  | true => rfl
  | false =>
    simp only [emitted, Bool.false_eq_true, if_false] at goesOn ⊢
    cases root : e.root with
    | none => rfl
    | some id =>
      simp only [root] at goesOn ⊢
      cases output : (e.scheduler.world.board.takeOutput id).1 with
      | none => rfl
      | some r => simp [output] at goesOn

theorem takeTerminal_again_none (e : Engine) :
    e.takeTerminal.2.takeTerminal.1 = none ∧
      e.takeTerminal.2.takeTerminal.2.completionEmitted = e.takeTerminal.2.completionEmitted := by
  cases after : e.takeTerminal.2.completionEmitted with
  | true =>
    rw [takeTerminal_of_emitted after]
    exact ⟨rfl, after⟩
  | false =>
    obtain ⟨terminal, twins⟩ := (takeTerminal_twins after).takeTerminal
    have silent := takeTerminal_eq_none_of_goesOn after
    exact ⟨terminal.symm.trans silent, twins.completionEmitted.symm.trans after⟩

theorem takeDecisions_again_nil (e : Engine) :
    e.takeDecisions.2.takeDecisions.1 = [] ∧
      e.takeDecisions.2.takeDecisions.2.completionEmitted =
        e.takeDecisions.2.completionEmitted := by
  have settled :
      e.takeDecisions.2.context.ledger.notifySent = e.takeDecisions.2.context.ledger := by
    rw [takeDecisions_context]
    exact Ledger.notifySent_notifySent _
  obtain ⟨terminal, completed⟩ := takeTerminal_again_none e.notified
  rw [takeDecisions_eq e.takeDecisions.2, notified_of_settled settled,
    Ledger.pending_of_settled settled, takeDecisions_eq e]
  exact ⟨by rw [terminal]; rfl, completed⟩

/-- A live batch ends with the turns of the workflow, and its start is remembered. -/
theorem applyBatch_live_sets_lastLiveId {b : Batch} {started : EventId} (live : b.IsLive started)
    (applied : e.applyBatch b = (.ok (), e')) :
    ∃ entered : Engine, entered.runTasks.2 = e' ∧ entered.lastLiveId = b.taskStartedId := by
  obtain ⟨entered, ran, events, turns, decisions⟩ := applyBatch_ok_stages applied
  have unaccepted : accepts b = false := by simp [accepts, live.replay]
  have same : ran = e' := by
    simp only [live.decisions, applyEvents, acknowledge, unaccepted, Bool.false_eq_true,
      if_false, Prod.mk.injEq, true_and] at decisions
    exact decisions
  refine ⟨entered, (congrArg Prod.snd turns).trans same, ?_⟩
  have kept := applyEvents_lastLiveId (e.enter b) b.events
  rw [events] at kept
  exact kept.trans (by simp [enter, live.replay, inContext, inRun])

/-- An engine that answered a task which its history leaves open is at rest, and remembers the
start of an open task. -/
theorem process_leaves_rested {t : DecisionTask} {c : Completion}
    (answered : e.process t = (.ok c, e')) (opened : LeavesOpen t.startedEventId t.history) :
    Rested e' ∧ ∃ start ∈ t.history, start.type.isDecisionTaskStarted = true ∧
      t.startedEventId ≤ start.id ∧ e'.lastLiveId = start.id := by
  obtain ⟨q, accepted⟩ := process_history_accepted answered
  obtain ⟨replayed, replay, rfl, -⟩ := process_ok_of_startFor answered
  obtain ⟨earlier, b, batches, live⟩ := DecisionTask.exists_live_last_batch accepted opened
  have applied := replay_ok_applyBatches replay
  rw [batches, applyBatches_concat] at applied
  split at applied
  · obtain ⟨entered, rfl, lastLiveId⟩ := applyBatch_live_sets_lastLiveId live applied
    obtain ⟨start, member, starts, reaches, id⟩ := live.start
    have handed : start ∈ t.handedOut := by
      unfold DecisionTask.handedOut
      rw [batches]
      exact List.mem_flatMap.mpr ⟨b, by simp, List.mem_append_left _ member⟩
    refine ⟨.of_runTasks_takeDecisions entered, start, ?_, starts, reaches, ?_⟩
    · rw [(DecisionTask.history_eq accepted).1]
      exact List.mem_append_left _ handed
    · rw [(answer_keeps_event_ids entered).2, lastLiveId, id]
  · next failed => exact absurd applied (failed _)

/-! ## Tasks that bring nothing new -/

theorem Rested.applyBatches_of_seen (h : Rested e) (bs : List Batch)
    (old : ∀ event ∈ bs.flatMap Batch.all, event.id ≤ e.lastEventId) :
    ∃ e₁, e.applyBatches bs = (.ok (), e₁) ∧ Twins e e₁ := by
  induction bs generalizing e with
  | nil => exact ⟨e, rfl, .refl e⟩
  | cons b rest ih =>
    have seen (event : HistoryEvent) (member : event ∈ b.all) : event.id ≤ e.lastEventId :=
      old event (by simp [member])
    have first := h.applyBatch_of_seen b
      (fun event member => seen event (List.mem_append_left _ member))
      (fun event member => seen event (List.mem_append_right _ member))
    obtain ⟨e₁, passed, twins⟩ := ih (h.enter b) fun event member => by
      rw [enter_lastEventId]
      exact old event (by
        rw [List.flatMap_cons]
        exact List.mem_append_right _ member)
    refine ⟨e₁, ?_, (twins_enter e b).trans twins⟩
    simp only [applyBatches, first]
    exact passed

theorem replay_eq {t : DecisionTask} {q : BatchQueue}
    (accepted : BatchQueue.ofHistory t.history t.startedEventId = .ok q) :
    e.replay t =
      match e.applyBatches t.batches with
      | (.ok (), e) =>
        if e.root.isNone && !e.completionEmitted then
          (.error (.error (.replay (.malformedHistory .neverStarted))), e)
        else (.ok (), e)
      | failed => failed := by
  unfold Engine.replay DecisionTask.batches
  generalize BatchQueue.ofHistory t.history t.startedEventId = queue? at accepted ⊢
  subst accepted
  rfl

theorem replay_starts_root {t : DecisionTask} (replayed : e.replay t = (.ok (), e')) :
    (e'.root.isNone && !e'.completionEmitted) = false := by
  obtain ⟨q, accepted⟩ := replay_history_accepted replayed
  rw [replay_eq accepted] at replayed
  split at replayed
  · split at replayed
    · simp at replayed
    · next started =>
      cases replayed
      simpa using started
  · next failed => exact absurd replayed (failed _)

theorem process_starts_root {t : DecisionTask} {c : Completion}
    (answered : e.process t = (.ok c, e')) : (e'.root.isNone && !e'.completionEmitted) = false := by
  obtain ⟨replayed, replay, rfl, -⟩ := process_ok_of_startFor answered
  have started := replay_starts_root replay
  rw [takeDecisions_eq]
  cases emitted : replayed.completionEmitted with
  | true =>
    have still : replayed.notified.completionEmitted = true := emitted
    simp [takeTerminal_of_emitted still, still]
  | false =>
    obtain ⟨outputs, completionEmitted, taken⟩ := takeTerminal_eq replayed.notified
    rw [emitted, Bool.not_false, Bool.and_true] at started
    rw [taken]
    have root : replayed.notified.root.isNone = false := started
    simp only [root, Bool.false_and]

/-- An engine that answered an open task, and sees no lost answer in a task that brings nothing new,
answers that one with no decisions. -/
theorem process_of_seen_history {t₀ t : DecisionTask} {c : Completion}
    (answered : e.process t₀ = (.ok c, e'))
    (opened : LeavesOpen t₀.startedEventId t₀.history) (ordered : IsOrdered t.history)
    (goesOn : e'.isStaleFor t = false) (old : ∀ event ∈ t.history, event.id ≤ e'.lastEventId) :
    (e'.process t).1 = .ok { decisions := [], workflowCompleted := c.workflowCompleted } := by
  have rested := (process_leaves_rested answered opened).1
  have started := process_starts_root answered
  obtain ⟨lastEventId, accepted⟩ :=
    BatchQueue.ofHistory_ok t.startedEventId ordered.positive ordered.increasing
  have handed (event : HistoryEvent) (member : event ∈ t.handedOut) :
      event.id ≤ e'.lastEventId := by
    refine old event ?_
    rw [(DecisionTask.history_eq accepted).1]
    exact List.mem_append_left _ member
  obtain ⟨e₁, passed, twins⟩ := rested.applyBatches_of_seen t.batches handed
  obtain ⟨decisions, after⟩ := twins.takeDecisions
  have replay : e'.replay t = (.ok (), e₁) := by
    rw [replay_eq accepted, passed]
    simp only [← twins.root, ← twins.completionEmitted, started, Bool.false_eq_true, if_false]
  obtain ⟨replayed, -, same, completion⟩ := process_ok_of_startFor answered
  obtain ⟨silent, completed⟩ := takeDecisions_again_nil replayed
  rw [← same] at silent completed
  unfold process
  simp only [goesOn, Bool.false_and, Bool.false_eq_true, if_false, replay]
  rw [← decisions, silent, ← after.completionEmitted, completed, completion, same]

theorem process_of_stale {t : DecisionTask} (stale : e.isStaleFor t = true)
    (full : t.hasFullHistory = true) : e.process t = e.reset.process t := by
  have fresh : e.reset.isStaleFor t = false := rfl
  unfold process
  simp only [stale, full, fresh, Bool.not_true, Bool.and_false, Bool.false_eq_true, if_false,
    if_true]

/-! ## Lost answers -/

/-- The last live answer of the engine was lost: a task failed or ran out of time after it, or the
same task is delivered again, with nothing new in its history. -/
inductive LosesAnswer (e : Engine) (t : DecisionTask) : Prop where
  | closed {event : HistoryEvent} (member : event ∈ t.history) (later : e.lastLiveId < event.id)
    (type : event.type = .decisionTaskFailed ∨ event.type = .decisionTaskTimedOut)
  | again (started : t.startedEventId = e.lastLiveId)
    (old : ∀ event ∈ t.history, event.id ≤ e.lastEventId)

theorem isStaleFor_iff {t : DecisionTask} (live : e.lastLiveId ≠ 0) :
    e.isStaleFor t = true ↔
      (0 < t.previousStartedEventId ∧ t.previousStartedEventId ≠ e.lastLiveId) ∨
        ∃ event ∈ t.history, e.lastLiveId < event.id ∧
          (event.type = .decisionTaskFailed ∨ event.type = .decisionTaskTimedOut) := by
  simp [isStaleFor, isLostAnswer, live]

/-- After an answer to an open task was lost, an engine answers as a new one does exactly when the
next task shows the loss, by a task that failed or ran out of time or by naming another task as the
one before, or when a new engine has nothing to decide either. -/
theorem lost_answer_reproduced_iff {e₀ e : Engine} {t₀ t : DecisionTask} {c : Completion}
    (answered : e₀.process t₀ = (.ok c, e)) (opened : LeavesOpen t₀.startedEventId t₀.history)
    (ordered : IsOrdered t.history) (full : t.hasFullHistory = true) (lost : e.LosesAnswer t) :
    (e.process t).1 = ((new e₀.info e₀.workflow).process t).1 ↔
      (0 < t.previousStartedEventId ∧ t.previousStartedEventId ≠ e.lastLiveId) ∨
        (∃ event ∈ t.history, e.lastLiveId < event.id ∧
          (event.type = .decisionTaskFailed ∨ event.type = .decisionTaskTimedOut)) ∨
        ((new e₀.info e₀.workflow).process t).1 =
          .ok { decisions := [], workflowCompleted := c.workflowCompleted } := by
  obtain ⟨-, start, member, -, -, id⟩ := process_leaves_rested answered opened
  obtain ⟨q, accepted⟩ := process_history_accepted answered
  obtain ⟨-, -, -, -, positive⟩ := BatchQueue.ofHistory_eq_ok accepted
  have live : e.lastLiveId ≠ 0 := by
    rw [id]
    exact (Int64.ne_of_lt (positive start member)).symm
  rw [← or_assoc, ← isStaleFor_iff live]
  cases goesOn : e.isStaleFor t with
  | true =>
    have reset : e.reset = new e₀.info e₀.workflow := (process_sameRun answered).reset_eq_new
    simp [process_of_stale goesOn full, reset]
  | false =>
    have nothingNew : ∀ event ∈ t.history, event.id ≤ e.lastEventId := by
      cases lost with
      | closed member later type =>
        have stale := (isStaleFor_iff live).mpr (.inr ⟨_, member, later, type⟩)
        simp [goesOn] at stale
      | again _ old => exact old
    rw [process_of_seen_history answered opened ordered goesOn nothingNew]
    simp only [Bool.false_eq_true, false_or]
    exact eq_comm

def firstTask : DecisionTask where
  history := secondTask.history.take 3
  startedEventId := 3

def taskAfterTimeout : DecisionTask where
  history := historyOf [
    .workflowExecutionStarted {},
    .decisionTaskScheduled {},
    .decisionTaskStarted { scheduledEventId := 2 },
    .decisionTaskTimedOut { scheduledEventId := 2, startedEventId := 3 },
    .decisionTaskScheduled {},
    .decisionTaskStarted { scheduledEventId := 5 }]
  startedEventId := 6

def schedulesActivity : Completion where
  decisions := [.scheduleActivityTask {
    activityId := "a", activityType := "work", input := some [91, 110, 117, 108, 108, 93]
    scheduleToCloseTimeoutSeconds := 300, scheduleToStartTimeoutSeconds := 60
    startToCloseTimeoutSeconds := 240 }]
  workflowCompleted := false

theorem firstTask_answered :
    (new {} (.oneActivity "a")).process firstTask = (.ok schedulesActivity, afterFirstTask) := by
  have outcome : ((new {} (.oneActivity "a")).process firstTask).1 = .ok schedulesActivity := by cbv
  exact Prod.ext outcome rfl

theorem firstTask_open : LeavesOpen firstTask.startedEventId firstTask.history :=
  ⟨firstTask.history.take 2, eventOf 3 (.decisionTaskStarted { scheduledEventId := 2 }), [], rfl,
    rfl, by decide, by simp⟩

/-- The decision of a first task that ran out of time is made again. -/
theorem timed_out_decision_reproduced :
    afterFirstTask.LosesAnswer taskAfterTimeout ∧
      (afterFirstTask.process taskAfterTimeout).1 = .ok schedulesActivity := by
  have stands : afterFirstTask.lastLiveId = 3 := by cbv
  have timedOut : ∃ event ∈ taskAfterTimeout.history, afterFirstTask.lastLiveId < event.id ∧
      (event.type = .decisionTaskFailed ∨ event.type = .decisionTaskTimedOut) := by
    rw [stands]
    decide
  obtain ⟨event, member, later, type⟩ := timedOut
  have lost : afterFirstTask.LosesAnswer taskAfterTimeout := .closed member later type
  have fresh : ((new {} (.oneActivity "a")).process taskAfterTimeout).1 =
      .ok schedulesActivity := by cbv
  refine ⟨lost, Eq.trans ?_ fresh⟩
  exact (lost_answer_reproduced_iff firstTask_answered firstTask_open ⟨by decide, by decide⟩ rfl
    lost).mpr (.inr (.inl ⟨event, member, later, type⟩))

/-- A first task that is delivered again names no task before it, so the engine does not see that
its answer was lost: it answers with no decisions, where a new engine schedules the activity. -/
theorem first_task_again_unanswered :
    afterFirstTask.LosesAnswer firstTask ∧
      (afterFirstTask.process firstTask).1 = .ok { decisions := [], workflowCompleted := false } ∧
      ((new {} (.oneActivity "a")).process firstTask).1 = .ok schedulesActivity ∧
      (afterFirstTask.process firstTask).1 ≠ ((new {} (.oneActivity "a")).process firstTask).1 := by
  have live : afterFirstTask.lastLiveId = 3 := by cbv
  have stands : afterFirstTask.lastEventId = 3 := by cbv
  have again : (afterFirstTask.process firstTask).1 =
      .ok { decisions := [], workflowCompleted := false } := by cbv
  have fresh : ((new {} (.oneActivity "a")).process firstTask).1 = .ok schedulesActivity := by cbv
  refine ⟨.again ?_ ?_, again, fresh, ?_⟩
  · rw [live]
    rfl
  · rw [stands]
    decide
  · rw [again, fresh]
    simp [schedulesActivity]

end Engine

end WorkflowReplay
