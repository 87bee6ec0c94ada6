import WorkflowReplay.Proofs.Run.Clock
import WorkflowReplay.Proofs.Run.Touching
import WorkflowReplay.Proofs.Schedule.Fairness

/-!
# An engine serves its tasks in order

Whatever an engine does with its scheduler is a list of deeds: it starts the task of the workflow,
resolves placeholders as the history tells, lets the code run, and takes the output of the workflow.
So the tasks of a run are polled first come, first served, and who has ended is reported once and
never polled again.
-/

set_option autoImplicit false

namespace WorkflowReplay

namespace Schedule.Scheduler

variable {I : Interface} {m : Meaning I} {s s' s'' : Scheduler I}

theorem AllowsAll.append {deeds later : List (Deed I)} (allowed : s.AllowsAll m deeds)
    (allowed' : (s.doesAll m deeds).AllowsAll m later) : s.AllowsAll m (deeds ++ later) := by
  induction deeds generalizing s with
  | nil => exact allowed'
  | cons deed rest ih => exact ⟨allowed.1, ih allowed.2 allowed'⟩

theorem runs_append (s : Scheduler I) (deeds later : List (Deed I)) :
    s.runs m (deeds ++ later) = s.runs m deeds ++ (s.doesAll m deeds).runs m later := by
  induction deeds generalizing s with
  | nil => rfl
  | cons deed rest ih =>
    cases deed with
    | run => exact congrArg (s :: ·) (ih _)
    | _ => exact ih _

/-- Deeds that are allowed lead from one scheduler to another, with these polls on the way. -/
def Leads (m : Meaning I) (s : Scheduler I) (ps : List (Poll I)) (s' : Scheduler I) : Prop :=
  ∃ deeds, s.AllowsAll m deeds ∧ s.doesAll m deeds = s' ∧ (s.runs m deeds).flatMap (polls m) = ps

namespace Leads

theorem refl (s : Scheduler I) : Leads m s [] s := ⟨[], trivial, rfl, rfl⟩

theorem trans {ps ps' : List (Poll I)} (first : Leads m s ps s') (second : Leads m s' ps' s'') :
    Leads m s (ps ++ ps') s'' := by
  obtain ⟨deeds, allowed, rfl, rfl⟩ := first
  obtain ⟨later, allowed', rfl, rfl⟩ := second
  refine ⟨deeds ++ later, allowed.append allowed', List.foldl_append, ?_⟩
  rw [runs_append, List.flatMap_append]

theorem spawn (s : Scheduler I) (code : Code I) : Leads m s [] (s.spawn code).2 :=
  ⟨[.spawn code], ⟨trivial, trivial⟩, rfl, rfl⟩

theorem share (s : Scheduler I) (shared : I.Shared) :
    Leads m s [] { s with world := { s.world with shared } } :=
  ⟨[.share shared], ⟨trivial, trivial⟩, rfl, rfl⟩

theorem run (s : Scheduler I) : Leads m s (s.polls m) (s.run m).2 :=
  ⟨[.run], ⟨trivial, trivial⟩, rfl, List.append_nil _⟩

theorem touch (s : Scheduler I) {t : Touch I.Value I.Output} (own : t.IsOwn)
    (wakes : t.waker? = none) :
    Leads m s [] { s with world := { s.world with board := s.world.board.touch t } } :=
  ⟨[.touch t], ⟨⟨own, by simp [wakes]⟩, trivial⟩, rfl, rfl⟩

theorem touches (s : Scheduler I) {ts : List (Touch I.Value I.Output)}
    (own : ∀ t ∈ ts, t.IsOwn ∧ t.waker? = none) :
    Leads m s []
      { s with world := { s.world with board := ts.foldl Board.touch s.world.board } } := by
  induction ts generalizing s with
  | nil => exact .refl s
  | cons t rest ih =>
    obtain ⟨first, wakes⟩ := own t (by simp)
    exact (touch s first wakes).trans (ih _ fun t member => own t (List.mem_cons_of_mem _ member))

end Leads

end Schedule.Scheduler

namespace Engine

open Schedule Scheduler

variable {e e' : Engine}

/-! ## What an engine does with its scheduler -/

theorem inContext_leads (e : Engine) (f : Context → Context) :
    Leads Run.meaning e.scheduler [] (e.inContext f).scheduler := .share _ _

theorem startRoot_leads (e : Engine) (input : Option Payload) :
    Leads Run.meaning e.scheduler [] (e.startRoot input).2.scheduler := by
  unfold startRoot
  split
  · exact .refl _
  · split
    · exact .refl _
    · next code _ => exact .spawn _ code

theorem applyEvent_leads (e : Engine) (event : HistoryEvent) :
    Leads Run.meaning e.scheduler [] (e.applyEvent event).2.scheduler := by
  unfold applyEvent
  split
  · exact .refl _
  · simp only
    split
    · next a _ => exact startRoot_leads { e with lastEventId := event.id } a.input
    · split
      · exact .refl _
      · next world applied =>
        obtain ⟨ts, resolves, board⟩ := Run.applyEvent_board applied
        have touched : Leads Run.meaning e.scheduler []
            { e.scheduler with
              world := { e.scheduler.world with
                board := ts.foldl Board.touch e.scheduler.world.board } } := by
          refine .touches _ fun t member => ?_
          obtain ⟨p, o, rfl⟩ := resolves t member
          exact ⟨trivial, rfl⟩
        rw [← board] at touched
        exact touched.trans (.share _ world.shared)

theorem applyEvents_leads (e : Engine) (events : List HistoryEvent) :
    Leads Run.meaning e.scheduler [] (e.applyEvents events).2.scheduler := by
  induction events generalizing e with
  | nil => exact .refl _
  | cons event rest ih =>
    have first := applyEvent_leads e event
    rw [applyEvents]
    split
    · next applied =>
      rw [applied] at first
      exact first.trans (ih _)
    · exact first

theorem runTasks_leads (e : Engine) :
    Leads Run.meaning e.scheduler (polls Run.meaning e.runnable e.scheduler.world)
      e.runTasks.2.scheduler := by
  have ran : Leads Run.meaning e.scheduler (polls Run.meaning e.runnable e.scheduler.world)
      (e.scheduler.run Run.meaning).2 := .run _
  unfold runTasks
  simp only
  split
  · simpa using ran.trans (inContext_leads { e with scheduler := (e.scheduler.run Run.meaning).2 }
      _)
  · split <;> exact ran

theorem enter_leads (e : Engine) (b : Batch) :
    Leads Run.meaning e.scheduler [] (e.enter b).scheduler := by
  unfold enter
  split
  · exact inContext_leads e _
  · exact inContext_leads { e with lastLiveId := b.taskStartedId } _

theorem acknowledge_leads (e : Engine) (b : Batch) :
    Leads Run.meaning e.scheduler [] (e.acknowledge b).scheduler := by
  unfold acknowledge
  split
  · exact inContext_leads _ _
  · exact .refl _

theorem applyBatch_leads (e : Engine) (b : Batch) :
    Leads Run.meaning e.scheduler (e.pollsOfBatch b) (e.applyBatch b).2.scheduler := by
  have entered := (enter_leads e b).trans (applyEvents_leads (e.enter b) b.events)
  rw [applyBatch_eq_stages, pollsOfBatch]
  cases applied : (e.enter b).applyEvents b.events with
  | mk outcome e₁ =>
    rw [applied] at entered
    cases outcome with
    | error fault => exact entered
    | ok =>
      have ran := entered.trans (runTasks_leads e₁)
      simp only
      cases run : e₁.runTasks with
      | mk outcome e₂ =>
        rw [run] at ran
        cases outcome with
        | error fault => exact ran
        | ok =>
          have told := ran.trans
            ((acknowledge_leads e₂ b).trans (applyEvents_leads (e₂.acknowledge b) b.decisionEvents))
          simpa using told

theorem applyBatches_leads (e : Engine) (bs : List Batch) :
    Leads Run.meaning e.scheduler ((e.pollsOfBatches bs).map Prod.snd)
      (e.applyBatches bs).2.scheduler := by
  induction bs generalizing e with
  | nil => exact .refl _
  | cons b rest ih =>
    have first := applyBatch_leads e b
    have here : ((e.pollsOfBatch b).map (b, ·)).map Prod.snd = e.pollsOfBatch b := by simp
    rw [applyBatches, pollsOfBatches, List.map_append, here]
    cases applied : e.applyBatch b with
    | mk outcome e₁ =>
      rw [applied] at first
      cases outcome with
      | ok => exact first.trans (ih e₁)
      | error fault => simpa using first

theorem takeDecisions_leads (e : Engine) :
    Leads Run.meaning e.scheduler [] e.takeDecisions.2.scheduler := by
  have taken (e : Engine) : Leads Run.meaning e.scheduler [] e.takeTerminal.2.scheduler := by
    unfold takeTerminal
    split
    · exact .refl _
    · split
      · exact .refl _
      · next id _ =>
        have touched : Leads Run.meaning e.scheduler []
            { e.scheduler with
              world := { e.scheduler.world with
                board := e.scheduler.world.board.touch (.takeOutput id) } } :=
          .touch _ trivial rfl
        simp only
        split <;> exact touched
  rw [takeDecisions_eq]
  exact (inContext_leads e _).trans (taken _)

theorem process_leads {t : DecisionTask} {c : Completion} (answered : e.process t = (.ok c, e')) :
    Leads Run.meaning (e.startFor t).scheduler
      (((e.startFor t).pollsOfBatches t.batches).map Prod.snd) e'.scheduler := by
  obtain ⟨replayed, replay, rfl, -⟩ := process_ok_of_startFor answered
  have batches := applyBatches_leads (e.startFor t) t.batches
  rw [replay_ok_applyBatches replay] at batches
  simpa using batches.trans (takeDecisions_leads replayed)

theorem answers?_leads {ts : List DecisionTask} {answers : List Answer}
    (answered : e.answers? ts = some (answers, e')) :
    Leads Run.meaning e.scheduler ((e.pollsOfTasks ts).map Prod.snd) e'.scheduler := by
  induction ts generalizing e answers with
  | nil =>
    cases answered
    exact .refl _
  | cons t ts ih =>
    obtain ⟨a, e₁, as, first, later, rfl⟩ := answers?_cons_cases answered
    obtain ⟨start, processed⟩ := answer?_eq_some first
    have now := process_leads processed
    rw [start] at now
    simp only [pollsOfTasks, start, processed, List.map_append]
    exact now.trans (ih later)

/-- All that an engine does from its first task on is a list of deeds with its scheduler, and the
polls of the run are theirs.  So the tasks of the workflow are polled in the order in which they
were first queued since their last polls, and who has ended is reported once and never polled
again. -/
theorem polls_first_come_first_served {info : RunInfo} {workflow : Workflow}
    {ts : List DecisionTask} {answers : List Answer}
    (answered : (new info workflow).answers? ts = some (answers, e')) :
    ∃ deeds, (new info workflow).scheduler.doesAll Run.meaning deeds = e'.scheduler ∧
      ((new info workflow).scheduler.runs Run.meaning deeds).flatMap (Scheduler.polls Run.meaning) =
        ((new info workflow).pollsOfTasks ts).map Prod.snd ∧
      FirstComeFirstServed Run.tracing (new info workflow).scheduler deeds ∧
      EndsOnce Run.meaning (new info workflow).scheduler deeds := by
  obtain ⟨deeds, allowed, does, polls⟩ := answers?_leads answered
  have logged := start_logged (I := calls) (Context.new info)
  have proper := (doesAll_logged Run.tracing_wakesTasks allowed logged).proper
  exact ⟨deeds, does, polls, logged.firstComeFirstServed Run.tracing_wakesTasks allowed,
    proper.endsOnce⟩

end Engine

end WorkflowReplay
