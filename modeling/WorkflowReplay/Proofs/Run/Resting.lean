import WorkflowReplay.Proofs.Run.Foresight

/-!
# Engines at rest

An engine that answered a task is at rest: no task of its code is ready and no decision is due.
It passes over batches that it has applied, and goes on where it stopped in a batch.  `Orderly`
says what holds of every engine of a run whose workflow is steady.
-/

set_option autoImplicit false

namespace WorkflowReplay

open Schedule

namespace Engine

variable {e e' : Engine}

/-! ## Answers as conclusions -/

def conclude : Except Fault Unit × Engine → Except Fault Completion × Engine
  | (.error fault, e) => (.error fault, e)
  | (.ok (), e) =>
    if e.root.isNone && !e.completionEmitted then
      (.error (.error (.replay (.malformedHistory .neverStarted))), e)
    else
      (.ok {
          decisions := e.takeDecisions.1
          workflowCompleted := e.takeDecisions.2.completionEmitted },
        e.takeDecisions.2)

/-- An engine that need not start again, or can, answers with what it finds in the batches. -/
theorem process_eq_conclude {t : DecisionTask} (batches : t.batches ≠ [])
    (full : e.isStaleFor t = true → t.hasFullHistory = true) :
    e.process t =
      conclude ((if e.isStaleFor t then e.reset else e).applyBatches t.batches) := by
  have fits : (e.isStaleFor t && !t.hasFullHistory) = false := by
    cases stale : e.isStaleFor t with
    | false => rfl
    | true => simp [full stale]
  unfold process
  simp only [fits, Bool.false_eq_true, if_false]
  generalize (if e.isStaleFor t then e.reset else e) = x
  unfold DecisionTask.batches at batches ⊢
  unfold replay
  cases queue : BatchQueue.ofHistory t.history t.startedEventId with
  | error err => simp [queue] at batches
  | ok q =>
    simp only
    generalize x.applyBatches q.drain.1 = r
    obtain ⟨result, e₁⟩ := r
    cases result with
    | error fault => rfl
    | ok =>
      by_cases never : (e₁.root.isNone && !e₁.completionEmitted) = true
      · simp only [conclude, if_pos never]
      · simp only [conclude, if_neg never]

theorem conclude_twins {r r' : Except Fault Unit × Engine} (result : r.1 = r'.1)
    (twins : r.1 = .ok () → Twins r.2 r'.2) : (conclude r).1 = (conclude r').1 := by
  obtain ⟨result₁, e₁⟩ := r
  obtain ⟨result₁', e₁'⟩ := r'
  obtain rfl : result₁ = result₁' := result
  cases result₁ with
  | error fault => rfl
  | ok =>
    have h : Twins e₁ e₁' := twins rfl
    obtain ⟨decisions, after⟩ := h.takeDecisions
    simp only [conclude, ← h.root, ← h.completionEmitted, ← decisions, ← after.completionEmitted]
    split <;> rfl

/-! ## What the stages leave alone -/

theorem runTasks_eq (e : Engine) :
    e.runTasks.2 =
      let rest := takeTurns Run.meaning e.runnable e.scheduler.world
      { e with
        scheduler := {
          world := { rest.world with shared := { rest.world.shared with contradiction := none } }
          tasks := rest.tasks } } := by
  unfold runTasks
  simp only [Scheduler.run, context, runnable]
  split
  · rfl
  · next clean =>
    have same : ∀ w : Run, w.shared.contradiction = none →
        w = { w with shared := { w.shared with contradiction := none } } := by
      intro w none
      rw [← none]
    rw [← same _ clean]
    split <;> rfl

theorem takeTerminal_twins (goesOn : e.takeTerminal.2.completionEmitted = false) :
    Twins e e.takeTerminal.2 := by
  unfold takeTerminal at goesOn ⊢
  cases emitted : e.completionEmitted with
  | true => simp [emitted] at goesOn
  | false =>
    simp only [emitted, Bool.false_eq_true, if_false] at goesOn ⊢
    cases root : e.root with
    | none => exact .refl e
    | some id =>
      simp only [root] at goesOn ⊢
      have output : (e.scheduler.world.board.waiting.outputSlot id).value = none := by
        cases value : (e.scheduler.world.board.waiting.outputSlot id).value with
        | none => rfl
        | some r => simp [Board.takeOutput, Waiting.takeOutput, value] at goesOn
      -- What was taken from the slot was nothing.
      have emptied (slot : Slot (Except Error Json)) (nothing : slot.value = none) :
          { slot with value := none } = slot := by
        rw [← nothing]
      simp only [Board.takeOutput, Waiting.takeOutput, output, emptied _ output]
      refine ⟨rfl, rfl, rfl, rfl, { Run.backdrop e.scheduler.world with
        outputs := e.scheduler.world.board.waiting.outputs.insert id
          (e.scheduler.world.board.waiting.outputSlot id) }, rfl, ?_⟩
      intro id'
      simp only [inRun, Waiting.outputSlot, Table.getD, Table.get?_insert]
      split
      · next same => rw [same, Option.getD_some]
      · rfl

/-! ## Engines at rest -/

theorem notified_of_settled (settled : e.context.ledger.notifySent = e.context.ledger) :
    e.notified = e := by
  simp only [notified, inContext, inRun]
  simp only [context] at settled
  rw [settled]

/-- No task is ready, the code did not leave the history, and no decision is due. -/
structure Rested (e : Engine) : Prop where
  ready : e.scheduler.world.board.ready = []
  clean : e.context.contradiction = none
  settled : e.context.ledger.notifySent = e.context.ledger
  spawned : e.scheduler.spawned = []

namespace Rested

theorem of_runTasks_takeDecisions (e : Engine) : Rested e.runTasks.2.takeDecisions.2 := by
  obtain ⟨outputs, completionEmitted, taken⟩ := takeTerminal_eq e.runTasks.2.notified
  have context := takeDecisions_context e.runTasks.2
  have ran := runTasks_eq e
  refine ⟨?_, ?_, ?_, ?_⟩
  · rw [takeDecisions_eq, taken]
    simp only [notified, inContext, inRun, ran]
    exact takeTurns_ready Run.meaning e.runnable e.scheduler.world
  · rw [context, runTasks_context]
  · rw [context]
    exact Ledger.notifySent_notifySent _
  · rw [takeDecisions_eq, taken]
    simp only [notified, inContext, inRun, ran]

theorem runTasks_eq_self (h : Rested e) : e.runTasks = (.ok (), e) := by
  have idle := takeTurns_idle Run.meaning e.runnable e.scheduler.world h.ready
  have tasks : e.runnable = e.scheduler.tasks := by
    unfold runnable
    rw [h.spawned, List.append_nil]
  unfold Engine.runTasks
  simp only [Scheduler.run]
  rw [show e.scheduler.tasks ++ e.scheduler.spawned = e.runnable from rfl, idle, tasks]
  simp only [context, show e.scheduler.world.shared.contradiction = none from h.clean]
  rw [← h.spawned]

theorem acknowledge_eq_self (h : Rested e) (b : Batch) : e.acknowledge b = e := by
  unfold Engine.acknowledge
  split
  · exact notified_of_settled h.settled
  · rfl

theorem enter (h : Rested e) (b : Batch) : Rested (e.enter b) := by
  obtain ⟨sideEffects, entered⟩ := enter_eq e b
  refine ⟨?_, ?_, ?_, ?_⟩
  · rw [enter_world]
    exact h.ready
  · rw [entered]
    exact h.clean
  · rw [entered]
    exact h.settled
  · unfold Engine.enter
    split <;> exact h.spawned

end Rested

theorem applyEvents_of_seen (es : List HistoryEvent)
    (old : ∀ event ∈ es, event.id ≤ e.lastEventId) :
    e.applyEvents es = (.ok (), e) := by
  induction es with
  | nil => rfl
  | cons event rest ih =>
    have skipped : e.applyEvent event = (.ok (), e) := by
      unfold applyEvent
      rw [if_pos (old event (by simp))]
    simp only [applyEvents, skipped]
    exact ih fun event member => old event (List.mem_cons_of_mem _ member)

theorem applyEvent_completion (c : Chapter) (new : e.lastEventId < c.completion.id) :
    e.applyEvent c.completion = (.ok (), { e with lastEventId := c.completion.id }) := by
  obtain ⟨a, attributes, -⟩ := c.completed
  unfold applyEvent
  rw [if_neg (Int64.not_le.mpr new)]
  simp only [attributes, Run.applyEvent, Ledger.handleEvent, Route.of]
  rfl

theorem enter_lastEventId (e : Engine) (b : Batch) : (e.enter b).lastEventId = e.lastEventId := by
  unfold enter
  split <;> rfl

theorem Rested.applyBatch_of_seen (h : Rested e) (b : Batch)
    (events : ∀ event ∈ b.events, event.id ≤ e.lastEventId)
    (decisions : ∀ event ∈ b.decisionEvents, event.id ≤ e.lastEventId) :
    e.applyBatch b = (.ok (), e.enter b) := by
  have entered := h.enter b
  have first := applyEvents_of_seen b.events (e := e.enter b) (by rwa [enter_lastEventId])
  have second := applyEvents_of_seen b.decisionEvents (e := e.enter b) (by rwa [enter_lastEventId])
  rw [applyBatch_eq_stages, first]
  simp only [entered.runTasks_eq_self, entered.acknowledge_eq_self, second]

theorem Rested.applyBatch_of_seen_chapter (h : Rested e) (c : Chapter)
    (old : ∀ event ∈ c.events, event.id ≤ e.lastEventId) :
    e.applyBatch c.batch = (.ok (), e.enter c.batch) := by
  refine h.applyBatch_of_seen c.batch (fun event member => old event ?_)
    (fun event member => old event ?_)
  · simp only [Chapter.batch, List.mem_append, List.mem_singleton] at member
    simp only [Chapter.events, Chapter.rest, List.mem_append, List.mem_cons]
    rcases member with h | h
    · exact .inl h
    · exact .inr (.inl h)
  · simp only [Chapter.events, Chapter.rest, List.mem_append, List.mem_cons]
    exact .inr (.inr member)

/-- A chapter that was applied up to its start leaves the events of its decisions to apply. -/
theorem Rested.applyBatch_of_new_completion (h : Rested e) (c : Chapter) {b : Batch}
    {before : List HistoryEvent}
    (events : b.events = before ++ [c.completion]) (decisions : b.decisionEvents = c.decisionEvents)
    (old : ∀ event ∈ before, event.id ≤ e.lastEventId) (new : e.lastEventId < c.completion.id) :
    e.applyBatch b =
      ({ e.enter b with lastEventId := c.completion.id }).applyEvents c.decisionEvents := by
  have entered := h.enter b
  have seen : Rested { e.enter b with lastEventId := c.completion.id } :=
    ⟨entered.ready, entered.clean, entered.settled, entered.spawned⟩
  have skipped := applyEvents_of_seen before (e := e.enter b) (by rwa [enter_lastEventId])
  have completed := applyEvent_completion c (e := e.enter b) (by rwa [enter_lastEventId])
  rw [applyBatch_eq_stages, events, applyEvents_append, skipped]
  simp only [applyEvents, completed, seen.runTasks_eq_self, seen.acknowledge_eq_self, decisions]

/-! ## Orderly engines -/

/-- What holds of every engine of a run whose workflow is steady. -/
structure Orderly (info : RunInfo) (workflow : Workflow) (e : Engine) : Prop where
  workflow : e.workflow = workflow
  info : e.info = info
  numbered : e.context.Numbered
  steady : Tasks.Avoid Call.IsUnsteady e.runnable

section Orderly

variable {info : RunInfo} {workflow : Workflow}

theorem new_orderly (info : RunInfo) (workflow : Workflow) :
    Orderly info workflow (new info workflow) :=
  ⟨rfl, rfl, Context.new_numbered info, by simp [Tasks.Avoid, runnable, new]⟩

theorem Orderly.enter (h : Orderly info workflow e) (b : Batch) :
    Orderly info workflow (e.enter b) := by
  have twins := twins_enter e b
  obtain ⟨sideEffects, entered⟩ := enter_eq e b
  refine ⟨twins.workflow.symm.trans h.workflow, ?_, ?_, twins.runnable ▸ h.steady⟩
  · rw [Engine.info, entered]
    exact h.info
  · rw [entered]
    exact ⟨h.numbered.sound, h.numbered.ids, h.numbered.markers, h.numbered.current⟩

theorem Orderly.applyEvent (steady : workflow.IsSteady) (h : Orderly info workflow e)
    (event : HistoryEvent) : Orderly info workflow (e.applyEvent event).2 := by
  unfold Engine.applyEvent
  split
  · exact h
  · split
    · next a _ =>
      unfold startRoot
      dsimp only
      cases root : e.root with
      | some id => exact ⟨h.workflow, h.info, h.numbered, h.steady⟩
      | none =>
        simp only
        cases started : e.workflow.start a.input with
        | error message => exact ⟨h.workflow, h.info, h.numbered, h.steady⟩
        | ok code =>
          refine ⟨h.workflow, h.info, h.numbered, ?_⟩
          intro t member
          rw [h.workflow] at started
          simp only [runnable, Scheduler.spawn, ← List.append_assoc] at member
          rcases List.mem_append.mp member with old | new
          · exact h.steady t old
          · rw [List.mem_singleton.mp new]
            exact steady a.input code started
    · dsimp only
      cases applied : Run.applyEvent event e.scheduler.world with
      | error err => exact ⟨h.workflow, h.info, h.numbered, h.steady⟩
      | ok w =>
        have effect := Run.applyEvent_applied applied
        exact ⟨h.workflow, effect.fixed.1.info.trans h.info, effect.numbered h.numbered, h.steady⟩

theorem Orderly.applyEvents (steady : workflow.IsSteady) (h : Orderly info workflow e)
    (es : List HistoryEvent) : Orderly info workflow (e.applyEvents es).2 := by
  induction es generalizing e with
  | nil => exact h
  | cons event rest ih =>
    have first := h.applyEvent steady event
    simp only [Engine.applyEvents]
    split
    · next e₁ applied =>
      rw [applied] at first
      exact ih first
    · exact first

theorem Orderly.runTasks (h : Orderly info workflow e) : Orderly info workflow e.runTasks.2 := by
  have numbered := takeTurns_keeps Run.keeps_numbered e.runnable e.scheduler.world h.numbered
  have fixed := takeTurns_keeps Run.keeps_fixed e.runnable e.scheduler.world
  have left := (takeTurns_avoid Run.meaning e.runnable e.scheduler.world h.steady).1
  rw [runTasks_eq]
  have steady : Tasks.Avoid Call.IsUnsteady
      ((takeTurns Run.meaning e.runnable e.scheduler.world).tasks ++ []) := by
    rw [List.append_nil]
    exact left
  exact ⟨h.workflow, fixed.info.trans h.info,
    ⟨numbered.sound, numbered.ids, numbered.markers, numbered.current⟩, steady⟩

theorem Orderly.takeDecisions (h : Orderly info workflow e) :
    Orderly info workflow e.takeDecisions.2 := by
  have sent : Context.Numbered { e.context with ledger := e.context.ledger.notifySent } :=
    Run.notifySent_numbered h.numbered
  obtain ⟨outputs, completionEmitted, taken⟩ := takeTerminal_eq e.notified
  rw [takeDecisions_eq, taken]
  exact ⟨h.workflow, h.info, sent, h.steady⟩

theorem Orderly.of_twins (h : Orderly info workflow e) (twins : Twins e e') :
    Orderly info workflow e' := by
  obtain ⟨back, other, -⟩ := twins.alike
  have context : e'.context = e.context.against back := congrArg (·.shared) other
  refine ⟨twins.workflow.symm.trans h.workflow, ?_, ?_, twins.runnable ▸ h.steady⟩
  · rw [Engine.info, context]
    exact h.info
  · rw [context]
    exact ⟨h.numbered.sound, h.numbered.ids, h.numbered.markers, h.numbered.current⟩

end Orderly

/-! ## Where the events reach -/

theorem applyEvent_lastEventId {event : HistoryEvent} (applied : e.applyEvent event = (.ok (), e'))
    (new : e.lastEventId < event.id) : e'.lastEventId = event.id := by
  unfold applyEvent at applied
  rw [if_neg (Int64.not_le.mpr new)] at applied
  split at applied
  · unfold startRoot at applied
    dsimp only at applied
    split at applied
    · cases applied
      rfl
    · split at applied
      · simp at applied
      · cases applied
        rfl
  · dsimp only at applied
    split at applied
    · simp at applied
    · cases applied
      rfl

theorem applyEvent_lastLiveId (e : Engine) (event : HistoryEvent) :
    (e.applyEvent event).2.lastLiveId = e.lastLiveId := by
  unfold applyEvent startRoot
  dsimp only
  split
  · rfl
  · split
    · split
      · rfl
      · split <;> rfl
    · split <;> rfl

theorem answer_keeps_event_ids (e : Engine) :
    e.runTasks.2.takeDecisions.2.lastEventId = e.lastEventId ∧
      e.runTasks.2.takeDecisions.2.lastLiveId = e.lastLiveId := by
  obtain ⟨outputs, completionEmitted, taken⟩ := takeTerminal_eq e.runTasks.2.notified
  rw [takeDecisions_eq, taken]
  simp only [notified, inContext, inRun, runTasks_eq, and_self]

theorem applyEvents_lastLiveId (e : Engine) (es : List HistoryEvent) :
    (e.applyEvents es).2.lastLiveId = e.lastLiveId := by
  induction es generalizing e with
  | nil => rfl
  | cons event rest ih =>
    have first := applyEvent_lastLiveId e event
    simp only [applyEvents]
    split
    · next e₁ applied =>
      rw [applied] at first
      exact (ih e₁).trans first
    · exact first

theorem applyEvents_lastEventId_lt {bound : EventId} (es : List HistoryEvent)
    (below : e.lastEventId < bound)
    (all : ∀ event ∈ es, event.id < bound) : (e.applyEvents es).2.lastEventId < bound := by
  induction es generalizing e with
  | nil => exact below
  | cons event rest ih =>
    have here := all event (by simp)
    have first : (e.applyEvent event).2.lastEventId < bound := by
      unfold applyEvent startRoot
      dsimp only
      split
      · exact below
      · split
        · split
          · exact here
          · split <;> exact here
        · split <;> exact here
    simp only [applyEvents]
    split
    · next e₁ applied =>
      rw [applied] at first
      exact ih first fun event member => all event (List.mem_cons_of_mem _ member)
    · exact first

theorem opening_lastEventId {o : Opening} (applied : e.applyEvents o.events = (.ok (), e'))
    (ahead : e.lastEventId < o.start.id) (before : ∀ event ∈ o.before, event.id < o.start.id) :
    e'.lastEventId = o.start.id := by
  have below := applyEvents_lastEventId_lt o.before ahead before
  rw [Opening.events, applyEvents_append] at applied
  split at applied
  · next e₁ first =>
    rw [first] at below
    simp only [applyEvents] at applied
    split at applied
    · next e₂ started =>
      cases applied
      exact applyEvent_lastEventId started below
    · next failed => exact absurd applied (failed _)
  · next failed => exact absurd applied (failed _)

end Engine

end WorkflowReplay
