import Mathlib
import WorkflowReplay.Proofs.Run.Resting

/-!
# Going on from a cached engine

An engine that is kept between tasks has collected its decisions, skips what it has applied, and
goes on.  A fresh engine goes through the whole history and counts the same decisions as sent when
it finds them accepted.  Nobody can tell the two apart by an answer.

The proof follows a history chapter by chapter.  At the end of a chapter the cached engine is
`Caught` up with a fresh one that stands before the events of the decisions; after those events the
two are `Standing` side by side before the next task.
-/

set_option autoImplicit false

namespace WorkflowReplay

open Schedule

namespace Engine

variable {e e' : Engine}

/-! ## One engine kept, one new -/

variable {info : RunInfo} {workflow : Workflow} {past : List Chapter}

def replayed (info : RunInfo) (workflow : Workflow) (past : List Chapter) :
    Except Fault Unit × Engine :=
  (new info workflow).applyBatches (past.map Chapter.batch)

/-- The cached engine and the fresh one stand side by side, before the opening of a task. -/
structure Standing (info : RunInfo) (workflow : Workflow) (past : List Chapter) (o : Opening)
    (x y : Engine) : Prop where
  abreast : Abreast x y
  orderly : Orderly info workflow x
  known : x.context.Known
  known' : y.context.Known
  below : ∀ c ∈ past, c.RecordsBelow x.context.nextSideEffect
  fresh : replayed info workflow past = (.ok (), y)
  ahead : x.lastEventId < o.start.id

/-- The cached engine has answered the last chapter, and the fresh one has come to the end of its
code: it stands before the events of the decisions. -/
structure Caught (info : RunInfo) (workflow : Workflow) (past : List Chapter) (last : Chapter)
    (x y : Engine) : Prop where
  twins : Twins x y
  rested : Rested x
  orderly : Orderly info workflow x
  known : x.context.Known
  known' : y.context.Known
  below : ∀ c ∈ past ++ [last], c.RecordsBelow x.context.nextSideEffect
  fresh : replayed info workflow (past ++ [last]) = y.applyEvents last.decisionEvents
  applied : x.lastEventId = last.start.id
  live : x.lastLiveId = last.start.id
  applied' : y.lastEventId = last.completion.id

/-- A replay fails as the one of a fresh engine does, or comes to stand beside it. -/
inductive Meets (info : RunInfo) (workflow : Workflow) (past : List Chapter) (o : Opening) :
    Except Fault Unit × Engine → Prop
  | failed {fault : Fault} {x : Engine} (fresh : (replayed info workflow past).1 = .error fault) :
      Meets info workflow past o (.error fault, x)
  | standing {x y : Engine} (standing : Standing info workflow past o x y) :
      Meets info workflow past o (.ok (), x)

theorem Twins.nextSideEffect_eq (h : Twins e e') :
    e.context.nextSideEffect = e'.context.nextSideEffect := by
  obtain ⟨back, other, -⟩ := h.alike
  rw [show e'.context = e'.scheduler.world.shared from rfl, other]
  rfl

theorem known_of_fixed {c c' : Context} (known : c.Known)
    (sideEffects : c'.sideEffects = c.sideEffects)
    (count : c.nextSideEffect ≤ c'.nextSideEffect) : c'.Known := by
  intro number details found
  obtain ⟨k, below, same⟩ := known number details (sideEffects ▸ found)
  exact ⟨k, Nat.lt_of_lt_of_le below count, same⟩

theorem recordsBelow_mono {c : Chapter} {bound bound' : Nat} (below : c.RecordsBelow bound)
    (le : bound ≤ bound') : c.RecordsBelow bound' := fun e member number details records => by
  obtain ⟨k, lt, same⟩ := below e member number details records
  exact ⟨k, Nat.lt_of_lt_of_le lt le, same⟩

theorem applyEvents_known (es : List HistoryEvent) (known : e.context.Known) :
    (e.applyEvents es).2.context.Known := by
  obtain ⟨fixed, count⟩ := applyEvents_fixed e es
  exact known_of_fixed known fixed.sideEffects (Nat.le_of_eq count.symm)

/-! ## Catching up -/

namespace Caught

variable {x y : Engine} {last : Chapter} {o : Opening}

theorem enter (h : Caught info workflow past last x y) {b : Batch} (replay : b.replay = true)
    {c : Chapter} (member : c ∈ past ++ [last]) (markers : b.markers = c.markers) :
    Caught info workflow past last (x.enter b) y := by
  have entered := enter_context x b
  have count := enter_nextSideEffect x b
  refine ⟨(twins_enter x b).symm.trans h.twins, h.rested.enter b, h.orderly.enter b, ?_, h.known',
    ?_, h.fresh, (enter_lastEventId x b).trans h.applied, ?_, h.applied'⟩
  · rw [entered, markers]
    exact Context.Known.loadMarkers (c := { x.context with
      replaying := accepts b, time := b.time.millis }) h.known (h.below c member)
  · intro c' there
    rw [count]
    exact h.below c' there
  · unfold Engine.enter
    rw [if_pos replay]
    exact h.live

theorem skips_chapters (h : Caught info workflow past last x y) (chapters : List Chapter)
    (among : ∀ c ∈ chapters, c ∈ past)
    (old : ∀ c ∈ past, ∀ event ∈ c.events, event.id ≤ last.start.id) :
    ∃ x', x.applyBatches (chapters.map Chapter.batch) = (.ok (), x') ∧
      Caught info workflow past last x' y := by
  induction chapters generalizing x with
  | nil => exact ⟨x, rfl, h⟩
  | cons c rest ih =>
    have here := among c (by simp)
    have skipped := h.rested.applyBatch_of_seen_chapter c (by rw [h.applied]; exact old c here)
    have entered := h.enter (b := c.batch) rfl (List.mem_append_left _ here) rfl
    obtain ⟨x', passed, caught⟩ := ih entered fun c' member =>
      among c' (List.mem_cons_of_mem _ member)
    refine ⟨x', ?_, caught⟩
    simp only [List.map_cons, applyBatches, skipped, passed]

theorem meets_of_abreast (steady : workflow.IsSteady) (orderly : Orderly info workflow x)
    (known : x.context.Known) (known' : y.context.Known) (abreast : Abreast x y)
    (below : ∀ c ∈ past ++ [last], c.RecordsBelow x.context.nextSideEffect)
    (fresh : replayed info workflow (past ++ [last]) = y.applyEvents last.decisionEvents)
    (applied : x.lastEventId = last.completion.id)
    (ordered : IsOrdered (historyTo (past ++ [last]) o)) :
    Meets info workflow (past ++ [last]) o (x.applyEvents last.decisionEvents) := by
  obtain ⟨result, after⟩ := abreast.applyEvents last.decisionEvents
  have orderlyAfter := orderly.applyEvents steady last.decisionEvents
  have knownAfter := applyEvents_known last.decisionEvents known
  have knownAfter' := applyEvents_known last.decisionEvents known'
  have count := (applyEvents_fixed x last.decisionEvents).2
  have ahead : (x.applyEvents last.decisionEvents).2.lastEventId < o.start.id := by
    refine applyEvents_lastEventId_lt _ ?_ fun event member =>
      ordered.rest_lt_start event (List.mem_cons_of_mem _ member)
    rw [applied]
    exact ordered.rest_lt_start _ (List.mem_cons_self ..)
  rw [← fresh] at result after knownAfter'
  generalize x.applyEvents last.decisionEvents = r at *
  obtain ⟨result₁, x'⟩ := r
  cases result₁ with
  | error fault => exact .failed result.symm
  | ok =>
    refine .standing (y := (replayed info workflow (past ++ [last])).2)
      ⟨after, orderlyAfter, knownAfter, knownAfter', ?_, ?_, ahead⟩
    · intro c member
      rw [count]
      exact below c member
    · exact Prod.ext result.symm rfl

/-- The batch of the last chapter brings the events of its decisions, whether it has the whole
chapter or what came after the start. -/
theorem meets_after_completion (steady : workflow.IsSteady) (h : Caught info workflow past last x y)
    {b : Batch} {before : List HistoryEvent} (events : b.events = before ++ [last.completion])
    (decisions : b.decisionEvents = last.decisionEvents) (markers : b.markers = last.markers)
    (replay : b.replay = true) (old : ∀ event ∈ before, event.id ≤ last.start.id)
    (ordered : IsOrdered (historyTo (past ++ [last]) o)) :
    Meets info workflow (past ++ [last]) o (x.applyBatch b) := by
  have entered := h.enter replay (c := last) (by simp) markers
  have started := ordered.of_historyTo.start_lt_completion
  rw [h.rested.applyBatch_of_new_completion last events decisions (by rwa [h.applied])
    (by rwa [h.applied])]
  have twins := entered.twins
  have orderly := entered.orderly
  exact meets_of_abreast steady
    ⟨orderly.workflow, orderly.info, orderly.numbered, orderly.steady⟩ entered.known entered.known'
    ⟨⟨twins.workflow, twins.runnable, twins.root, twins.completionEmitted, twins.alike⟩,
      h.applied'.symm⟩
    entered.below entered.fresh rfl ordered

end Caught

/-! ## The live batch -/

theorem applyBatch_opening (e : Engine) (o : Opening) :
    e.applyBatch o.batch =
      match (e.enter o.batch).applyEvents o.events with
      | (.ok (), e) => e.runTasks
      | failed => failed := by
  rw [applyBatch_eq_stages]
  change (match (e.enter o.batch).applyEvents o.events with
    | (.ok (), e) => _
    | failed => failed) = _
  obtain ⟨result, e₁⟩ := (e.enter o.batch).applyEvents o.events
  cases result with
  | error fault => rfl
  | ok =>
    dsimp only
    split
    · next e₂ turns => exact turns.symm
    · rfl

namespace Standing

variable {x y : Engine} {o : Opening}

structure Opened (info : RunInfo) (workflow : Workflow) (o : Opening) (x opened : Engine) :
    Prop where
  orderly : Orderly info workflow opened
  known : opened.context.Known
  live : opened.context.replaying = false
  time : opened.context.time = o.start.timestamp.millis
  count : opened.context.nextSideEffect = x.context.nextSideEffect
  lastLiveId : opened.lastLiveId = o.start.id

theorem opened_after_events (steady : workflow.IsSteady) (h : Standing info workflow past o x y) :
    Opened info workflow o x ((x.enter o.batch).applyEvents o.events).2 := by
  have entered : (x.enter o.batch).context =
      { x.context with replaying := false, time := o.start.timestamp.millis } :=
    enter_context x o.batch
  have known : (x.enter o.batch).context.Known := by
    rw [entered]
    exact h.known
  obtain ⟨fixed, count⟩ := applyEvents_fixed (x.enter o.batch) o.events
  refine ⟨(h.orderly.enter o.batch).applyEvents steady o.events,
    applyEvents_known o.events known, ?_, ?_, ?_, ?_⟩
  · rw [fixed.replaying, entered]
  · rw [fixed.time, entered]
  · rw [count, entered]
  · rw [applyEvents_lastLiveId]
    rfl

theorem abreast_opened (h : Standing info workflow past o x y) (b b' : Batch) :
    ((x.enter b).applyEvents o.events).1 = ((y.enter b').applyEvents o.events).1 ∧
      Abreast ((x.enter b).applyEvents o.events).2 ((y.enter b').applyEvents o.events).2 := by
  have abreast : Abreast (x.enter b) (y.enter b') :=
    ⟨h.abreast.toTwins.enter b b', by
      rw [enter_lastEventId, enter_lastEventId]
      exact h.abreast.lastEventId⟩
  exact abreast.applyEvents o.events

/-- Both engines run the code live with the same result. -/
theorem applyBatch_twins (steady : workflow.IsSteady) (h : Standing info workflow past o x y) :
    (x.applyBatch o.batch).1 = (y.applyBatch o.batch).1 ∧
      ((x.applyBatch o.batch).1 = .ok () →
        Twins (x.applyBatch o.batch).2 (y.applyBatch o.batch).2) := by
  have opened := h.opened_after_events steady
  obtain ⟨result, abreast⟩ := h.abreast_opened o.batch o.batch
  have entered : (y.enter o.batch).context =
      { y.context with replaying := false, time := o.start.timestamp.millis } :=
    enter_context y o.batch
  have known' : ((y.enter o.batch).applyEvents o.events).2.context.Known :=
    applyEvents_known (e := y.enter o.batch) o.events (by rw [entered]; exact h.known')
  obtain ⟨-, replaying, time, -⟩ := (applyEvents_fixed (y.enter o.batch) o.events).1
  rw [entered] at replaying time
  rw [x.applyBatch_opening, y.applyBatch_opening]
  generalize (x.enter o.batch).applyEvents o.events = r at *
  generalize (y.enter o.batch).applyEvents o.events = r' at *
  obtain ⟨result₁, x₁⟩ := r
  obtain ⟨result₁', y₁⟩ := r'
  obtain rfl : result₁ = result₁' := result
  cases result₁ with
  | error fault => exact ⟨rfl, by simp⟩
  | ok =>
    have step : Run.InStep x₁.context.sideEffects y₁.context.sideEffects false
        x₁.scheduler.world y₁.scheduler.world :=
      ⟨abreast.alike, time.trans opened.time.symm, opened.live, rfl, replaying, rfl⟩
    have foreseen := foreseen_live opened.known opened.orderly.steady
      y₁.context.sideEffects fun k above =>
        known'.get?_of_count_le (abreast.toTwins.nextSideEffect_eq ▸ above)
    obtain ⟨same, after⟩ := abreast.toTwins.runTasks step foreseen
    exact ⟨same, fun _ => after⟩

/-- Once the chapter is recorded, the fresh engine runs its code as a replay with the same result,
and stands before the events of the decisions. -/
theorem replays_as_closed_batch (steady : workflow.IsSteady) {c : Chapter}
    (h : Standing info workflow past c.toOpening x y) {x₁ ran : Engine}
    (events : (x.enter c.toOpening.batch).applyEvents c.toOpening.events = (.ok (), x₁))
    (turns : x₁.runTasks = (.ok (), ran))
    (records : ∀ marker, marker ∈ c.decisionEvents.filterMap HistoryEvent.marker? ↔
      .recordMarker marker ∈ x₁.contextAfterRun.ledger.pending)
    (later : x₁.lastEventId < c.completion.id) :
    ∃ y', y.applyBatch c.batch = y'.notified.applyEvents c.decisionEvents ∧ Twins ran y' ∧
      y'.lastEventId = c.completion.id ∧ ∀ number, y'.context.sideEffects.get? number =
        (recorded? number c.markers).or (y.context.sideEffects.get? number) := by
  have opened := h.opened_after_events steady
  obtain ⟨result, abreast⟩ := h.abreast_opened c.toOpening.batch c.batch
  have entered := enter_context y c.batch
  have fixed := (applyEvents_fixed (y.enter c.batch) c.toOpening.events).1
  rw [events] at opened result abreast
  generalize opening : (y.enter c.batch).applyEvents c.toOpening.events = r at result abreast fixed
  obtain ⟨result₁, y₁⟩ := r
  obtain rfl : result₁ = .ok () := result.symm
  -- The completion only moves the fresh engine on.
  have completed := applyEvent_completion c (e := y₁) (by rwa [← abreast.lastEventId])
  have twins : Twins x₁ { y₁ with lastEventId := c.completion.id } :=
    ⟨abreast.workflow, abreast.runnable, abreast.root, abreast.completionEmitted, abreast.alike⟩
  have loaded (number : String) : y₁.context.sideEffects.get? number =
      (recorded? number c.markers).or (y.context.sideEffects.get? number) := by
    rw [fixed.sideEffects, entered, Context.loadMarkers_get?]
    rfl
  obtain ⟨sideEffects, entered⟩ := enter_eq y c.batch
  have step : Run.InStep x₁.context.sideEffects y₁.context.sideEffects true
      x₁.scheduler.world y₁.scheduler.world :=
    ⟨abreast.alike, by
      change y₁.context.time = x₁.context.time
      rw [opened.time, fixed.time, entered]
      rfl, opened.live, rfl, by
      change y₁.context.replaying = true
      rw [fixed.replaying, entered]
      rfl, rfl⟩
  have foreseen := foreseen_replay opened.orderly.numbered opened.known opened.live records
    opened.orderly.steady y₁.context.sideEffects fun number details found => by
      rw [loaded, found, Option.some_or]
  obtain ⟨same, after⟩ := twins.runTasks step foreseen
  have kept := (runTasks_fixed { y₁ with lastEventId := c.completion.id }).sideEffects
  have reached : ({ y₁ with lastEventId := c.completion.id } : Engine).runTasks.2.lastEventId =
      c.completion.id := by rw [runTasks_eq]
  rw [turns] at same after
  have events' : (y.enter c.batch).applyEvents c.batch.events =
      (.ok (), { y₁ with lastEventId := c.completion.id }) := by
    rw [show c.batch.events = c.toOpening.events ++ [c.completion] from rfl, applyEvents_append,
      opening]
    simp only [applyEvents, completed]
  generalize replay : ({ y₁ with lastEventId := c.completion.id } : Engine).runTasks = r at *
  obtain ⟨result₂, y₂⟩ := r
  obtain rfl : result₂ = .ok () := same.symm
  refine ⟨y₂, ?_, after, reached, ?_⟩
  · rw [applyBatch_eq_stages, events']
    simp only [replay]
    rfl
  · intro number
    rw [kept]
    exact loaded number

/-- An engine that answers and goes on has caught up with the fresh one, once the history records
its decisions. -/
theorem caught_after_answer (steady : workflow.IsSteady) {c : Chapter}
    (h : Standing info workflow past c.toOpening x y) {ran : Engine}
    (applied : x.applyBatch c.toOpening.batch = (.ok (), ran))
    (records : c.Records ran.takeDecisions.1)
    (goesOn : ran.takeDecisions.2.completionEmitted = false)
    (ordered : IsOrdered ((past ++ [c]).flatMap Chapter.events)) :
    ∃ y', Caught info workflow past c ran.takeDecisions.2 y' := by
  have opened := h.opened_after_events steady
  rw [x.applyBatch_opening] at applied
  split at applied
  · next x₁ events =>
    rw [events] at opened
    obtain rfl : x₁.runTasks.2 = ran := congrArg Prod.snd applied
    have before := ordered.historyTo_toOpening
    have here : x₁.lastEventId = c.start.id := opening_lastEventId events
      (by rw [enter_lastEventId]; exact h.ahead) before.before_lt_start
    have due (marker : Decision.RecordMarker) :
        marker ∈ c.decisionEvents.filterMap HistoryEvent.marker? ↔
          .recordMarker marker ∈ x₁.contextAfterRun.ledger.pending := by
      have markers := recordMarker_mem_takeDecisions x₁.runTasks.2 marker
      rw [runTasks_context] at markers
      exact (records marker).trans markers
    obtain ⟨y', replay, twins, reached, loaded⟩ :=
      h.replays_as_closed_batch steady events applied due
        (by rw [here]; exact ordered.start_lt_completion)
    -- Beside the ledger, the answer leaves the context as the code left it.
    have answer : x₁.runTasks.2.takeDecisions.2.context = { x₁.contextAfterRun with
        contradiction := none
        ledger := x₁.contextAfterRun.ledger.notifySent } := by
      rw [takeDecisions_context, runTasks_context]
    have sideEffects := (takeTurns_keeps Run.keeps_fixed x₁.runnable x₁.scheduler.world).sideEffects
    have count := takeTurns_keeps Run.keeps_nextSideEffect_le x₁.runnable x₁.scheduler.world
    have chapterBelow := chapter_recordsBelow opened.orderly.numbered due
    obtain ⟨lastEventId, lastLiveId⟩ := answer_keeps_event_ids x₁
    have alike : Twins x₁.runTasks.2.takeDecisions.2 y'.notified := by
      rw [takeDecisions_eq] at goesOn ⊢
      exact (takeTerminal_twins goesOn).symm.trans twins.notified
    have same : y'.notified.context.nextSideEffect = x₁.contextAfterRun.nextSideEffect := by
      rw [← alike.nextSideEffect_eq, answer]
    refine ⟨y'.notified, alike, .of_runTasks_takeDecisions x₁,
      opened.orderly.runTasks.takeDecisions, ?_, ?_, ?_,
      ?_, lastEventId.trans here, lastLiveId.trans opened.lastLiveId, reached⟩
    · rw [answer]
      exact known_of_fixed opened.known sideEffects count
    · intro number details found
      rw [same]
      have found := (loaded number).symm.trans found
      -- What the fresh engine knows now, the chapter recorded, or it knew it before.
      rcases Option.or_eq_some_iff.mp found with recorded | ⟨-, old⟩
      · obtain ⟨e, member, records⟩ := List.mem_filterMap.mp (List.mem_of_getLast? recorded)
        exact chapterBelow e member number details records
      · obtain ⟨k, below, number⟩ := h.known' number details old
        rw [← h.abreast.toTwins.nextSideEffect_eq, ← opened.count] at below
        exact ⟨k, Nat.lt_of_lt_of_le below count, number⟩
    · intro c' member
      rw [answer]
      rcases List.mem_append.mp member with old | last
      · refine recordsBelow_mono (h.below c' old) ?_
        rw [← opened.count]
        exact count
      · rw [List.mem_singleton.mp last]
        exact chapterBelow
    · have fresh := h.fresh
      unfold replayed at fresh ⊢
      rw [List.map_append, List.map_singleton, applyBatches_concat, fresh]
      exact replay
  · next failed => exact absurd applied (failed _)

end Standing

/-! ## Task by task -/

/-- The engine has answered the tasks of these chapters in turn, and none of the answers ended the
workflow.  A chapter records the markers of its answer. -/
inductive Answered (info : RunInfo) (workflow : Workflow) : List Chapter → Engine → Prop where
  | start : Answered info workflow [] (new info workflow)
  | task {past : List Chapter} {c : Chapter} {e e' : Engine} {t : DecisionTask}
      {completion : Completion} (answered : Answered info workflow past e)
      (brings : t.Brings past c.toOpening) (answer : e.process t = (.ok completion, e'))
      (goesOn : completion.workflowCompleted = false) (records : c.Records completion.decisions) :
      Answered info workflow (past ++ [c]) e'

inductive Cached (info : RunInfo) (workflow : Workflow) (past : List Chapter) (e : Engine) :
    Prop where
  | new (split : past = []) (eq : e = new info workflow)
  | caught {earlier : List Chapter} {last : Chapter} {y : Engine} (split : past = earlier ++ [last])
      (caught : Caught info workflow earlier last e y)

section Tasks

variable {o : Opening} {t : DecisionTask}

theorem conclude_ok {r : Except Fault Unit × Engine} {completion : Completion}
    (concluded : conclude r = (.ok completion, e')) : ∃ ran, r = (.ok (), ran) ∧
      completion.decisions = ran.takeDecisions.1 ∧
      completion.workflowCompleted = ran.takeDecisions.2.completionEmitted ∧
      e' = ran.takeDecisions.2 := by
  obtain ⟨result, ran⟩ := r
  cases result with
  | error fault => simp [conclude] at concluded
  | ok =>
    simp only [conclude] at concluded
    split at concluded
    · simp at concluded
    · cases concluded
      exact ⟨ran, rfl, rfl, rfl, rfl⟩

theorem new_isStaleFor (info : RunInfo) (workflow : Workflow) (t : DecisionTask) :
    (new info workflow).isStaleFor t = false := rfl

theorem process_new (ordered : IsOrdered (historyTo past o)) (all : t.BringsAll past o) :
    (new info workflow).process t =
      conclude ((new info workflow).applyBatches (past.map Chapter.batch ++ [o.batch])) := by
  have batches := all.batches_eq ordered
  rw [process_eq_conclude (by simp [batches]) (by simp [new_isStaleFor]), batches, new_isStaleFor]
  rfl

theorem Caught.not_stale {x y : Engine} {last : Chapter}
    (h : Caught info workflow past last x y) (brings : t.BringsRest last o) :
    x.isStaleFor t = false := by
  have kept : t.history.any x.isLostAnswer = false := by
    refine List.any_eq_false.mpr ?_
    intro event member
    rw [brings.history] at member
    have type : event.type ≠ .decisionTaskFailed ∧ event.type ≠ .decisionTaskTimedOut := by
      rcases List.mem_append.mp member with rest | opening
      · rcases List.mem_cons.mp rest with rfl | decision
        · simp [last.completion_type]
        · have := last.decisions event decision
          constructor <;> rintro type <;> simp [type, EventType.isDecisionEvent] at this
      · have := o.not_closing event opening
        constructor <;> rintro type <;> simp [type, EventType.isDecisionTaskClosing] at this
    simp [isLostAnswer, type.1, type.2]
  unfold isStaleFor
  rw [brings.previous, h.live, kept]
  simp

theorem Caught.meets_all (steady : workflow.IsSteady) {x y : Engine} {last : Chapter}
    (h : Caught info workflow past last x y) (ordered : IsOrdered (historyTo (past ++ [last]) o))
    (all : t.BringsAll (past ++ [last]) o) : ∃ (x' : Engine) (bs : List Batch),
      x.process t = conclude (x'.applyBatches (bs ++ [o.batch])) ∧
        Meets info workflow (past ++ [last]) o (x'.applyBatches bs) := by
  have batches := all.batches_eq ordered
  have process := process_eq_conclude (e := x) (t := t) (by simp [batches])
    fun _ => all.hasFullHistory ordered
  refine ⟨if x.isStaleFor t then x.reset else x, (past ++ [last]).map Chapter.batch, ?_, ?_⟩
  · rw [process, batches]
  cases x.isStaleFor t with
  | true =>
    -- The engine that starts again is the fresh one, so the latter is abreast of itself.
    have anew : x.reset = new info workflow := by
      rw [reset, h.orderly.info, h.orderly.workflow]
    have same := h.twins.nextSideEffect_eq
    rw [if_pos rfl, anew, ← replayed, h.fresh]
    exact meets_of_abreast steady (h.orderly.of_twins h.twins) h.known' h.known' ⟨.refl y, rfl⟩
      (fun c member => same ▸ h.below c member) h.fresh h.applied' ordered
  | false =>
    have upTo := ordered.historyTo_last.id_le_start
    have old (c : Chapter) (member : c ∈ past) (event : HistoryEvent) (there : event ∈ c.events) :
        event.id ≤ last.start.id :=
      upTo event (List.mem_append_left _ (List.mem_flatMap.mpr ⟨c, member, there⟩))
    obtain ⟨x', passed, caught⟩ := h.skips_chapters past (fun _ member => member) old
    rw [if_neg Bool.false_ne_true, List.map_append, List.map_singleton, applyBatches_concat, passed]
    exact caught.meets_after_completion steady rfl rfl rfl rfl
      (fun event there => upTo event (List.mem_append_right _ there)) ordered

theorem Caught.meets_rest (steady : workflow.IsSteady) {x y : Engine} {last : Chapter}
    (h : Caught info workflow past last x y) (ordered : IsOrdered (historyTo (past ++ [last]) o))
    (rest : t.BringsRest last o) : ∃ (x' : Engine) (bs : List Batch),
      x.process t = conclude (x'.applyBatches (bs ++ [o.batch])) ∧
        Meets info workflow (past ++ [last]) o (x'.applyBatches bs) := by
  have batches := rest.batches_eq ordered
  have goesOn := h.not_stale rest
  have process := process_eq_conclude (e := x) (t := t) (by simp [batches]) (by simp [goesOn])
  refine ⟨x, [last.restBatch], ?_, ?_⟩
  · rw [process, batches, goesOn]
    rfl
  · rw [← List.nil_append [last.restBatch], applyBatches_concat]
    have events : last.restBatch.events = [] ++ [last.completion] := rfl
    exact h.meets_after_completion steady events rfl rfl rfl (by simp) ordered

/-- A task brings the cached engine to where a fresh one stands before the opening. -/
theorem Cached.meets (steady : workflow.IsSteady) (h : Cached info workflow past e)
    (ordered : IsOrdered (historyTo past o)) (brings : t.Brings past o) :
    ∃ (x : Engine) (bs : List Batch),
      e.process t = conclude (x.applyBatches (bs ++ [o.batch])) ∧
        Meets info workflow past o (x.applyBatches bs) := by
  cases h with
  | new split eq =>
    subst split eq
    cases brings with
    | rest split => simp at split
    | all all =>
      refine ⟨Engine.new info workflow, [], process_new ordered all,
        .standing (y := Engine.new info workflow) ?_⟩
      have known := Context.new_known info
      exact ⟨⟨.refl _, rfl⟩, new_orderly info workflow, known, known, by simp, rfl,
        ordered.positive _ (by simp [historyTo, Opening.events])⟩
  | caught split caught =>
    subst split
    cases brings with
    | all all => exact caught.meets_all steady ordered all
    | rest split rest =>
      obtain ⟨rfl, same⟩ := List.append_inj' split rfl
      obtain rfl : _ = _ := List.head_eq_of_cons_eq same
      exact caught.meets_rest steady ordered rest

theorem Meets.conclude_eq (steady : workflow.IsSteady) {x : Engine} {bs : List Batch}
    (meets : Meets info workflow past o (x.applyBatches bs)) :
    (conclude (x.applyBatches (bs ++ [o.batch]))).1 =
      (conclude ((new info workflow).applyBatches (past.map Chapter.batch ++ [o.batch]))).1 := by
  rw [applyBatches_concat, applyBatches_concat]
  generalize x.applyBatches bs = r at meets
  cases meets with
  | failed fresh =>
    generalize replayed : (new info workflow).applyBatches (past.map Chapter.batch) = r
    rw [Engine.replayed, replayed] at fresh
    obtain ⟨result, y⟩ := r
    obtain rfl : result = _ := fresh
    rfl
  | standing standing =>
    have fresh := standing.fresh
    rw [replayed] at fresh
    rw [fresh]
    obtain ⟨result, twins⟩ := standing.applyBatch_twins steady
    exact conclude_twins result twins

theorem Answered.cached (steady : workflow.IsSteady) (answered : Answered info workflow past e)
    (ordered : IsOrdered (past.flatMap Chapter.events)) : Cached info workflow past e := by
  induction answered with
  | start => exact .new rfl rfl
  | @task past c e e' t completion _ brings answer goesOn records ih =>
    have opening := ordered.historyTo_toOpening
    obtain ⟨x, bs, process, meets⟩ := (ih opening.of_historyTo).meets steady opening brings
    obtain ⟨ran, applied, decisions, completed, rfl⟩ := conclude_ok (process.symm.trans answer)
    rw [applyBatches_concat] at applied
    generalize x.applyBatches bs = r at meets applied
    cases meets with
    | failed => simp at applied
    | standing standing =>
      obtain ⟨y', caught⟩ := standing.caught_after_answer steady applied (decisions ▸ records)
        (completed ▸ goesOn) ordered
      exact .caught rfl caught

/-- An engine that is kept answers a task as a new one does that gets the whole history: with the
same decisions, the same end of the workflow, or the same fault. -/
theorem process_eq_fresh {fresh : DecisionTask} (steady : workflow.IsSteady)
    (ordered : IsOrdered (historyTo past o)) (answered : Answered info workflow past e)
    (brings : t.Brings past o) (all : fresh.BringsAll past o) :
    (e.process t).1 = ((new info workflow).process fresh).1 := by
  have cached := answered.cached steady ordered.of_historyTo
  obtain ⟨x, bs, process, meets⟩ := cached.meets steady ordered brings
  rw [process, process_new ordered all]
  exact meets.conclude_eq steady

end Tasks

end Engine

/-! ## A second task -/

def Workflow.oneOfEach : Workflow where
  start _ := .ok (.call (.sideEffect ⟨.null, .ok (.int 7)⟩ .value) fun
    | .panicked message => .panic message
    | .result (.error e) => .done (.error e)
    | .result (.ok v) => .call (.activity "work" v .value { id := some "a" }) fun
      | .error e => .done (.error e)
      | .ok f => .wait (.first [f]) fun arrival _ => .done arrival.result)

theorem Workflow.oneOfEach_steady : Workflow.oneOfEach.IsSteady := by
  rintro input code started
  cases started
  refine ⟨fun all => all _ rfl, ?_⟩
  intro reply
  cases reply with
  | panicked message => trivial
  | result r =>
    cases r with
    | error e => trivial
    | ok v =>
      refine ⟨fun other => other, ?_⟩
      intro reply
      cases reply with
      | error e => trivial
      | ok f => exact fun _ _ => trivial

def firstChapter : Chapter where
  before := [eventOf 1 (.workflowExecutionStarted {})]
  start := eventOf 2 (.decisionTaskStarted {})
  plain := by decide
  first := by decide
  started := rfl
  completion := eventOf 3 (.decisionTaskCompleted { startedEventId := 2 })
  decisionEvents := [
    eventOf 4 (.markerRecorded {
      markerName := Context.sideEffectMarker, markerId := "0", details := some [91, 55, 93] }),
    eventOf 5 (.activityTaskScheduled { activityId := "a" })]
  completed := ⟨_, rfl, rfl⟩
  decisions := by decide

def secondOpening : Opening where
  before := [eventOf 6
    (.activityTaskCompleted { scheduledEventId := 5, result := some [91, 56, 93] })]
  start := eventOf 7 (.decisionTaskStarted {})
  plain := by decide
  first := by decide
  started := rfl

namespace Engine

/-- After one task, an engine that is kept and gets the rest of the history ends the workflow as a
new one does that gets the whole. -/
theorem second_task_eq_fresh :
    let all : DecisionTask :=
      { history := historyTo [firstChapter] secondOpening
        startedEventId := 7 }
    let rest : DecisionTask :=
      { history := firstChapter.rest ++ secondOpening.events
        startedEventId := 7
        previousStartedEventId := 2 }
    ∃ e, Answered {} .oneOfEach [firstChapter] e ∧
      (e.process rest).1 = ((new {} .oneOfEach).process all).1 ∧
      (e.process rest).1 = .ok {
        decisions := [.completeWorkflowExecution (some [91, 56, 93])]
        workflowCompleted := true } := by
  intro all rest
  let first : DecisionTask := { history := firstChapter.toOpening.events, startedEventId := 2 }
  have outcome : ((new {} .oneOfEach).process first).1 = .ok {
      decisions := [
        .recordMarker (sideEffectMarkerOf "0" (some [91, 55, 93])),
        .scheduleActivityTask {
          activityId := "a", activityType := "work", input := some [91, 55, 93]
          scheduleToCloseTimeoutSeconds := 300, scheduleToStartTimeoutSeconds := 60
          startToCloseTimeoutSeconds := 240 }]
      workflowCompleted := false } := by cbv
  let e := ((new {} .oneOfEach).process first).2
  have answered : Answered {} .oneOfEach ([] ++ [firstChapter]) e :=
    .task .start (.all ⟨rfl, rfl⟩) (Prod.ext outcome rfl) rfl fun marker => by
      simp [firstChapter, eventOf, HistoryEvent.marker?, sideEffectMarkerOf]
  have same : (e.process rest).1 = ((new {} .oneOfEach).process all).1 :=
    process_eq_fresh Workflow.oneOfEach_steady ⟨by decide, by decide⟩ answered
      (.rest (List.nil_append _).symm ⟨rfl, rfl, rfl⟩) ⟨rfl, rfl⟩
  refine ⟨e, answered, same, same.trans ?_⟩
  cbv

end Engine

end WorkflowReplay
