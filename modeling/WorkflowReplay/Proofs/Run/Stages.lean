import WorkflowReplay.Proofs.History.Chapters
import WorkflowReplay.Proofs.Run.Effects
import WorkflowReplay.Run.Engine

/-!
# The stages of a batch

An engine handles a batch in four stages: it enters the batch, applies its events, lets the code
run, and, for a batch whose decisions were accepted, acknowledges them before it applies the events
that they brought.  What each stage does to a context is said here once; a relation between
contexts that every stage respects is then respected by batches and tasks.
-/

set_option autoImplicit false

namespace WorkflowReplay

open Schedule

namespace Engine

/-! ## One batch, stage by stage -/

def enter (e : Engine) (b : Batch) : Engine :=
  (if b.replay then e else { e with lastLiveId := b.taskStartedId }).inContext fun c =>
    { c with replaying := accepts b, time := b.time.millis }.loadMarkers b.markers

def acknowledge (e : Engine) (b : Batch) : Engine :=
  if accepts b then e.inContext fun c => { c with ledger := c.ledger.notifySent } else e

def runnable (e : Engine) : Tasks calls := e.scheduler.tasks ++ e.scheduler.spawned

def callsOfRun (e : Engine) : List (Given calls) :=
  callsOfTurns Run.meaning e.runnable e.scheduler.world

theorem applyBatch_eq_stages (e : Engine) (b : Batch) :
    e.applyBatch b =
      match (e.enter b).applyEvents b.events with
      | (.ok (), e) =>
        match e.runTasks with
        | (.ok (), e) => (e.acknowledge b).applyEvents b.decisionEvents
        | failed => failed
      | failed => failed := rfl

theorem applyBatch_ok_stages {e e' : Engine} {b : Batch} (applied : e.applyBatch b = (.ok (), e')) :
    ∃ entered ran, (e.enter b).applyEvents b.events = (.ok (), entered) ∧
      entered.runTasks = (.ok (), ran) ∧
      (ran.acknowledge b).applyEvents b.decisionEvents = (.ok (), e') := by
  rw [applyBatch_eq_stages] at applied
  split at applied
  · next entered events =>
    split at applied
    · next ran turns => exact ⟨entered, ran, events, turns, applied⟩
    · next failed => exact absurd applied (failed _)
  · next failed => exact absurd applied (failed _)

theorem applyEvents_append (e : Engine) (first second : List HistoryEvent) :
    e.applyEvents (first ++ second) =
      match e.applyEvents first with
      | (.ok (), e) => e.applyEvents second
      | failed => failed := by
  induction first generalizing e with
  | nil => rfl
  | cons event rest ih =>
    simp only [List.cons_append, applyEvents]
    split
    · exact ih _
    · next failed =>
      split
      · next ok => exact absurd ok (failed _)
      · rfl

theorem applyBatches_append (e : Engine) (first second : List Batch) :
    e.applyBatches (first ++ second) =
      match e.applyBatches first with
      | (.ok (), e) => e.applyBatches second
      | failed => failed := by
  induction first generalizing e with
  | nil => rfl
  | cons b rest ih =>
    simp only [List.cons_append, applyBatches]
    split
    · exact ih _
    · next failed =>
      split
      · next ok => exact absurd ok (failed _)
      · rfl

theorem applyBatches_concat (e : Engine) (bs : List Batch) (b : Batch) :
    e.applyBatches (bs ++ [b]) =
      match e.applyBatches bs with
      | (.ok (), e) => e.applyBatch b
      | failed => failed := by
  rw [applyBatches_append]
  obtain ⟨result, e₁⟩ := e.applyBatches bs
  cases result with
  | error fault => rfl
  | ok =>
    simp only [applyBatches]
    split
    · next e₂ applied => exact applied.symm
    · rfl

/-! ## One task -/

def notified (e : Engine) : Engine :=
  e.inContext fun c => { c with ledger := c.ledger.notifySent }

theorem takeDecisions_eq (e : Engine) :
    e.takeDecisions = (e.context.ledger.pending ++ e.notified.takeTerminal.1.toList,
      e.notified.takeTerminal.2) := by
  unfold takeDecisions
  simp only [Ledger.collect]
  rw [show (e.inContext fun c => { c with ledger := e.context.ledger.notifySent }) = e.notified
    from rfl]
  obtain ⟨terminal, e₁⟩ := e.notified.takeTerminal
  cases terminal with
  | none => simp
  | some d => rfl

theorem takeTerminal_isTerminal (e : Engine) : ∀ d ∈ e.takeTerminal.1, d.isTerminal = true := by
  unfold takeTerminal
  split
  · simp
  · split
    · simp
    · simp only
      split
      · simp
      · next r _ =>
        intro d same
        cases same
        cases r <;> rfl

theorem takeTerminal_eq (e : Engine) : ∃ outputs completionEmitted,
    e.takeTerminal.2 = { e with
      scheduler := { e.scheduler with
        world := { e.scheduler.world with
          board := { e.scheduler.world.board with
            waiting := { e.scheduler.world.board.waiting with outputs } } } }
      completionEmitted } := by
  unfold takeTerminal
  split
  · exact ⟨e.scheduler.world.board.waiting.outputs, e.completionEmitted, rfl⟩
  · split
    · exact ⟨e.scheduler.world.board.waiting.outputs, e.completionEmitted, rfl⟩
    · simp only
      split
      · exact ⟨_, e.completionEmitted, rfl⟩
      · exact ⟨_, true, rfl⟩

theorem takeDecisions_context (e : Engine) :
    e.takeDecisions.2.context = { e.context with ledger := e.context.ledger.notifySent } := by
  obtain ⟨outputs, completionEmitted, taken⟩ := takeTerminal_eq e.notified
  rw [takeDecisions_eq, taken]
  rfl

theorem replay_ok_applyBatches {e e' : Engine} {t : DecisionTask}
    (replayed : e.replay t = (.ok (), e')) :
    e.applyBatches t.batches = (.ok (), e') := by
  unfold replay at replayed
  split at replayed
  · simp at replayed
  · next q queue =>
    simp only [DecisionTask.batches, queue]
    split at replayed
    · next e₁ applied =>
      split at replayed
      · simp at replayed
      · rw [← replayed]
        exact applied
    · next failed => exact absurd replayed (failed _)

theorem process_ok_replay {e e' : Engine} {t : DecisionTask} {c : Completion}
    (goesOn : e.isStaleFor t = false) (answered : e.process t = (.ok c, e')) :
    ∃ replayed, e.replay t = (.ok (), replayed) ∧ c.decisions = replayed.takeDecisions.1 ∧
      e' = replayed.takeDecisions.2 := by
  unfold process at answered
  simp only [goesOn, Bool.false_and, Bool.false_eq_true, if_false] at answered
  split at answered
  · simp at answered
  · next replayed ok =>
    simp only [Prod.mk.injEq, Except.ok.injEq] at answered
    obtain ⟨rfl, rfl⟩ := answered
    exact ⟨replayed, ok, rfl, rfl⟩

end Engine

/-! ## What a stage does to the context -/

theorem Context.loadMarkers_eq (c : Context) (events : List HistoryEvent) :
    ∃ sideEffects, c.loadMarkers events = { c with sideEffects } := by
  induction events generalizing c with
  | nil => exact ⟨c.sideEffects, rfl⟩
  | cons e rest ih =>
    have first : ∃ sideEffects, c.loadMarker e = { c with sideEffects } := by
      unfold loadMarker
      split
      · split
        · exact ⟨_, rfl⟩
        · exact ⟨c.sideEffects, rfl⟩
      · exact ⟨c.sideEffects, rfl⟩
    obtain ⟨one, first⟩ := first
    obtain ⟨all, later⟩ := ih (c.loadMarker e)
    refine ⟨all, ?_⟩
    change (c.loadMarker e).loadMarkers rest = _
    rw [later, first]

def EventsKeep (R : Context → Context → Prop) : Prop :=
  ∀ e w w', Run.applyEvent e w = .ok w' → R w.shared w'.shared

namespace Engine

section Keeps

variable {R : Context → Context → Prop}

theorem startRoot_context (e : Engine) (input : Option Payload) :
    (e.startRoot input).2.context = e.context := by
  unfold startRoot
  split
  · rfl
  · split <;> rfl

theorem applyEvent_keeps (refl : ∀ c, R c c) (events : EventsKeep R) (e : Engine)
    (event : HistoryEvent) : R e.context (e.applyEvent event).2.context := by
  unfold applyEvent
  split
  · exact refl _
  · split
    · rw [startRoot_context]
      exact refl _
    · dsimp only
      split
      · exact refl _
      · next w applied => exact events _ _ _ applied

theorem applyEvents_keeps (refl : ∀ c, R c c) (trans : ∀ {a b c}, R a b → R b c → R a c)
    (events : EventsKeep R) (e : Engine) (es : List HistoryEvent) :
    R e.context (e.applyEvents es).2.context := by
  induction es generalizing e with
  | nil => exact refl _
  | cons event rest ih =>
    have first := applyEvent_keeps refl events e event
    simp only [applyEvents]
    split
    · next e' applied =>
      rw [applied] at first
      exact trans first (ih e')
    · exact first

end Keeps

/-- The context after the code ran, before a contradiction is taken out of it. -/
def contextAfterRun (e : Engine) : Context :=
  (takeTurns Run.meaning e.runnable e.scheduler.world).world.shared

theorem runTasks_context (e : Engine) :
    e.runTasks.2.context = { e.contextAfterRun with contradiction := none } := by
  unfold runTasks
  simp only [Scheduler.run]
  split
  · rfl
  · next clean =>
    have same : e.contextAfterRun = { e.contextAfterRun with contradiction := none } := by
      have none : e.contextAfterRun.contradiction = none := clean
      rw [← none]
    split <;> exact same

theorem enter_context (e : Engine) (b : Batch) :
    (e.enter b).context =
      { e.context with replaying := accepts b, time := b.time.millis }.loadMarkers b.markers := by
  unfold enter
  split <;> rfl

theorem enter_eq (e : Engine) (b : Batch) : ∃ sideEffects, (e.enter b).context =
    { e.context with replaying := accepts b, time := b.time.millis, sideEffects } := by
  rw [enter_context]
  exact Context.loadMarkers_eq _ _

theorem enter_nextSideEffect (e : Engine) (b : Batch) :
    (e.enter b).context.nextSideEffect = e.context.nextSideEffect := by
  obtain ⟨sideEffects, eq⟩ := enter_eq e b
  rw [eq]

theorem enter_ledger (e : Engine) (b : Batch) : (e.enter b).context.ledger = e.context.ledger := by
  obtain ⟨sideEffects, eq⟩ := enter_eq e b
  rw [eq]

/-! ## What every stage keeps -/

theorem eventsKeep_fixed :
    EventsKeep fun c c' => Run.Fixed c c' ∧ c'.nextSideEffect = c.nextSideEffect :=
  fun _ _ _ applied => (Run.applyEvent_applied applied).fixed

theorem eventsKeep_grows : EventsKeep fun c c' => c.ledger.Grows c'.ledger :=
  fun _ _ _ applied => (Run.applyEvent_applied applied).ledger_grows

theorem applyEvents_fixed (e : Engine) (es : List HistoryEvent) :
    Run.Fixed e.context (e.applyEvents es).2.context ∧
      (e.applyEvents es).2.context.nextSideEffect = e.context.nextSideEffect :=
  applyEvents_keeps (fun c => ⟨.refl c, rfl⟩)
    (fun first second => ⟨first.1.trans second.1, second.2.trans first.2⟩) eventsKeep_fixed e es

theorem applyEvents_grows (e : Engine) (es : List HistoryEvent) :
    e.context.ledger.Grows (e.applyEvents es).2.context.ledger :=
  applyEvents_keeps (R := fun c c' => c.ledger.Grows c'.ledger) (fun _ => .refl _) .trans
    eventsKeep_grows e es

theorem runTasks_fixed (e : Engine) : Run.Fixed e.context e.runTasks.2.context := by
  obtain ⟨sideEffects, replaying, time, info⟩ :=
    takeTurns_keeps Run.keeps_fixed e.runnable e.scheduler.world
  rw [runTasks_context]
  exact ⟨sideEffects, replaying, time, info⟩

theorem runTasks_grows (e : Engine) :
    e.context.ledger.Grows e.runTasks.2.context.ledger := by
  rw [runTasks_context]
  exact takeTurns_keeps Run.keeps_grows e.runnable e.scheduler.world

theorem runTasks_nextSideEffect (e : Engine) :
    e.runTasks.2.context.nextSideEffect =
      e.context.nextSideEffect + (ofKind Run.isSideEffect e.callsOfRun).length := by
  rw [runTasks_context]
  exact (callsOfTurns_numbered Run.numbers_sideEffects e.runnable e.scheduler.world).2

theorem acknowledge_fixed (e : Engine) (b : Batch) :
    Run.Fixed e.context (e.acknowledge b).context ∧
      (e.acknowledge b).context.nextSideEffect = e.context.nextSideEffect := by
  unfold acknowledge
  split <;> exact ⟨⟨rfl, rfl, rfl, rfl⟩, rfl⟩

end Engine

end WorkflowReplay
