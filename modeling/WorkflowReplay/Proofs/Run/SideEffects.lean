import Mathlib
import WorkflowReplay.Proofs.Run.Stages

/-!
# Recorded side effects

The results of side effects are loaded batch by batch, before the code of the batch runs.  A side
effect therefore takes a recorded result exactly when the batches up to its own record one; a
marker that a later batch brings comes too late, and the closure runs again.  That happens to the
side effects of a decision task that failed or ran out of time: its code runs as if it were live,
and the markers lie behind the task that repeats it.
-/

set_option autoImplicit false

namespace WorkflowReplay

open Schedule

/-! ## What a history records -/

def HistoryEvent.marker? (e : HistoryEvent) : Option Decision.RecordMarker :=
  match e.attributes with
  | .markerRecorded a =>
    some { markerName := a.markerName, markerId := a.markerId, details := a.details }
  | _ => none

def HistoryEvent.recordOf (number : String) (e : HistoryEvent) : Option (Option Payload) :=
  e.marker?.bind fun marker =>
    if marker.markerName = Context.sideEffectMarker ∧ marker.markerId = number then
      some marker.details
    else none

/-- What events record last for the side effect with a number. -/
def recorded? (number : String) (events : List HistoryEvent) : Option (Option Payload) :=
  (events.filterMap (·.recordOf number)).getLast?

theorem recorded?_append (number : String) (first second : List HistoryEvent) :
    recorded? number (first ++ second) = (recorded? number second).or (recorded? number first) := by
  simp only [recorded?, List.filterMap_append, List.getLast?_append]

namespace Context

theorem loadMarker_eq (c : Context) (e : HistoryEvent) :
    c.loadMarker e =
      match e.marker? with
      | some marker =>
        if marker.markerName = sideEffectMarker then
          { c with sideEffects := c.sideEffects.insert marker.markerId marker.details }
        else c
      | none => c := by
  unfold loadMarker HistoryEvent.marker?
  cases e.attributes <;> rfl

theorem loadMarker_get? (c : Context) (e : HistoryEvent) (number : String) :
    (c.loadMarker e).sideEffects.get? number =
      (e.recordOf number).or (c.sideEffects.get? number) := by
  rw [loadMarker_eq, HistoryEvent.recordOf]
  cases e.marker? with
  | none => rfl
  | some marker =>
    by_cases named : marker.markerName = sideEffectMarker
    · by_cases numbered : marker.markerId = number <;> simp [named, numbered]
    · simp [named]

theorem loadMarkers_get? (c : Context) (events : List HistoryEvent) (number : String) :
    (c.loadMarkers events).sideEffects.get? number =
      (recorded? number events).or (c.sideEffects.get? number) := by
  induction events generalizing c with
  | nil => rfl
  | cons e rest ih =>
    have split : recorded? number (e :: rest) =
        (recorded? number rest).or (recorded? number [e]) := recorded?_append number [e] rest
    have one : recorded? number [e] = e.recordOf number := by
      cases h : e.recordOf number <;> simp [recorded?, h]
    rw [split, one, Option.or_assoc, ← loadMarker_get?]
    exact ih (c.loadMarker e)

end Context

/-! ## The side effects of a task -/

namespace Engine

def callsOfBatch (e : Engine) (b : Batch) : List (Given calls) :=
  match (e.enter b).applyEvents b.events with
  | (.ok (), e) => e.callsOfRun
  | _ => []

def callsOfBatches (e : Engine) (seen : List Batch) :
    List Batch → List (List Batch × Given calls)
  | [] => []
  | b :: rest =>
    (e.callsOfBatch b).map (fun g => (seen ++ [b], g)) ++
      match e.applyBatch b with
      | (.ok (), e) => e.callsOfBatches (seen ++ [b]) rest
      | _ => []

/-- The side effects that the code asks for while the engine answers a task, the first one first,
each with the batches up to its own. -/
def sideEffectCalls (e : Engine) (t : DecisionTask) : List (List Batch × Given calls) :=
  (e.callsOfBatches [] t.batches).filter (fun c => Run.isSideEffect c.2.command)

theorem sideEffectCalls_form {e : Engine} {t : DecisionTask} {c : List Batch × Given calls}
    (member : c ∈ e.sideEffectCalls t) :
    ∃ seen me closure shape w, c = (seen, ⟨me, .sideEffect closure shape, w⟩) := by
  obtain ⟨seen, me, command, w⟩ := c
  have kind := (List.mem_filter.mp member).2
  cases command with
  | sideEffect closure shape => exact ⟨seen, me, closure, shape, w, rfl⟩
  | _ => simp [Run.isSideEffect] at kind

def HasLoaded (c : Context) (seen : List Batch) : Prop :=
  ∀ number, c.sideEffects.get? number = recorded? number (seen.flatMap Batch.markers)

theorem HasLoaded.of_fixed {c c' : Context} {seen : List Batch} (loaded : HasLoaded c seen)
    (fixed : Run.Fixed c c') : HasLoaded c' seen :=
  fun number => fixed.sideEffects ▸ loaded number

theorem HasLoaded.enter {e : Engine} {seen : List Batch} (loaded : HasLoaded e.context seen)
    (b : Batch) : HasLoaded (e.enter b).context (seen ++ [b]) := by
  intro number
  rw [enter_context, Context.loadMarkers_get?, List.flatMap_append, recorded?_append]
  simp only [List.flatMap_cons, List.flatMap_nil, List.append_nil]
  rw [← loaded number]

/-- The context that the code of a batch meets has loaded the batch, and so have all contexts until
the next batch. -/
theorem applyBatch_loaded {e e' : Engine} {b : Batch} {seen : List Batch}
    (loaded : HasLoaded e.context seen) (applied : e.applyBatch b = (.ok (), e')) :
    HasLoaded e'.context (seen ++ [b]) := by
  obtain ⟨entered, ran, events, turns, decisions⟩ := applyBatch_ok_stages applied
  have first := (applyEvents_fixed (e.enter b) b.events).1
  have second := runTasks_fixed entered
  have third := (acknowledge_fixed ran b).1
  have fourth := (applyEvents_fixed (ran.acknowledge b) b.decisionEvents).1
  rw [events] at first
  rw [turns] at second
  rw [decisions] at fourth
  exact (loaded.enter b).of_fixed (((first.trans second).trans third).trans fourth)

theorem callsOfBatch_loaded {e : Engine} {b : Batch} {seen : List Batch}
    (loaded : HasLoaded e.context seen) :
    ∀ g ∈ e.callsOfBatch b, HasLoaded g.world.shared (seen ++ [b]) := by
  intro g member
  unfold callsOfBatch at member
  split at member
  · next entered events =>
    have first := (applyEvents_fixed (e.enter b) b.events).1
    rw [events] at first
    have second := (callsOfTurns_keep Run.keeps_fixed _ _ g member).1
    exact (loaded.enter b).of_fixed (first.trans second)
  · simp at member

theorem callsOfBatches_loaded (e : Engine) (seen bs : List Batch)
    (loaded : HasLoaded e.context seen) :
    ∀ c ∈ e.callsOfBatches seen bs, HasLoaded c.2.world.shared c.1 := by
  induction bs generalizing e seen with
  | nil => simp [callsOfBatches]
  | cons b rest ih =>
    intro c member
    simp only [callsOfBatches] at member
    rcases List.mem_append.mp member with now | later
    · obtain ⟨g, given, rfl⟩ := List.mem_map.mp now
      exact callsOfBatch_loaded loaded g given
    · split at later
      · next e' applied => exact ih e' _ (applyBatch_loaded loaded applied) c later
      · simp at later

/-! ## Their numbers -/

theorem callsOfBatch_numbered (e : Engine) (b : Batch) :
    let gs := ofKind Run.isSideEffect (e.callsOfBatch b)
    gs.map (fun g => g.world.shared.nextSideEffect) =
      List.range' e.context.nextSideEffect gs.length := by
  unfold callsOfBatch
  split
  · next entered events =>
    have before := (applyEvents_fixed (e.enter b) b.events).2
    rw [events, enter_nextSideEffect] at before
    rw [← before]
    exact (callsOfTurns_numbered Run.numbers_sideEffects _ _).1
  · rfl

theorem applyBatch_nextSideEffect {e e' : Engine} {b : Batch}
    (applied : e.applyBatch b = (.ok (), e')) :
    e'.context.nextSideEffect =
      e.context.nextSideEffect + (ofKind Run.isSideEffect (e.callsOfBatch b)).length := by
  obtain ⟨entered, ran, events, turns, decisions⟩ := applyBatch_ok_stages applied
  have first := (applyEvents_fixed (e.enter b) b.events).2
  have second := runTasks_nextSideEffect entered
  have third := (acknowledge_fixed ran b).2
  have fourth := (applyEvents_fixed (ran.acknowledge b) b.decisionEvents).2
  rw [events, enter_nextSideEffect] at first
  rw [turns] at second
  rw [decisions] at fourth
  have calls : e.callsOfBatch b = entered.callsOfRun := by
    unfold callsOfBatch
    rw [events]
  rw [calls]
  simp only at first second third fourth
  omega

theorem callsOfBatches_numbered (e : Engine) (seen bs : List Batch) :
    let cs := (e.callsOfBatches seen bs).filter (fun c => Run.isSideEffect c.2.command)
    cs.map (fun c => c.2.world.shared.nextSideEffect) =
      List.range' e.context.nextSideEffect cs.length := by
  induction bs generalizing e seen with
  | nil => rfl
  | cons b rest ih =>
    have now := callsOfBatch_numbered e b
    have tagged : ((e.callsOfBatch b).map (fun g => (seen ++ [b], g))).filter
        (fun c => Run.isSideEffect c.2.command) =
        (ofKind Run.isSideEffect (e.callsOfBatch b)).map (fun g => (seen ++ [b], g)) := by
      rw [List.filter_map]
      rfl
    simp only [callsOfBatches, List.filter_append, List.map_append, List.length_append, tagged,
      List.map_map, List.length_map]
    simp only at now
    have here : List.map ((fun c : List Batch × Given calls => c.2.world.shared.nextSideEffect) ∘
        fun g => (seen ++ [b], g)) (ofKind Run.isSideEffect (e.callsOfBatch b)) =
        List.range' e.context.nextSideEffect
          (ofKind Run.isSideEffect (e.callsOfBatch b)).length := now
    rw [here]
    split
    · next e' applied =>
      have later := ih e' (seen ++ [b])
      simp only [applyBatch_nextSideEffect applied] at later
      rw [later]
      exact List.range'_append_1 ..
    · simp

end Engine

/-! ## What a side effect answers -/

def Run.TakesRecord (details : Option Payload) (closure : Closure) (shape : Shape) (w : Run) :
    Prop :=
  (w.sideEffect closure shape).1 = .result (Codec.decodeValue shape details) ∧
    (w.sideEffect closure shape).2.shared.reports = w.shared.reports

theorem Codec.decodeValue_ne_replay (shape : Shape) (payload : Option Payload)
    (e : ReplayError) : decodeValue shape payload ≠ .error (.replay e) := by
  unfold decodeValue decode
  intro h
  cases payload with
  | none =>
    simp only [bind, Except.bind] at h
    split at h <;> simp at h
  | some bytes =>
    simp only [bind, Except.bind] at h
    split at h
    · next failed =>
      split at failed
      · simp at failed
      · split at failed <;> simp at failed
        subst failed
        simp at h
    · split at h <;> simp at h

/-- A side effect takes a record exactly when the run has one of the same value under the number of
the side effect. -/
theorem Run.takesRecord_iff (details : Option Payload) (closure : Closure) (shape : Shape)
    (w : Run) :
    w.TakesRecord details closure shape ↔
      ∃ d, w.shared.sideEffects.get? (toString w.shared.nextSideEffect) = some d ∧
        Codec.decodeValue shape d = Codec.decodeValue shape details := by
  unfold TakesRecord
  cases found : w.shared.sideEffects.get? (toString w.shared.nextSideEffect) with
  | some d =>
    rw [sideEffect_of_record found]
    simp [withMarker]
  | none =>
    refine iff_of_false (fun takes => ?_) (by simp)
    obtain ⟨reply, silent⟩ := takes
    cases mode : w.shared.replaying with
    | true =>
      rw [sideEffect_replaying_without_record found mode] at reply
      exact Codec.decodeValue_ne_replay shape details _ (SideEffect.result.inj reply).symm
    | false =>
      -- the closure runs, and reports that it does
      cases result : closure.result with
      | ok v =>
        rw [sideEffect_live found mode result] at silent
        simp [withMarker] at silent
      | error message =>
        rw [sideEffect_live_panics found mode result] at silent
        simp [withoutMarker] at silent

def DecisionTask.Records (t : DecisionTask) (number : String) (details : Option Payload) : Prop :=
  ∃ b ∈ t.batches, Engine.accepts b = true ∧
    ∃ e ∈ b.decisionEvents, e.recordOf number = some details

instance (t : DecisionTask) (number : String) (details : Option Payload) :
    Decidable (t.Records number details) :=
  inferInstanceAs (Decidable (∃ b ∈ t.batches, _))

/-- The side effect with number `n` of a fresh engine takes a record exactly when the batches up to
its own record, last, the same value under `n`; records in later batches come too late. -/
theorem sideEffect_takes_record_iff (info : RunInfo) (workflow : Workflow) (t : DecisionTask)
    {n : Nat} {seen : List Batch} {me : TaskId} {closure : Closure} {shape : Shape} {w : Run}
    (nth : ((Engine.new info workflow).sideEffectCalls t)[n]? =
      some (seen, ⟨me, .sideEffect closure shape, w⟩)) (details : Option Payload) :
    w.TakesRecord details closure shape ↔
      ∃ d, recorded? (toString n) (seen.flatMap Batch.markers) = some d ∧
        Codec.decodeValue shape d = Codec.decodeValue shape details := by
  have fresh : Engine.HasLoaded (Engine.new info workflow).context [] := fun _ => rfl
  have member := (List.mem_filter.mp (List.mem_of_getElem? nth)).1
  have loaded := Engine.callsOfBatches_loaded _ [] t.batches fresh _ member
  have numbers := Engine.callsOfBatches_numbered (Engine.new info workflow) [] t.batches
  have number : w.shared.nextSideEffect = n := by
    have at_n := congrArg (·[n]?) numbers
    unfold Engine.sideEffectCalls at nth
    simp only [List.getElem?_map, nth, Option.map_some] at at_n
    obtain ⟨bound, value⟩ := List.getElem?_eq_some_iff.mp at_n.symm
    rw [List.getElem_range'] at value
    have zero : (Engine.new info workflow).context.nextSideEffect = 0 := rfl
    omega
  rw [Run.takesRecord_iff, loaded, number]

/-! ## One workflow, two histories -/

def Workflow.oneSideEffect (v : Json) : Workflow where
  start _ := .ok (.call (.sideEffect ⟨.null, .ok v⟩ .value) fun
    | .result r => .done r
    | .panicked message => .panic message)

def recordedAfter (before : List EventAttributes) (details : Payload) : List HistoryEvent :=
  historyOf ([.workflowExecutionStarted {}] ++ before ++ [
    .decisionTaskStarted {},
    .decisionTaskCompleted {},
    .markerRecorded {
      markerName := Context.sideEffectMarker, markerId := "0", details := some details },
    .decisionTaskStarted {}])

/-- After one completed task, the side effect takes the record, here the value 99. -/
theorem sideEffect_takes_record_of_completed_task :
    let e := Engine.new {} (.oneSideEffect (.int 7))
    let t : DecisionTask :=
      { history := recordedAfter [] [91, 57, 57, 93], startedEventId := 5 }
    ∃ seen me closure shape w,
      (e.sideEffectCalls t)[0]? = some (seen, ⟨me, .sideEffect closure shape, w⟩) ∧
        Run.TakesRecord (some [91, 57, 57, 93]) closure shape w := by
  intro e t
  have first : (e.sideEffectCalls t)[0]?.map (fun c =>
      recorded? (toString 0) (c.1.flatMap Batch.markers)) =
      some (some (some [91, 57, 57, 93])) := by cbv
  obtain ⟨c, call, record⟩ := Option.map_eq_some_iff.mp first
  obtain ⟨seen, me, closure, shape, w, rfl⟩ :=
    Engine.sideEffectCalls_form (List.mem_of_getElem? call)
  exact ⟨seen, me, closure, shape, w, call,
    (sideEffect_takes_record_iff {} (.oneSideEffect (.int 7)) t call _).mpr ⟨_, record, rfl⟩⟩

/-- After a failed task the side effect ignores the record and runs again: its code ran in the
batch of the failed task, before the record was loaded. -/
theorem sideEffect_reruns_after_failed_task :
    let e := Engine.new {} (.oneSideEffect (.int 7))
    let t : DecisionTask :=
      { history := recordedAfter [.decisionTaskStarted {}, .decisionTaskFailed {}]
          [91, 57, 57, 93]
        startedEventId := 7 }
    t.Records (toString 0) (some [91, 57, 57, 93]) ∧
      ∃ seen me closure shape w,
        (e.sideEffectCalls t)[0]? = some (seen, ⟨me, .sideEffect closure shape, w⟩) ∧
          ¬ Run.TakesRecord (some [91, 57, 57, 93]) closure shape w := by
  intro e t
  have first : (e.sideEffectCalls t)[0]?.map (fun c =>
      c.2.world.shared.sideEffects.get? (toString c.2.world.shared.nextSideEffect)) =
      some none := by cbv
  obtain ⟨c, call, missing⟩ := Option.map_eq_some_iff.mp first
  obtain ⟨seen, me, closure, shape, w, rfl⟩ :=
    Engine.sideEffectCalls_form (List.mem_of_getElem? call)
  refine ⟨by decide +kernel, seen, me, closure, shape, w, call, ?_⟩
  intro takes
  obtain ⟨d, found, -⟩ := (Run.takesRecord_iff _ closure shape w).mp takes
  rw [missing] at found
  simp at found

end WorkflowReplay
