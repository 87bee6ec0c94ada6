import WorkflowReplay.Proofs.Run.Numbering
import WorkflowReplay.Proofs.Run.SideEffects
import WorkflowReplay.Proofs.Run.Twins

/-!
# Side effects that a replay finds

The side effects of a live batch are new to the history, and each leaves a marker among the
decisions of the answer.  Once the history holds those markers, a replay of the batch finds for
every side effect the result that it had; `foreseen_replay` says so for the code of any batch.
-/

set_option autoImplicit false

namespace WorkflowReplay

open Schedule

/-! ## Steady code -/

/-- The call asks whether the code runs as a replay, or its closure gives no value. -/
def Call.IsUnsteady : Call → Prop
  | .isReplaying => True
  | .sideEffect closure _ => ∀ v, closure.result ≠ .ok v
  | _ => False

/-- The code of the workflow never asks whether it runs as a replay, and its side effects have
values. -/
def Workflow.IsSteady (w : Workflow) : Prop :=
  ∀ input code, w.start input = .ok code → code.Avoids Call.IsUnsteady

/-! ## Markers of a chapter -/

def Chapter.Records (c : Chapter) (decisions : List Decision) : Prop :=
  ∀ marker, marker ∈ c.decisionEvents.filterMap HistoryEvent.marker? ↔
    Decision.recordMarker marker ∈ decisions

def sideEffectMarkerOf (number : String) (details : Option Payload) : Decision.RecordMarker :=
  { markerName := Context.sideEffectMarker, markerId := number, details }

theorem recordOf_eq_some_iff {e : HistoryEvent} {number : String} {details : Option Payload} :
    e.recordOf number = some details ↔ e.marker? = some (sideEffectMarkerOf number details) := by
  rw [HistoryEvent.recordOf, Option.bind_eq_some_iff]
  constructor
  · rintro ⟨marker, found, record⟩
    obtain ⟨⟨named, numbered⟩, same⟩ := (Option.ite_none_right_eq_some ..).mp record
    cases same
    rw [found, sideEffectMarkerOf, ← named, ← numbered]
  · intro found
    exact ⟨_, found, if_pos ⟨rfl, rfl⟩⟩

theorem Chapter.record_mem {c : Chapter} {e : HistoryEvent} {number : String}
    {details : Option Payload} (member : e ∈ c.markers)
    (records : e.recordOf number = some details) :
    sideEffectMarkerOf number details ∈ c.decisionEvents.filterMap HistoryEvent.marker? :=
  List.mem_filterMap.mpr ⟨e, (List.mem_filter.mp member).1, recordOf_eq_some_iff.mp records⟩

def Chapter.RecordsBelow (c : Chapter) (bound : Nat) : Prop :=
  ∀ e ∈ c.markers, ∀ number details, e.recordOf number = some details →
    ∃ k < bound, number = toString k

namespace Context

/-- All recorded side effects have numbers that the run has used. -/
def Known (c : Context) : Prop :=
  ∀ number details, c.sideEffects.get? number = some details →
    ∃ k < c.nextSideEffect, number = toString k

theorem new_known (info : RunInfo) : (Context.new info).Known := by
  simp [Known, Context.new]

theorem Known.get?_of_count_le {c : Context} (known : c.Known) {k : Nat}
    (new : c.nextSideEffect ≤ k) :
    c.sideEffects.get? (toString k) = none := by
  cases found : c.sideEffects.get? (toString k) with
  | none => rfl
  | some details =>
    obtain ⟨k', below, same⟩ := known _ _ found
    have := toString_inj same
    omega

theorem Known.loadMarkers {c : Context} (known : c.Known) {chapter : Chapter}
    (below : chapter.RecordsBelow c.nextSideEffect) : (c.loadMarkers chapter.markers).Known := by
  intro number details found
  have count : (c.loadMarkers chapter.markers).nextSideEffect = c.nextSideEffect := by
    obtain ⟨sideEffects, eq⟩ := loadMarkers_eq c chapter.markers
    rw [eq]
  rw [loadMarkers_get?] at found
  rw [count]
  rcases Option.or_eq_some_iff.mp found with recorded | ⟨-, before⟩
  · obtain ⟨e, member, records⟩ := List.mem_filterMap.mp (List.mem_of_getLast? recorded)
    exact below e member number details records
  · exact known number details before

end Context

/-! ## Machines that wait to be sent -/

/-- Calls leave the initial decisions of machines alone: what was not sent is still not sent. -/
structure Ledger.Holds (m m' : Ledger) : Prop where
  old : ∀ (i : Nat) machine, m.machines[i]? = some machine → ∃ machine',
    m'.machines[i]? = some machine' ∧ machine'.request.initialDecision =
      machine.request.initialDecision ∧ (machine.IsUnsent → machine'.IsUnsent)

namespace Ledger.Holds

theorem refl (m : Ledger) : m.Holds m := ⟨fun _ machine found => ⟨machine, found, rfl, fun h => h⟩⟩

theorem trans {a b c : Ledger} (first : a.Holds b) (second : b.Holds c) : a.Holds c where
  old i machine found := by
    obtain ⟨machine₁, found₁, decision₁, unsent₁⟩ := first.old i machine found
    obtain ⟨machine₂, found₂, decision₂, unsent₂⟩ := second.old i machine₁ found₁
    exact ⟨machine₂, found₂, decision₂.trans decision₁, fun h => unsent₂ (unsent₁ h)⟩

theorem request (m : Ledger) (r : Request) : m.Holds (m.request r) := by
  rcases Ledger.request_cases m r with ⟨same, -⟩ | ⟨made, -⟩
  · rw [same]
    exact refl m
  · refine ⟨fun i machine found => ⟨machine, ?_, rfl, fun h => h⟩⟩
    rw [made, Ledger.made_machines, if_pos (List.getElem?_eq_some_iff.mp found).1, found]

theorem requestCancel? {m m' : Ledger} {id : DecisionId} (asked : m.requestCancel? id = some m') :
    m.Holds m' := by
  obtain ⟨j, machine, machine', -, found, canceled, rfl⟩ := Ledger.requestCancel?_eq asked
  obtain ⟨l, life, rfl⟩ := Machine.requestCancel?_eq canceled
  obtain ⟨-, rfl⟩ := Lifecycle.requestCancel?_eq life
  refine ⟨?_⟩
  intro i old there
  by_cases same : j = i
  · subst same
    obtain rfl : machine = old := Option.some.inj (found.symm.trans there)
    have bound := (List.getElem?_eq_some_iff.mp found).1
    exact ⟨machine.withLife { machine.life with cancelRequested := true },
      List.getElem?_set_self bound, rfl, fun h => h⟩
  · exact ⟨old, by simp [Ledger.put, same, there], rfl, fun h => h⟩

end Ledger.Holds

namespace Run

theorem Effect.holds {w w' : Run} {number : Bool} {handed : Option PlaceholderId}
    (effect : Effect w number handed w') : w.shared.ledger.Holds w'.shared.ledger := by
  cases effect with
  | aside aside => rw [aside.shared_eq.1]; exact .refl _
  | asked request promise aside free =>
    rw [← aside.shared_eq.1]
    exact .request _ request
  | recorded => exact .request _ _
  | unrecorded => exact .refl _
  | upserted attributes =>
    obtain ⟨pendingUpserts, eq⟩ :=
      Ledger.upsert_eq w.shared.ledger (toString w.shared.nextId) attributes
    have requested := Ledger.Holds.request w.shared.ledger
      (.upsert (toString w.shared.nextId) attributes)
    refine ⟨?_⟩
    intro i machine found
    simp only [eq]
    exact requested.old i machine found
  | canceled asked => exact .requestCancel? asked
  | @ended _ id ledger asked outcome =>
    obtain ⟨waiting, eq⟩ := settle_shared id outcome (w.withLedger ledger)
    rw [eq]
    exact .requestCancel? asked

theorem keeps_holds : meaning.Keeps fun c c' => c.ledger.Holds c'.ledger :=
  keeps_of_effects (fun _ => .refl _) .trans Effect.holds fun _ _ _ => .refl _

theorem keeps_numbered : meaning.Keeps fun c c' => c.Numbered → c'.Numbered :=
  keeps_of_effects (fun _ h => h) (fun first second h => second (first h)) Effect.numbered
    fun _ _ _ h => ⟨h.sound, h.ids, h.markers, h.current⟩

theorem keeps_nextSideEffect_le : meaning.Keeps fun c c' => c.nextSideEffect ≤ c'.nextSideEffect :=
  keeps_of_effects (fun _ => Nat.le_refl _) Nat.le_trans
    (fun effect => by rw [effect.nextSideEffect_eq]; exact Nat.le_add_right ..) fun _ _ _ =>
      Nat.le_refl _

end Run

namespace Ledger

theorem Sound.pending_mem {m : Ledger} (sound : m.Sound) {i : Nat} {machine : Machine}
    (found : m.machines[i]? = some machine) (unsent : machine.IsUnsent) :
    machine.request.initialDecision ∈ m.pending := by
  refine List.mem_flatMap.mpr ⟨i, sound.unsent i machine found unsent, ?_⟩
  rw [found]
  simp only [Machine.pending]
  rw [if_neg (by simp [show machine.life.initialEmitted = false from unsent])]
  simp

theorem marker_of_pending {m : Ledger} {marker : Decision.RecordMarker}
    (due : .recordMarker marker ∈ m.pending) :
    ∃ (i : Nat) (machine : Machine), m.machines[i]? = some machine ∧
      machine.request = .marker marker := by
  obtain ⟨i, -, pending⟩ := List.mem_flatMap.mp due
  split at pending
  · next machine found =>
    refine ⟨i, machine, found, ?_⟩
    rcases List.mem_append.mp pending with initial | cancel
    · split at initial
      · simp at initial
      · have same := List.mem_singleton.mp initial
        cases request : machine.request <;> simp [request, Request.initialDecision] at same
        rw [same]
    · split at cancel
      · cases request : machine.request <;> simp [request, Request.cancelDecision] at cancel
      · simp at cancel
  · simp at pending

end Ledger

theorem Context.Numbered.marker_unique {c : Context} (numbered : c.Numbered)
    {marker marker' : Decision.RecordMarker} (id : marker.markerId = marker'.markerId)
    (due : .recordMarker marker ∈ c.ledger.pending)
    (due' : .recordMarker marker' ∈ c.ledger.pending) : marker = marker' := by
  obtain ⟨i, machine, found, request⟩ := Ledger.marker_of_pending due
  obtain ⟨j, machine', found', request'⟩ := Ledger.marker_of_pending due'
  have name := numbered.current i machine found (.inr (by simp [Machine.id, request, Request.id]))
  have name' := numbered.current j machine' found'
    (.inr (by simp [Machine.id, request', Request.id]))
  have same : machine.id = machine'.id := by
    simp [Machine.id, request, request', Request.id, id]
  rw [same, name'] at name
  obtain rfl : j = i := Option.some.inj name
  obtain rfl : machine = machine' := Option.some.inj (found.symm.trans found')
  exact Request.marker.inj (request.symm.trans request')

/-! ## The side effects of a batch -/

namespace Engine

section Code

variable {entered : Engine} (numbered : entered.context.Numbered)
  (known : entered.context.Known) (live : entered.context.replaying = false)

include numbered in
theorem contextAfterRun_numbered : entered.contextAfterRun.Numbered :=
  takeTurns_keeps Run.keeps_numbered entered.runnable entered.scheduler.world numbered

include known in
theorem sideEffect_unrecorded {g : Given calls} (member : g ∈ entered.callsOfRun) :
    entered.context.sideEffects.get? (toString g.world.shared.nextSideEffect) = none :=
  known.get?_of_count_le (callsOfTurns_keep Run.keeps_nextSideEffect_le entered.runnable
    entered.scheduler.world g member).1

include numbered known live in
theorem marker_pending_after_run {me : TaskId} {closure : Closure} {shape : Shape} {w : Run}
    {v : Json} (member : ⟨me, .sideEffect closure shape, w⟩ ∈ entered.callsOfRun)
    (value : closure.result = .ok v) :
    .recordMarker (sideEffectMarkerOf (toString w.shared.nextSideEffect)
      (some (Codec.encodeValue v))) ∈ entered.contextAfterRun.ledger.pending := by
  have fixed := (callsOfTurns_keep Run.keeps_fixed entered.runnable entered.scheduler.world _
    member).1
  have held := (callsOfTurns_keep Run.keeps_holds entered.runnable entered.scheduler.world _
    member).2
  have numberedThen : w.shared.Numbered := (callsOfTurns_keep Run.keeps_numbered entered.runnable
    entered.scheduler.world _ member).1 numbered
  have new := sideEffect_unrecorded known member
  rw [← show w.shared.sideEffects = entered.context.sideEffects from fixed.sideEffects] at new
  have mode : w.shared.replaying = false := fixed.replaying.trans live
  have ran : w.sideEffect closure shape = _ := Run.sideEffect_live new mode value
  rw [show Given.after Run.meaning ⟨me, .sideEffect closure shape, w⟩ =
    (w.sideEffect closure shape).2 from rfl, ran] at held
  have made := Ledger.request_eq_made_of_free (r := .marker (sideEffectMarkerOf
    (toString w.shared.nextSideEffect) (some (Codec.encodeValue v))))
    (Ledger.isLive_of_unused numberedThen.unused_marker)
  obtain ⟨machine, found, decision, unsent⟩ := held.old w.shared.ledger.machines.length
    { request := .marker (sideEffectMarkerOf (toString w.shared.nextSideEffect)
      (some (Codec.encodeValue v))) } (by
        change (w.shared.ledger.request _).machines[_]? = _
        rw [sideEffectMarkerOf] at made ⊢
        rw [made, Ledger.made_machines]
        simp)
  have due := (contextAfterRun_numbered numbered).sound.pending_mem found (unsent rfl)
  rw [decision] at due
  exact due

variable {c : Chapter} (records : ∀ marker,
  marker ∈ c.decisionEvents.filterMap HistoryEvent.marker? ↔
    .recordMarker marker ∈ entered.contextAfterRun.ledger.pending)

include numbered records in
theorem chapter_recordsBelow : c.RecordsBelow entered.contextAfterRun.nextSideEffect := by
  intro e member number details recorded
  have after := contextAfterRun_numbered numbered
  obtain ⟨i, machine, found, request⟩ :=
    Ledger.marker_of_pending ((records _).mp (Chapter.record_mem member recorded))
  have id : machine.id = ⟨.marker, number⟩ := by
    simp [Machine.id, request, Request.id, sideEffectMarkerOf]
  have name := after.current i machine found (.inr (by rw [id]))
  exact after.markers _ i (id ▸ name) rfl

include numbered known live records in
theorem recorded?_of_sideEffect {me : TaskId} {closure : Closure} {shape : Shape} {w : Run}
    {v : Json} (member : ⟨me, .sideEffect closure shape, w⟩ ∈ entered.callsOfRun)
    (value : closure.result = .ok v) :
    recorded? (toString w.shared.nextSideEffect) c.markers =
      some (some (Codec.encodeValue v)) := by
  have due := marker_pending_after_run numbered known live member value
  obtain ⟨e, among, marker⟩ := List.mem_filterMap.mp ((records _).mpr due)
  have marked : e.isMarker = true := by
    unfold HistoryEvent.marker? at marker
    split at marker
    · next a attributes => simp [HistoryEvent.isMarker, HistoryEvent.type, attributes,
        EventAttributes.type]
    · simp at marker
  have there : some (Codec.encodeValue v) ∈
      c.markers.filterMap (·.recordOf (toString w.shared.nextSideEffect)) :=
    List.mem_filterMap.mpr
      ⟨e, List.mem_filter.mpr ⟨among, marked⟩, recordOf_eq_some_iff.mpr marker⟩
  -- Whatever is recorded last under the number is a decision that is due, and there is only one.
  cases last : recorded? (toString w.shared.nextSideEffect) c.markers with
  | none =>
    simp only [recorded?, List.getLast?_eq_none_iff] at last
    rw [last] at there
    simp at there
  | some details =>
    obtain ⟨e', among', recorded'⟩ := List.mem_filterMap.mp (List.mem_of_getLast? last)
    have due' := (records _).mp (Chapter.record_mem among' recorded')
    have same := (contextAfterRun_numbered numbered).marker_unique (by rfl) due' due
    exact congrArg (fun m => some m.details) same

variable (steady : Tasks.Avoid Call.IsUnsteady entered.runnable)
  (known' : Table String (Option Payload))

include steady in
theorem sideEffect_returns_value {me : TaskId} {closure : Closure} {shape : Shape} {w : Run}
    (member : ⟨me, .sideEffect closure shape, w⟩ ∈ entered.callsOfRun) :
    ∃ v, closure.result = .ok v := by
  have good := (takeTurns_avoid Run.meaning entered.runnable entered.scheduler.world steady).2 _
    member
  cases result : closure.result with
  | ok v => exact ⟨v, rfl⟩
  | error message => exact absurd (fun v => by simp [result]) good

include steady in
theorem not_isReplaying {me : TaskId} {w : Run} :
    ⟨me, .isReplaying, w⟩ ∉ entered.callsOfRun := fun member =>
  (takeTurns_avoid Run.meaning entered.runnable entered.scheduler.world steady).2 _ member trivial

include numbered known live records steady in
/-- A replay that has loaded the chapter finds the result of every side effect. -/
theorem foreseen_replay
    (loaded : ∀ number details, recorded? number c.markers = some details →
      known'.get? number = some details) :
    ∀ g ∈ entered.callsOfRun, Run.Foreseen entered.context.sideEffects known' true g := by
  rintro ⟨me, command, w⟩ member
  cases command with
  | isReplaying => exact absurd member (not_isReplaying steady)
  | sideEffect closure shape =>
    obtain ⟨v, value⟩ := sideEffect_returns_value steady member
    exact ⟨v, value, sideEffect_unrecorded known member,
      .inl (loaded _ _ (recorded?_of_sideEffect numbered known live records member value))⟩
  | _ => exact trivial

include known steady in
/-- A second live run that knows no more runs every side effect too. -/
theorem foreseen_live
    (new : ∀ k, entered.context.nextSideEffect ≤ k → known'.get? (toString k) = none) :
    ∀ g ∈ entered.callsOfRun, Run.Foreseen entered.context.sideEffects known' false g := by
  rintro ⟨me, command, w⟩ member
  cases command with
  | isReplaying => exact absurd member (not_isReplaying steady)
  | sideEffect closure shape =>
    obtain ⟨v, value⟩ := sideEffect_returns_value steady member
    have count :=
      (callsOfTurns_keep Run.keeps_nextSideEffect_le entered.runnable entered.scheduler.world _
      member).1
    exact ⟨v, value, sideEffect_unrecorded known member, .inr ⟨new _ count, rfl⟩⟩
  | _ => exact trivial

end Code

theorem recordMarker_mem_takeDecisions (e : Engine) (marker : Decision.RecordMarker) :
    .recordMarker marker ∈ e.takeDecisions.1 ↔ .recordMarker marker ∈ e.context.ledger.pending := by
  rw [takeDecisions_eq, List.mem_append]
  refine ⟨fun member => member.resolve_right fun last => ?_, .inl⟩
  have := takeTerminal_isTerminal _ _ (Option.mem_toList.mp last)
  simp [Decision.isTerminal] at this

end Engine

end WorkflowReplay
