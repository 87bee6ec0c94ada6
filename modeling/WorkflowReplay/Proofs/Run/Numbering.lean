import WorkflowReplay.Proofs.Run.Stages

/-!
# Ids that a run makes

A run numbers its own requests: timers, signals, cancel requests and search attributes by one
count, side effects by another.  Such an id is never made twice, so it names one machine forever.
Only ids that the code may choose, those of activities and child runs, can be used again.
-/

set_option autoImplicit false

namespace WorkflowReplay

open Schedule

theorem toString_inj {m n : Nat} (h : toString m = toString n) : m = n := by
  have digits := congrArg (fun s => Nat.ofDigitChars 10 s.toList 0) h
  simpa [Nat.toString_eq_repr] using digits

def IsNumbered (target : DecisionTarget) : Prop := Run.IsGenerated target ∨ target = .marker

namespace Context

/-- The ids that the run made are below its counts, and each names the machine that was made with
it. -/
structure Numbered (c : Context) : Prop where
  sound : c.ledger.Sound
  ids : ∀ id i, c.ledger.byId.get? id = some i → Run.IsGenerated id.target →
    ∃ k < c.nextId, id.id = toString k
  markers : ∀ id i, c.ledger.byId.get? id = some i → id.target = .marker →
    ∃ k < c.nextSideEffect, id.id = toString k
  current : ∀ (i : Nat) machine, c.ledger.machines[i]? = some machine →
    IsNumbered machine.id.target → c.ledger.byId.get? machine.id = some i

theorem new_numbered (info : RunInfo) : (Context.new info).Numbered where
  sound := Ledger.empty_sound
  ids := by simp [Context.new, Ledger.empty]
  markers := by simp [Context.new, Ledger.empty]
  current := by simp [Context.new, Ledger.empty]

namespace Numbered

variable {c c' : Context}

theorem unused_id (h : c.Numbered) (target : DecisionTarget) (generated : Run.IsGenerated target) :
    c.ledger.byId.get? ⟨target, toString c.nextId⟩ = none := by
  cases name : c.ledger.byId.get? ⟨target, toString c.nextId⟩ with
  | none => rfl
  | some i =>
    obtain ⟨k, below, same⟩ := h.ids _ i name generated
    have := toString_inj same
    omega

theorem unused_marker (h : c.Numbered) :
    c.ledger.byId.get? ⟨.marker, toString c.nextSideEffect⟩ = none := by
  cases name : c.ledger.byId.get? ⟨.marker, toString c.nextSideEffect⟩ with
  | none => rfl
  | some i =>
    obtain ⟨k, below, same⟩ := h.markers _ i name rfl
    have := toString_inj same
    omega

theorem of_ids_kept (h : c.Numbered) (sound : c'.ledger.Sound)
    (byId : c'.ledger.byId = c.ledger.byId)
    (machines : ∀ (i : Nat) machine', c'.ledger.machines[i]? = some machine' →
      ∃ machine, c.ledger.machines[i]? = some machine ∧ machine'.id = machine.id)
    (nextId : c.nextId ≤ c'.nextId) (nextSideEffect : c.nextSideEffect ≤ c'.nextSideEffect) :
    c'.Numbered where
  sound := sound
  ids id i name generated := by
    obtain ⟨k, below, same⟩ := h.ids id i (byId ▸ name) generated
    exact ⟨k, by omega, same⟩
  markers id i name marker := by
    obtain ⟨k, below, same⟩ := h.markers id i (byId ▸ name) marker
    exact ⟨k, by omega, same⟩
  current i machine' found numbered := by
    obtain ⟨machine, before, same⟩ := machines i machine' found
    rw [byId, same]
    exact h.current i machine before (same ▸ numbered)

theorem of_ledger_made (h : c.Numbered) {r : Request} (ledger : c'.ledger = c.ledger.made r)
    (free : c.ledger.isLive r.id = false)
    (unused : IsNumbered r.id.target → c.ledger.byId.get? r.id = none)
    (ids : Run.IsGenerated r.id.target → ∃ k < c'.nextId, r.id.id = toString k)
    (markers : r.id.target = .marker → ∃ k < c'.nextSideEffect, r.id.id = toString k)
    (nextId : c.nextId ≤ c'.nextId) (nextSideEffect : c.nextSideEffect ≤ c'.nextSideEffect) :
    c'.Numbered where
  sound := ledger ▸ (Ledger.made_grows free).sound h.sound
  ids id i name generated := by
    rw [ledger] at name
    simp only [Ledger.made, Table.get?_insert] at name
    split at name
    · next same => exact same ▸ ids (same ▸ generated)
    · obtain ⟨k, below, same⟩ := h.ids id i name generated
      exact ⟨k, by omega, same⟩
  markers id i name marker := by
    rw [ledger] at name
    simp only [Ledger.made, Table.get?_insert] at name
    split at name
    · next same => exact same ▸ markers (same ▸ marker)
    · obtain ⟨k, below, same⟩ := h.markers id i name marker
      exact ⟨k, by omega, same⟩
  current i machine found numbered := by
    rw [ledger, Ledger.made_machines] at found
    rw [ledger]
    simp only [Ledger.made, Table.get?_insert]
    split at found
    · have name := h.current i machine found numbered
      have other : r.id ≠ machine.id := by
        intro same
        rw [← same, unused (same ▸ numbered)] at name
        simp at name
      rw [if_neg other, name]
    · split at found
      · next last =>
        cases found
        rw [if_pos (show r.id = Machine.id { request := r } from rfl), last]
      · simp at found

end Numbered

end Context

namespace Run

section Free

variable {c : Context} {nextId : Nat} {id : DecisionId}

theorem Free.unused (numbered : c.Numbered) (free : Free c nextId id)
    (counted : IsNumbered id.target) : c.ledger.byId.get? id = none := by
  rcases free with ⟨generated, number, -⟩ | ⟨chosen, -⟩
  · have eq : id = ⟨id.target, toString c.nextId⟩ := by rw [← number]
    rw [eq]
    exact numbered.unused_id _ generated
  · rcases chosen with target | target <;>
      simp [IsNumbered, target, IsGenerated] at counted

theorem Free.isLive (numbered : c.Numbered) (free : Free c nextId id) :
    c.ledger.isLive id = false := by
  by_cases generated : IsGenerated id.target
  · exact Ledger.isLive_of_unused (free.unused numbered (.inl generated))
  · rcases free with ⟨made, -, -⟩ | ⟨-, settled⟩
    · exact absurd made generated
    · exact settled

theorem Free.exists_number (free : Free c nextId id) (generated : IsGenerated id.target) :
    ∃ k < nextId, id.id = toString k := by
  rcases free with ⟨-, number, below⟩ | ⟨chosen, -⟩
  · exact ⟨c.nextId, below, number⟩
  · rcases chosen with target | target <;> simp [target, IsGenerated] at generated

theorem Free.not_marker (free : Free c nextId id) : id.target ≠ .marker := by
  intro marker
  rcases free with ⟨generated, -, -⟩ | ⟨chosen, -⟩
  · simp [marker, IsGenerated] at generated
  · rcases chosen with target | target <;> simp [target] at marker

end Free

theorem requestCancel?_keeps_ids {m m' : Ledger} {id : DecisionId}
    (asked : m.requestCancel? id = some m') :
    m'.byId = m.byId ∧ ∀ (i : Nat) machine', m'.machines[i]? = some machine' →
      ∃ machine, m.machines[i]? = some machine ∧ machine'.id = machine.id := by
  obtain ⟨j, machine, changed, -, found, canceled, rfl⟩ := Ledger.requestCancel?_eq asked
  refine ⟨rfl, ?_⟩
  intro i machine' there
  obtain ⟨old, before, evolves⟩ :=
    Ledger.put_new found (Machine.requestCancel?_evolves canceled) there
  exact ⟨old, before, evolves.id⟩

theorem handleEvent_keeps_ids {m m' : Ledger} {e : HistoryEvent} {resolution : Option Resolution}
    (handled : m.handleEvent e = .ok (resolution, m')) :
    m'.byId = m.byId ∧ ∀ (i : Nat) machine', m'.machines[i]? = some machine' →
      ∃ machine, m.machines[i]? = some machine ∧ machine'.id = machine.id := by
  rcases Ledger.handleEvent_cases handled with ⟨-, pendingUpserts, rfl⟩ |
    ⟨route, j, machine, reaction, pendingUpserts, -, -, found, reacts, -, rfl⟩
  · exact ⟨rfl, fun i machine' there => ⟨machine', there, rfl⟩⟩
  · refine ⟨rfl, ?_⟩
    intro i machine' there
    obtain ⟨old, before, evolves⟩ := Ledger.put_new found (Ledger.react?_evolves reacts) there
    exact ⟨old, before, evolves.id⟩

theorem settle_numbered {w : Run} (id : DecisionId) (o : Outcome) (h : w.shared.Numbered) :
    (w.settle id o).shared.Numbered := by
  obtain ⟨waiting, eq⟩ := settle_shared id o w
  rw [eq]
  exact ⟨h.sound, h.ids, h.markers, h.current⟩

theorem withMarker_numbered {w : Run} (h : w.shared.Numbered) (details : Option Payload)
    (reports : List Json) : (w.withMarker details reports).shared.Numbered := by
  have name := h.unused_marker
  have live := Ledger.isLive_of_unused name
  exact h.of_ledger_made (r := .marker {
      markerName := Context.sideEffectMarker
      markerId := toString w.shared.nextSideEffect
      details }) (Ledger.request_eq_made_of_free live) live (fun _ => name)
    (fun generated => absurd generated (by simp [Request.id, IsGenerated]))
    (fun _ => ⟨w.shared.nextSideEffect, Nat.lt_succ_self _, rfl⟩) (Nat.le_refl _)
    (Nat.le_succ _)

theorem upserted_numbered {c : Context} (h : c.Numbered) (attributes : SearchAttributes) :
    Context.Numbered { c with
      nextId := c.nextId + 1
      ledger := c.ledger.upsert (toString c.nextId) attributes } := by
  have name := h.unused_id .upsertSearchAttributes trivial
  have live := Ledger.isLive_of_unused name
  obtain ⟨pendingUpserts, eq⟩ := Ledger.upsert_eq c.ledger (toString c.nextId) attributes
  have made : Context.Numbered { c with
      nextId := c.nextId + 1
      ledger := c.ledger.request (.upsert (toString c.nextId) attributes) } :=
    h.of_ledger_made (r := .upsert (toString c.nextId) attributes)
      (Ledger.request_eq_made_of_free live) live
      (fun _ => name) (fun _ => ⟨c.nextId, Nat.lt_succ_self _, rfl⟩)
      (fun marker => absurd marker (by simp [Request.id])) (Nat.le_succ _) (Nat.le_refl _)
  refine made.of_ids_kept ?_ ?_ (fun i machine found => ⟨machine, ?_, rfl⟩) (Nat.le_refl _)
    (Nat.le_refl _)
  · exact (Ledger.upsert_grows _ _ _).sound h.sound
  · simp only [eq]
  · simpa only [eq] using found

theorem requestCancel?_numbered {w : Run} (h : w.shared.Numbered) {id : DecisionId}
    {ledger : Ledger} (asked : w.shared.ledger.requestCancel? id = some ledger) :
    (w.withLedger ledger).shared.Numbered := by
  obtain ⟨byId, machines⟩ := requestCancel?_keeps_ids asked
  exact h.of_ids_kept ((Ledger.requestCancel?_grows asked).sound h.sound) byId machines
    (Nat.le_refl _) (Nat.le_refl _)

theorem Effect.numbered {w w' : Run} {number : Bool} {handed : Option PlaceholderId}
    (effect : Effect w number handed w') (h : w.shared.Numbered) : w'.shared.Numbered := by
  cases effect with
  | aside aside =>
    obtain ⟨ledger, -, number, -, more⟩ := aside.shared_eq
    refine h.of_ids_kept (ledger ▸ h.sound) (by rw [ledger]) (fun i machine found => ?_) more
      (Nat.le_of_eq number.symm)
    exact ⟨machine, ledger ▸ found, rfl⟩
  | @asked w₁ request promise aside free =>
    obtain ⟨ledger, -, number, -, more⟩ := aside.shared_eq
    have live := free.isLive h
    have made : w₁.shared.ledger.request request = w.shared.ledger.made request := by
      rw [ledger, Ledger.request_eq_made_of_free live]
    exact h.of_ledger_made made live (free.unused h) free.exists_number
      (fun marker => absurd marker free.not_marker) more (Nat.le_of_eq number.symm)
  | recorded details reports => exact withMarker_numbered h details reports
  | unrecorded contradiction reports =>
    exact h.of_ids_kept h.sound rfl (fun i machine found => ⟨machine, found, rfl⟩) (Nat.le_refl _)
      (Nat.le_succ _)
  | upserted attributes => exact upserted_numbered h attributes
  | canceled asked => exact requestCancel?_numbered h asked
  | ended asked outcome => exact settle_numbered _ outcome (requestCancel?_numbered h asked)

theorem handleEvent_numbered {w : Run} {e : HistoryEvent} {resolution : Option Resolution}
    {ledger : Ledger} (handled : w.shared.ledger.handleEvent e = .ok (resolution, ledger))
    (h : w.shared.Numbered) : (w.withLedger ledger).shared.Numbered := by
  obtain ⟨byId, machines⟩ := handleEvent_keeps_ids handled
  exact h.of_ids_kept ((Ledger.handleEvent_grows handled).sound h.sound) byId machines
    (Nat.le_refl _)
    (Nat.le_refl _)

theorem notifySent_numbered {w : Run} (h : w.shared.Numbered) :
    (w.withLedger w.shared.ledger.notifySent).shared.Numbered := by
  refine h.of_ids_kept (Ledger.notifySent_sound h.sound) rfl (fun i machine' found => ?_)
    (Nat.le_refl _) (Nat.le_refl _)
  simp only [withLedger, Ledger.notifySent_machine] at found
  split at found
  · obtain ⟨machine, before, rfl⟩ := Option.map_eq_some_iff.mp found
    exact ⟨machine, before, rfl⟩
  · exact ⟨machine', found, rfl⟩

theorem Applied.numbered {e : HistoryEvent} {w w' : Run} (applied : Applied e w w')
    (h : w.shared.Numbered) : w'.shared.Numbered := by
  cases applied with
  | aside shared =>
    obtain ⟨_, _, _, eq⟩ := shared
    rw [eq]
    exact ⟨h.sound, h.ids, h.markers, h.current⟩
  | unresolved unresolved => exact handleEvent_numbered unresolved h
  | resolved resolved =>
    exact settle_numbered _ _ (handleEvent_numbered resolved h)

end Run

end WorkflowReplay
