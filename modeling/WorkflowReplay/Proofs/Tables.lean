import Mathlib.Data.List.Nodup
import WorkflowReplay.Table

/-!
# Keys of tables

A table holds each key once, and looking a key up finds the pair that holds it.
-/

set_option autoImplicit false

namespace WorkflowReplay

namespace Table

variable {κ ν : Type} [DecidableEq κ]

theorem mem_of_find {k : κ} {v : ν} {es : List (κ × ν)} (found : find k es = some v) :
    (k, v) ∈ es := by
  induction es with
  | nil => simp [find] at found
  | cons e rest ih =>
    rw [find] at found
    split at found
    · next same =>
      cases found
      exact List.mem_cons.mpr (.inl (by rw [← same]))
    · exact List.mem_cons_of_mem _ (ih found)

theorem find_of_mem {k : κ} {v : ν} {es : List (κ × ν)} (nodup : (es.map Prod.fst).Nodup)
    (member : (k, v) ∈ es) : find k es = some v := by
  induction es with
  | nil => simp at member
  | cons e rest ih =>
    obtain ⟨first, later⟩ := List.nodup_cons.mp nodup
    rcases List.mem_cons.mp member with rfl | member
    · simp [find]
    · have other : e.1 ≠ k := by
        intro same
        exact first (List.mem_map.mpr ⟨(k, v), member, same.symm⟩)
      rw [find, if_neg other, ih later member]

theorem mem_keys {t : Table κ ν} {k : κ} : k ∈ t.keys ↔ t.contains k = true := by
  obtain ⟨es⟩ := t
  simp only [keys, contains, get?]
  induction es with
  | nil => simp [find]
  | cons e rest ih =>
    rw [List.map_cons, List.mem_cons, ih, find]
    by_cases same : e.1 = k
    · simp [same]
    · simp [same, Ne.symm same]

theorem keys_insert (t : Table κ ν) (k : κ) (v : ν) :
    (t.insert k v).keys = if k ∈ t.keys then t.keys else t.keys ++ [k] := by
  obtain ⟨es⟩ := t
  change (put k v es).map Prod.fst =
    if k ∈ es.map Prod.fst then es.map Prod.fst else es.map Prod.fst ++ [k]
  induction es with
  | nil => simp [put]
  | cons e rest ih =>
    obtain ⟨first, w⟩ := e
    rw [put]
    by_cases same : first = k
    · simp [same]
    · rw [if_neg same, List.map_cons, ih]
      by_cases later : k ∈ rest.map Prod.fst
      · simp [later]
      · simp [later, Ne.symm same]

theorem keys_erase (t : Table κ ν) (k : κ) : (t.erase k).keys = t.keys.filter (· ≠ k) := by
  simp only [keys, erase, List.filter_map]
  rfl

theorem size_insert (t : Table κ ν) (k : κ) (v : ν) :
    (t.insert k v).size = if t.contains k then t.size else t.size + 1 := by
  have length (t : Table κ ν) : t.size = t.keys.length := (List.length_map _).symm
  rw [length, keys_insert, length]
  simp only [mem_keys]
  split <;> simp

theorem size_erase_lt {t : Table κ ν} {k : κ} (there : t.contains k = true) :
    (t.erase k).size < t.size := by
  obtain ⟨e, member, same⟩ := List.mem_map.mp (mem_keys.mpr there)
  exact List.length_filter_lt_length_iff_exists.mpr ⟨e, member, by simpa using same⟩

theorem nodup_keys_insert {t : Table κ ν} (nodup : t.keys.Nodup) (k : κ) (v : ν) :
    (t.insert k v).keys.Nodup := by
  rw [keys_insert]
  split
  · exact nodup
  · next new =>
    refine List.nodup_append.mpr ⟨nodup, List.nodup_singleton k, ?_⟩
    rintro a member b last rfl
    rw [List.mem_singleton.mp last] at member
    exact new member

theorem nodup_keys_erase {t : Table κ ν} (nodup : t.keys.Nodup) (k : κ) :
    (t.erase k).keys.Nodup := by
  rw [keys_erase]
  exact nodup.filter _

theorem find_perm {es es' : List (κ × ν)} (perm : es.Perm es') (nodup : (es.map Prod.fst).Nodup)
    (k : κ) : find k es = find k es' := by
  have nodup' : (es'.map Prod.fst).Nodup := (perm.map Prod.fst).nodup_iff.mp nodup
  cases found : find k es with
  | some v => exact (find_of_mem nodup' (perm.mem_iff.mp (mem_of_find found))).symm
  | none =>
    cases found' : find k es' with
    | none => rfl
    | some v =>
      have back := find_of_mem nodup (perm.mem_iff.mpr (mem_of_find found'))
      simp [found] at back

theorem insert_perm {t : Table κ ν} (nodup : t.keys.Nodup) (k : κ) (v : ν) :
    (t.insert k v).entries.Perm ((k, v) :: (t.erase k).entries) := by
  obtain ⟨es⟩ := t
  change (put k v es).Perm ((k, v) :: es.filter (fun e => e.1 ≠ k))
  induction es with
  | nil => exact .refl _
  | cons e rest ih =>
    obtain ⟨first, later⟩ := List.nodup_cons.mp nodup
    rw [put]
    split
    · next same =>
      have apart : rest.filter (fun e => e.1 ≠ k) = rest := by
        refine List.filter_eq_self.mpr fun e' member => decide_eq_true fun same' => first ?_
        exact List.mem_map.mpr ⟨e', member, same'.trans same.symm⟩
      rw [List.filter_cons_of_neg (by simpa using same), apart]
    · next other =>
      rw [List.filter_cons_of_pos (by simpa using other)]
      exact ((ih later).cons e).trans (.swap ..)

end Table

end WorkflowReplay
