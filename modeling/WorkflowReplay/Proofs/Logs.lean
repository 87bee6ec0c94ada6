import Mathlib.Data.List.Basic

/-!
# Places in a log

A log grows at its end.  What holds at some place of a log with one more entry, of the entry there
and of those before it, holds at a place of the old log or at the new entry.
-/

set_option autoImplicit false

namespace WorkflowReplay

variable {α : Type} {log past later : List α} {entry last : α}

theorem concat_eq_split : log ++ [last] = past ++ entry :: later ↔
    log = past ∧ last = entry ∧ later = [] ∨
      ∃ before, later = before ++ [last] ∧ log = past ++ entry :: before := by
  constructor
  · intro split
    rcases List.eq_nil_or_concat later with rfl | ⟨before, last', rfl⟩
    · obtain ⟨rfl, same⟩ := List.append_inj' split rfl
      exact .inl ⟨rfl, List.singleton_inj.mp same, rfl⟩
    · rw [List.concat_eq_append] at split
      have split : log ++ [last] = (past ++ entry :: before) ++ [last'] := by simpa using split
      obtain ⟨rfl, same⟩ := List.append_inj' split rfl
      obtain rfl := List.singleton_inj.mp same
      exact .inr ⟨before, List.concat_eq_append, rfl⟩
  · rintro (⟨rfl, rfl, rfl⟩ | ⟨before, rfl, rfl⟩)
    · rfl
    · simp

theorem exists_split_concat {P : List α → α → Prop} :
    (∃ past entry later, log ++ [last] = past ++ entry :: later ∧ P past entry) ↔
      (∃ past entry later, log = past ++ entry :: later ∧ P past entry) ∨ P log last := by
  constructor
  · rintro ⟨past, entry, later, split, holds⟩
    rcases concat_eq_split.mp split with ⟨rfl, rfl, -⟩ | ⟨before, -, rfl⟩
    · exact .inr holds
    · exact .inl ⟨past, entry, before, rfl, holds⟩
  · rintro (⟨past, entry, later, rfl, holds⟩ | holds)
    · exact ⟨past, entry, later ++ [last], by simp, holds⟩
    · exact ⟨log, last, [], rfl, holds⟩

theorem getElem?_concat_iff {k : Nat} :
    (log ++ [last])[k]? = some entry ↔ log[k]? = some entry ∨ k = log.length ∧ last = entry := by
  rcases Nat.lt_trichotomy k log.length with before | rfl | behind
  · rw [List.getElem?_append_left before]
    exact (or_iff_left fun new => by omega).symm
  · simp
  · have beyond : (log ++ [last]).length ≤ k := by
      rw [List.length_append, List.length_singleton]
      omega
    rw [List.getElem?_eq_none beyond, List.getElem?_eq_none (Nat.le_of_lt behind)]
    simp
    omega

end WorkflowReplay
