import Mathlib.Tactic.IntervalCases
import WorkflowReplay.Time.Timestamp

/-!
# Days of the calendar

Every number of days names a day of the calendar, and the day counts back to the number.  An era
of 400 years is cut into centuries of 36524 days, these into groups of four years with 1461 days,
and these into years of 365 days; whatever is left over is the leap day, which comes last as years
are counted from March.
-/

set_option autoImplicit false

namespace WorkflowReplay.Date

/-- The place of the day `n` in its era: the century, the group of four years, the year in it and
the day of the year, all counted from 0. -/
structure Place (n era century group year day : Int) : Prop where
  days : n + 719468 = 146097 * era + 36524 * century + 1461 * group + 365 * year + day
  century_lt : 0 ≤ century ∧ century < 4
  group_lt : 0 ≤ group ∧ group < 25
  year_lt : 0 ≤ year ∧ year < 4
  day_le : 0 ≤ day ∧ day ≤ 365
  leap : day = 365 → year = 3 ∧ (group < 24 ∨ century = 3)

theorem exists_place (n : Int) :
    ∃ era century group year day, Place n era century group year day := by
  obtain ⟨era, d, n_eq, low, high⟩ :
      ∃ era d : Int, n + 719468 = 146097 * era + d ∧ 0 ≤ d ∧ d < 146097 :=
    ⟨(n + 719468) / 146097, (n + 719468) % 146097, by omega, by omega, by omega⟩
  obtain ⟨century, e, d_eq, century_lt, e_le, lastDay⟩ : ∃ century e : Int,
      d = 36524 * century + e ∧ (0 ≤ century ∧ century < 4) ∧ (0 ≤ e ∧ e ≤ 36524) ∧
        (e = 36524 → century = 3) := by
    by_cases h : d = 146096
    · exact ⟨3, 36524, by omega, by omega, by omega, by omega⟩
    · exact ⟨d / 36524, d % 36524, by omega, by omega, by omega, by omega⟩
  obtain ⟨group, f, e_eq, group_lt, f_le⟩ : ∃ group f : Int,
      e = 1461 * group + f ∧ (0 ≤ group ∧ group < 25) ∧ (0 ≤ f ∧ f < 1461) :=
    ⟨e / 1461, e % 1461, by omega, by omega, by omega⟩
  obtain ⟨year, day, f_eq, year_lt, day_le, leap⟩ : ∃ year day : Int,
      f = 365 * year + day ∧ (0 ≤ year ∧ year < 4) ∧ (0 ≤ day ∧ day ≤ 365) ∧
        (day = 365 → year = 3) := by
    by_cases h : f = 1460
    · exact ⟨3, 365, by omega, by omega, by omega, by omega⟩
    · exact ⟨f / 365, f % 365, by omega, by omega, by omega, by omega⟩
  exact ⟨era, century, group, year, day, by omega, century_lt, group_lt, year_lt, day_le,
    fun last => ⟨leap last, by omega⟩⟩

namespace Place

variable {n era century group year day : Int}

theorem year_start_eq (place : Place n era century group year day) :
    365 * (100 * century + 4 * group + year) + (100 * century + 4 * group + year) / 4 -
      (100 * century + 4 * group + year) / 100 = 36524 * century + 1461 * group + 365 * year := by
  obtain ⟨-, century_lt, group_lt, year_lt, -, -⟩ := place
  omega

theorem era_eq (place : Place n era century group year day) : (n + 719468) / 146097 = era := by
  obtain ⟨days, century_lt, group_lt, year_lt, day_le, leap⟩ := place
  omega

theorem yearOfEra_eq (place : Place n era century group year day) {d : Int}
    (d_eq : d = 36524 * century + 1461 * group + 365 * year + day) :
    (d - d / 1460 + d / 36524 - d / 146096) / 365 = 100 * century + 4 * group + year := by
  obtain ⟨-, century_lt, group_lt, year_lt, day_le, leap⟩ := place
  by_cases last : d = 146096
  · have year_eq : 100 * century + 4 * group + year = 399 := by omega
    rw [year_eq, last]
    decide
  · have eras : d / 146096 = 0 := by omega
    have centuries : d / 36524 = century := by omega
    have groups : d / 1460 = 25 * century + group ∨
        d / 1460 = 25 * century + group + 1 ∧ 1364 ≤ 365 * year + day := by omega
    omega

theorem ofDays_eq (place : Place n era century group year day) :
    ∃ month : Nat, month < 12 ∧ 153 * month ≤ 5 * day + 2 ∧ 5 * day + 2 < 153 * month + 153 ∧
      ofDays n =
        { year := 100 * century + 4 * group + year + era * 400 + (if month < 10 then 0 else 1)
          month := if month < 10 then month + 3 else month - 9
          day := (day - (153 * month + 2) / 5 + 1).toNat } := by
  have d_eq : n + 719468 - era * 146097 = 36524 * century + 1461 * group + 365 * year + day := by
    have days := place.days
    omega
  have dayOfYear : 36524 * century + 1461 * group + 365 * year + day -
      (365 * (100 * century + 4 * group + year) + (100 * century + 4 * group + year) / 4 -
        (100 * century + 4 * group + year) / 100) = day := by
    rw [place.year_start_eq]
    omega
  have day_le := place.day_le
  obtain ⟨month, month_eq⟩ : ∃ month : Nat, (5 * day + 2) / 153 = month :=
    Int.eq_ofNat_of_zero_le (by omega)
  refine ⟨month, by omega, by omega, by omega, ?_⟩
  simp only [ofDays, place.era_eq, d_eq, place.yearOfEra_eq rfl, dayOfYear, month_eq]
  congr 2 <;> split <;> split <;> omega

theorem toDays_eq (place : Place n era century group year day) {y : Int}
    (y_eq : y = 100 * century + 4 * group + year + era * 400) :
    y / 400 * 146097 + ((y - y / 400 * 400) * 365 + (y - y / 400 * 400) / 4 -
      (y - y / 400 * 400) / 100 + day) - 719468 = n := by
  have start := place.year_start_eq
  obtain ⟨days, century_lt, group_lt, year_lt, -, -⟩ := place
  have era_eq : y / 400 = era := by omega
  have yearOfEra : y - era * 400 = 100 * century + 4 * group + year := by omega
  rw [era_eq, yearOfEra]
  omega

end Place

theorem toDays_ofDays (n : Int) : (ofDays n).toDays = n := by
  obtain ⟨era, century, group, year, day, place⟩ := exists_place n
  obtain ⟨month, month_lt, first, last, date⟩ := place.ofDays_eq
  have day_eq : (((day - (153 * month + 2) / 5 + 1).toNat : Nat) : Int) =
      day - (153 * month + 2) / 5 + 1 := Int.toNat_of_nonneg (by omega)
  rw [date, toDays]
  by_cases late : month < 10
  · have counted : ((month + 3 : Nat) : Int) - 3 = month := by omega
    simp only [late, if_true, add_zero, if_neg (show ¬ month + 3 ≤ 2 by omega),
      if_pos (show 2 < month + 3 by omega), counted, day_eq]
    rw [← place.toDays_eq rfl]
    omega
  · have counted : ((month - 9 : Nat) : Int) + 9 = month := by omega
    simp only [late, if_false, if_pos (show month - 9 ≤ 2 by omega), add_sub_cancel_right,
      if_neg (show ¬ 2 < month - 9 by omega), counted, day_eq]
    rw [← place.toDays_eq rfl]
    omega

theorem isLeapYear_iff (y : Int) :
    isLeapYear y = true ↔ y % 4 = 0 ∧ (y % 100 ≠ 0 ∨ y % 400 = 0) := by
  simp [isLeapYear]

theorem ofDays_day (n : Int) :
    1 ≤ (ofDays n).month ∧ (ofDays n).month ≤ 12 ∧ 1 ≤ (ofDays n).day ∧
      (ofDays n).day ≤ daysInMonth (ofDays n).year (ofDays n).month := by
  obtain ⟨era, century, group, year, day, place⟩ := exists_place n
  obtain ⟨month, month_lt, first, last, date⟩ := place.ofDays_eq
  obtain ⟨-, century_lt, group_lt, year_lt, day_le, leap⟩ := place
  rw [date]
  dsimp only
  refine ⟨by split <;> omega, by split <;> omega, by omega, ?_⟩
  by_cases february : month = 11
  · -- the leap day is the last one of a year that ends in a leap year
    have leapDay : day = 365 →
        isLeapYear (100 * century + 4 * group + year + era * 400 + 1) = true :=
      fun isLast => (isLeapYear_iff _).mpr (by have place := leap isLast; omega)
    subst february
    simp only [daysInMonth, show ¬ 11 < 10 by decide, if_false, if_true]
    split
    · omega
    · next common =>
      have notLast : day ≠ 365 := fun isLast => common (leapDay isLast)
      omega
  · rw [daysInMonth]
    interval_cases month <;> simp at february ⊢ <;> omega

end WorkflowReplay.Date
