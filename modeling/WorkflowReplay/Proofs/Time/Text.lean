import Mathlib.Data.List.TakeWhile
import WorkflowReplay.Proofs.Time.Calendar

/-!
# Timestamps read back

The text of a timestamp in the years that have four digits is read as that timestamp, to the
nanosecond.  Each part of the text is read back with anything behind it; a part of fixed width
needs nothing to be known about what follows.
-/

set_option autoImplicit false

namespace WorkflowReplay.Timestamp

/-- The years with four digits, without leap seconds. -/
structure Regular (t : Timestamp) : Prop where
  year : 0 ≤ (Date.ofDays (t.seconds / 86400)).year ∧ (Date.ofDays (t.seconds / 86400)).year ≤ 9999
  nanos : t.nanos < 1000000000

/-! ## Numbers of a fixed width -/

theorem digitsValue_eq (cs : List Char) : digitsValue cs = Nat.ofDigitChars 10 cs 0 := by
  have step : (fun n (c : Char) => n * 10 + (c.toNat - 48)) =
      fun n c => 10 * n + (c.toNat - '0'.toNat) := by
    funext n c
    rw [mul_comm]
    rfl
  rw [digitsValue, Nat.ofDigitChars_eq_foldl, step]

theorem toList_padded (width n : Nat) : (padded width n).toList =
    List.replicate (width - (Nat.toDigits 10 n).length) '0' ++ Nat.toDigits 10 n := by
  have length : n.repr.length = (Nat.toDigits 10 n).length := by
    rw [← String.length_toList, Nat.toList_repr]
  simp [padded, length]

theorem length_padded {width n : Nat} (positive : 0 < width) (fits : n < 10 ^ width) :
    (padded width n).toList.length = width := by
  have short := (Nat.length_toDigits_le_iff (by decide) positive).mpr fits
  rw [toList_padded, List.length_append, List.length_replicate]
  omega

theorem isDigit_of_mem_padded (width n : Nat) :
    ∀ c ∈ (padded width n).toList, c.isDigit = true := by
  intro c member
  rw [toList_padded] at member
  obtain zero | digit := List.mem_append.mp member
  · rw [List.eq_of_mem_replicate zero]
    rfl
  · exact Nat.isDigit_of_mem_toDigits (by decide) (by decide) digit

theorem digitsValue_padded (width n : Nat) : digitsValue (padded width n).toList = n := by
  rw [digitsValue_eq, toList_padded, Nat.ofDigitChars_append, Nat.ofDigitChars_replicate_zero,
    mul_zero, Nat.ofDigitChars_ten_toDigits]

theorem isBlank_of_isDigit {c : Char} (digit : c.isDigit = true) : isBlank c = false := by
  obtain ⟨low, high⟩ : 48 ≤ c.toNat ∧ c.toNat ≤ 57 := by
    rw [Char.isDigit, Bool.and_eq_true, decide_eq_true_eq, decide_eq_true_eq, ge_iff_le,
      UInt32.le_iff_toNat_le, UInt32.le_iff_toNat_le] at digit
    exact digit
  have ascii : ∀ d : Char, d.toNat < 48 → c ≠ d := by
    rintro d small rfl
    omega
  have whitespace : c.isWhitespace = false := by
    simp [Char.isWhitespace, ascii ' ' (by decide), ascii '\t' (by decide),
      ascii '\r' (by decide), ascii '\n' (by decide)]
  simp only [isBlank, whitespace, Bool.false_or, Bool.or_eq_false_iff, Bool.and_eq_false_iff,
    decide_eq_false_iff_not]
  omega

theorem skipBlanks_cons {c : Char} (mark : isBlank c = false) (cs : List Char) :
    skipBlanks (c :: cs) = c :: cs := by
  rw [skipBlanks, List.dropWhile_cons, mark]
  rfl

theorem padded_cons {width n : Nat} (positive : 0 < width) (fits : n < 10 ^ width) :
    ∃ c cs, (padded width n).toList = c :: cs ∧ c.isDigit = true := by
  cases text : (padded width n).toList with
  | nil =>
    have length := length_padded positive fits
    rw [text, List.length_nil] at length
    omega
  | cons c cs => exact ⟨c, cs, rfl, isDigit_of_mem_padded width n c (by simp [text])⟩

theorem number?_padded {width n : Nat} (positive : 0 < width) (fits : n < 10 ^ width)
    (rest : List Char) : number? width ((padded width n).toList ++ rest) = some (n, rest) := by
  obtain ⟨c, cs, text, digit⟩ := padded_cons positive fits
  have blanks : skipBlanks ((padded width n).toList ++ rest) = (padded width n).toList ++ rest := by
    rw [text, List.cons_append, skipBlanks_cons (isBlank_of_isDigit digit)]
  have taken : (((padded width n).toList ++ rest).take width).takeWhile Char.isDigit =
      (padded width n).toList := by
    rw [List.take_left' (length_padded positive fits),
      List.takeWhile_eq_self_iff.mpr (isDigit_of_mem_padded width n)]
  have some_digit : (padded width n).toList.isEmpty = false := by rw [text]; rfl
  simp only [number?, blanks, taken, some_digit, digitsValue_padded, List.drop_left]
  rfl

/-! ## The parts of a timestamp -/

theorem year?_yearText {y : Int} (bounds : 0 ≤ y ∧ y ≤ 9999) (rest : List Char) :
    year? ((yearText y).toList ++ rest) = some (y, rest) := by
  have fits : y.toNat < 10 ^ 4 := by omega
  obtain ⟨c, cs, text, digit⟩ := padded_cons (by decide) fits
  have number := number?_padded (by decide) fits rest
  have minus : c ≠ '-' := by rintro rfl; cases digit
  have plus : c ≠ '+' := by rintro rfl; cases digit
  have value : (y.toNat : Int) = y := Int.toNat_of_nonneg bounds.1
  rw [yearText, if_pos bounds, year?]
  rw [text, List.cons_append] at number ⊢
  rw [skipBlanks_cons (isBlank_of_isDigit digit)]
  split
  · next first => exact absurd (List.cons.inj first).1 minus
  · next first => exact absurd (List.cons.inj first).1 plus
  · rw [number, Option.map_some, value]

theorem char?_cons {c : Char} (mark : isBlank c = false) (rest : List Char) :
    char? c (c :: rest) = some rest := by
  rw [char?, skipBlanks_cons mark]
  simp

theorem nanos?_point {places n : Nat} (positive : 0 < places) (most : places ≤ 9)
    (fits : n < 10 ^ places) {rest : List Char} (stop : rest.takeWhile Char.isDigit = []) :
    nanos? ('.' :: ((padded places n).toList ++ rest)) = some (n * 10 ^ (9 - places), rest) := by
  obtain ⟨c, cs, text, digit⟩ := padded_cons positive fits
  have taken : ((padded places n).toList ++ rest).takeWhile Char.isDigit =
      (padded places n).toList := by
    rw [List.takeWhile_append_of_pos (isDigit_of_mem_padded places n), stop, List.append_nil]
  have length := length_padded positive fits
  have some_digit : (padded places n).toList.isEmpty = false := by rw [text]; rfl
  have kept : (padded places n).toList.take 9 = (padded places n).toList :=
    List.take_of_length_le (by omega)
  simp only [nanos?, taken, some_digit, kept, digitsValue_padded, length, List.drop_left' length]
  rfl

theorem nanos?_fractionText {nanos : Nat} (fits : nanos < 1000000000) {c : Char}
    (mark : c.isDigit = false) (other : c ≠ '.') (rest : List Char) :
    nanos? ((fractionText nanos).toList ++ c :: rest) = some (nanos, c :: rest) := by
  have stop : (c :: rest).takeWhile Char.isDigit = [] := by simp [mark]
  rw [fractionText]
  split_ifs with zero milli micro
  · rw [zero, String.toList_empty, List.nil_append, nanos?]
    rintro rest' first
    exact other (List.cons.inj first).1
  · have value : nanos / 1000000 * 1000000 = nanos := by omega
    have three : nanos / 1000000 < 10 ^ 3 := by omega
    simpa [value] using nanos?_point (by decide) (by decide) three stop
  · have value : nanos / 1000 * 1000 = nanos := by omega
    have six : nanos / 1000 < 10 ^ 6 := by omega
    simpa [value] using nanos?_point (by decide) (by decide) six stop
  · have nine : nanos < 10 ^ 9 := fits
    simpa using nanos?_point (by decide) (by decide) nine stop

/-! ## Whole timestamps -/

theorem toList_text {t : Timestamp} (nanos : t.nanos < 1000000000) {time : Nat}
    (time_eq : (t.seconds % 86400).toNat = time) {date : Date}
    (date_eq : Date.ofDays (t.seconds / 86400) = date) :
    t.text.toList = (yearText date.year).toList ++ '-' :: ((padded 2 date.month).toList ++ '-' ::
      ((padded 2 date.day).toList ++ 'T' :: ((padded 2 (time / 3600)).toList ++ ':' ::
        ((padded 2 (time / 60 % 60)).toList ++ ':' :: ((padded 2 (time % 60)).toList ++
          ((fractionText t.nanos).toList ++ ['Z'])))))) := by
  have whole : t.nanos / 1000000000 = 0 := by omega
  have fraction : t.nanos % 1000000000 = t.nanos := by omega
  simp [text, time_eq, date_eq, whole, fraction]

/-- The text of a timestamp is read as the timestamp. -/
theorem ofText?_text {t : Timestamp} (regular : t.Regular) : ofText? t.text = some t := by
  obtain ⟨year, nanos⟩ := regular
  obtain ⟨month_pos, month_le, day_pos, day_le⟩ := Date.ofDays_day (t.seconds / 86400)
  have days := Date.toDays_ofDays (t.seconds / 86400)
  have inRange : t.inRange = true := by
    simp only [Timestamp.inRange, Bool.and_eq_true, decide_eq_true_eq]
    omega
  obtain ⟨time, time_eq⟩ : ∃ time, (t.seconds % 86400).toNat = time := ⟨_, rfl⟩
  have chars := toList_text nanos time_eq rfl
  generalize Date.ofDays (t.seconds / 86400) = date at *
  have day_fits : date.day < 10 ^ 2 := by
    simp only [Date.daysInMonth] at day_le
    split_ifs at day_le <;> omega
  have valid : date.isValid = true := by
    simp only [Date.isValid, Bool.and_eq_true, decide_eq_true_eq]
    omega
  have seconds : date.toDays * 86400 +
      ((time / 3600 * 3600 + time / 60 % 60 * 60 + time % 60 : Nat) : Int) - 0 = t.seconds := by
    omega
  have inDay : time / 3600 < 24 ∧ time / 60 % 60 < 60 ∧ time % 60 ≤ 60 := by omega
  have hour : time / 3600 < 10 ^ 2 := by omega
  have minute : time / 60 % 60 < 10 ^ 2 := by omega
  have second : time % 60 < 10 ^ 2 := by omega
  have month : date.month < 10 ^ 2 := by omega
  have noLeap : ¬ time % 60 = 60 := by omega
  have minus : isBlank '-' = false := by decide
  have colon : isBlank ':' = false := by decide
  have fraction : nanos? ((fractionText t.nanos).toList ++ ['Z']) = some (t.nanos, ['Z']) :=
    nanos?_fractionText nanos rfl (by decide) []
  have utc : offset? (skipBlanks ['Z']) = some (0, []) := by rw [skipBlanks_cons rfl]; rfl
  -- the three rewrites bring the binds after a year, a character and a number into one form
  rw [ofText?, chars, Option.bind_eq_bind, Option.bind_eq_bind, Option.bind_eq_bind,
    year?_yearText year, Option.bind_some]
  dsimp only
  rw [char?_cons minus, Option.bind_some, number?_padded two_pos month, Option.bind_some,
    char?_cons minus, Option.bind_some, number?_padded two_pos day_fits, Option.bind_some]
  change Option.bind (some _) _ = _
  rw [Option.bind_some, number?_padded two_pos hour, Option.bind_some, char?_cons colon,
    Option.bind_some, number?_padded two_pos minute, Option.bind_some, char?_cons colon,
    Option.bind_some, number?_padded two_pos second, Option.bind_some, fraction, Option.bind_some,
    utc, Option.bind_some]
  have blanks : (skipBlanks []).isEmpty = true := rfl
  simp only [noLeap, if_false, valid, seconds, add_zero, inRange]
  simp [inDay, blanks]

end WorkflowReplay.Timestamp
