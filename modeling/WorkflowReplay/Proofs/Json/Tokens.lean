import Mathlib.Data.List.Basic
import Mathlib.Tactic.IntervalCases
import WorkflowReplay.Json.Parser
import WorkflowReplay.Json.Printer

/-!
# Strings and whole numbers read back

What the printer writes for a string or a whole number is read as that string or number, whatever
stands after it.  A string ends with its quote; a number ends where a byte follows that is neither
a digit nor part of a decimal, so it needs to know what may come next (`Ends`).
-/

set_option autoImplicit false

namespace WorkflowReplay.Json

/-! ## Strings -/

theorem hexValue_hexDigit {b : UInt8} (control : b < 0x20) :
    hexValue (hexDigit (b >>> 4)) = some (b.toNat / 16) ∧
      hexValue (hexDigit (b &&& 0xf)) = some (b.toNat % 16) := by
  obtain ⟨n, small, rfl⟩ : ∃ n < 32, b = UInt8.ofNat n :=
    ⟨b.toNat, by simpa [UInt8.lt_iff_toNat_lt] using control, by simp⟩
  interval_cases n <;> exact ⟨rfl, rfl⟩

theorem closeHex_control {b : UInt8} (control : b < 0x20) :
    closeHex none b.toNat = .ok ([b], .plain) := by
  obtain ⟨n, small, rfl⟩ : ∃ n < 32, b = UInt8.ofNat n :=
    ⟨b.toNat, by simpa [UInt8.lt_iff_toNat_lt] using control, by simp⟩
  interval_cases n <;> rfl

theorem readStringBytes_escapeByte (b : UInt8) (done rest : List UInt8) :
    readStringBytes .plain done (escapeByte b ++ rest) =
      readStringBytes .plain (b :: done) rest := by
  rw [escapeByte]
  split_ifs with quote slash back tab line feed ret control
  · subst quote; rfl
  · subst slash; rfl
  · subst back; rfl
  · subst tab; rfl
  · subst line; rfl
  · subst feed; rfl
  · subst ret; rfl
  · obtain ⟨high, low⟩ := hexValue_hexDigit control
    have value : b.toNat / 16 * 16 + b.toNat % 16 = b.toNat := by omega
    have zero : hexValue 0x30 = some 0 := rfl
    have close := closeHex_control control
    simp [readStringBytes, stringStep, zero, high, low, value, close, Except.map]
  · simp [readStringBytes, stringStep, quote, slash, control]

theorem readStringBytes_escaped (bytes done rest : List UInt8) :
    readStringBytes .plain done (bytes.flatMap escapeByte ++ 0x22 :: rest) =
      .ok (done.reverse ++ bytes, rest) := by
  induction bytes generalizing done with
  | nil => simp [readStringBytes, stringStep]
  | cons b bytes ih =>
    rw [List.flatMap_cons, List.append_assoc, readStringBytes_escapeByte, ih]
    simp

theorem readString_escaped (s : String) (rest : List UInt8) :
    readString ((Text.utf8 s).flatMap escapeByte ++ 0x22 :: rest) = .ok (s, rest) := by
  rw [readString, readStringBytes_escaped]
  simp [Text.ofUtf8?_utf8]

/-! ## Whole numbers -/

/-- A value ends here: nothing follows, or a comma, or a closing bracket. -/
def Ends (rest : List UInt8) : Prop := ∀ b ∈ rest.head?, b = 0x2c ∨ b = 0x5d ∨ b = 0x7d

theorem printNat_small {n : Nat} (small : n < 10) : printNat n = [0x30 + UInt8.ofNat n] := by
  rw [printNat, digitsBackward, if_pos small]
  rfl

theorem printNat_large {n : Nat} (large : ¬ n < 10) :
    printNat n = printNat (n / 10) ++ [0x30 + UInt8.ofNat (n % 10)] := by
  rw [printNat, digitsBackward, if_neg large, List.reverse_cons, ← printNat]

theorem isDigit_digit {n : Nat} (small : n < 10) : isDigit (0x30 + UInt8.ofNat n) = true := by
  interval_cases n <;> rfl

theorem digitValue_digit {n : Nat} (small : n < 10) : digitValue (0x30 + UInt8.ofNat n) = n := by
  interval_cases n <;> rfl

theorem isDigit_of_mem_printNat (n : Nat) : ∀ b ∈ printNat n, isDigit b = true := by
  induction n using Nat.strong_induction_on with
  | h n ih =>
    by_cases small : n < 10
    · rw [printNat_small small]
      simpa using isDigit_digit small
    · rw [printNat_large small]
      intro b member
      obtain member | member := List.mem_append.mp member
      · exact ih (n / 10) (by omega) b member
      · rw [List.mem_singleton.mp member]
        exact isDigit_digit (by omega)

theorem absorb_append {limit m k : Nat} {ds : List UInt8} (es : List UInt8)
    (taken : absorb limit m ds = (k, [])) : absorb limit m (ds ++ es) = absorb limit k es := by
  induction ds generalizing m with
  | nil =>
    obtain ⟨rfl, -⟩ := Prod.mk.inj taken
    rfl
  | cons d ds ih =>
    rw [absorb] at taken
    rw [List.cons_append, absorb]
    split at taken
    · next fits => rw [if_pos fits, ih taken]
    · cases taken

theorem absorb_printNat {limit n : Nat} (fits : n < limit) :
    absorb limit 0 (printNat n) = (n, []) := by
  induction n using Nat.strong_induction_on with
  | h n ih =>
    by_cases small : n < 10
    · rw [printNat_small small, absorb, digitValue_digit small]
      simp [fits, absorb]
    · have last : n / 10 * 10 + n % 10 = n := by omega
      rw [printNat_large small, absorb_append _ (ih (n / 10) (by omega) (by omega)), absorb,
        digitValue_digit (by omega), last]
      simp [fits, absorb]

theorem printNat_head (n : Nat) :
    ∃ d ds, printNat n = d :: ds ∧ isDigit d = true ∧ (d = 0x30 → ds = []) := by
  induction n using Nat.strong_induction_on with
  | h n ih =>
    by_cases small : n < 10
    · exact ⟨_, [], printNat_small small, isDigit_digit small, fun _ => rfl⟩
    · obtain ⟨d, ds, text, digit, zero⟩ := ih (n / 10) (by omega)
      refine ⟨d, _, by rw [printNat_large small, text]; rfl, digit, fun leading => ?_⟩
      -- the digits before the last one would be a single zero, and spell at least one
      have spelled : absorb n 0 (printNat (n / 10)) = (n / 10, []) := absorb_printNat (by omega)
      have none : absorb n 0 [0x30] = (0, []) := by
        have positive : 0 < n := by omega
        simp [absorb, digitValue, positive]
      rw [text, zero leading, leading, none] at spelled
      have nothing : 0 = n / 10 := (Prod.mk.inj spelled).1
      omega

theorem readNumber_printNat (negative : Bool) {n : Nat} (fits : n < wordLimit) {rest : List UInt8}
    (ends : Ends rest) : readNumber negative (printNat n ++ rest) = whole negative n rest := by
  obtain ⟨d, ds, text, digit, zero⟩ := printNat_head n
  have digits : ∀ b ∈ ds, isDigit b = true := fun b member =>
    isDigit_of_mem_printNat n b (by rw [text]; exact List.mem_cons_of_mem _ member)
  have stops : rest.takeWhile isDigit = [] ∧ rest.dropWhile isDigit = rest := by
    cases rest with
    | nil => exact ⟨rfl, rfl⟩
    | cons b rest => obtain rfl | rfl | rfl := ends b rfl <;> exact ⟨rfl, rfl⟩
  have spelled := absorb_printNat fits
  have alone : ¬ (d = 0x30 ∧ ((ds ++ rest).head?.map isDigit).getD false = true) := by
    rintro ⟨leading, more⟩
    rw [zero leading] at more
    cases rest with
    | nil => cases more
    | cons b rest => obtain rfl | rfl | rfl := ends b rfl <;> cases more
  rw [text] at spelled ⊢
  simp only [List.cons_append, readNumber, digit, if_true, alone, if_false,
    List.takeWhile_append_of_pos digits, List.dropWhile_append_of_pos digits, stops.1, stops.2,
    List.append_nil, spelled]
  cases rest with
  | nil => rfl
  | cons b rest => obtain rfl | rfl | rfl := ends b rfl <;> rfl

end WorkflowReplay.Json
