import WorkflowReplay.Codec
import WorkflowReplay.Proofs.Json.Members
import WorkflowReplay.Proofs.Json.Tokens

/-!
# Printed values read back

A plain value whose names are different is read back from its text with the members of its objects
in order; one whose names are in order is read back as it is.  The reader may be given the text
with anything behind it at which a value can end, so lists and objects follow from their parts.

The number of brackets that may be open bounds the depth, and the length of the text the calls of
the reader.
-/

set_option autoImplicit false

namespace WorkflowReplay.Json

abbrev Distinct : Nat → Json → Prop := Plain (· ≠ ·)

abbrev Ordered : Nat → Json → Prop := Plain (· < ·)

theorem Ordered.distinct {n : Nat} {v : Json} (ordered : Ordered n v) : Distinct n v :=
  ordered.imp fun _ _ => ne_of_lt

/-! ## How a text begins -/

def printMember (m : String × Json) : List UInt8 := printString m.1 ++ 0x3a :: print m.2

theorem printItems_cons (v : Json) (items : List Json) :
    printItems (v :: items) = print v ++ items.flatMap (fun w => 0x2c :: print w) := by
  induction items generalizing v with
  | nil => simp [printItems]
  | cons w items ih => rw [printItems, ih, List.flatMap_cons, List.cons_append]; simp

theorem printMembers_cons (m : String × Json) (ms : List (String × Json)) :
    printMembers (m :: ms) = printMember m ++ ms.flatMap (fun w => 0x2c :: printMember w) := by
  induction ms generalizing m with
  | nil => simp [printMembers, printMember]
  | cons w ms ih =>
    rw [printMembers, ih, List.flatMap_cons, List.cons_append]
    · simp [printMember]
    · simp

theorem skipBlanks_cons {b : UInt8} (mark : isBlank b = false) (rest : List UInt8) :
    skipBlanks (b :: rest) = b :: rest := by
  rw [skipBlanks, List.dropWhile_cons, mark]
  rfl

theorem isDigit_ne {b c : UInt8} (digit : isDigit b = true) (other : isDigit c = false) :
    b ≠ c := by
  rintro rfl
  cases digit.symm.trans other

theorem isBlank_digit {b : UInt8} (digit : isDigit b = true) : isBlank b = false := by
  simp [isBlank, isDigit_ne digit (c := 0x20) rfl, isDigit_ne digit (c := 0x0a) rfl,
    isDigit_ne digit (c := 0x09) rfl, isDigit_ne digit (c := 0x0d) rfl]

theorem print_head {r : String → String → Prop} {n : Nat} {v : Json} (plain : Plain r n v) :
    ∃ b bs, print v = b :: bs ∧ isBlank b = false ∧ b ≠ 0x5d := by
  cases plain with
  | null => exact ⟨_, _, by rw [print], rfl, by decide⟩
  | bool _ b => cases b <;> exact ⟨_, _, by rw [print], rfl, by decide⟩
  | int _ i =>
    obtain ⟨d, ds, text, digit, -⟩ := printNat_head i.natAbs
    by_cases negative : i < 0
    · exact ⟨_, _, by rw [print, printInt, if_pos negative], rfl, by decide⟩
    · exact ⟨d, ds, by rw [print, printInt, if_neg negative, text], isBlank_digit digit,
        isDigit_ne digit rfl⟩
  | str _ s => exact ⟨_, _, by rw [print, printString], rfl, by decide⟩
  | arr => exact ⟨_, _, by rw [print], rfl, by decide⟩
  | obj => exact ⟨_, _, by rw [print], rfl, by decide⟩

/-! ## Values without parts -/

theorem readValue_int (depth : Nat) {i : Int} (low : -9223372036854775808 ≤ i)
    (high : i < 18446744073709551616) {rest : List UInt8} (ends : Ends rest) (fuel : Nat) :
    readValue depth (printInt i ++ rest) (fuel + 1) = .ok (.int i, rest) := by
  have fits : i.natAbs < wordLimit := by
    rw [wordLimit]
    omega
  by_cases negative : i < 0
  · have bounded : 0 < i.natAbs ∧ i.natAbs ≤ 9223372036854775808 := by omega
    have value : -((i.natAbs : Nat) : Int) = i := by omega
    rw [printInt, if_pos negative, List.cons_append, readValue, skipBlanks_cons rfl]
    change readNumber true _ = _
    rw [readNumber_printNat true fits ends, whole, if_pos rfl, if_pos bounded, value]
  · have value : ((i.natAbs : Nat) : Int) = i := by omega
    obtain ⟨d, ds, text, digit, -⟩ := printNat_head i.natAbs
    have number : readNumber false (d :: (ds ++ rest)) = .ok (.int i, rest) := by
      rw [← List.cons_append, ← text, readNumber_printNat false fits ends, whole, value]
      rfl
    rw [printInt, if_neg negative, text, List.cons_append, readValue,
      skipBlanks_cons (isBlank_digit digit)]
    simp only [isDigit_ne digit (c := 0x6e) rfl, isDigit_ne digit (c := 0x74) rfl,
      isDigit_ne digit (c := 0x66) rfl, isDigit_ne digit (c := 0x2d) rfl, digit, number, if_true,
      if_false]

theorem readValue_str (depth : Nat) (s : String) (rest : List UInt8) (fuel : Nat) :
    readValue depth (printString s ++ rest) (fuel + 1) = .ok (.str s, rest) := by
  have text : printString s ++ rest =
      0x22 :: ((Text.utf8 s).flatMap escapeByte ++ 0x22 :: rest) := by simp [printString]
  rw [text, readValue, skipBlanks_cons rfl]
  change Except.map _ (readString _) = _
  rw [readString_escaped]
  rfl

/-! ## Lists and objects -/

/-- The value is read back from its text, whatever stands behind it, given more calls than the text
is long. -/
def ReadBack (depth : Nat) (v : Json) : Prop :=
  ∀ (rest : List UInt8) (fuel : Nat), Ends rest → (print v).length ≤ fuel →
    readValue depth (print v ++ rest) (fuel + 1) = .ok (v.inOrder, rest)

theorem ends_cons {b : UInt8} (mark : b = 0x2c ∨ b = 0x5d ∨ b = 0x7d) (rest : List UInt8) :
    Ends (b :: rest) := fun c first => by
  obtain rfl : b = c := Option.some.inj first
  exact mark

theorem ends_parts {α : Type} (print : α → List UInt8) (parts : List α) {close : UInt8}
    (mark : close = 0x5d ∨ close = 0x7d) (rest : List UInt8) :
    Ends (parts.flatMap (fun a => 0x2c :: print a) ++ close :: rest) := by
  cases parts with
  | nil => exact ends_cons (.inr mark) rest
  | cons a parts => exact ends_cons (.inl rfl) _

section Lists

variable {depth fuel : Nat} {items : List Json} {r : String → String → Prop} {n : Nat}

theorem nextItem_first {v : Json} (plain : Plain r n v) (rest : List UInt8) :
    nextItem true (print v ++ rest) = .ok (some (print v ++ rest)) := by
  obtain ⟨b, bs, text, mark, notEnd⟩ := print_head plain
  rw [text, List.cons_append, nextItem, skipBlanks_cons mark]
  simp

theorem nextItem_comma {v : Json} (plain : Plain r n v) (rest : List UInt8) :
    nextItem false (0x2c :: (print v ++ rest)) = .ok (some (print v ++ rest)) := by
  obtain ⟨b, bs, text, mark, notEnd⟩ := print_head plain
  rw [text, List.cons_append, nextItem, skipBlanks_cons rfl]
  simp [skipBlanks_cons mark]

theorem readItems_item {first : Bool} {v : Json} (back : ReadBack depth v) (done : List Json)
    {bs rest : List UInt8} (next : nextItem first bs = .ok (some (print v ++ rest)))
    (ends : Ends rest) (enough : (print v).length ≤ fuel) :
    readItems depth first done bs (fuel + 2) =
      readItems depth false (v.inOrder :: done) rest (fuel + 1) := by
  rw [readItems, next]
  simp only [back rest fuel ends enough]

theorem readItems_more (plain : ∀ v ∈ items, Plain r n v) (back : ∀ v ∈ items, ReadBack depth v)
    (done : List Json) (rest : List UInt8)
    (enough : (items.flatMap fun v => 0x2c :: print v).length ≤ fuel) :
    readItems depth false done (items.flatMap (fun v => 0x2c :: print v) ++ 0x5d :: rest)
      (fuel + 1) = .ok (done.reverse ++ items.map inOrder, rest) := by
  induction items generalizing done fuel with
  | nil => simp [readItems, nextItem, skipBlanks_cons (b := 0x5d) rfl]
  | cons v items ih =>
    simp only [List.flatMap_cons, List.cons_append, List.append_assoc, List.length_cons,
      List.length_append] at enough ⊢
    obtain ⟨fuel, rfl⟩ : ∃ f, fuel = f + 1 := ⟨fuel - 1, by omega⟩
    rw [readItems_item (back v (by simp)) done (nextItem_comma (plain v (by simp)) _)
        (ends_parts print items (.inl rfl) rest) (by omega),
      ih (fun w member => plain w (by simp [member])) (fun w member => back w (by simp [member]))
        _ (by omega)]
    simp

theorem readItems_printItems (plain : ∀ v ∈ items, Plain r n v)
    (back : ∀ v ∈ items, ReadBack depth v) (rest : List UInt8)
    (enough : (printItems items).length < fuel) :
    readItems depth true [] (printItems items ++ 0x5d :: rest) (fuel + 1) =
      .ok (items.map inOrder, rest) := by
  cases items with
  | nil => simp [readItems, printItems, nextItem, skipBlanks_cons (b := 0x5d) rfl]
  | cons v items =>
    rw [printItems_cons, List.length_append] at enough
    obtain ⟨fuel, rfl⟩ : ∃ f, fuel = f + 1 := ⟨fuel - 1, by omega⟩
    rw [printItems_cons, List.append_assoc,
      readItems_item (back v (by simp)) [] (nextItem_first (plain v (by simp)) _)
        (ends_parts print items (.inl rfl) rest) (by omega),
      readItems_more (fun w member => plain w (by simp [member]))
        (fun w member => back w (by simp [member])) _ _ (by omega)]
    simp

end Lists

section Objects

variable {depth fuel : Nat} {ms : List (String × Json)}

theorem nextMember_first (m : String × Json) (rest : List UInt8) :
    nextMember true (printMember m ++ rest) = .ok (some
      ((Text.utf8 m.1).flatMap escapeByte ++ 0x22 :: 0x3a :: (print m.2 ++ rest))) := by
  rw [printMember, printString, List.cons_append, List.cons_append, nextMember,
    skipBlanks_cons rfl]
  simp

theorem nextMember_comma (m : String × Json) (rest : List UInt8) :
    nextMember false (0x2c :: (printMember m ++ rest)) = .ok (some
      ((Text.utf8 m.1).flatMap escapeByte ++ 0x22 :: 0x3a :: (print m.2 ++ rest))) := by
  rw [printMember, printString, List.cons_append, List.cons_append, nextMember,
    skipBlanks_cons rfl]
  simp [skipBlanks_cons (b := 0x22) rfl]

theorem length_print_le (m : String × Json) : (print m.2).length ≤ (printMember m).length := by
  rw [printMember, List.length_append, List.length_cons]
  omega

theorem readMembers_member {first : Bool} {m : String × Json} (back : ReadBack depth m.2)
    (done : List (String × Json)) {bs rest : List UInt8}
    (next : nextMember first bs = .ok (some
      ((Text.utf8 m.1).flatMap escapeByte ++ 0x22 :: 0x3a :: (print m.2 ++ rest))))
    (ends : Ends rest) (enough : (printMember m).length ≤ fuel) :
    readMembers depth first done bs (fuel + 2) =
      readMembers depth false ((m.1, m.2.inOrder) :: done) rest (fuel + 1) := by
  have colon : afterColon (0x3a :: (print m.2 ++ rest)) = .ok (print m.2 ++ rest) := by
    rw [afterColon, skipBlanks_cons rfl]
    rfl
  rw [readMembers, next]
  simp only [readString_escaped, colon, back rest fuel ends ((length_print_le m).trans enough)]

theorem readMembers_more (back : ∀ m ∈ ms, ReadBack depth m.2) (done : List (String × Json))
    (rest : List UInt8) (enough : (ms.flatMap fun m => 0x2c :: printMember m).length ≤ fuel) :
    readMembers depth false done (ms.flatMap (fun m => 0x2c :: printMember m) ++ 0x7d :: rest)
      (fuel + 1) = .ok (done.reverse ++ membersInOrder ms, rest) := by
  induction ms generalizing done fuel with
  | nil => simp [readMembers, nextMember, membersInOrder, skipBlanks_cons (b := 0x7d) rfl]
  | cons m ms ih =>
    simp only [List.flatMap_cons, List.cons_append, List.append_assoc, List.length_cons,
      List.length_append] at enough ⊢
    obtain ⟨fuel, rfl⟩ : ∃ f, fuel = f + 1 := ⟨fuel - 1, by omega⟩
    rw [readMembers_member (back m (by simp)) done (nextMember_comma m _)
        (ends_parts printMember ms (.inr rfl) rest) (by omega),
      ih (fun w member => back w (by simp [member])) _ (by omega)]
    simp [membersInOrder]

theorem readMembers_printMembers (back : ∀ m ∈ ms, ReadBack depth m.2) (rest : List UInt8)
    (enough : (printMembers ms).length < fuel) :
    readMembers depth true [] (printMembers ms ++ 0x7d :: rest) (fuel + 1) =
      .ok (membersInOrder ms, rest) := by
  cases ms with
  | nil =>
    simp [readMembers, printMembers, nextMember, membersInOrder, skipBlanks_cons (b := 0x7d) rfl]
  | cons m ms =>
    rw [printMembers_cons, List.length_append] at enough
    obtain ⟨fuel, rfl⟩ : ∃ f, fuel = f + 1 := ⟨fuel - 1, by omega⟩
    rw [printMembers_cons, List.append_assoc,
      readMembers_member (back m (by simp)) [] (nextMember_first m _)
        (ends_parts printMember ms (.inr rfl) rest) (by omega),
      readMembers_more (fun w member => back w (by simp [member])) _ _ (by omega)]
    simp [membersInOrder]

end Objects

/-! ## Whole values -/

theorem Plain.readBack {n : Nat} {v : Json} {r : String → String → Prop} (plain : Plain r n v) :
    ReadBack n v := by
  induction plain with
  | null _ =>
    intro rest fuel _ _
    rw [print, List.cons_append, readValue, skipBlanks_cons rfl]
    rfl
  | bool _ b =>
    intro rest fuel _ _
    cases b <;> (rw [print, List.cons_append, readValue, skipBlanks_cons rfl]; rfl)
  | int _ i low high =>
    intro rest fuel ends _
    rw [print, readValue_int _ low high ends]
    rfl
  | str _ s =>
    intro rest fuel _ _
    rw [print, readValue_str]
    rfl
  | @arr n items plain ih =>
    intro rest fuel _ enough
    simp only [print, List.length_cons, List.length_append, List.length_nil] at enough
    obtain ⟨fuel, rfl⟩ : ∃ f, fuel = f + 1 := ⟨fuel - 1, by omega⟩
    rw [print, List.cons_append, List.append_assoc, readValue, skipBlanks_cons rfl]
    change Except.map _ (readItems n true [] (printItems items ++ 0x5d :: rest) (fuel + 1)) = _
    rw [readItems_printItems plain ih rest (by omega), inOrder, itemsInOrder_eq]
    rfl
  | @obj n ms _ _ ih =>
    intro rest fuel _ enough
    simp only [print, List.length_cons, List.length_append, List.length_nil] at enough
    obtain ⟨fuel, rfl⟩ : ∃ f, fuel = f + 1 := ⟨fuel - 1, by omega⟩
    rw [print, List.cons_append, List.append_assoc, readValue, skipBlanks_cons rfl]
    change Except.map _ (readMembers n true [] (printMembers ms ++ 0x7d :: rest) (fuel + 1)) = _
    rw [readMembers_printMembers ih rest (by omega), inOrder]
    rfl

theorem parse_print {r : String → String → Prop} {v : Json} (plain : Plain r depthLimit v) :
    parse (print v) = .ok v.inOrder := by
  have ends : Ends [] := fun _ first => by cases first
  have value := plain.readBack [] (2 * (print v).length + 1) ends (by omega)
  rw [List.append_nil] at value
  rw [parse, value]
  rfl

end WorkflowReplay.Json
