/-!
# Text as bytes

Payloads carry text as UTF-8.  `utf8` writes a text, `ofUtf8?` reads one and refuses bytes that
are no text; reading undoes writing.  `textLength` tells how far bytes are a text.
-/

set_option autoImplicit false

namespace WorkflowReplay.Text

def utf8 (s : String) : List UInt8 := s.toByteArray.data.toList

def ofUtf8? (bytes : List UInt8) : Option String :=
  String.fromUTF8? ⟨bytes.toArray⟩

/-- The length of the character that the bytes begin with; `none` if they begin with none. -/
def firstCharLength? (bytes : List UInt8) : Option Nat :=
  [1, 2, 3, 4].find? (fun n => (ofUtf8? (bytes.take n)).isSome)

theorem firstCharLength?_pos {bytes : List UInt8} {n : Nat} (h : firstCharLength? bytes = some n) :
    0 < n := by
  have hn := List.mem_of_find?_eq_some h
  simp only [List.mem_cons, List.not_mem_nil, or_false] at hn
  omega

/-- The number of bytes before the first one that belongs to no character. -/
def textLength : List UInt8 → Nat
  | [] => 0
  | b :: rest =>
    match h : firstCharLength? (b :: rest) with
    | some n => n + textLength ((b :: rest).drop n)
    | none => 0
termination_by bytes => bytes.length
decreasing_by
  have := firstCharLength?_pos h
  simp only [List.length_drop, List.length_cons]
  omega

theorem ofUtf8?_utf8 (s : String) : ofUtf8? (utf8 s) = some s := by
  have valid : ByteArray.IsValidUTF8 ⟨s.toByteArray.data⟩ := s.isValidUTF8
  simp [ofUtf8?, utf8, String.fromUTF8?, String.fromUTF8, valid]

end WorkflowReplay.Text
