import WorkflowReplay.Proofs.Json.RoundTrip

/-!
# Argument lists are read as they were written

An argument list is written as one array, so a list of one argument is never taken for the
argument itself: the array around it is always there, and only that one is taken off.
-/

set_option autoImplicit false

namespace WorkflowReplay.Codec

open Json

theorem isEmpty_encode (values : List Json) : (encode values).isEmpty = false := by
  rw [encode, print]
  rfl

theorem decode_encode_inOrder {values : List Json} (distinct : ∀ v ∈ values, Distinct 126 v) :
    decode (encode values) = .ok (values.map inOrder) := by
  have whole : Distinct depthLimit (.arr values) := .arr distinct
  rw [decode, isEmpty_encode, if_neg Bool.false_ne_true, encode, parse_print whole, inOrder,
    itemsInOrder_eq]

theorem decodeValue_encodeValue_inOrder {v : Json} (distinct : Distinct 126 v) :
    decodeValue .value (some (encodeValue v)) = .ok v.inOrder := by
  have alone : decode (encodeValue v) = .ok [v.inOrder] :=
    decode_encode_inOrder (by simpa using distinct)
  simp only [decodeValue, alone]
  rfl

/-- Values without doubles that open at most 126 brackets are read back, as a list of arguments
and as single values: with their members in order, and therefore unchanged if these were in order
as in every map. -/
theorem decode_encode {values : List Json} (distinct : ∀ v ∈ values, Distinct 126 v) :
    decode (encode values) = .ok (values.map inOrder) ∧
      (∀ v ∈ values, decodeValue .value (some (encodeValue v)) = .ok v.inOrder) ∧
      ((∀ v ∈ values, Ordered 126 v) →
        decode (encode values) = .ok values ∧
          ∀ v ∈ values, decodeValue .value (some (encodeValue v)) = .ok v) := by
  have list := decode_encode_inOrder distinct
  have single : ∀ v ∈ values, decodeValue .value (some (encodeValue v)) = .ok v.inOrder :=
    fun v member => decodeValue_encodeValue_inOrder (distinct v member)
  refine ⟨list, single, fun ordered => ⟨?_, fun v member => ?_⟩⟩
  · rw [list, List.map_congr_left fun v member => (ordered v member).inOrder_eq, List.map_id']
  · rw [single v member, (ordered v member).inOrder_eq]

/-- No argument is none, no item is not no argument, and one item is not the item. -/
theorem decode_encode_nested :
    let values : List Json :=
      [.null, .arr [], .arr [.null], .arr [.int (-9223372036854775808), .int 18446744073709551615],
        .obj [("\n\u0001\"", .arr [.arr []]), ("é", .str "\\")]]
    (∀ v ∈ values, Distinct 126 v) ∧ decode (encode values) = .ok values ∧
      ∀ v ∈ values, decodeValue .value (some (encodeValue v)) = .ok v := by
  intro values
  have ordered : ∀ v ∈ values, Ordered 126 v := by
    have none : Ordered 125 (.arr []) := .arr (by simp)
    simp only [values, List.forall_mem_cons, List.not_mem_nil, false_implies, implies_true,
      and_true]
    refine ⟨.null _, .arr (by simp), .arr ?_, .arr ?_, .obj (by decide) ?_⟩
    · simpa using Plain.null 125
    · simpa using ⟨Plain.int 125 _ (by decide) (by decide), Plain.int 125 _ (by decide) (by decide)⟩
    · simpa using ⟨Plain.arr (by simpa using Plain.arr (by simp)), Plain.str 125 "\\"⟩
  have distinct : ∀ v ∈ values, Distinct 126 v := fun v member => (ordered v member).distinct
  exact ⟨distinct, (decode_encode distinct).2.2 ordered⟩

end WorkflowReplay.Codec
