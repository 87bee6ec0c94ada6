import Mathlib.Data.List.Nodup
import Mathlib.Data.String.Basic
import WorkflowReplay.Json.Value

/-!
# The order of members

An object is a map from names to values, kept as a list in the order of the names.  A list of
members in any order stands for the object that `Json.ofMembers` makes of it; `Json.inOrder` does
this at every depth.  It keeps what a look-up finds, and changes nothing that is in order already.
-/

set_option autoImplicit false

namespace WorkflowReplay.Json

/-! ## Putting members in order -/

theorem lookup_cons_eq (name k : String) (v : Json) (ms : List (String × Json)) :
    ((name, v) :: ms).lookup k = if k = name then some v else ms.lookup k := by
  rw [List.lookup_cons]
  by_cases h : k = name
  · simp [h]
  · have test : (k == name) = false := beq_eq_false_iff_ne.mpr h
    simp [test, h]

theorem lookup_putMember (name k : String) (v : Json) (ms : List (String × Json)) :
    (putMember name v ms).lookup k = if k = name then some v else ms.lookup k := by
  induction ms with
  | nil => rw [putMember, lookup_cons_eq]
  | cons m rest ih =>
    obtain ⟨n, w⟩ := m
    rw [putMember]
    split
    · next same =>
      subst same
      rw [lookup_cons_eq, lookup_cons_eq]
      split <;> rfl
    · next other =>
      split
      · rw [lookup_cons_eq]
      · rw [lookup_cons_eq, ih, lookup_cons_eq]
        by_cases h : k = n
        · subst h
          rw [if_pos rfl, if_neg (Ne.symm other), if_pos rfl]
        · rw [if_neg h, if_neg h]

theorem lookup_foldl_putMember (ms : List (String × Json)) (nodup : (ms.map Prod.fst).Nodup)
    (k : String) (done : List (String × Json)) :
    (ms.foldl (fun ms m => putMember m.1 m.2 ms) done).lookup k =
      (ms.lookup k).or (done.lookup k) := by
  induction ms generalizing done with
  | nil => simp
  | cons m rest ih =>
    obtain ⟨first, later⟩ := List.nodup_cons.mp nodup
    rw [List.foldl_cons, ih later, lookup_putMember, lookup_cons_eq m.1]
    by_cases h : k = m.1
    · have absent : rest.lookup k = none := by
        refine List.lookup_eq_none_iff.mpr fun e member => ?_
        have other : e.1 ≠ k := fun same => first (List.mem_map.mpr ⟨e, member, same.trans h⟩)
        simpa using Ne.symm other
      rw [if_pos h, if_pos h, absent]
      rfl
    · rw [if_neg h, if_neg h]

theorem lookup_of_mem {ms : List (String × Json)} (nodup : (ms.map Prod.fst).Nodup)
    {m : String × Json} (there : m ∈ ms) : ms.lookup m.1 = some m.2 := by
  induction ms with
  | nil => cases there
  | cons e rest ih =>
    obtain ⟨first, later⟩ := List.nodup_cons.mp nodup
    rw [lookup_cons_eq]
    obtain rfl | member := List.mem_cons.mp there
    · rw [if_pos rfl]
    · rw [if_neg fun same => first (List.mem_map.mpr ⟨m, member, same⟩), ih later member]

theorem lookup_filter_ne {k name : String} (other : k ≠ name) (ms : List (String × Json)) :
    (ms.filter fun m => m.1 ≠ name).lookup k = ms.lookup k := by
  induction ms with
  | nil => rfl
  | cons m rest ih =>
    rw [List.filter_cons, lookup_cons_eq m.1]
    split
    · rw [lookup_cons_eq m.1, ih]
    · next dropped =>
      have same : m.1 = name := by simpa using dropped
      rw [ih, same, if_neg other]

theorem putMember_last {name : String} (v : Json) {ms : List (String × Json)}
    (before : ∀ m ∈ ms, m.1 < name) : putMember name v ms = ms ++ [(name, v)] := by
  induction ms with
  | nil => rfl
  | cons m rest ih =>
    have first := before m (by simp)
    rw [putMember, if_neg (ne_of_gt first), if_neg (lt_asymm first),
      ih fun e member => before e (List.mem_cons_of_mem _ member)]
    rfl

theorem ofMembers_ascending {ms : List (String × Json)}
    (ascending : ms.Pairwise fun a b => a.1 < b.1) : ofMembers ms = .obj ms := by
  suffices ∀ done, (done ++ ms).Pairwise (fun a b : String × Json => a.1 < b.1) →
      ms.foldl (fun ms m => putMember m.1 m.2 ms) done = done ++ ms by
    rw [ofMembers, this [] ascending, List.nil_append]
  clear ascending
  induction ms with
  | nil => simp
  | cons m rest ih =>
    intro done ascending
    have before := (List.pairwise_append.mp ascending).2.2
    rw [List.foldl_cons, putMember_last m.2 fun e member => before e member m (by simp),
      ih _ (by simpa using ascending)]
    simp

mutual

def inOrder : Json → Json
  | .arr items => .arr (itemsInOrder items)
  | .obj members => ofMembers (membersInOrder members)
  | v => v

def itemsInOrder : List Json → List Json
  | [] => []
  | v :: rest => v.inOrder :: itemsInOrder rest

def membersInOrder : List (String × Json) → List (String × Json)
  | [] => []
  | (n, v) :: rest => (n, v.inOrder) :: membersInOrder rest

end

theorem itemsInOrder_eq (items : List Json) : itemsInOrder items = items.map inOrder := by
  induction items with
  | nil => rfl
  | cons v rest ih => rw [itemsInOrder, ih, List.map_cons]

theorem membersInOrder_eq (ms : List (String × Json)) :
    membersInOrder ms = ms.map fun m => (m.1, m.2.inOrder) := by
  induction ms with
  | nil => rfl
  | cons m rest ih => rw [membersInOrder, ih, List.map_cons]

theorem lookup_membersInOrder (k : String) (ms : List (String × Json)) :
    (membersInOrder ms).lookup k = (ms.lookup k).map inOrder := by
  induction ms with
  | nil => rfl
  | cons m rest ih =>
    obtain ⟨n, v⟩ := m
    rw [membersInOrder, List.lookup_cons, List.lookup_cons, ih]
    split <;> rfl

theorem inOrder_obj {ms : List (String × Json)} (nodup : (ms.map Prod.fst).Nodup) :
    ∃ ms', (Json.obj ms).inOrder = .obj ms' ∧
      ∀ k, ms'.lookup k = (ms.lookup k).map inOrder := by
  refine ⟨_, by rw [inOrder, ofMembers], fun k => ?_⟩
  have names : (membersInOrder ms).map Prod.fst = ms.map Prod.fst := by
    rw [membersInOrder_eq, List.map_map]
    rfl
  rw [lookup_foldl_putMember _ (names ▸ nodup), lookup_membersInOrder]
  simp

/-! ## Plain values -/

/-- A value without doubles, whose whole numbers fit a signed or an unsigned word of 64 bits, and
which opens at most `n` brackets around any point of it.  The names of an object's members are
related by `r` from first to last: they are different, or in order. -/
inductive Plain (r : String → String → Prop) : Nat → Json → Prop where
  | null (n : Nat) : Plain r n .null
  | bool (n : Nat) (b : Bool) : Plain r n (.bool b)
  | int (n : Nat) (i : Int) (low : -9223372036854775808 ≤ i) (high : i < 18446744073709551616) :
    Plain r n (.int i)
  | str (n : Nat) (s : String) : Plain r n (.str s)
  | arr {n : Nat} {items : List Json} (plain : ∀ v ∈ items, Plain r n v) :
    Plain r (n + 1) (.arr items)
  | obj {n : Nat} {ms : List (String × Json)} (names : (ms.map Prod.fst).Pairwise r)
      (plain : ∀ m ∈ ms, Plain r n m.2) : Plain r (n + 1) (.obj ms)

namespace Plain

variable {r : String → String → Prop} {n : Nat} {v : Json}

theorem imp {r' : String → String → Prop} (weaker : ∀ a b, r a b → r' a b) (plain : Plain r n v) :
    Plain r' n v := by
  induction plain with
  | null => exact .null _
  | bool _ b => exact .bool _ b
  | int _ i low high => exact .int _ i low high
  | str _ s => exact .str _ s
  | arr _ ih => exact .arr ih
  | obj names _ ih => exact .obj (names.imp fun h => weaker _ _ h) ih

theorem inOrder_eq (plain : Plain (· < ·) n v) : v.inOrder = v := by
  induction plain with
  | null | bool | int | str => rfl
  | arr _ ih =>
    rw [inOrder, itemsInOrder_eq, List.map_congr_left ih, List.map_id']
  | @obj _ ms names _ ih =>
    have same : ∀ m ∈ ms, ((m.1, m.2.inOrder) : String × Json) = m :=
      fun m member => by rw [ih m member]
    rw [inOrder, membersInOrder_eq, List.map_congr_left same, List.map_id',
      ofMembers_ascending (List.pairwise_map.mp names)]

end Plain

end WorkflowReplay.Json
