/-!
# Finite tables

A `Table κ ν` is a finite map that remembers the order in which its keys were first
written.  Looking a key up is the only way in which the rest of the library reads a
table, so each operation is pinned down by one equation about `get?`.
-/

set_option autoImplicit false

namespace WorkflowReplay

/-- A finite map, kept as pairs in the order of first insertion. -/
structure Table (κ ν : Type) where
  entries : List (κ × ν) := []
  deriving Repr

namespace Table

variable {κ ν : Type} [DecidableEq κ]

instance : Inhabited (Table κ ν) := ⟨{}⟩

def empty : Table κ ν := {}

def find (k : κ) : List (κ × ν) → Option ν
  | [] => none
  | (k', v) :: rest => if k' = k then some v else find k rest

/-- Writes a key in a list of pairs: in place if it is there, at the end otherwise. -/
def put (k : κ) (v : ν) : List (κ × ν) → List (κ × ν)
  | [] => [(k, v)]
  | (k', v') :: rest => if k' = k then (k, v) :: rest else (k', v') :: put k v rest

def get? (t : Table κ ν) (k : κ) : Option ν := find k t.entries

def contains (t : Table κ ν) (k : κ) : Bool := (t.get? k).isSome

def getD (t : Table κ ν) (k : κ) (default : ν) : ν := (t.get? k).getD default

def insert (t : Table κ ν) (k : κ) (v : ν) : Table κ ν := { entries := put k v t.entries }

def insertIfNew (t : Table κ ν) (k : κ) (v : ν) : Table κ ν :=
  if t.contains k then t else t.insert k v

def erase (t : Table κ ν) (k : κ) : Table κ ν :=
  { entries := t.entries.filter (fun e => e.1 ≠ k) }

def keys (t : Table κ ν) : List κ := t.entries.map Prod.fst

def values (t : Table κ ν) : List ν := t.entries.map Prod.snd

def size (t : Table κ ν) : Nat := t.entries.length

omit [DecidableEq κ] in
@[simp] theorem entries_empty : (empty : Table κ ν).entries = [] := rfl

@[simp] theorem get?_empty (k : κ) : (empty : Table κ ν).get? k = none := rfl

theorem find_put (k k' : κ) (v : ν) (es : List (κ × ν)) :
    find k' (put k v es) = if k = k' then some v else find k' es := by
  induction es with
  | nil => simp [put, find]
  | cons e rest ih =>
    obtain ⟨k₁, v₁⟩ := e
    by_cases h : k₁ = k <;> by_cases h' : k = k' <;> simp_all [put, find]

theorem find_filter_ne (k k' : κ) (es : List (κ × ν)) :
    find k' (es.filter (fun e => e.1 ≠ k)) = if k = k' then none else find k' es := by
  induction es with
  | nil => simp [find]
  | cons e rest ih =>
    obtain ⟨k₁, v₁⟩ := e
    by_cases h : k₁ = k <;> by_cases h' : k = k' <;> simp_all [find]

@[simp] theorem get?_insert (t : Table κ ν) (k k' : κ) (v : ν) :
    (t.insert k v).get? k' = if k = k' then some v else t.get? k' :=
  find_put k k' v t.entries

theorem getD_insert (t : Table κ ν) (k k' : κ) (v default : ν) :
    (t.insert k v).getD k' default = if k = k' then v else t.getD k' default := by
  simp only [getD, get?_insert]
  split <;> rfl

@[simp] theorem get?_erase (t : Table κ ν) (k k' : κ) :
    (t.erase k).get? k' = if k = k' then none else t.get? k' :=
  find_filter_ne k k' t.entries

theorem get?_insertIfNew (t : Table κ ν) (k k' : κ) (v : ν) :
    (t.insertIfNew k v).get? k' =
      if k = k' then some ((t.get? k).getD v) else t.get? k' := by
  unfold insertIfNew contains
  cases h : t.get? k <;> by_cases hk : k = k' <;> simp_all

theorem get?_insertIfNew_of_some {t : Table κ ν} {k : κ} {v : ν} (there : t.get? k = some v)
    (k' : κ) (v' : ν) : (t.insertIfNew k' v').get? k = some v := by
  rw [get?_insertIfNew]
  split
  · next same => simp [same, there]
  · exact there

end Table

end WorkflowReplay
