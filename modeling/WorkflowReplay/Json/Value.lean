import WorkflowReplay.Json.Double

/-!
# JSON values

Numbers are whole numbers or doubles, and the two are never equal.  The members of an object
are kept in the order of their names; `Json.ofMembers` brings a list of members into that order,
a later member of the same name replacing an earlier one.
-/

set_option autoImplicit false

namespace WorkflowReplay

inductive Json where
  | null
  | bool (b : Bool)
  | int (n : Int)
  | double (d : Double)
  | str (s : String)
  | arr (items : List Json)
  | obj (members : List (String × Json))
  deriving Repr, Inhabited

namespace Json

def putMember (name : String) (value : Json) : List (String × Json) → List (String × Json)
  | [] => [(name, value)]
  | (n, v) :: rest =>
    if name = n then (name, value) :: rest
    else if name < n then (name, value) :: (n, v) :: rest
    else (n, v) :: putMember name value rest

def ofMembers (members : List (String × Json)) : Json :=
  .obj (members.foldl (fun ms m => putMember m.1 m.2 ms) [])

def member? (name : String) : Json → Option Json
  | .obj ms => ms.lookup name
  | _ => none

def ofOption {α : Type} (f : α → Json) : Option α → Json
  | none => .null
  | some a => f a

def ofNat (n : Nat) : Json := .int n

mutual

/-- Equality of values.  Doubles compare as numbers. -/
def same : Json → Json → Bool
  | .null, .null => true
  | .bool a, .bool b => a == b
  | .int a, .int b => a == b
  | .double a, .double b => a.sameNumber b
  | .str a, .str b => a == b
  | .arr a, .arr b => sameItems a b
  | .obj a, .obj b => sameMembers a b
  | _, _ => false

def sameItems : List Json → List Json → Bool
  | [], [] => true
  | a :: as, b :: bs => same a b && sameItems as bs
  | _, _ => false

def sameMembers : List (String × Json) → List (String × Json) → Bool
  | [], [] => true
  | (n, a) :: as, (m, b) :: bs => n == m && same a b && sameMembers as bs
  | _, _ => false

end

end Json

end WorkflowReplay
