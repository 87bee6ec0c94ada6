import WorkflowReplay.Json.Value
import WorkflowReplay.Text.Named
import WorkflowReplay.History.Event

/-!
# Wire forms

A type has a wire form when its values are written as JSON and read back.  A record is described
once, member by member, by a `Layout`; both directions follow from the description.

Reading is strict about types and lenient about names: a whole number must be written as one and
fit its range, `null` stands only for an absent option, and members with unknown names are passed
over.  A record may also be written as the list of its members in order.
-/

set_option autoImplicit false

namespace WorkflowReplay

class Wire (α : Type) where
  encode : α → Json
  decode : Json → Option α

export Wire (encode decode)

namespace Wire

instance : Wire String where
  encode := .str
  decode
    | .str s => some s
    | _ => none

instance : Wire Bool where
  encode := .bool
  decode
    | .bool b => some b
    | _ => none

def intIn (low high : Int) : Json → Option Int
  | .int n => if low ≤ n ∧ n < high then some n else none
  | _ => none

instance : Wire Int64 where
  encode n := .int n.toInt
  decode v := (intIn (-9223372036854775808) 9223372036854775808 v).map Int64.ofInt

instance : Wire Int32 where
  encode n := .int n.toInt
  decode v := (intIn (-2147483648) 2147483648 v).map Int32.ofInt

instance : Wire UInt8 where
  encode n := .int n.toNat
  decode v := (intIn 0 256 v).map (fun n => UInt8.ofNat n.toNat)

instance {α : Type} [Wire α] : Wire (List α) where
  encode xs := .arr (xs.map encode)
  decode
    | .arr items => items.mapM decode
    | _ => none

instance {α : Type} [Wire α] : Wire (Option α) where
  encode := Json.ofOption encode
  decode
    | .null => some none
    | v => (decode v).map some

instance {α : Type} [Wire α] : Wire (List (String × α)) where
  encode xs := .obj (xs.map (fun x => (x.1, encode x.2)))
  decode
    | .obj members => members.mapM (fun m => (decode m.2).map (fun a => (m.1, a)))
    | _ => none

/-- The tag of an enumerated value: a string, or an object with the tag as its only name and
`null` as its value. -/
def tag? : Json → Option String
  | .str s => some s
  | .obj [(s, .null)] => some s
  | _ => none

/-- The tag of an enumerated member of a tagged record: there the tag may also name an empty
record. -/
def memberTag? : Json → Option String
  | .obj [(s, .obj [])] => some s
  | v => tag? v

@[reducible] def ofNamed (α : Type) [Named α] : Wire α where
  encode a := .str (Named.tag a)
  decode v := (tag? v).bind (Named.ofTag? α)

instance : Wire Timestamp where
  encode t := .str t.text
  decode
    | .str s => Timestamp.ofText? s
    | _ => none

end Wire

/-! ## Records -/

inductive Members where
  | named (members : List (String × Json))
  | listed (items : List Json)

def Json.members? (arity : Nat) : Json → Option Members
  | .obj members => some (.named members)
  | .arr items => if items.length ≤ arity then some (.listed items) else none
  | _ => none

namespace Members

def find? (m : Members) (position : Nat) (name : String) : Option Json :=
  match m with
  | .named members => members.lookup name
  | .listed items => items[position]?

def isNamed : Members → Bool
  | .named _ => true
  | .listed _ => false

end Members

/-- How the members of an `α` are written and read; `β` is what the members read so far make of
the rest. -/
structure Layout (α β : Type) where
  arity : Nat
  write : α → List (String × Json)
  read : Members → Option β

namespace Layout

variable {α β γ : Type}

def make (α : Type) (mk : β) : Layout α β where
  arity := 0
  write _ := []
  read _ := some mk

/-- One more member; `missing` is its value when it is not there. -/
def member [Wire γ] (l : Layout α (γ → β)) (name : String) (get : α → γ)
    (missing : Members → Option γ) : Layout α β where
  arity := l.arity + 1
  write a := l.write a ++ [(name, encode (get a))]
  read m := do
    let f ← l.read m
    match m.find? l.arity name with
    | some v => (decode v).map f
    | none => (missing m).map f

def required [Wire γ] (l : Layout α (γ → β)) (name : String) (get : α → γ) : Layout α β :=
  l.member name get (fun _ => none)

def optional [Wire γ] (l : Layout α (γ → β)) (name : String) (get : α → γ) (default : γ) :
    Layout α β :=
  l.member name get (fun _ => some default)

def nullable [Wire γ] (l : Layout α (Option γ → β)) (name : String) (get : α → Option γ) :
    Layout α β :=
  l.member name get (fun m => if m.isNamed then some none else none)

def decode (l : Layout α α) (v : Json) : Option α := (v.members? l.arity).bind l.read

def encode (l : Layout α α) (a : α) : Json := .obj (l.write a)

@[reducible] def toWire (l : Layout α α) : Wire α := ⟨l.encode, l.decode⟩

end Layout

/-! ## Tagged records -/

/-- A tag and the members of a record: the tag is a member of its own, or the first item. -/
def Json.tagged? (tagName : String) : Json → Option (String × Json)
  | .obj members =>
    match members.lookup tagName with
    | some (.str tag) => some (tag, .obj (members.filter (fun m => m.1 ≠ tagName)))
    | _ => none
  | .arr (.str tag :: items) => some (tag, .arr items)
  | _ => none

def Json.withTag (tagName tag : String) (members : List (String × Json)) : Json :=
  .obj ((tagName, .str tag) :: members)

end WorkflowReplay
