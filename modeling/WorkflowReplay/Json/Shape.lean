import WorkflowReplay.Json.Printer

/-!
# Shapes

A `Shape` is a type that a payload can be read as.  `Shape.expect` accepts exactly the values of
the shape; a refusal says what was found and what was wanted.
-/

set_option autoImplicit false

namespace WorkflowReplay

inductive Shape where
  | value
  | string
  | u32
  | u64
  | i64
  | bool
  | unit
  | optionalString
  | i64List
  | pair
  deriving DecidableEq, Repr, Inhabited

inductive Mismatch where
  | kind (found wanted : String)
  | range (found wanted : String)
  | length (found : Nat) (wanted : String)
  deriving DecidableEq, Repr

namespace Mismatch

def message : Mismatch → String
  | .kind found wanted => "invalid type: " ++ found ++ ", expected " ++ wanted
  | .range found wanted => "invalid value: " ++ found ++ ", expected " ++ wanted
  | .length found wanted => "invalid length " ++ toString found ++ ", expected " ++ wanted

end Mismatch

namespace Json

def described : Json → String
  | .null => "null"
  | .bool b => "boolean `" ++ toString b ++ "`"
  | .int n => "integer `" ++ toString n ++ "`"
  | .double d => "floating point `" ++ d.text ++ "`"
  | .str s => "string " ++ Text.quoted s
  | .arr _ => "sequence"
  | .obj _ => "map"

def expectString : Json → Except Mismatch String
  | .str s => .ok s
  | v => .error (.kind v.described "a string")

/-- A whole number from `low` up to, but not including, `high`. -/
def expectInt (low high : Int) (wanted : String) : Json → Except Mismatch Int
  | .int n => if low ≤ n ∧ n < high then .ok n else .error (.range (Json.int n).described wanted)
  | v => .error (.kind v.described wanted)

def expectU32 : Json → Except Mismatch Int := expectInt 0 4294967296 "u32"

def expectU64 : Json → Except Mismatch Int := expectInt 0 18446744073709551616 "u64"

def expectI64 : Json → Except Mismatch Int :=
  expectInt (-9223372036854775808) 9223372036854775808 "i64"

def expectPair : List Json → Except Mismatch Json
  | [] => .error (.length 0 "a tuple of size 2")
  | [a] => do
    let _ ← a.expectString
    .error (.length 1 "a tuple of size 2")
  | a :: b :: rest => do
    let s ← a.expectString
    let n ← b.expectU32
    if rest.isEmpty then .ok (.arr [.str s, .int n])
    else .error (.length (rest.length + 2) "fewer elements in array")

end Json

def Shape.expect (s : Shape) (v : Json) : Except Mismatch Json :=
  match s with
  | .value => .ok v
  | .string => v.expectString.map .str
  | .u32 => v.expectU32.map .int
  | .u64 => v.expectU64.map .int
  | .i64 => v.expectI64.map .int
  | .bool =>
    match v with
    | .bool b => .ok (.bool b)
    | v => .error (.kind v.described "a boolean")
  | .unit =>
    match v with
    | .null => .ok .null
    | v => .error (.kind v.described "unit")
  | .optionalString =>
    match v with
    | .null => .ok .null
    | v => v.expectString.map .str
  | .i64List =>
    match v with
    | .arr items => (items.mapM Json.expectI64).map (fun ns => .arr (ns.map .int))
    | v => .error (.kind v.described "a sequence")
  | .pair =>
    match v with
    | .arr items => Json.expectPair items
    | v => .error (.kind v.described "a tuple of size 2")

end WorkflowReplay
