import WorkflowReplay.Json.Shape
import WorkflowReplay.Text.Utf8
import WorkflowReplay.Time.Span
import WorkflowReplay.Wire.Form

/-!
# Short forms

Short forms of the values that requests and scripts hold.  Bytes may be written as text, a span as
a number of milliseconds; a member that is missing is `null`, and a value of another kind is the
empty one.
-/

set_option autoImplicit false

namespace WorkflowReplay.Shorthand

def get (v : Json) (name : String) : Json := (v.member? name).getD .null

def items : Json → List Json
  | .arr xs => xs
  | _ => []

def arg (xs : List Json) (i : Nat) : Json := xs.getD i .null

def str : Json → String
  | .str s => s
  | _ => ""

def str? : Json → Option String
  | .str s => some s
  | _ => none

def int? : Json → Option Int
  | .int n => some n
  | _ => none

def int (v : Json) : Int := (int? v).getD 0

def nat (v : Json) : Nat := (int v).toNat

def eventId (v : Json) : EventId := Int64.ofInt (int v)

def truth : Json → Bool
  | .bool b => b
  | _ => false

def payload? : Json → Option Payload
  | .null => none
  | .str s => some (Text.utf8 s)
  | v => decode v

def payload (v : Json) : Payload := (payload? v).getD []

/-- Milliseconds, or seconds and nanoseconds; `none` if the span is too long. -/
def span? : Json → Option Span
  | .int n => some (.ofMillis n.toNat)
  | v => Span.ofParts? (nat (get v "secs")) (nat (get v "nanos"))

def spanTooLong : String := "overflow when adding durations"

def payloadMap : Json → SearchAttributes
  | .obj members => members.map (fun m => (m.1, payload m.2))
  | _ => []

def named (α : Type) [Named α] (v : Json) : Option α := (str? v).bind (Named.ofTag? α)

def shape? : Json → Option Shape
  | .null => some .value
  | .str "value" => some .value
  | .str "string" => some .string
  | .str "u32" => some .u32
  | .str "u64" => some .u64
  | .str "i64" => some .i64
  | .str "bool" => some .bool
  | .str "unit" => some .unit
  | .str "opt_string" => some .optionalString
  | .str "vec_i64" => some .i64List
  | .str "pair" => some .pair
  | _ => none

end WorkflowReplay.Shorthand
