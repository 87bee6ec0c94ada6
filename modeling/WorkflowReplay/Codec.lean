import WorkflowReplay.Error
import WorkflowReplay.Json.Shape

/-!
# Payloads as argument lists

A payload holds a list of JSON values, written as one array.  A single value is a list of one;
when a payload is read as a single value, no value is `null` and several are the list of them.
-/

set_option autoImplicit false

namespace WorkflowReplay.Codec

def encode (values : List Json) : Payload := Json.print (.arr values)

/-- Reads an argument list.  No bytes are no arguments, and a value that is no array is one
argument. -/
def decode (payload : Payload) : Except Error (List Json) :=
  if payload.isEmpty then .ok []
  else
    match Json.parse payload with
    | .ok (.arr values) => .ok values
    | .ok v => .ok [v]
    | .error e => .error (.serialization e)

def encodeValue (v : Json) : Payload := encode [v]

/-- The value that an argument list stands for. -/
def single : List Json → Json
  | [] => .null
  | [v] => v
  | values => .arr values

def decodeValue (shape : Shape) (payload : Option Payload) : Except Error Json := do
  let values ← match payload with
    | some bytes => decode bytes
    | none => .ok []
  match shape.expect (single values) with
  | .ok v => .ok v
  | .error m => .error (.codec ("cannot decode payload: " ++ m.message))

end WorkflowReplay.Codec
