import WorkflowReplay.Json.Value
import WorkflowReplay.Text.Quoted
import WorkflowReplay.Text.Utf8

/-!
# Compact JSON text

No blanks; in strings only quotes, backslashes and the control characters below U+0020 are
escaped, every other byte stands for itself.  The text is produced as bytes.
-/

set_option autoImplicit false

namespace WorkflowReplay.Json

def hexDigit (n : UInt8) : UInt8 := if n < 10 then 0x30 + n else 0x57 + n

def escapeByte (b : UInt8) : List UInt8 :=
  if b = 0x22 then [0x5c, 0x22]
  else if b = 0x5c then [0x5c, 0x5c]
  else if b = 0x08 then [0x5c, 0x62]
  else if b = 0x09 then [0x5c, 0x74]
  else if b = 0x0a then [0x5c, 0x6e]
  else if b = 0x0c then [0x5c, 0x66]
  else if b = 0x0d then [0x5c, 0x72]
  else if b < 0x20 then [0x5c, 0x75, 0x30, 0x30, hexDigit (b >>> 4), hexDigit (b &&& 0xf)]
  else [b]

def printString (s : String) : List UInt8 :=
  0x22 :: ((Text.utf8 s).flatMap escapeByte ++ [0x22])

/-- The decimal digits of a number, the last digit first. -/
def digitsBackward (n : Nat) : List UInt8 :=
  if n < 10 then [0x30 + UInt8.ofNat n]
  else (0x30 + UInt8.ofNat (n % 10)) :: digitsBackward (n / 10)

def printNat (n : Nat) : List UInt8 := (digitsBackward n).reverse

def printInt (n : Int) : List UInt8 :=
  if n < 0 then 0x2d :: printNat n.natAbs else printNat n.natAbs

mutual

def print : Json → List UInt8
  | .null => [0x6e, 0x75, 0x6c, 0x6c]
  | .bool true => [0x74, 0x72, 0x75, 0x65]
  | .bool false => [0x66, 0x61, 0x6c, 0x73, 0x65]
  | .int n => printInt n
  | .double d => Text.utf8 d.text
  | .str s => printString s
  | .arr items => 0x5b :: (printItems items ++ [0x5d])
  | .obj members => 0x7b :: (printMembers members ++ [0x7d])

def printItems : List Json → List UInt8
  | [] => []
  | [v] => print v
  | v :: rest => print v ++ 0x2c :: printItems rest

def printMembers : List (String × Json) → List UInt8
  | [] => []
  | [(n, v)] => printString n ++ 0x3a :: print v
  | (n, v) :: rest => printString n ++ 0x3a :: (print v ++ 0x2c :: printMembers rest)

end

def text (v : Json) : String := (Text.ofUtf8? v.print).getD ""

end WorkflowReplay.Json
