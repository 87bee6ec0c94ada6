import WorkflowReplay.Json.Value
import WorkflowReplay.Text.Utf8

/-!
# Reading JSON text

The reader works on bytes.  A fault names what is wrong and how many bytes were still unread
when it was noticed, the offending byte counting as read; `SyntaxError` turns that count into
the line and column that a message shows.

A value may open at most 127 brackets around any point of it; the 128th is refused.
-/

set_option autoImplicit false

namespace WorkflowReplay.Json

inductive Problem where
  | endInValue
  | endInList
  | endInObject
  | endInString
  | expectedValue
  | expectedIdent
  | expectedColon
  | expectedListCommaOrEnd
  | expectedObjectCommaOrEnd
  | keyMustBeString
  | trailingComma
  | trailingCharacters
  | invalidNumber
  | numberOutOfRange
  | invalidEscape
  | controlCharacter
  | invalidCodePoint
  | loneSurrogate
  | endOfHexEscape
  | tooDeep
  deriving DecidableEq, Repr

def Problem.message : Problem → String
  | .endInValue => "EOF while parsing a value"
  | .endInList => "EOF while parsing a list"
  | .endInObject => "EOF while parsing an object"
  | .endInString => "EOF while parsing a string"
  | .expectedValue => "expected value"
  | .expectedIdent => "expected ident"
  | .expectedColon => "expected `:`"
  | .expectedListCommaOrEnd => "expected `,` or `]`"
  | .expectedObjectCommaOrEnd => "expected `,` or `\x7d`"
  | .keyMustBeString => "key must be a string"
  | .trailingComma => "trailing comma"
  | .trailingCharacters => "trailing characters"
  | .invalidNumber => "invalid number"
  | .numberOutOfRange => "number out of range"
  | .invalidEscape => "invalid escape"
  | .controlCharacter => "control character (\\u0000-\\u001F) found while parsing a string"
  | .invalidCodePoint => "invalid unicode code point"
  | .loneSurrogate => "lone leading surrogate in hex escape"
  | .endOfHexEscape => "unexpected end of hex escape"
  | .tooDeep => "recursion limit exceeded"

structure Fault where
  problem : Problem
  unread : Nat
  deriving DecidableEq, Repr

abbrev Read (α : Type) := Except Fault (α × List UInt8)

/-- A fault noticed with these bytes still to come. -/
def faultBefore (p : Problem) (rest : List UInt8) : Fault := ⟨p, rest.length⟩

/-- A fault at the next byte, which counts as read if there is one. -/
def faultAt (p : Problem) (rest : List UInt8) : Fault := ⟨p, rest.length - 1⟩

def isBlank (b : UInt8) : Bool := b = 0x20 || b = 0x0a || b = 0x09 || b = 0x0d

def isDigit (b : UInt8) : Bool := 0x30 ≤ b && b ≤ 0x39

def digitValue (b : UInt8) : Nat := (b - 0x30).toNat

def skipBlanks (bs : List UInt8) : List UInt8 := bs.dropWhile isBlank

/-! ## Literals -/

def readLiteral (v : Json) : List UInt8 → List UInt8 → Read Json
  | [], rest => .ok (v, rest)
  | _ :: _, [] => .error ⟨.endInValue, 0⟩
  | e :: es, b :: rest =>
    if b = e then readLiteral v es rest else .error (faultBefore .expectedIdent rest)

/-! ## Numbers -/

/-- Appends decimal digits to a number as long as it stays below `limit`; the digits that do not
fit come back. -/
def absorb (limit : Nat) (n : Nat) : List UInt8 → Nat × List UInt8
  | [] => (n, [])
  | d :: ds =>
    let n' := n * 10 + digitValue d
    if n' < limit then absorb limit n' ds else (n, d :: ds)

/-- Whole numbers are kept exactly below this bound. -/
def wordLimit : Nat := 18446744073709551616

def scaled (negative : Bool) (significand : Nat) (exponent : Int) (rest : List UInt8) : Read Json :=
  match Double.ofDecimal? negative (UInt64.ofNat significand) exponent with
  | some d => .ok (.double d, rest)
  | none => .error (faultBefore .numberOutOfRange rest)

def exponentSign : List UInt8 → Bool × List UInt8
  | 0x2b :: rest => (false, rest)
  | 0x2d :: rest => (true, rest)
  | bs => (false, bs)

def readExponent (negative : Bool) (significand : Nat) (start : Int) (bs : List UInt8) :
    Read Json :=
  let (down, bs) := exponentSign bs
  match bs with
  | [] => .error ⟨.endInValue, 0⟩
  | b :: rest =>
    if isDigit b then
      let digits := b :: rest.takeWhile isDigit
      let after := rest.dropWhile isDigit
      match absorb 2147483648 0 digits with
      | (e, []) => scaled negative significand (if down then start - e else start + e) after
      | (_, _ :: left) =>
        if significand ≠ 0 ∧ !down then
          .error ⟨.numberOutOfRange, left.length + after.length⟩
        else
          .ok (.double (Double.ofFloat (if negative then -0.0 else 0.0)), after)
    else .error (faultBefore .invalidNumber rest)

def readTail (negative : Bool) (significand : Nat) (exponent : Int) (bs : List UInt8) : Read Json :=
  match bs with
  | 0x65 :: rest => readExponent negative significand exponent rest
  | 0x45 :: rest => readExponent negative significand exponent rest
  | _ => scaled negative significand exponent bs

/-- Reads what follows a decimal point.  Digits that no longer fit the significand are skipped. -/
def readFraction (negative : Bool) (significand : Nat) (start : Int) (bs : List UInt8) :
    Read Json :=
  let digits := bs.takeWhile isDigit
  let after := bs.dropWhile isDigit
  match digits with
  | [] => .error (faultAt (if after.isEmpty then .endInValue else .invalidNumber) after)
  | _ :: _ =>
    let (s, left) := absorb wordLimit significand digits
    readTail negative s (start - ((digits.length - left.length : Nat) : Int)) after

/-- A whole number that fits; a negative one below -2^63, and -0, is a double. -/
def whole (negative : Bool) (n : Nat) (rest : List UInt8) : Read Json :=
  if negative then
    if 0 < n ∧ n ≤ 9223372036854775808 then .ok (.int (-n), rest) else scaled true n 0 rest
  else .ok (.int n, rest)

def readNumber (negative : Bool) (bs : List UInt8) : Read Json :=
  match bs with
  | [] => .error ⟨.endInValue, 0⟩
  | b :: rest =>
    if isDigit b then
      if b = 0x30 ∧ (rest.head?.map isDigit).getD false then .error (faultAt .invalidNumber rest)
      else
        let digits := b :: rest.takeWhile isDigit
        let after := rest.dropWhile isDigit
        let (n, left) := absorb wordLimit 0 digits
        match after with
        | 0x2e :: tail => readFraction negative n left.length tail
        | 0x65 :: _ => readTail negative n left.length after
        | 0x45 :: _ => readTail negative n left.length after
        | _ => if left.isEmpty then whole negative n after else scaled negative n left.length after
    else .error (faultBefore .invalidNumber rest)

/-! ## Strings -/

/-- Where the reader stands inside a string.  `lead` is the first half of a surrogate pair. -/
inductive InString where
  | plain
  | slash
  | hex (count : Nat) (value : Option Nat) (lead : Option Nat)
  | wantSlash (lead : Nat)
  | wantU (lead : Nat)

def hexValue (b : UInt8) : Option Nat :=
  if 0x30 ≤ b ∧ b ≤ 0x39 then some (b - 0x30).toNat
  else if 0x61 ≤ b ∧ b ≤ 0x66 then some (b - 0x57).toNat
  else if 0x41 ≤ b ∧ b ≤ 0x46 then some (b - 0x37).toNat
  else none

def shortEscape (b : UInt8) : Option UInt8 :=
  if b = 0x22 ∨ b = 0x5c ∨ b = 0x2f then some b
  else if b = 0x62 then some 0x08
  else if b = 0x66 then some 0x0c
  else if b = 0x6e then some 0x0a
  else if b = 0x72 then some 0x0d
  else if b = 0x74 then some 0x09
  else none

/-- What the four digits of an escape mean: a character, or half of a surrogate pair. -/
def closeHex (lead : Option Nat) (n : Nat) : Except Problem (List UInt8 × InString) :=
  let trailing := 0xdc00 ≤ n ∧ n ≤ 0xdfff
  match lead with
  | none =>
    if trailing then .error .loneSurrogate
    else if 0xd800 ≤ n ∧ n ≤ 0xdbff then .ok ([], .wantSlash n)
    else .ok (String.utf8EncodeChar (Char.ofNat n), .plain)
  | some first =>
    if trailing then
      .ok (String.utf8EncodeChar
        (Char.ofNat ((first - 0xd800) * 0x400 + (n - 0xdc00) + 0x10000)), .plain)
    else .error .loneSurrogate

/-- One byte inside a string: the bytes that it completes and the new standing, or `none` for
the closing quote. -/
def stringStep (at_ : InString) (b : UInt8) : Except Problem (Option (List UInt8 × InString)) :=
  match at_ with
  | .plain =>
    if b = 0x22 then .ok none
    else if b = 0x5c then .ok (some ([], .slash))
    else if b < 0x20 then .error .controlCharacter
    else .ok (some ([b], .plain))
  | .slash =>
    if b = 0x75 then .ok (some ([], .hex 0 (some 0) none))
    else
      match shortEscape b with
      | some c => .ok (some ([c], .plain))
      | none => .error .invalidEscape
  | .hex count value lead =>
    let value := match value, hexValue b with
      | some v, some d => some (v * 16 + d)
      | _, _ => none
    if count < 3 then .ok (some ([], .hex (count + 1) value lead))
    else
      match value with
      | none => .error .invalidEscape
      | some n => (closeHex lead n).map some
  | .wantSlash lead =>
    if b = 0x5c then .ok (some ([], .wantU lead)) else .error .endOfHexEscape
  | .wantU lead =>
    if b = 0x75 then .ok (some ([], .hex 0 (some 0) (some lead))) else .error .endOfHexEscape

/-- Reads a string up to its closing quote; `done` holds its bytes so far, the last one first. -/
def readStringBytes (at_ : InString) (done : List UInt8) : List UInt8 → Read (List UInt8)
  | [] => .error ⟨.endInString, 0⟩
  | b :: rest =>
    match stringStep at_ b with
    | .error p => .error (faultBefore p rest)
    | .ok none => .ok (done.reverse, rest)
    | .ok (some (out, next)) => readStringBytes next (out.reverseAux done) rest

/-- The fault of a string that is no text, noticed at its closing quote.  It is shown as far before
the end of the string as the bytes that are no text reach back, each escape counting as the bytes
that it stands for. -/
def notText (bytes rest : List UInt8) : Fault :=
  ⟨.invalidCodePoint, bytes.length - Text.textLength bytes + rest.length⟩

def readString (bs : List UInt8) : Read String :=
  match readStringBytes .plain [] bs with
  | .error f => .error f
  | .ok (bytes, rest) =>
    match Text.ofUtf8? bytes with
    | some s => .ok (s, rest)
    | none => .error (notText bytes rest)

/-! ## Values -/

/-- What stands before the next item of a list: `none` at its end, otherwise the bytes from the
item on. -/
def nextItem (first : Bool) (bs : List UInt8) : Except Fault (Option (List UInt8)) :=
  match skipBlanks bs with
  | [] => .error ⟨.endInList, 0⟩
  | 0x5d :: _ => .ok none
  | b :: rest =>
    if first then .ok (some (b :: rest))
    else if b = 0x2c then
      match skipBlanks rest with
      | [] => .error ⟨.endInValue, 0⟩
      | 0x5d :: rest => .error (faultBefore .trailingComma rest)
      | b :: rest => .ok (some (b :: rest))
    else .error (faultBefore .expectedListCommaOrEnd rest)

/-- What stands before the next member of an object: `none` at its end, otherwise the bytes
after the opening quote of its name. -/
def nextMember (first : Bool) (bs : List UInt8) : Except Fault (Option (List UInt8)) :=
  match skipBlanks bs with
  | [] => .error ⟨.endInObject, 0⟩
  | 0x7d :: _ => .ok none
  | b :: rest =>
    if first then
      if b = 0x22 then .ok (some rest) else .error (faultBefore .keyMustBeString rest)
    else if b = 0x2c then
      match skipBlanks rest with
      | [] => .error ⟨.endInValue, 0⟩
      | 0x22 :: rest => .ok (some rest)
      | 0x7d :: rest => .error (faultBefore .trailingComma rest)
      | _ :: rest => .error (faultBefore .keyMustBeString rest)
    else .error (faultBefore .expectedObjectCommaOrEnd rest)

def afterColon (bs : List UInt8) : Except Fault (List UInt8) :=
  match skipBlanks bs with
  | [] => .error ⟨.endInObject, 0⟩
  | 0x3a :: rest => .ok rest
  | _ :: rest => .error (faultBefore .expectedColon rest)

mutual

/-- Reads a value; `depth` more brackets may be opened.  `fuel` bounds the calls and is never
short when it is twice the number of bytes. -/
def readValue (depth : Nat) (bs : List UInt8) : Nat → Read Json
  | 0 => .error ⟨.endInValue, 0⟩
  | fuel + 1 =>
    match skipBlanks bs with
    | [] => .error ⟨.endInValue, 0⟩
    | b :: rest =>
      if b = 0x6e then readLiteral .null [0x75, 0x6c, 0x6c] rest
      else if b = 0x74 then readLiteral (.bool true) [0x72, 0x75, 0x65] rest
      else if b = 0x66 then readLiteral (.bool false) [0x61, 0x6c, 0x73, 0x65] rest
      else if b = 0x2d then readNumber true rest
      else if isDigit b then readNumber false (b :: rest)
      else if b = 0x22 then (readString rest).map (fun r => (.str r.1, r.2))
      else if b = 0x5b then
        match depth with
        | 0 => .error (faultBefore .tooDeep rest)
        | depth + 1 => (readItems depth true [] rest fuel).map (fun r => (.arr r.1, r.2))
      else if b = 0x7b then
        match depth with
        | 0 => .error (faultBefore .tooDeep rest)
        | depth + 1 => (readMembers depth true [] rest fuel).map (fun r => (.ofMembers r.1, r.2))
      else .error (faultBefore .expectedValue rest)

def readItems (depth : Nat) (first : Bool) (done : List Json) (bs : List UInt8) :
    Nat → Read (List Json)
  | 0 => .error ⟨.endInList, 0⟩
  | fuel + 1 =>
    match nextItem first bs with
    | .error f => .error f
    | .ok none => .ok (done.reverse, (skipBlanks bs).drop 1)
    | .ok (some start) =>
      match readValue depth start fuel with
      | .error f => .error f
      | .ok (v, rest) => readItems depth false (v :: done) rest fuel

def readMembers (depth : Nat) (first : Bool) (done : List (String × Json)) (bs : List UInt8) :
    Nat → Read (List (String × Json))
  | 0 => .error ⟨.endInObject, 0⟩
  | fuel + 1 =>
    match nextMember first bs with
    | .error f => .error f
    | .ok none => .ok (done.reverse, (skipBlanks bs).drop 1)
    | .ok (some start) =>
      match readString start with
      | .error f => .error f
      | .ok (name, rest) =>
        match afterColon rest with
        | .error f => .error f
        | .ok rest =>
          match readValue depth rest fuel with
          | .error f => .error f
          | .ok (v, rest) => readMembers depth false ((name, v) :: done) rest fuel

end

def depthLimit : Nat := 127

/-! ## Whole texts -/

structure SyntaxError where
  problem : Problem
  line : Nat
  column : Nat
  deriving DecidableEq, Repr

/-- Locates a fault: lines count from one, the column is the number of bytes read on the line. -/
def Fault.locate (f : Fault) (text : List UInt8) : SyntaxError :=
  let read := text.take (text.length - f.unread)
  { problem := f.problem
    line := read.count 0x0a + 1
    column := (read.reverse.takeWhile (· ≠ 0x0a)).length }

def SyntaxError.message (e : SyntaxError) : String :=
  e.problem.message ++ " at line " ++ toString e.line ++ " column " ++ toString e.column

def parse (text : List UInt8) : Except SyntaxError Json :=
  match readValue depthLimit text (2 * text.length + 2) with
  | .error f => .error (f.locate text)
  | .ok (v, rest) =>
    match skipBlanks rest with
    | [] => .ok v
    | _ :: rest => .error ((faultBefore .trailingCharacters rest).locate text)

end WorkflowReplay.Json
