import WorkflowReplay.Time.Span

/-!
# Points in time

A timestamp counts seconds since 1970-01-01T00:00:00Z on the proleptic Gregorian calendar and
the nanoseconds within the second.  A leap second is the second before it with a nanosecond
count of one thousand million or more.
-/

set_option autoImplicit false

namespace WorkflowReplay

structure Timestamp where
  seconds : Int
  nanos : Nat := 0
  deriving DecidableEq, Repr, Inhabited

structure Date where
  year : Int
  month : Nat
  day : Nat
  deriving DecidableEq, Repr

namespace Date

def isLeapYear (y : Int) : Bool := y % 4 == 0 && (y % 100 != 0 || y % 400 == 0)

def daysInMonth (y : Int) (m : Nat) : Nat :=
  if m = 2 then (if isLeapYear y then 29 else 28)
  else if m = 4 ∨ m = 6 ∨ m = 9 ∨ m = 11 then 30 else 31

def isValid (d : Date) : Bool :=
  1 ≤ d.month && d.month ≤ 12 && 1 ≤ d.day && d.day ≤ daysInMonth d.year d.month &&
    -262143 ≤ d.year && d.year ≤ 262142

/-- Days since 1970-01-01.  Years are counted from March, so that the leap day comes last. -/
def toDays (d : Date) : Int :=
  let y := if d.month ≤ 2 then d.year - 1 else d.year
  let era := y / 400
  let yearOfEra := y - era * 400
  let month : Int := if 2 < d.month then d.month - 3 else d.month + 9
  let dayOfYear := (153 * month + 2) / 5 + d.day - 1
  let dayOfEra := yearOfEra * 365 + yearOfEra / 4 - yearOfEra / 100 + dayOfYear
  era * 146097 + dayOfEra - 719468

def ofDays (n : Int) : Date :=
  let z := n + 719468
  let era := z / 146097
  let dayOfEra := z - era * 146097
  let yearOfEra := (dayOfEra - dayOfEra / 1460 + dayOfEra / 36524 - dayOfEra / 146096) / 365
  let dayOfYear := dayOfEra - (365 * yearOfEra + yearOfEra / 4 - yearOfEra / 100)
  let month := (5 * dayOfYear + 2) / 153
  let day := dayOfYear - (153 * month + 2) / 5 + 1
  let m := if month < 10 then month + 3 else month - 9
  { year := yearOfEra + era * 400 + (if m ≤ 2 then 1 else 0), month := m.toNat, day := day.toNat }

end Date

namespace Timestamp

/-- The first instants and the last ones that a timestamp can name. -/
def inRange (t : Timestamp) : Bool :=
  let year := (Date.ofDays (t.seconds / 86400)).year
  year ≤ 262142 && -262143 ≤ year

def millis (t : Timestamp) : Int := t.seconds * 1000 + (t.nanos / 1000000 : Nat)

def ofMillis? (n : Int) : Option Timestamp :=
  let t : Timestamp := { seconds := n / 1000, nanos := ((n % 1000) * 1000000).toNat }
  if t.inRange then some t else none

/-- The point in time a number of nanoseconds away, in range or not.  A leap second is left as soon
as the sum reaches beyond it. -/
def shift (t : Timestamp) (n : Int) : Timestamp :=
  let secs := n.tdiv 1000000000
  let frac := n.tmod 1000000000
  let within := t.nanos + frac
  let plain (seconds : Int) (nanos : Nat) : Timestamp :=
    { seconds := seconds + (nanos + n) / 1000000000
      nanos := ((nanos + n) % 1000000000).toNat }
  if t.nanos < 1000000000 then plain t.seconds t.nanos
  else if 0 < secs ∨ (0 < frac ∧ 2000000000 ≤ within) then plain t.seconds (t.nanos - 1000000000)
  else if secs < 0 then plain (t.seconds + 1) (t.nanos - 1000000000)
  else { t with nanos := within.toNat }

def move? (t : Timestamp) (n : Int) : Option Timestamp :=
  if (t.shift n).inRange then some (t.shift n) else none

/-! ## Text -/

def padded (width n : Nat) : String :=
  let digits := toString n
  String.ofList (List.replicate (width - digits.length) '0') ++ digits

/-- Years of four digits stand bare, any other year has a sign and at least four digits. -/
def yearText (y : Int) : String :=
  if 0 ≤ y ∧ y ≤ 9999 then padded 4 y.toNat
  else (if y < 0 then "-" else "+") ++ padded 4 y.natAbs

/-- The fewest of 0, 3, 6 and 9 places that lose nothing. -/
def fractionText (nanos : Nat) : String :=
  if nanos = 0 then ""
  else if nanos % 1000000 = 0 then "." ++ padded 3 (nanos / 1000000)
  else if nanos % 1000 = 0 then "." ++ padded 6 (nanos / 1000)
  else "." ++ padded 9 nanos

def text (t : Timestamp) : String :=
  let date := Date.ofDays (t.seconds / 86400)
  let time := (t.seconds % 86400).toNat
  let second := time % 60 + t.nanos / 1000000000
  yearText date.year ++ "-" ++ padded 2 date.month ++ "-" ++ padded 2 date.day ++ "T" ++
    padded 2 (time / 3600) ++ ":" ++ padded 2 (time / 60 % 60) ++ ":" ++ padded 2 second ++
    fractionText (t.nanos % 1000000000) ++ "Z"

/-! ## Reading

Besides RFC 3339 the reader takes blanks between the parts, numbers without padding, a blank
instead of the `T`, offsets without a colon, and `UTC`. -/

def isBlank (c : Char) : Bool :=
  c.isWhitespace || c.toNat = 0x0b || c.toNat = 0x0c || c.toNat = 0x85 || c.toNat = 0xa0 ||
    c.toNat = 0x1680 || (0x2000 ≤ c.toNat && c.toNat ≤ 0x200a) || c.toNat = 0x2028 ||
    c.toNat = 0x2029 || c.toNat = 0x202f || c.toNat = 0x205f || c.toNat = 0x3000

def skipBlanks (cs : List Char) : List Char := cs.dropWhile isBlank

def digitsValue (cs : List Char) : Nat :=
  cs.foldl (fun n c => n * 10 + (c.toNat - 48)) 0

def number? (width : Nat) (cs : List Char) : Option (Nat × List Char) :=
  let cs := skipBlanks cs
  let digits := (cs.take width).takeWhile Char.isDigit
  if digits.isEmpty then none else some (digitsValue digits, cs.drop digits.length)

/-- A year has up to four digits, or a sign and any number of them. -/
def year? (cs : List Char) : Option (Int × List Char) :=
  match skipBlanks cs with
  | '-' :: rest => signed rest (-1)
  | '+' :: rest => signed rest 1
  | cs => (number? 4 cs).map (fun r => ((r.1 : Int), r.2))
where
  signed (cs : List Char) (sign : Int) : Option (Int × List Char) :=
    let digits := cs.takeWhile Char.isDigit
    if digits.isEmpty then none else some (sign * digitsValue digits, cs.drop digits.length)

def char? (c : Char) (cs : List Char) : Option (List Char) :=
  match skipBlanks cs with
  | d :: rest => if d = c then some rest else none
  | [] => none

/-- The digits after the point as nanoseconds; those beyond the ninth are skipped. -/
def nanos? (cs : List Char) : Option (Nat × List Char) :=
  match cs with
  | '.' :: rest =>
    let digits := rest.takeWhile Char.isDigit
    if digits.isEmpty then none
    else
      let kept := digits.take 9
      some (digitsValue kept * Nat.pow 10 (9 - kept.length), rest.drop digits.length)
  | cs => some (0, cs)

def offset? (cs : List Char) : Option (Int × List Char) :=
  match cs with
  | 'Z' :: rest => some (0, rest)
  | 'z' :: rest => some (0, rest)
  | '+' :: rest => hoursMinutes rest 1
  | '-' :: rest => hoursMinutes rest (-1)
  | '−' :: rest => hoursMinutes rest (-1)
  | a :: b :: c :: rest =>
    if [a, b, c].map Char.toUpper = ['U', 'T', 'C'] then some (0, rest) else none
  | _ => none
where
  hoursMinutes (cs : List Char) (sign : Int) : Option (Int × List Char) :=
    match cs with
    | h₁ :: h₂ :: rest =>
      if h₁.isDigit && h₂.isDigit then
        match rest.dropWhile (fun c => c = ':' || isBlank c) with
        | m₁ :: m₂ :: rest =>
          if '0' ≤ m₁ && m₁ ≤ '5' && m₂.isDigit then
            some (sign * (digitsValue [h₁, h₂] * 3600 + digitsValue [m₁, m₂] * 60), rest)
          else none
        | _ => none
      else none
    | _ => none

/-- Reads a timestamp with any offset below a day. -/
def ofText? (s : String) : Option Timestamp := do
  let (year, cs) ← year? s.toList
  let cs ← char? '-' cs
  let (month, cs) ← number? 2 cs
  let cs ← char? '-' cs
  let (day, cs) ← number? 2 cs
  let cs ← match cs with
    | 'T' :: rest => some rest
    | 't' :: rest => some rest
    | ' ' :: rest => some rest
    | _ => none
  let (hour, cs) ← number? 2 cs
  let cs ← char? ':' cs
  let (minute, cs) ← number? 2 cs
  let cs ← char? ':' cs
  let (second, cs) ← number? 2 cs
  let (nanos, cs) ← nanos? cs
  let (offset, cs) ← offset? (skipBlanks cs)
  let date : Date := { year, month, day }
  if (skipBlanks cs).isEmpty && date.isValid && hour < 24 && minute < 60 && second ≤ 60 &&
      offset.natAbs < 86400 then
    let leap := second = 60
    let time := hour * 3600 + minute * 60 + (if leap then 59 else second)
    let t : Timestamp :=
      { seconds := date.toDays * 86400 + time - offset
        nanos := nanos + (if leap then 1000000000 else 0) }
    if t.inRange then some t else none
  else none

end Timestamp

end WorkflowReplay
