/-!
# Doubles and their decimal text

A double is its IEEE-754 bit pattern.  `Double.text` writes the fewest digits that read back as
the same double; `Double.ofDecimal?` reads a decimal given as a whole significand and a power of
ten, in two rounding steps.
-/

set_option autoImplicit false

namespace WorkflowReplay

/-- A double, told apart by its 64 bits. -/
structure Double where
  bits : UInt64
  deriving DecidableEq, Repr, Inhabited

namespace Double

def ofFloat (x : Float) : Double := ⟨x.toBits⟩

def isNegative (d : Double) : Bool := d.bits >>> 63 != 0

def exponentField (d : Double) : Nat := ((d.bits >>> 52) &&& 0x7ff).toNat

def fractionField (d : Double) : Nat := (d.bits &&& 0xfffffffffffff).toNat

def isZero (d : Double) : Bool := d.exponentField == 0 && d.fractionField == 0

/-- Doubles compare as numbers: the two zeros are equal. -/
def sameNumber (a b : Double) : Bool := a == b || (a.isZero && b.isZero)

/-- The magnitude is `significand * 2 ^ exponent`. -/
def significand (d : Double) : Nat :=
  if d.exponentField = 0 then d.fractionField else d.fractionField + 4503599627370496

def exponent (d : Double) : Int :=
  if d.exponentField = 0 then -1074 else (d.exponentField : Int) - 1075

/-! ## Shortest text -/

structure Ratio where
  num : Nat
  den : Nat

def Ratio.scale (r : Ratio) (base : Nat) (e : Int) : Ratio :=
  if 0 ≤ e then ⟨r.num * Nat.pow base e.toNat, r.den⟩
  else ⟨r.num, r.den * Nat.pow base (-e).toNat⟩

def Ratio.le (a b : Ratio) : Bool := a.num * b.den ≤ b.num * a.den

def Ratio.lt (a b : Ratio) : Bool := a.num * b.den < b.num * a.den

def Ratio.decimalExponent (r : Ratio) : Int :=
  if r.den ≤ r.num then
    ((Nat.toDigits 10 (r.num / r.den)).length : Int) - 1
  else
    match (List.range 400).find? (fun j => r.den ≤ r.num * Nat.pow 10 (j + 1)) with
    | some j => -((j : Int) + 1)
    | none => -400

/-- The numbers that round to a given positive double: the ends belong to it when the
significand is even. -/
structure Interval where
  low : Ratio
  high : Ratio
  closed : Bool

def Interval.has (i : Interval) (r : Ratio) : Bool :=
  if i.closed then i.low.le r && r.le i.high else i.low.lt r && r.lt i.high

def magnitude (d : Double) : Ratio := Ratio.scale ⟨d.significand, 1⟩ 2 d.exponent

/-- The interval around the magnitude; it is narrower below a power of two. -/
def interval (d : Double) : Interval :=
  let m := d.significand
  let below := if d.fractionField = 0 ∧ 1 < d.exponentField then 1 else 2
  { low := Ratio.scale ⟨4 * m - below, 1⟩ 2 (d.exponent - 2)
    high := Ratio.scale ⟨4 * m + 2, 1⟩ 2 (d.exponent - 2)
    closed := m % 2 == 0 }

/-- The decimal with `n` digits nearest to the magnitude among the neighbours on that grid which
read back, as its digits and the exponent of the last one. -/
def withDigits? (d : Double) (n : Nat) : Option (Nat × Int) :=
  let v := d.magnitude
  let last := v.decimalExponent - (n : Int) + 1
  let onGrid := v.scale 10 (-last)
  let down := onGrid.num / onGrid.den
  let reads (k : Nat) : Bool := d.interval.has (Ratio.scale ⟨k, 1⟩ 10 last)
  let upNearer := onGrid.den < 2 * (onGrid.num % onGrid.den) ||
    (onGrid.den == 2 * (onGrid.num % onGrid.den) && down % 2 == 1)
  match reads down, reads (down + 1) with
  | true, true => some (if upNearer then down + 1 else down, last)
  | true, false => some (down, last)
  | false, true => some (down + 1, last)
  | false, false => none

/-- Digits without closing zeros, and the exponent of the leading digit, of a positive double. -/
def shortest (d : Double) : List Char × Int :=
  let (k, last) := ((List.range 17).findSome? (fun n => d.withDigits? (n + 1))).getD (0, 0)
  let digits := Nat.toDigits 10 k
  let exponent := last + ((digits.length : Int) - 1)
  ((digits.reverse.dropWhile (· == '0')).reverse, exponent)

/-- Leading exponents from -5 to 15 are written positionally and always show a point; any other
is written with one digit before the point and a signed exponent. -/
def layout (digits : List Char) (exponent : Int) : String :=
  let zeros (n : Nat) : List Char := List.replicate n '0'
  if -5 ≤ exponent ∧ exponent < 16 then
    if exponent < 0 then
      String.ofList ("0.".toList ++ zeros ((-exponent).toNat - 1) ++ digits)
    else
      let whole := exponent.toNat + 1
      let before := digits.take whole ++ zeros (whole - digits.length)
      let after := digits.drop whole
      String.ofList (before ++ ['.'] ++ (if after.isEmpty then ['0'] else after))
  else
    let tail := digits.drop 1
    let point := if tail.isEmpty then [] else '.' :: tail
    let sign := if exponent < 0 then "-" else "+"
    String.ofList (digits.take 1 ++ point) ++ "e" ++ sign ++ toString exponent.natAbs

/-- The fewest digits that read back, of two such texts the nearer one. -/
def text (d : Double) : String :=
  let sign := if d.isNegative then "-" else ""
  if d.isZero then sign ++ "0.0"
  else
    let (digits, exponent) := d.shortest
    sign ++ layout digits exponent

/-! ## Reading decimals -/

/-- `x * 10 ^ exponent`, dividing by the largest power of ten until the rest of a negative
exponent has a power of its own; `none` when the result is too large. -/
def scaleDecimal? (x : Float) (exponent : Int) : Option Float :=
  if 0 ≤ exponent then
    if exponent ≤ 308 then
      let y := x * Float.ofScientific 1 false exponent.toNat
      if y.isInf then none else some y
    else if x == 0.0 then some x else none
  else if -308 ≤ exponent then
    some (x / Float.ofScientific 1 false (-exponent).toNat)
  else if x == 0.0 then some x
  else scaleDecimal? (x / Float.ofScientific 1 false 308) (exponent + 308)
termination_by (-exponent).toNat
decreasing_by omega

/-- The double for `± significand * 10 ^ exponent`: the significand is rounded first, then its
product with the power of ten. -/
def ofDecimal? (negative : Bool) (significand : UInt64) (exponent : Int) : Option Double :=
  (scaleDecimal? significand.toFloat exponent).map
    (fun x => ofFloat (if negative then -x else x))

end Double

end WorkflowReplay
