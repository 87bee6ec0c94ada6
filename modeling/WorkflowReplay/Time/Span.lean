/-!
# Spans of time

A span is a whole number of nanoseconds.  Timeouts are cut to whole seconds, the delay of a timer
is rounded up to whole seconds, so that a timer never fires early.
-/

set_option autoImplicit false

namespace WorkflowReplay

structure Span where
  nanoseconds : Nat := 0
  deriving DecidableEq, Repr, Inhabited

namespace Span

def ofSeconds (n : Nat) : Span := ⟨n * 1000000000⟩

def ofMillis (n : Nat) : Span := ⟨n * 1000000⟩

def millis (s : Span) : Nat := s.nanoseconds / 1000000

def isZero (s : Span) : Bool := s.nanoseconds == 0

/-- Whole seconds, the rest cut off, at most the largest 32-bit number. -/
def timeoutSeconds (s : Span) : Int32 :=
  Int32.ofNat (min (s.nanoseconds / 1000000000) 2147483647)

def secondsLimit : Nat := 18446744073709551616

def ofParts? (seconds nanos : Nat) : Option Span :=
  let s : Span := ⟨seconds * 1000000000 + nanos⟩
  if s.nanoseconds / 1000000000 < secondsLimit then some s else none

/-- Whole seconds, a begun second counting as one, at most the largest signed 64-bit number;
`none` if they reach the limit. -/
def timerSeconds? (s : Span) : Option Int64 :=
  let seconds := (s.nanoseconds + 999999999) / 1000000000
  if seconds < secondsLimit then some (Int64.ofNat (min seconds 9223372036854775807)) else none

def fraction (n unit places : Nat) : String :=
  let rest := n % unit
  let digits := (Nat.toDigits 10 rest)
  let padded := List.replicate (places - digits.length) '0' ++ digits
  let shown := (padded.reverse.dropWhile (· == '0')).reverse
  toString (n / unit) ++ if rest = 0 then "" else "." ++ String.ofList shown

/-- A span in the largest unit that it fills: seconds, milli-, micro- or nanoseconds. -/
def text (s : Span) : String :=
  let n := s.nanoseconds
  if 1000000000 ≤ n then fraction n 1000000000 9 ++ "s"
  else if 1000000 ≤ n then fraction n 1000000 6 ++ "ms"
  else if 1000 ≤ n then fraction n 1000 3 ++ "µs"
  else toString n ++ "ns"

end Span

end WorkflowReplay
