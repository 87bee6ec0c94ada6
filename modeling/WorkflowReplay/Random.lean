import WorkflowReplay.Json.Double
import WorkflowReplay.Text.Utf8
import WorkflowReplay.Text.Quoted

/-!
# Random values that a replay draws again

A 64-bit generator that shifts and adds without carry.  It is seeded from the id of the run, so
that every replay of a run draws the same values.
-/

set_option autoImplicit false

namespace WorkflowReplay

structure Random where
  state : UInt64
  deriving DecidableEq, Repr

namespace Random

/-- The step never leaves zero, so a zero seed is replaced. -/
def ofSeed (seed : UInt64) : Random := ⟨if seed = 0 then 0x9e3779b97f4a7c15 else seed⟩

def hashByte (hash : UInt64) (byte : UInt8) : UInt64 :=
  (hash ^^^ byte.toUInt64) * 0x100000001b3

/-- Seeds the generator with a hash of the run id. -/
def ofRunId (runId : String) : Random :=
  ofSeed ((Text.utf8 runId).foldl hashByte 0xcbf29ce484222325)

def step (x : UInt64) : UInt64 :=
  let x := x ^^^ (x <<< 13)
  let x := x ^^^ (x >>> 7)
  x ^^^ (x <<< 17)

def nextU64 (r : Random) : UInt64 × Random := (step r.state, ⟨step r.state⟩)

/-- A value from `low` up to, but not including, `high`; `low` if there is none. -/
def nextInt (r : Random) (low high : Int64) : Int64 × Random :=
  if high ≤ low then (low, r)
  else
    let (draw, r) := r.nextU64
    (low + (draw % (high.toUInt64 - low.toUInt64)).toInt64, r)

def nextDouble (r : Random) : Double × Random :=
  let (draw, r) := r.nextU64
  (Double.ofFloat ((draw >>> 11).toFloat / 9007199254740992.0), r)

def littleEndian (x : UInt64) : List UInt8 :=
  (List.range 8).map (fun i => (x >>> (8 * i).toUInt64).toUInt8)

/-- The sixteen bytes of a random identifier: version 4, variant 1. -/
def nextUuid (r : Random) : List UInt8 × Random :=
  let (low, r) := r.nextU64
  let (high, r) := r.nextU64
  let bytes := littleEndian low ++ littleEndian high
  let bytes := bytes.modify 6 (fun b => (b &&& 0x0f) ||| 0x40)
  (bytes.modify 8 (fun b => (b &&& 0x3f) ||| 0x80), r)

def hexByte (b : UInt8) : String :=
  Text.hex (b >>> 4).toNat ++ Text.hex (b &&& 0xf).toNat

def uuidText (bytes : List UInt8) : String :=
  let group (start size : Nat) : String :=
    String.join (((bytes.drop start).take size).map hexByte)
  group 0 4 ++ "-" ++ group 4 2 ++ "-" ++ group 6 2 ++ "-" ++ group 8 2 ++ "-" ++ group 10 6

end Random

end WorkflowReplay
