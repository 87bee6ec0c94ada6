import Mathlib
import WorkflowReplay.Random

/-!
# What the generator draws

The step of the generator is three maps, each of which adds a shifted copy of a word to the word
itself.  No such map loses a bit: from the end that the shift leaves alone, every bit can be told
from the ones before it.  So the step never brings two states together, and zero is reached from
zero alone, with which no generator starts.  An integer from a range is a draw cut to the width of
the range and added to its lower end; the width and the sum may both pass over the sign.
-/

set_option autoImplicit false

namespace WorkflowReplay

namespace Random

/-! ## The step loses nothing -/

theorem xor_shiftLeft_injective {w k : Nat} (moves : 0 < k) :
    Function.Injective fun x : BitVec w => x ^^^ (x <<< k) := by
  intro x y same
  refine BitVec.eq_of_getLsbD_eq fun i bound => ?_
  -- The lowest `k` bits are kept; above them a bit is told from the one `k` places below.
  induction i using Nat.strongRecOn with
  | ind i ih =>
    have bit := congrArg (fun z : BitVec w => z.getLsbD i) same
    simp only [BitVec.getLsbD_xor, BitVec.getLsbD_shiftLeft, bound, decide_true, Bool.true_and]
      at bit
    by_cases low : i < k
    · simpa [low] using bit
    · rw [ih (i - k) (by omega) (by omega)] at bit
      exact Bool.xor_left_inj.mp bit

theorem xor_shiftRight_injective {w k : Nat} (moves : 0 < k) :
    Function.Injective fun x : BitVec w => x ^^^ (x >>> k) := by
  intro x y same
  refine BitVec.eq_of_getLsbD_eq fun i bound => ?_
  -- The other way round: the highest bits are kept, so the induction is on the distance to the top.
  induction distance : w - i using Nat.strongRecOn generalizing i with
  | ind n ih =>
    have bit := congrArg (fun z : BitVec w => z.getLsbD i) same
    simp only [BitVec.getLsbD_xor, BitVec.getLsbD_ushiftRight] at bit
    by_cases inside : k + i < w
    · rw [ih (w - (k + i)) (by omega) (k + i) inside rfl] at bit
      exact Bool.xor_left_inj.mp bit
    · simpa [BitVec.getLsbD_of_ge _ _ (Nat.le_of_not_lt inside)] using bit

theorem toBitVec_step (x : UInt64) :
    (step x).toBitVec =
      (fun y : BitVec 64 => y ^^^ (y <<< 17))
        ((fun y : BitVec 64 => y ^^^ (y >>> 7))
          ((fun y : BitVec 64 => y ^^^ (y <<< 13)) x.toBitVec)) := rfl

theorem step_injective : Function.Injective step := by
  intro x y same
  have bits := congrArg UInt64.toBitVec same
  rw [toBitVec_step, toBitVec_step] at bits
  have middle := xor_shiftLeft_injective (by decide) bits
  have first := xor_shiftRight_injective (by decide) middle
  exact UInt64.toBitVec_inj.mp (xor_shiftLeft_injective (by decide) first)

theorem step_zero : step 0 = 0 := rfl

theorem iterate_step_eq_zero_iff (n : Nat) (x : UInt64) : step^[n] x = 0 ↔ x = 0 :=
  (step_injective.iterate n).eq_iff' (Function.iterate_fixed step_zero n)

/-! ## Draws -/

inductive Draw where
  | word
  | int (low high : Int64)
  | double
  | uuid

/-- How many words a draw takes.  An empty range has one answer and needs none. -/
def Draw.words : Draw → Nat
  | .word | .double => 1
  | .int low high => if high ≤ low then 0 else 1
  | .uuid => 2

def leftBy (r : Random) : Draw → Random
  | .word => r.nextU64.2
  | .int low high => (r.nextInt low high).2
  | .double => r.nextDouble.2
  | .uuid => r.nextUuid.2

def after (r : Random) (draws : List Draw) : Random := draws.foldl leftBy r

theorem leftBy_state (r : Random) (d : Draw) : (r.leftBy d).state = step^[d.words] r.state := by
  cases d with
  | word => rfl
  | double => rfl
  | uuid => rfl
  | int low high =>
    simp only [leftBy, nextInt, Draw.words]
    split <;> rfl

theorem after_state (r : Random) (draws : List Draw) :
    (r.after draws).state = step^[(draws.map Draw.words).sum] r.state := by
  induction draws generalizing r with
  | nil => rfl
  | cons d rest ih =>
    calc (r.after (d :: rest)).state
        = step^[(rest.map Draw.words).sum] (r.leftBy d).state := ih (r.leftBy d)
      _ = step^[(rest.map Draw.words).sum + d.words] r.state := by
        rw [leftBy_state, ← Function.iterate_add_apply]
      _ = step^[((d :: rest).map Draw.words).sum] r.state := by
        rw [List.map_cons, List.sum_cons, Nat.add_comm]

theorem after_nextU64 (r : Random) (draws : List Draw) :
    (r.after draws).nextU64.1 = step^[(draws.map Draw.words).sum + 1] r.state := by
  rw [Function.iterate_succ_apply', ← after_state]
  rfl

structure IsAlive (r : Random) : Prop where
  state : r.state ≠ 0
  next : r.nextU64.1 ≠ 0

theorem IsAlive.after {r : Random} (start : r.state ≠ 0) (draws : List Draw) :
    (r.after draws).IsAlive where
  state := by
    rw [after_state]
    exact mt (iterate_step_eq_zero_iff _ _).mp start
  next := by
    rw [after_nextU64]
    exact mt (iterate_step_eq_zero_iff _ _).mp start

theorem ofSeed_state_ne_zero (seed : UInt64) : (ofSeed seed).state ≠ 0 := by
  unfold ofSeed
  split
  · decide
  · assumption

/-- Whatever is drawn from a generator, however it was seeded, neither its state nor the word that
it returns next is zero.  The step loses nothing, so that after the same draws two generators
return the same word only if they have been in the same state from the start. -/
theorem never_degenerates :
    Function.Injective step ∧
    (∀ seed draws, ((ofSeed seed).after draws).IsAlive) ∧
    (∀ runId draws, ((ofRunId runId).after draws).IsAlive) ∧
    ∀ (r s : Random) draws,
      (r.after draws).nextU64.1 = (s.after draws).nextU64.1 ↔ r.state = s.state := by
  refine ⟨step_injective, ?_, ?_, ?_⟩
  · intro seed draws
    exact .after (ofSeed_state_ne_zero seed) draws
  · intro runId draws
    exact .after (ofSeed_state_ne_zero _) draws
  · intro r s draws
    rw [after_nextU64, after_nextU64]
    exact (step_injective.iterate _).eq_iff

/-! ## Integers from a range -/

theorem toInt_eq_bmod (x : Int64) : x.toInt = (x.toUInt64.toNat : Int).bmod (2 ^ 64) :=
  BitVec.toInt_eq_toNat_bmod x.toBitVec

theorem toInt_emod (x : Int64) : x.toInt % 2 ^ 64 = x.toUInt64.toNat := by
  have small := x.toUInt64.toNat_lt
  rw [toInt_eq_bmod]
  exact Int.bmod_emod.trans (Int.emod_eq_of_lt (by omega) (by omega))

/-- The width of a range is the difference of its ends without their signs, also where it is too
wide for a signed word. -/
theorem toNat_width {low high : Int64} (range : low < high) :
    ((high.toUInt64 - low.toUInt64).toNat : Int) = high.toInt - low.toInt := by
  have order := Int64.lt_iff_toInt_lt.mp range
  have lowest := Int64.le_toInt low
  have highest := Int64.toInt_lt high
  have lowBits := toInt_emod low
  have highBits := toInt_emod high
  rw [UInt64.toNat_sub]
  omega

/-- An offset that is too large for a signed word becomes negative, and the sum wraps back. -/
theorem toInt_add_offset {low high : Int64} {offset : UInt64}
    (inside : low.toInt + offset.toNat < high.toInt) :
    (low + offset.toInt64).toInt = low.toInt + offset.toNat := by
  have lowest := Int64.le_toInt low
  have highest := Int64.toInt_lt high
  rw [Int64.toInt_add, toInt_eq_bmod offset.toInt64, Int.add_bmod_bmod, UInt64.toUInt64_toInt64]
  exact Int.bmod_eq_of_le (by omega) (by omega)

/-- An integer from a range lies in the range, is as far above its lower end as the one word that
is drawn for it, modulo the width of the range, and takes no other word.  From an empty range the
lower end is returned and nothing is drawn. -/
theorem nextInt_in_range (r : Random) (low high : Int64) :
    (low < high → ∃ v, r.nextInt low high = (v, r.nextU64.2) ∧ low ≤ v ∧ v < high ∧
      v.toInt - low.toInt = r.nextU64.1.toNat % (high.toInt - low.toInt)) ∧
    (high ≤ low → r.nextInt low high = (low, r)) := by
  refine ⟨fun range => ?_, fun empty => by rw [nextInt, if_pos empty]⟩
  have width := toNat_width range
  have positive : 0 < high.toInt - low.toInt := Int.sub_pos.mpr (Int64.lt_iff_toInt_lt.mp range)
  let offset := r.nextU64.1 % (high.toUInt64 - low.toUInt64)
  have drawn : (offset.toNat : Int) = r.nextU64.1.toNat % (high.toInt - low.toInt) := by
    rw [UInt64.toNat_mod, Int.natCast_emod, width]
  have below := Int.emod_lt_of_pos r.nextU64.1.toNat positive
  have inside : low.toInt + offset.toNat < high.toInt := by omega
  have sum := toInt_add_offset inside
  refine ⟨low + offset.toInt64, ?_, ?_, ?_, ?_⟩
  · rw [nextInt, if_neg (Int64.not_le.mpr range)]
  · rw [Int64.le_iff_toInt_le]
    omega
  · rw [Int64.lt_iff_toInt_lt]
    omega
  · omega

/-- The widest range, and a draw whose offset is too large for a signed word; a range that ends
where it begins. -/
theorem widest_range :
    let r := ofSeed 0
    (Int64.minValue < Int64.maxValue ∧ 2 ^ 63 < r.nextU64.1.toNat ∧
      ∃ v, r.nextInt .minValue .maxValue = (v, r.nextU64.2) ∧ .minValue ≤ v ∧ v < .maxValue ∧
        v.toInt - Int64.minValue.toInt =
          r.nextU64.1.toNat % (Int64.maxValue.toInt - Int64.minValue.toInt)) ∧
    (5 : Int64) ≤ 5 ∧ r.nextInt 5 5 = (5, r) := by
  intro r
  have wide : Int64.minValue < Int64.maxValue := by decide
  have empty : (5 : Int64) ≤ 5 := by decide
  exact ⟨⟨wide, by decide, (nextInt_in_range r .minValue .maxValue).1 wide⟩, empty,
    (nextInt_in_range r 5 5).2 empty⟩

end Random

end WorkflowReplay
