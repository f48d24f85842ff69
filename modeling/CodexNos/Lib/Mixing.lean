import Mathlib.Data.BitVec
import Mathlib.Tactic

/-!
# Mixing steps on words

A hash mixes a word with multiplications, rotations and shifts.  Each step is a permutation of the
words, so a chain of steps loses nothing of a word that goes in once.
-/

namespace CodexNos.Lib.Mixing

variable {w : Nat}

/-- Rotate a word to the left. -/
def rotateLeft (word : BitVec w) (count : Nat) : BitVec w :=
  (word <<< count) ||| (word >>> (w - count))

/-- Combine a word with itself, shifted to the right. -/
def xorShiftRight (word : BitVec w) (count : Nat) : BitVec w := word ^^^ (word >>> count)

theorem getLsbD_rotateLeft (word : BitVec w) {count bit : Nat} (inside : bit < w)
    (bound : count ≤ w) :
    (rotateLeft word count).getLsbD ((bit + count) % w) = word.getLsbD bit := by
  have positive : 0 < w := by omega
  rw [rotateLeft, BitVec.getLsbD_or, BitVec.getLsbD_shiftLeft, BitVec.getLsbD_ushiftRight]
  by_cases wraps : bit + count < w
  · have place : w - count + (bit + count) = w + bit := by omega
    rw [Nat.mod_eq_of_lt wraps, Nat.add_sub_cancel, place,
      BitVec.getLsbD_of_ge word (w + bit) (by omega)]
    simp [wraps]
  · have reduced : (bit + count) % w = bit + count - w := by
      rw [Nat.mod_eq_sub_mod (by omega), Nat.mod_eq_of_lt (by omega)]
    have place : w - count + (bit + count - w) = bit := by omega
    rw [reduced, place]
    have low : bit + count - w < count := by omega
    simp [low]

theorem rotateLeft_injective {count : Nat} (bound : count ≤ w) :
    Function.Injective fun word : BitVec w => rotateLeft word count := by
  intro left right same
  apply BitVec.eq_of_getLsbD_eq
  intro bit inside
  rw [← getLsbD_rotateLeft left inside bound, ← getLsbD_rotateLeft right inside bound]
  exact congrArg (fun word => word.getLsbD ((bit + count) % w)) same

/-- The high bits of the result give back the word, from the top down. -/
theorem xorShiftRight_injective {count : Nat} (positive : 0 < count) :
    Function.Injective fun word : BitVec w => xorShiftRight word count := by
  intro left right same
  have bits (bit : Nat) : (left.getLsbD bit ^^ left.getLsbD (count + bit)) =
      (right.getLsbD bit ^^ right.getLsbD (count + bit)) := by
    have agree := congrArg (fun word => word.getLsbD bit) same
    simpa [xorShiftRight, BitVec.getLsbD_xor, BitVec.getLsbD_ushiftRight] using agree
  have above : ∀ steps bit, w ≤ bit + steps → left.getLsbD bit = right.getLsbD bit := by
    intro steps
    induction steps with
    | zero =>
        intro bit outside
        rw [BitVec.getLsbD_of_ge left bit outside, BitVec.getLsbD_of_ge right bit outside]
    | succ steps ih =>
        intro bit outside
        have higher := ih (count + bit) (by omega)
        have here := bits bit
        rw [higher] at here
        exact Bool.xor_left_inj.mp here
  apply BitVec.eq_of_getLsbD_eq
  intro bit inside
  exact above w bit (Nat.le_add_left w bit)

theorem mul_injective (factor inverse : BitVec w) (unit : factor * inverse = 1) :
    Function.Injective fun word : BitVec w => word * factor := by
  intro left right same
  have undone := congrArg (fun word => word * inverse) same
  simpa only [mul_assoc, unit, mul_one] using undone

theorem add_injective (summand : BitVec w) :
    Function.Injective fun word : BitVec w => word + summand :=
  fun _ _ same => (BitVec.add_left_inj summand).mp same

theorem xor_injective (mask : BitVec w) : Function.Injective fun word : BitVec w => word ^^^ mask :=
  fun _ _ same => (BitVec.xor_left_inj mask).mp same

/-! ## Words of pieces -/

section Pieces

variable {m n : Nat}

theorem append_inj {high high' : BitVec m} {low low' : BitVec n}
    (same : high ++ low = high' ++ low') : high = high' ∧ low = low' := by
  have bits (bit : Nat) : (high ++ low).getLsbD bit = (high' ++ low').getLsbD bit :=
    congrArg (fun word => word.getLsbD bit) same
  constructor
  · apply BitVec.eq_of_getLsbD_eq
    intro bit inside
    simpa [BitVec.getLsbD_append] using bits (n + bit)
  · apply BitVec.eq_of_getLsbD_eq
    intro bit inside
    simpa [BitVec.getLsbD_append, inside] using bits bit

theorem setWidth_injective (wider : m ≤ w) :
    Function.Injective fun word : BitVec m => word.setWidth w := by
  intro left right same
  apply BitVec.eq_of_getLsbD_eq
  intro bit inside
  have agree := congrArg (fun word => word.getLsbD bit) same
  simpa [BitVec.getLsbD_setWidth, Nat.lt_of_lt_of_le inside wider] using agree

/-- Shifting a piece up and combining it with a lower one puts them side by side. -/
theorem shiftLeft_xor_eq_append (high : BitVec m) (low : BitVec n) :
    high.setWidth w <<< n ^^^ low.setWidth w = (high ++ low).setWidth w := by
  apply BitVec.eq_of_getLsbD_eq
  intro bit inside
  simp only [BitVec.getLsbD_xor, BitVec.getLsbD_shiftLeft, BitVec.getLsbD_setWidth,
    BitVec.getLsbD_append, inside]
  by_cases lower : bit < n
  · simp [lower]
  · have room : bit - n < w := by omega
    simp [lower, room, BitVec.getLsbD_of_ge low bit (Nat.le_of_not_lt lower)]

end Pieces

end CodexNos.Lib.Mixing
