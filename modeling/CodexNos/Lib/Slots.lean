import Mathlib.Tactic
import Mathlib.Order.CompletePartialOrder

/-!
# Slots

Slots of equal size lie one after the other.  A machine that computes the start of a slot modulo some
bound puts one of them over the first slot if the bound is not beyond the start of the last slot.
-/

namespace CodexNos.Lib

/-- The places of a slot. -/
def slot (size index : Nat) : Set Nat := Set.Ico (index * size) ((index + 1) * size)

theorem disjoint_slot {size index other : Nat} (different : index ≠ other) :
    Disjoint (slot size index) (slot size other) := by
  rw [slot, slot, Set.Ico_disjoint_Ico]
  rcases Nat.lt_or_gt_of_ne different with before | after
  · exact (min_le_left _ _).trans ((Nat.mul_le_mul_right size before).trans (le_max_right _ _))
  · exact (min_le_right _ _).trans ((Nat.mul_le_mul_right size after).trans (le_max_left _ _))

theorem slot_subset {size index count : Nat} (inside : index < count) :
    slot size index ⊆ Set.Iio (count * size) := by
  intro place member
  exact member.2.trans_le (Nat.mul_le_mul_right size inside)

theorem slot_start_le {size index count : Nat} (inside : index < count) :
    index * size ≤ (count - 1) * size :=
  Nat.mul_le_mul_right size (Nat.le_sub_one_of_lt inside)

/-- If the start of the last slot is not below the bound, the start of some slot modulo the bound
lies in the first slot. -/
theorem exists_wrapped {size bound count : Nat} (positive : 0 < bound)
    (large : bound ≤ (count - 1) * size) :
    ∃ index, 0 < index ∧ index < count ∧ index * size % bound < size := by
  have some_size : 0 < size := by
    rcases Nat.eq_zero_or_pos size with rfl | some_size
    · omega
    · exact some_size
  have last : 0 < count - 1 := by
    rcases Nat.eq_zero_or_pos (count - 1) with zero | last
    · rw [zero, Nat.zero_mul] at large
      omega
    · exact last
  rcases Nat.lt_or_ge bound size with long | short
  · refine ⟨1, Nat.one_pos, by omega, ?_⟩
    rw [Nat.one_mul]
    exact (Nat.mod_lt size positive).trans long
  · -- The first slot that does not start below the bound starts less than a slot beyond it.
    let index := (bound - 1) / size + 1
    have before : (bound - 1) / size * size ≤ bound - 1 := Nat.div_mul_le_self _ _
    have beyond : bound - 1 < index * size := Nat.lt_mul_of_div_lt (Nat.lt_succ_self _) some_size
    have start : index * size = (bound - 1) / size * size + size := Nat.succ_mul _ _
    have inside : (bound - 1) / size < count - 1 := by
      rw [Nat.div_lt_iff_lt_mul some_size]
      omega
    refine ⟨index, Nat.succ_pos _, Nat.add_lt_of_lt_sub inside, ?_⟩
    have wrapped : index * size % bound = index * size - bound := by
      rw [Nat.mod_eq_sub_mod (by omega), Nat.mod_eq_of_lt (by omega)]
    omega

end CodexNos.Lib
