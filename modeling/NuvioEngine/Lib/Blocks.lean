import Mathlib.Data.Nat.Basic
import Mathlib.Order.MinMax

/-!
Positions cut into blocks of one size: the blocks an interval of positions meets are exactly
those between the block of its first and the block of its last position.
-/

namespace Blocks

/-- Some position of the closed interval, moved by `offset`, lies in `block`. -/
def Meets (offset size first last block : Nat) : Prop :=
  ∃ position, first ≤ position ∧ position ≤ last ∧ (offset + position) / size = block

theorem meets_iff {offset size first last block : Nat} (positive : 0 < size)
    (ordered : first ≤ last) :
    Meets offset size first last block ↔
      (offset + first) / size ≤ block ∧ block ≤ (offset + last) / size := by
  constructor
  · rintro ⟨position, lower, upper, rfl⟩
    exact ⟨Nat.div_le_div_right (by omega), Nat.div_le_div_right (by omega)⟩
  · rintro ⟨lower, upper⟩
    by_cases same : block = (offset + first) / size
    · exact ⟨first, le_refl first, ordered, same.symm⟩
    · have start : block * size ≤ offset + last := (Nat.le_div_iff_mul_le positive).mp upper
      have beyond : offset + first < block * size := by
        rw [← Nat.div_lt_iff_lt_mul positive]
        omega
      refine ⟨block * size - offset, by omega, by omega, ?_⟩
      rw [show offset + (block * size - offset) = block * size by omega]
      exact Nat.mul_div_cancel block positive

/-- After `first`, the positions of the same block are those before the next block starts. -/
theorem sameBlock_iff {offset size first position : Nat} (positive : 0 < size)
    (after : first ≤ position) :
    (offset + position) / size = (offset + first) / size ↔
      position ≤ first + (size - 1 - (offset + first) % size) := by
  have split := Nat.div_add_mod (offset + first) size
  have short := Nat.mod_lt (offset + first) positive
  have above : (offset + first) / size ≤ (offset + position) / size :=
    Nat.div_le_div_right (by omega)
  have next : (offset + position) / size < (offset + first) / size + 1 ↔
      offset + position < size * ((offset + first) / size) + size := by
    rw [Nat.div_lt_iff_lt_mul positive, Nat.add_mul, Nat.one_mul, Nat.mul_comm size]
  omega

end Blocks
