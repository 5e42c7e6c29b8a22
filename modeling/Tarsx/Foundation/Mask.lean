/-
Bit masks and addition: what a mask keeps of a value and what it drops.
-/
import Mathlib.Data.Nat.Basic

namespace Foundation

variable {w : Nat} {x rest mask : BitVec w}

/-- A value is the sum of what a mask keeps and what it drops. -/
theorem dropped_add_kept (x mask : BitVec w) : (x &&& ~~~mask) + (x &&& mask) = x := by
  have hdisjoint : (x &&& ~~~mask) &&& (x &&& mask) = 0#w := by
    ext i hi
    simp only [BitVec.getElem_and, BitVec.getElem_not, BitVec.getElem_zero]
    cases mask[i] <;> simp
  rw [BitVec.add_eq_or_of_and_eq_zero _ _ hdisjoint]
  ext i hi
  simp only [BitVec.getElem_or, BitVec.getElem_and, BitVec.getElem_not]
  cases mask[i] <;> simp

/-- A mask keeps `rest` of `x` when all bits of `rest` are in the mask and none of those
of `x - rest` is. -/
theorem and_mask_eq_iff :
    x &&& mask = rest ↔ rest &&& mask = rest ∧ (x - rest) &&& mask = 0#w := by
  constructor
  · rintro rfl
    have hdropped : x - (x &&& mask) = x &&& ~~~mask := by
      rw [BitVec.sub_eq_iff_eq_add, dropped_add_kept]
    refine ⟨by rw [BitVec.and_assoc, BitVec.and_self], ?_⟩
    rw [hdropped, BitVec.and_assoc]
    simp
  · rintro ⟨hrest, hother⟩
    have hdisjoint : (x - rest) &&& rest = 0#w :=
      calc
        (x - rest) &&& rest = (x - rest) &&& (mask &&& rest) := by
          rw [BitVec.and_comm mask, hrest]
        _ = 0#w := by rw [← BitVec.and_assoc, hother, BitVec.zero_and]
    have hsum : x = (x - rest) ||| rest := by
      rw [← BitVec.add_eq_or_of_and_eq_zero _ _ hdisjoint, BitVec.sub_add_cancel]
    rw [hsum, BitVec.and_or_distrib_right, hother, hrest, BitVec.zero_or]

end Foundation
