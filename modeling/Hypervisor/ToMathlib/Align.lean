import Hypervisor.ToMathlib.Mask
import Mathlib.Tactic.Linarith

/-! # Rounding up to a multiple

The least multiple of `align` that is not below `n`, and the word that computes it: for a power of two,
`(x + align - 1) & !(align - 1)`, as long as the sum does not wrap.
-/

namespace Nat

def alignUp (n align : ℕ) : ℕ := (n + align - 1) / align * align

variable {n align : ℕ}

theorem alignUp_mod (n align : ℕ) : n.alignUp align % align = 0 := Nat.mul_mod_left _ _

theorem le_alignUp (positive : 0 < align) : n ≤ n.alignUp align := by
  have split := Nat.div_add_mod (n + align - 1) align
  have small := Nat.mod_lt (n + align - 1) positive
  rw [alignUp, Nat.mul_comm]
  omega

/-- A multiple stays where it is. -/
theorem alignUp_of_mod_eq_zero (positive : 0 < align) (multiple : n % align = 0) : n.alignUp align = n := by
  obtain ⟨k, rfl⟩ := Nat.dvd_of_mod_eq_zero multiple
  have quotient : (align * k + align - 1) / align = k := by
    rw [Nat.add_sub_assoc positive, Nat.mul_add_div positive, Nat.div_eq_of_lt (Nat.sub_lt positive Nat.one_pos),
      Nat.add_zero]
  rw [alignUp, quotient, Nat.mul_comm]

end Nat

namespace BitVec

variable {w : ℕ}

theorem toNat_and_not_sub_one {x align : BitVec w} (power : align.toNat.isPowerOfTwo) :
    (x &&& ~~~(align - 1)).toNat = x.toNat / align.toNat * align.toNat := by
  obtain ⟨k, eq⟩ := power
  have positive : 0 < align.toNat := eq ▸ Nat.two_pow_pos k
  have bound := align.isLt
  have wide : 1 % 2 ^ w = 1 := Nat.mod_eq_of_lt (Nat.lt_of_le_of_lt positive bound)
  have low : align - 1 = mask 0 k := by
    apply BitVec.eq_of_toNat_eq
    have one : (1 : BitVec w).toNat = 1 := by simp [wide]
    have le : (1 : BitVec w) ≤ align := by rwa [BitVec.le_def, one]
    rw [mask, Nat.shiftLeft_zero, BitVec.toNat_ofNat, BitVec.toNat_sub_of_le le, one, ← eq]
    exact (Nat.mod_eq_of_lt (Nat.lt_of_le_of_lt (Nat.sub_le _ _) bound)).symm
  rw [low, toNat_and_not_mask, eq]

end BitVec
