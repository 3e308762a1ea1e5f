import Mathlib.Data.BitVec

/-! # Contiguous bit masks

Machine words pack several fields into one number. A field is the contiguous mask that selects it;
`getLsbD_mask` turns a mask into a pair of bounds on the bit position, so an identity between words
becomes a statement about one bit and two inequalities. The remaining lemmas read a masked word as
a quotient or remainder, and a word as the set of its bits.
-/

namespace BitVec

variable {w : ℕ}

/-- The `len` ones that start at bit `lo`. -/
def mask (lo len : ℕ) : BitVec w := BitVec.ofNat w ((2 ^ len - 1) <<< lo)

theorem getLsbD_mask (lo len i : ℕ) :
    (mask lo len : BitVec w).getLsbD i =
      (decide (i < w) && (decide (lo ≤ i) && decide (i < lo + len))) := by
  rw [mask, getLsbD_ofNat, Nat.testBit_shiftLeft, Nat.testBit_two_pow_sub_one]
  grind

/-- A field is zero when all its bits are. -/
theorem and_mask_eq_zero_iff (x : BitVec w) (lo len : ℕ) :
    x &&& mask lo len = 0 ↔ ∀ i, lo ≤ i → i < lo + len → x.getLsbD i = false := by
  constructor
  · intro zero i lower upper
    have bit := congrArg (BitVec.getLsbD · i) zero
    simp only [getLsbD_and, getLsbD_mask] at bit
    grind
  · intro clear
    apply eq_of_getLsbD_eq
    intro i _
    simp only [getLsbD_and, getLsbD_mask]
    grind

/-- A single bit is tested with a shifted one. -/
theorem and_one_shiftLeft_eq_zero_iff (x : BitVec w) {i : ℕ} (bound : i < w) :
    x &&& (1 : BitVec w) <<< i = 0 ↔ x.getLsbD i = false := by
  change x &&& twoPow w i = 0#w ↔ _
  have nonzero : twoPow w i ≠ 0#w := fun zero => by
    have bit := congrArg (BitVec.getLsbD · i) zero
    simp [bound] at bit
  rw [and_twoPow]
  cases x.getLsbD i with
  | false => simp
  | true => simpa using nonzero

/-- Masking the low bits is a remainder. -/
theorem toNat_and_mask (x : BitVec w) (len : ℕ) : (x &&& mask 0 len).toNat = x.toNat % 2 ^ len := by
  apply Nat.eq_of_testBit_eq
  intro i
  rw [testBit_toNat, getLsbD_and, getLsbD_mask, Nat.testBit_mod_two_pow, testBit_toNat]
  by_cases bound : i < w
  · grind
  · simp [getLsbD_of_ge x i (by omega)]

/-- Shifting a field down and masking it reads the field as a number. -/
theorem toNat_shift_and_mask (x : BitVec w) (lo len : ℕ) :
    ((x >>> lo) &&& mask 0 len).toNat = x.toNat / 2 ^ lo % 2 ^ len := by
  rw [toNat_and_mask, toNat_ushiftRight, Nat.shiftRight_eq_div_pow]

/-- The same field as a word of its own. -/
theorem ushiftRight_and_mask (x : BitVec w) (lo len : ℕ) :
    (x >>> lo) &&& mask 0 len = (x.extractLsb' lo len).setWidth w := by
  apply eq_of_getLsbD_eq
  intro i bound
  simp only [getLsbD_and, getLsbD_ushiftRight, getLsbD_mask, getLsbD_setWidth, getLsbD_extractLsb']
  grind

/-- A single bit that is shifted down. -/
theorem ushiftRight_and_one (x : BitVec w) (lo : ℕ) : (x >>> lo) &&& mask 0 1 = if x.getLsbD lo then 1 else 0 := by
  apply eq_of_getLsbD_eq
  intro i bound
  simp only [getLsbD_and, getLsbD_ushiftRight, getLsbD_mask]
  rcases Nat.eq_zero_or_pos i with rfl | positive
  · cases x.getLsbD lo <;> simp [bound]
  · have far : ¬i < 1 := by omega
    cases x.getLsbD lo <;> simp [far, getLsbD_one]
    omega

/-- Clearing the low bits rounds down. -/
theorem toNat_and_not_mask (x : BitVec w) (len : ℕ) :
    (x &&& ~~~(mask 0 len)).toNat = x.toNat / 2 ^ len * 2 ^ len := by
  rw [← Nat.shiftRight_eq_div_pow, ← Nat.shiftLeft_eq]
  apply Nat.eq_of_testBit_eq
  intro i
  rw [testBit_toNat, getLsbD_and, getLsbD_not, getLsbD_mask, Nat.testBit_shiftLeft,
    Nat.testBit_shiftRight, testBit_toNat]
  by_cases bound : i < w
  · by_cases low : i < len
    · simp [low, bound]
    · simp [low, bound, Nat.add_sub_cancel' (Nat.le_of_not_lt low), Nat.le_of_not_lt low]
  · by_cases low : i < len
    · simp [low, bound]
    · simp [bound, Nat.add_sub_cancel' (Nat.le_of_not_lt low), getLsbD_of_ge x i (by omega)]

/-! ## Words as sets of bits -/

variable {x y : BitVec w}

theorem ne_zero_iff_getLsbD : x ≠ 0 ↔ ∃ i, x.getLsbD i = true := by
  constructor
  · intro ne
    by_contra none
    refine ne (eq_of_getLsbD_eq fun i _ => ?_)
    rw [show (0 : BitVec w).getLsbD i = false from getLsbD_zero]
    exact Bool.eq_false_iff.mpr fun bit => none ⟨i, bit⟩
  · rintro ⟨i, bit⟩ rfl
    cases bit.symm.trans getLsbD_zero

theorem and_ne_zero_iff : x &&& y ≠ 0 ↔ ∃ i, x.getLsbD i = true ∧ y.getLsbD i = true := by
  simp only [ne_zero_iff_getLsbD, getLsbD_and, Bool.and_eq_true]

theorem getLsbD_and_not (x y : BitVec w) (i : ℕ) :
    (x &&& ~~~y).getLsbD i = true ↔ x.getLsbD i = true ∧ y.getLsbD i = false := by
  rw [getLsbD_and, getLsbD_not, Bool.and_eq_true, Bool.and_eq_true, Bool.not_eq_true', decide_eq_true_iff]
  exact ⟨fun bits => ⟨bits.1, bits.2.2⟩, fun bits => ⟨bits.1, lt_of_getLsbD bits.1, bits.2⟩⟩

/-- The bits of `x` are among those of `y`. -/
theorem and_not_eq_zero_iff : x &&& ~~~y = 0 ↔ ∀ i, x.getLsbD i = true → y.getLsbD i = true := by
  rw [← not_iff_not, ← ne_eq, ne_zero_iff_getLsbD]
  simp only [getLsbD_and_not, not_forall, exists_prop, Bool.not_eq_true]

end BitVec
