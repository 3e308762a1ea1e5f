import Hypervisor.ToMathlib.Mask

/-! # Bits that a function observes

A function of a machine word observes a set of bits if two words have the same result exactly when they
agree on it. Such a function is independent of the bits from `n` on exactly when every bit that it observes
is below `n`: for any other bit, flipping it changes the result.
-/

namespace BitVec

variable {w n : ℕ} {α β : Type*} {f : BitVec w → α} {bits : ℕ → Prop}

/-- Two words have the same result exactly if they agree on the bits. -/
def Observes (f : BitVec w → α) (bits : ℕ → Prop) : Prop :=
  ∀ x y, f x = f y ↔ ∀ i, bits i → x.getLsbD i = y.getLsbD i

theorem setWidth_eq_iff (x y : BitVec w) : x.setWidth n = y.setWidth n ↔ ∀ i < n, x.getLsbD i = y.getLsbD i := by
  constructor
  · intro same i bound
    have bit := congrArg (getLsbD · i) same
    simpa only [getLsbD_setWidth, bound, decide_true, Bool.true_and] using bit
  · intro same
    apply eq_of_getLsbD_eq
    intro i bound
    simp only [getLsbD_setWidth, bound, decide_true, Bool.true_and, same i bound]

/-- The result is that of the low bits exactly if only low bits are observed. -/
theorem Observes.forall_agree_iff (observes : Observes f bits) (x : BitVec w) :
    (∀ y : BitVec w, y.setWidth n = x.setWidth n → f y = f x) ↔ ∀ i < w, bits i → i < n := by
  constructor
  · intro independent i bound observed
    by_contra high
    have flipped : (x ^^^ twoPow w i).setWidth n = x.setWidth n := by
      refine (setWidth_eq_iff _ _).mpr fun j below => ?_
      have other : i ≠ j := by omega
      simp only [getLsbD_xor, getLsbD_twoPow, other, decide_false, Bool.and_false, Bool.xor_false]
    have bit := (observes _ _).mp (independent _ flipped) i observed
    simp only [getLsbD_xor, getLsbD_twoPow, bound, decide_true, Bool.and_true] at bit
    cases x.getLsbD i <;> simp at bit
  · intro low y same
    refine (observes y x).mpr fun i observed => ?_
    by_cases bound : i < w
    · exact (setWidth_eq_iff y x).mp same i (low i bound observed)
    · rw [getLsbD_of_ge x i (by omega), getLsbD_of_ge y i (by omega)]

/-! ## Functions of words -/

theorem Observes.comp_injective (observes : Observes f bits) {g : α → β} (injective : g.Injective) :
    Observes (fun x => g (f x)) bits := fun x y => injective.eq_iff.trans (observes x y)

theorem observes_setWidth (n : ℕ) : Observes (fun x : BitVec w => x.setWidth n) (· < n) := setWidth_eq_iff

theorem observes_and_mask {m : ℕ} (len : ℕ) (fits : len ≤ m) :
    Observes (fun x : BitVec w => (x &&& mask 0 len).setWidth m) (· < len) := by
  intro x y
  rw [setWidth_eq_iff]
  simp only [getLsbD_and, getLsbD_mask]
  constructor
  · intro same i below
    by_cases bound : i < w
    · simpa only [bound, below, Nat.zero_add, Nat.zero_le, decide_true, Bool.and_true] using same i (by omega)
    · rw [getLsbD_of_ge x i (by omega), getLsbD_of_ge y i (by omega)]
  · intro same i _
    by_cases below : i < len
    · rw [same i below]
    · simp only [Nat.zero_add, below, decide_false, Bool.and_false]

theorem observes_or (r : BitVec n) :
    Observes (fun x : BitVec w => r ||| x.setWidth n) fun i => i < n ∧ r.getLsbD i = false := by
  intro x y
  constructor
  · rintro same i ⟨below, clear⟩
    have bit := congrArg (getLsbD · i) same
    simpa only [getLsbD_or, getLsbD_setWidth, below, clear, decide_true, Bool.true_and, Bool.false_or] using bit
  · intro same
    apply eq_of_getLsbD_eq
    intro i below
    simp only [getLsbD_or, getLsbD_setWidth]
    cases clear : r.getLsbD i with
    | true => rfl
    | false => rw [same i ⟨below, clear⟩]

theorem observes_and_not (r : BitVec n) :
    Observes (fun x : BitVec w => r &&& ~~~(x.setWidth n)) fun i => r.getLsbD i = true := by
  intro x y
  constructor
  · intro same i set
    have bit := congrArg (getLsbD · i) same
    have below : i < n := lt_of_getLsbD set
    simpa only [getLsbD_and, getLsbD_not, getLsbD_setWidth, below, set, decide_true, Bool.true_and,
      Bool.not_inj_iff] using bit
  · intro same
    apply eq_of_getLsbD_eq
    intro i below
    simp only [getLsbD_and, getLsbD_not, getLsbD_setWidth]
    cases set : r.getLsbD i with
    | false => rfl
    | true => rw [same i set]

end BitVec
