import Hypervisor.FirstFit.Basic
import Hypervisor.Model.ListRegisters
import Hypervisor.ToMathlib.Mask

/-! # List registers

The fields of the words that are written to list registers, and what an injection does to the bank of
four that the code names. All proofs about injections rest on `writeFreeLr_eq`.
-/

namespace Hypervisor

/-! ## The words -/

section Words

variable {intid pintid : U32} {priority : U8} {k : ℕ}

theorem getLsbD_getLrState (lr : U64) (k : ℕ) : (getLrState lr).getLsbD k = (decide (k < 2) && lr.getLsbD (62 + k)) := by
  have field : lrStateMask = BitVec.mask 0 2 := by decide
  rw [getLrState, lrStateShift, field, BitVec.getLsbD_and, BitVec.getLsbD_ushiftRight, BitVec.getLsbD_mask]
  grind

theorem getLsbD_getLrIntid (lr : U64) (k : ℕ) : (getLrIntid lr).getLsbD k = (decide (k < 32) && lr.getLsbD k) := by
  have field : lrVintidMask = BitVec.mask 0 32 := by decide
  rw [getLrIntid, field, BitVec.getLsbD_setWidth, BitVec.getLsbD_and, BitVec.getLsbD_mask]
  grind

theorem getLsbD_buildLr (bound : k < 64) : (buildLr intid priority).getLsbD k =
    (decide (k = 62) || decide (k = 60) || (decide (48 ≤ k) && priority.getLsbD (k - 48)) || intid.getLsbD k) := by
  have state : lrStatePending <<< lrStateShift = BitVec.mask 62 1 := by decide
  have group : lrGroup1Bit = BitVec.mask 60 1 := by decide
  rw [buildLr, state, group, lrPriorityShift]
  simp only [BitVec.getLsbD_or, BitVec.getLsbD_mask, BitVec.getLsbD_shiftLeft, BitVec.getLsbD_setWidth]
  grind

theorem getLsbD_buildHwLr (bound : k < 64) : (buildHwLr intid pintid priority).getLsbD k =
    (decide (k = 61) || (decide (32 ≤ k ∧ k < 42) && pintid.getLsbD (k - 32)) || (buildLr intid priority).getLsbD k) := by
  have hw : lrHwBit = BitVec.mask 61 1 := by decide
  have field : lrPintidMask = BitVec.mask 0 10 := by decide
  rw [buildHwLr, buildLr, hw, field, lrPintidShift]
  simp only [BitVec.getLsbD_or, BitVec.getLsbD_mask, BitVec.getLsbD_shiftLeft, BitVec.getLsbD_setWidth,
    BitVec.getLsbD_and]
  grind

@[simp] theorem getLrState_buildLr : getLrState (buildLr intid priority) = lrStatePending := by
  have state : lrStatePending = BitVec.mask 0 1 := by decide
  apply BitVec.eq_of_getLsbD_eq
  intro k bound
  rw [getLsbD_getLrState, state, BitVec.getLsbD_mask]
  by_cases low : k < 2
  · have above : priority.getLsbD (62 + k - 48) = false := BitVec.getLsbD_of_ge _ _ (by omega)
    have outside : intid.getLsbD (62 + k) = false := BitVec.getLsbD_of_ge _ _ (by omega)
    rw [getLsbD_buildLr (by omega), above, outside]
    grind
  · grind

@[simp] theorem getLrState_buildHwLr : getLrState (buildHwLr intid pintid priority) = lrStatePending := by
  refine Eq.trans (b := getLrState (buildLr intid priority)) ?_ getLrState_buildLr
  apply BitVec.eq_of_getLsbD_eq
  intro k bound
  rw [getLsbD_getLrState, getLsbD_getLrState]
  by_cases low : k < 2
  · rw [getLsbD_buildHwLr (by omega)]
    grind
  · grind

@[simp] theorem getLrIntid_buildLr : getLrIntid (buildLr intid priority) = intid := by
  apply BitVec.eq_of_getLsbD_eq
  intro k bound
  rw [getLsbD_getLrIntid, getLsbD_buildLr (by omega)]
  grind

@[simp] theorem getLrIntid_buildHwLr : getLrIntid (buildHwLr intid pintid priority) = intid := by
  refine Eq.trans (b := getLrIntid (buildLr intid priority)) ?_ getLrIntid_buildLr
  apply BitVec.eq_of_getLsbD_eq
  intro k bound
  rw [getLsbD_getLrIntid, getLsbD_getLrIntid, getLsbD_buildHwLr (by omega)]
  grind

end Words

/-! ## The bank of a CPU -/

section Live

variable {Other : Type} {cpu : Cpu Other} {ichVtrEl2 : U32}

/-- The list registers that the code names. -/
def lrs (cpu : Cpu Other) : Fin 4 → U64 := fun n => cpu (.ichLrEl2 n)

/-- No interrupt is in the list register. -/
def isFreeLr (lr : U64) : Bool := getLrState lr = 0

/-- The register is one of those that `ICH_VTR_EL2` reports. -/
def IsImplemented (ichVtrEl2 : U32) (n : Fin 4) : Prop := n.val < numListRegisters ichVtrEl2

instance (ichVtrEl2 : U32) : DecidablePred (IsImplemented ichVtrEl2) := fun _ => inferInstanceAs (Decidable (_ < _))

/-- The register is free for an injection into saved registers. -/
def savedFree (_ : Fin 4) (lr : U64) : Bool := isFreeLr lr

/-- The register is free for an injection into live registers. -/
def liveFree (ichVtrEl2 : U32) (n : Fin 4) (lr : U64) : Bool := decide (IsImplemented ichVtrEl2 n) && isFreeLr lr

theorem liveFree_eq_true {n : Fin 4} {lr : U64} :
    liveFree ichVtrEl2 n lr = true ↔ IsImplemented ichVtrEl2 n ∧ getLrState lr = 0 := by
  rw [liveFree, Bool.and_eq_true, decide_eq_true_iff, isFreeLr, decide_eq_true_iff]

theorem readLr_val (cpu : Cpu Other) (n : Fin 4) : readLr cpu n = lrs cpu n := dif_pos n.isLt

theorem readLr_of_le {n : ℕ} (beyond : 4 ≤ n) : readLr cpu n = 0 := dif_neg (Nat.not_lt.mpr beyond)

variable [DecidableEq Other]

@[simp] theorem lrs_update (cpu : Cpu Other) (n : Fin 4) (lr : U64) :
    lrs (Function.update cpu (.ichLrEl2 n) lr) = Function.update (lrs cpu) n lr := by
  funext m
  by_cases same : m = n
  · rw [same, Function.update_self]
    exact Function.update_self ..
  · rw [Function.update_of_ne same]
    exact Function.update_of_ne (fun eq => same (Reg.ichLrEl2.inj eq)) _ _

theorem lrs_writeLr (cpu : Cpu Other) (k : ℕ) (lr : U64) (n : Fin 4) :
    lrs (writeLr cpu k lr) n = if n.val = k then lr else lrs cpu n := by
  rw [writeLr]
  split_ifs with named same same
  · rw [lrs_update, show n = ⟨k, named⟩ from Fin.ext same, Function.update_self]
  · rw [lrs_update, Function.update_of_ne fun eq => same (Fin.ext_iff.mp eq)]
  · exact absurd (same ▸ n.isLt) named
  · rfl

/-- Where an interrupt is written: the first of the implemented registers that is free. With more than
four registers and none of the four free, the code believes it has written the fifth. -/
theorem writeFreeLr_eq (ichVtrEl2 : U32) (lr : U64) (cpu : Cpu Other) : writeFreeLr ichVtrEl2 lr cpu =
    (FirstFit.firstFree (liveFree ichVtrEl2) (lrs cpu)).elim (decide (4 < numListRegisters ichVtrEl2), cpu)
      fun n => (true, Function.update cpu (.ichLrEl2 n) lr) := by
  have beyond : getLrState (readLr cpu 4) = 0 := by rw [readLr_of_le Nat.le.refl]; rfl
  have busy_of_ne {n : Fin 4} (busy : getLrState (readLr cpu n) ≠ 0) : liveFree ichVtrEl2 n (lrs cpu n) = false := by
    rw [readLr_val] at busy
    exact Bool.eq_false_iff.mpr fun free => busy (liveFree_eq_true.mp free).2
  cases found : findFreeLr ichVtrEl2 cpu with
  | none =>
      have busy (i : ℕ) (implemented : i < numListRegisters ichVtrEl2) : getLrState (readLr cpu i) ≠ 0 := by
        simpa using List.find?_range_eq_none.mp found i implemented
      have few : ¬4 < numListRegisters ichVtrEl2 := fun many => busy 4 many beyond
      have none : FirstFit.firstFree (liveFree ichVtrEl2) (lrs cpu) = none := by
        refine FirstFit.firstFree_eq_none.mpr fun n => Bool.eq_false_iff.mpr fun free => ?_
        obtain ⟨implemented, invalid⟩ := liveFree_eq_true.mp free
        exact busy n implemented (readLr_val cpu n ▸ invalid)
      rw [writeFreeLr, found, none, decide_eq_false few]
      rfl
  | some i =>
      obtain ⟨free, implemented, first⟩ := List.find?_range_eq_some.mp found
      rw [List.mem_range] at implemented
      have busy (j : ℕ) (before : j < i) : getLrState (readLr cpu j) ≠ 0 := by simpa using first j before
      by_cases named : i < 4
      · have here : FirstFit.firstFree (liveFree ichVtrEl2) (lrs cpu) = some ⟨i, named⟩ := by
          refine FirstFit.firstFree_eq_some.mpr ⟨liveFree_eq_true.mpr ⟨implemented, ?_⟩, ?_⟩
          · rw [← readLr_val]
            exact of_decide_eq_true free
          · exact fun m before => busy_of_ne (busy m before)
        simp only [writeFreeLr, found, here, writeLr, dif_pos named, Option.elim_some]
      · have last : i = 4 := by
          by_contra other
          exact busy 4 (by omega) beyond
        have none : FirstFit.firstFree (liveFree ichVtrEl2) (lrs cpu) = none :=
          FirstFit.firstFree_eq_none.mpr fun n => busy_of_ne (busy n (by omega))
        rw [none, Option.elim_none, decide_eq_true (last ▸ implemented)]
        simp only [writeFreeLr, found, writeLr, dif_neg named]

/-- Writing one interrupt is filling the bank with it. -/
theorem lrs_writeFreeLr (ichVtrEl2 : U32) (lr : U64) (cpu : Cpu Other) :
    lrs (writeFreeLr ichVtrEl2 lr cpu).2 = (FirstFit.fill (liveFree ichVtrEl2) (fun _ : Unit => lr) [()] (lrs cpu)).1 := by
  rw [writeFreeLr_eq, FirstFit.fill]
  cases FirstFit.firstFree (liveFree ichVtrEl2) (lrs cpu) with
  | some n => exact lrs_update cpu n lr
  | none => rfl

/-- A free register gets the interrupt. -/
theorem exists_writeFreeLr (lr : U64) (free : ∃ n, IsImplemented ichVtrEl2 n ∧ getLrState (lrs cpu n) = 0) :
    ∃ n, IsImplemented ichVtrEl2 n ∧ getLrState (lrs cpu n) = 0 ∧ lrs (writeFreeLr ichVtrEl2 lr cpu).2 n = lr := by
  rw [writeFreeLr_eq]
  cases found : FirstFit.firstFree (liveFree ichVtrEl2) (lrs cpu) with
  | some n =>
      obtain ⟨implemented, invalid⟩ := liveFree_eq_true.mp (FirstFit.firstFree_eq_some.mp found).1
      exact ⟨n, implemented, invalid, by rw [Option.elim_some, lrs_update, Function.update_self]⟩
  | none =>
      obtain ⟨n, unused⟩ := free
      exact absurd (liveFree_eq_true.mpr unused) (Bool.eq_false_iff.mp (FirstFit.firstFree_eq_none.mp found n))

/-- The other registers keep what they have. -/
theorem writeFreeLr_keeps (lr : U64) {n : Fin 4} (used : ¬(IsImplemented ichVtrEl2 n ∧ getLrState (lrs cpu n) = 0)) :
    lrs (writeFreeLr ichVtrEl2 lr cpu).2 n = lrs cpu n := by
  rw [writeFreeLr_eq]
  cases found : FirstFit.firstFree (liveFree ichVtrEl2) (lrs cpu) with
  | some m =>
      have other : n ≠ m := by
        rintro rfl
        exact used (liveFree_eq_true.mp (FirstFit.firstFree_eq_some.mp found).1)
      rw [Option.elim_some, lrs_update, Function.update_of_ne other]
  | none => rfl

/-- The entry is one that the guest has acknowledged and not ended. -/
def isStale (intid : U32) (lr : U64) : Bool := decide (getLrIntid lr = intid ∧ getLrState lr = lrStateActive)

section Pending

variable {lr : U64} (pending : getLrState lr = lrStatePending ∨ getLrState lr = lrStatePendingActive)

include pending

theorem getLrState_ne_zero_of_pending : getLrState lr ≠ 0 := by
  intro invalid
  rcases pending with state | state <;> rw [invalid] at state <;> cases state

theorem not_isStale_of_pending (intid : U32) : isStale intid lr ≠ true := by
  intro stale
  have active := (of_decide_eq_true stale).2
  rcases pending with state | state <;> rw [active] at state <;> cases state

end Pending

/-- The first loop of `inject_hw_interrupt`. -/
def clearStale (ichVtrEl2 intid : U32) (cpu : Cpu Other) : Cpu Other :=
  (List.range (numListRegisters ichVtrEl2)).foldl (fun cpu n =>
    let lr := readLr cpu n
    if getLrIntid lr = intid ∧ getLrState lr = lrStateActive then writeLr cpu n 0 else cpu) cpu

theorem injectHwInterrupt_eq (ichVtrEl2 intid pintid : U32) (priority : U8) (cpu : Cpu Other) :
    injectHwInterrupt ichVtrEl2 intid pintid priority cpu =
      writeFreeLr ichVtrEl2 (buildHwLr intid pintid priority) (clearStale ichVtrEl2 intid cpu) := rfl

/-- The loop up to the register `k`. -/
theorem clearStale_loop (intid : U32) (cpu : Cpu Other) (k : ℕ) :
    let after := (List.range k).foldl (fun cpu n =>
      let lr := readLr cpu n
      if getLrIntid lr = intid ∧ getLrState lr = lrStateActive then writeLr cpu n 0 else cpu) cpu
    ∀ n : Fin 4, lrs after n = if n.val < k ∧ isStale intid (lrs cpu n) = true then 0 else lrs cpu n := by
  induction k with
  | zero => exact fun n => (if_neg fun low => Nat.not_lt_zero _ low.1).symm
  | succ k ih =>
      rw [List.range_succ, List.foldl_append, List.foldl_cons, List.foldl_nil]
      generalize (List.range k).foldl _ cpu = before at ih ⊢
      dsimp only
      intro n
      by_cases here : n.val = k
      · have same : lrs before n = lrs cpu n := by rw [ih, if_neg fun low => Nat.ne_of_lt low.1 here]
        rw [← here, readLr_val, same]
        split_ifs with stale cleared cleared
        · rw [lrs_writeLr, if_pos rfl]
        · exact absurd ⟨Nat.lt_succ_self _, decide_eq_true stale⟩ cleared
        · exact absurd (of_decide_eq_true cleared.2) stale
        · exact same
      · have low : n.val < k + 1 ↔ n.val < k := by omega
        simp only [low]
        rw [← ih n]
        split_ifs
        · rw [lrs_writeLr, if_neg here]
        · rfl

/-- The stale entries of the interrupt become invalid. -/
theorem lrs_clearStale (ichVtrEl2 intid : U32) (cpu : Cpu Other) (n : Fin 4) : lrs (clearStale ichVtrEl2 intid cpu) n =
    if IsImplemented ichVtrEl2 n ∧ isStale intid (lrs cpu n) = true then 0 else lrs cpu n :=
  clearStale_loop intid cpu _ n

theorem getLrState_clearStale {n : Fin 4} (implemented : IsImplemented ichVtrEl2 n) (intid : U32) :
    getLrState (lrs (clearStale ichVtrEl2 intid cpu) n) = 0 ↔
      getLrState (lrs cpu n) = 0 ∨ isStale intid (lrs cpu n) = true := by
  rw [lrs_clearStale]
  split_ifs with stale
  · exact iff_of_true rfl (.inr stale.2)
  · exact (or_iff_left fun active => stale ⟨implemented, active⟩).symm

/-- With four registers, all of them are used. -/
theorem liveFree_of_four (four : numListRegisters ichVtrEl2 = 4) : liveFree ichVtrEl2 = savedFree := by
  funext n lr
  have implemented : IsImplemented ichVtrEl2 n := Nat.lt_of_lt_of_eq n.isLt four.symm
  rw [liveFree, decide_eq_true implemented, Bool.true_and]
  rfl

end Live

/-! ## Pending masks -/

/-- The word for bit `bit` of a pending mask whose lowest bit is the INTID `base`. -/
def pendingLr (base bit : ℕ) : U64 := buildLr (BitVec.ofNat 32 (base + bit)) irqDefaultPriority

/-- The mask with some bits. -/
def maskOf (bits : List ℕ) : U32 := bits.foldr (fun bit mask => ((1 : U32) <<< bit) ||| mask) 0

theorem getLsbD_one_shiftLeft (bit i : ℕ) : ((1 : U32) <<< bit).getLsbD i = (decide (i < 32) && decide (i = bit)) := by
  have one : (1 : U32) = BitVec.mask 0 1 := by decide
  rw [one, BitVec.getLsbD_shiftLeft, BitVec.getLsbD_mask]
  grind

theorem getLsbD_maskOf (bits : List ℕ) (i : ℕ) :
    (maskOf bits).getLsbD i = true ↔ i < 32 ∧ i ∈ bits := by
  induction bits with
  | nil => simp [maskOf]
  | cons bit bits ih =>
      rw [maskOf, List.foldr_cons, ← maskOf, BitVec.getLsbD_or, Bool.or_eq_true, ih, getLsbD_one_shiftLeft, List.mem_cons]
      grind

/-- A bit of a mask is tested with a shifted one. -/
theorem and_one_shiftLeft_ne_zero_iff (all : U32) (bit : ℕ) : all &&& ((1 : U32) <<< bit) ≠ 0 ↔ all.getLsbD bit = true := by
  rw [BitVec.and_ne_zero_iff]
  constructor
  · rintro ⟨i, set, here⟩
    rw [getLsbD_one_shiftLeft, Bool.and_eq_true, decide_eq_true_iff, decide_eq_true_iff] at here
    exact here.2 ▸ set
  · intro set
    refine ⟨bit, set, ?_⟩
    rw [getLsbD_one_shiftLeft, decide_eq_true (BitVec.lt_of_getLsbD set), decide_eq_true rfl]
    rfl

/-- Injecting a mask is filling the bank with its interrupts, lowest first. -/
theorem injectPending_eq (base : ℕ) (all : U32) (bits : List ℕ) (ichLr : Fin 4 → U64) :
    injectPending base all bits ichLr =
      ((FirstFit.fill savedFree (pendingLr base) (bits.filter fun bit => all.getLsbD bit) ichLr).1,
        maskOf (FirstFit.fill savedFree (pendingLr base) (bits.filter fun bit => all.getLsbD bit) ichLr).2) := by
  induction bits generalizing ichLr with
  | nil => rfl
  | cons bit bits ih =>
      rw [injectPending]
      by_cases set : all.getLsbD bit = true
      · rw [if_neg ((and_one_shiftLeft_ne_zero_iff all bit).mpr set), List.filter_cons_of_pos set, FirstFit.fill,
          show freeSaved ichLr = FirstFit.firstFree savedFree ichLr from rfl]
        cases FirstFit.firstFree savedFree ichLr with
        | some n => exact ih _
        | none =>
            dsimp only
            rw [ih]
            rfl
      · rw [if_pos (not_not.mp (mt (and_one_shiftLeft_ne_zero_iff all bit).mp set)), List.filter_cons_of_neg set, ih]

end Hypervisor
