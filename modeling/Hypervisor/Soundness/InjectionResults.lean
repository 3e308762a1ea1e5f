import Hypervisor.Soundness.LrUniqueness

/-! # What an injection answers, and what becomes of it

`inject_interrupt` and `inject_hw_interrupt` ask the hardware how many list registers there are, but read
and write only the first four: the fifth always seems free, and a write to it is lost. Callers that ignore
an error lose the interrupt even without a fifth register.
-/

namespace Hypervisor

variable {Other : Type}

/-- The list registers of the hardware: the four that the code names, and the others. -/
def hwLr (cpu : Cpu Other) (high : Fin 12 → U64) (n : Fin 16) : U64 :=
  if named : n.val < 4 then lrs cpu ⟨n, named⟩ else high ⟨n - 4, by omega⟩

/-! ## Results -/

/-- The register can take the interrupt: it is free, or has a stale entry that is removed first. -/
def CanTake (stale : Bool) (intid : U32) (lr : U64) : Prop :=
  getLrState lr = 0 ∨ stale = true ∧ isStale intid lr = true

/-- A list register that could take the interrupt now holds it, and keeps it when the vCPU is switched. -/
structure Delivered (ichVtrEl2 intid : U32) (stale : Bool) (high : Fin 12 → U64) (before after : Cpu Other)
    (n : Fin 16) : Prop where
  implemented : n.val < numListRegisters ichVtrEl2
  taken : CanTake stale intid (hwLr before high n)
  state : getLrState (hwLr after high n) = lrStatePending
  intid : getLrIntid (hwLr after high n) = intid
  saved : ∀ (arch : VcpuArchState) (cpu : Cpu Other),
    ∃ named : n.val < 4, lrs ((arch.save after).restore cpu) ⟨n, named⟩ = hwLr after high n

/-- The answer of an injection is true. -/
structure Truthful (ichVtrEl2 intid : U32) (stale : Bool) (high : Fin 12 → U64) (before : Cpu Other)
    (result : Bool × Cpu Other) : Prop where
  ok : result.1 = true → ∃ n, Delivered ichVtrEl2 intid stale high before result.2 n
  err : result.1 = false → ∀ n : Fin 16, n.val < numListRegisters ichVtrEl2 →
    getLrState (hwLr before high n) ≠ 0 ∧ getLrIntid (hwLr before high n) ≠ intid ∧
      (hwLr result.2 high n = hwLr before high n ∨ isStale intid (hwLr before high n) = true)

/-- A named register can take the interrupt, or there are no others and none has the interrupt. -/
def AnswersRight (ichVtrEl2 intid : U32) (stale : Bool) (cpu : Cpu Other) : Prop :=
  (∃ n : Fin 4, IsImplemented ichVtrEl2 n ∧ CanTake stale intid (lrs cpu n)) ∨
    numListRegisters ichVtrEl2 ≤ 4 ∧ ∀ n : Fin 4, IsImplemented ichVtrEl2 n → getLrIntid (lrs cpu n) ≠ intid

section Results

variable [DecidableEq Other] {ichVtrEl2 intid : U32} {stale : Bool} {high : Fin 12 → U64} {cpu prepared : Cpu Other}

omit [DecidableEq Other] in
theorem hwLr_congr (bank : lrs prepared = lrs cpu) (n : Fin 16) : hwLr prepared high n = hwLr cpu high n := by
  rw [hwLr, hwLr, bank]

/-- A register that can take the interrupt does not hold it pending. -/
theorem CanTake.not_pending {lr : U64} (taken : CanTake stale intid lr) : getLrState lr ≠ lrStatePending := by
  intro pending
  rcases taken with invalid | ⟨-, active⟩
  · exact getLrState_ne_zero_of_pending (.inl pending) invalid
  · exact not_isStale_of_pending (.inl pending) intid active

omit [DecidableEq Other] in
theorem hwLr_castLE (high : Fin 12 → U64) (n : Fin 4) : hwLr cpu high (n.castLE (by decide)) = lrs cpu n := dif_pos n.isLt

/-- After a write of a word with some property of valid words, a register holds such a word exactly if one was
free or held such a word before. -/
theorem exists_hwLr_writeFreeLr_iff {Q : U64 → Prop} {lr : U64} (new : Q lr) (valid : ∀ lr, Q lr → getLrState lr ≠ 0) :
    (∃ n : Fin 16, n.val < numListRegisters ichVtrEl2 ∧ Q (hwLr (writeFreeLr ichVtrEl2 lr cpu).2 high n)) ↔
      (∃ n : Fin 4, IsImplemented ichVtrEl2 n ∧ getLrState (lrs cpu n) = 0) ∨
        ∃ n : Fin 16, n.val < numListRegisters ichVtrEl2 ∧ Q (hwLr cpu high n) := by
  constructor
  · rintro ⟨n, implemented, holds⟩
    by_cases room : ∃ n : Fin 4, IsImplemented ichVtrEl2 n ∧ getLrState (lrs cpu n) = 0
    · exact .inl room
    · have unchanged := funext fun n => writeFreeLr_keeps lr fun unused => room ⟨n, unused⟩
      exact .inr ⟨n, implemented, hwLr_congr unchanged n ▸ holds⟩
  · rintro (room | ⟨n, implemented, holds⟩)
    · obtain ⟨n, implemented, -, written⟩ := exists_writeFreeLr lr room
      exact ⟨n.castLE (by decide), implemented, by rw [hwLr_castLE, written]; exact new⟩
    · refine ⟨n, implemented, ?_⟩
      rw [hwLr] at holds ⊢
      split_ifs at holds ⊢ with named
      · rw [writeFreeLr_keeps _ fun unused => valid _ holds unused.2]
        exact holds
      · exact holds

/-- Writing to registers from which stale entries were removed. -/
theorem truthful_writeFreeLr_iff {lr : U64} (state : getLrState lr = lrStatePending) (same : getLrIntid lr = intid)
    (free : ∀ n, IsImplemented ichVtrEl2 n → (getLrState (lrs prepared n) = 0 ↔ CanTake stale intid (lrs cpu n)))
    (kept : (∀ n, IsImplemented ichVtrEl2 n → ¬CanTake stale intid (lrs cpu n)) → lrs prepared = lrs cpu) :
    Truthful ichVtrEl2 intid stale high cpu (writeFreeLr ichVtrEl2 lr prepared) ↔
      AnswersRight ichVtrEl2 intid stale cpu := by
  rw [writeFreeLr_eq]
  cases found : FirstFit.firstFree (liveFree ichVtrEl2) (lrs prepared) with
  | some n =>
      obtain ⟨implemented, invalid⟩ := liveFree_eq_true.mp (FirstFit.firstFree_eq_some.mp found).1
      have taken := (free n implemented).mp invalid
      have written : hwLr (Function.update prepared (.ichLrEl2 n) lr) high (n.castLE (by decide)) = lr := by
        rw [hwLr_castLE, lrs_update, Function.update_self]
      refine iff_of_true ⟨fun _ => ⟨n.castLE (by decide), implemented, ?_, ?_, ?_, ?_⟩, ?_⟩ (.inl ⟨n, implemented, taken⟩)
      · rw [hwLr_castLE]
        exact taken
      · rw [Option.elim_some, written, state]
      · rw [Option.elim_some, written, same]
      · exact fun arch other => ⟨n.isLt, (hwLr_castLE high n).symm⟩
      · rintro ⟨⟩
  | none =>
      have occupied (n : Fin 4) (implemented : IsImplemented ichVtrEl2 n) : ¬CanTake stale intid (lrs cpu n) := by
        intro taken
        have unused := liveFree_eq_true.mpr ⟨implemented, (free n implemented).mpr taken⟩
        exact Bool.false_ne_true ((FirstFit.firstFree_eq_none.mp found n).symm.trans unused)
      have bank := kept occupied
      rw [Option.elim_none, AnswersRight, or_iff_right fun some => some.elim fun n taken => occupied n taken.1 taken.2]
      by_cases many : 4 < numListRegisters ichVtrEl2
      · refine iff_of_false (fun truthful => ?_) fun few => Nat.not_le.mpr many few.1
        obtain ⟨n, -, taken, pending, -, -⟩ := truthful.ok (decide_eq_true many)
        exact taken.not_pending (hwLr_congr bank n ▸ pending)
      · rw [and_iff_right (Nat.le_of_not_lt many)]
        have named {n : Fin 16} (implemented : n.val < numListRegisters ichVtrEl2) : n.val < 4 :=
          Nat.lt_of_lt_of_le implemented (Nat.le_of_not_lt many)
        constructor
        · intro truthful n implemented
          rw [← hwLr_castLE high n]
          exact (truthful.err (decide_eq_false many) (n.castLE (by decide)) implemented).2.1
        · intro other
          refine ⟨fun accepted => absurd (of_decide_eq_true accepted) many, fun _ n implemented => ?_⟩
          have here : hwLr cpu high n = lrs cpu ⟨n, named implemented⟩ := dif_pos (named implemented)
          rw [hwLr_congr bank, here]
          exact ⟨fun invalid => occupied ⟨n, _⟩ implemented (.inl invalid), other ⟨n, _⟩ implemented, .inl rfl⟩

/-- The answers of both injections are true exactly if a named register can take the interrupt, or there are
no other registers and none has the interrupt. -/
theorem injections_truthful_iff (ichVtrEl2 intid pintid : U32) (priority : U8) (high : Fin 12 → U64) (cpu : Cpu Other) :
    (Truthful ichVtrEl2 intid false high cpu (injectInterrupt ichVtrEl2 intid priority cpu) ↔
      AnswersRight ichVtrEl2 intid false cpu) ∧
    (Truthful ichVtrEl2 intid true high cpu (injectHwInterrupt ichVtrEl2 intid pintid priority cpu) ↔
      AnswersRight ichVtrEl2 intid true cpu) := by
  constructor
  · refine truthful_writeFreeLr_iff getLrState_buildLr getLrIntid_buildLr (fun n _ => ?_) fun _ => rfl
    rw [CanTake, or_iff_left fun stale => Bool.false_ne_true stale.1]
  · rw [injectHwInterrupt_eq]
    refine truthful_writeFreeLr_iff getLrState_buildHwLr getLrIntid_buildHwLr (fun n implemented => ?_) fun none => ?_
    · rw [getLrState_clearStale implemented, CanTake, and_iff_right rfl]
    · funext n
      rw [lrs_clearStale, if_neg fun stale => none n stale.1 (.inr ⟨rfl, stale.2⟩)]

/-- A CPU whose first four list registers hold pending SPIs. -/
def busyCpu : Cpu Empty
  | .ichLrEl2 n => buildLr (BitVec.ofNat 32 (33 + n)) irqDefaultPriority
  | _ => 0

/-- With sixteen list registers and the first four in use, the interrupt is lost, and the answer is `Ok`. -/
theorem injection_into_fifth_register :
    ¬Truthful 15 27 false (fun _ => 0) busyCpu (injectInterrupt 15 27 0xA0 busyCpu) := by
  intro truthful
  obtain ⟨n, -, taken, pending, -, -⟩ := truthful.ok (by decide)
  have unchanged : ∀ n, lrs (injectInterrupt 15 27 0xA0 busyCpu).2 n = lrs busyCpu n := by decide
  exact taken.not_pending (hwLr_congr (funext unchanged) n ▸ pending)

end Results

/-! ## The virtual timer -/

/-- The list register holds the virtual timer's interrupt, pending and linked to the physical one. -/
structure HoldsVtimer (lr : U64) : Prop where
  state : getLrState lr = lrStatePending ∨ getLrState lr = lrStatePendingActive
  intid : getLrIntid lr = vtimerIrq
  hw : lr &&& lrHwBit ≠ 0
  pintid : (lr >>> lrPintidShift) &&& lrPintidMask = vtimerIrq.setWidth 64

section Vtimer

variable [DecidableEq Other] {e : El2} {high : Fin 12 → U64} {cpu : Cpu Other}

theorem holdsVtimer_buildHwLr : HoldsVtimer (buildHwLr vtimerIrq vtimerIrq irqDefaultPriority) :=
  ⟨.inl getLrState_buildHwLr, getLrIntid_buildHwLr, by decide, by decide⟩

/-- Removing stale entries removes no pending one. -/
theorem holdsVtimer_clearStale (cpu : Cpu Other) (n : Fin 16) :
    HoldsVtimer (hwLr (clearStale e.ichVtrEl2 vtimerIrq cpu) high n) ↔ HoldsVtimer (hwLr cpu high n) := by
  rw [hwLr, hwLr]
  split_ifs with named
  · rw [lrs_clearStale]
    split_ifs with stale
    · exact iff_of_false (fun holds => getLrState_ne_zero_of_pending holds.state rfl)
        fun holds => not_isStale_of_pending holds.state _ stale.2
    · rfl
  · rfl

/-- The registers after the timer's interrupt was handled. -/
theorem cpu_handleIrqException_vtimer (cpu : Cpu Other) (e : El2) : (handleIrqException cpu vtimerIrq e).cpu =
    (injectHwInterrupt e.ichVtrEl2 vtimerIrq vtimerIrq irqDefaultPriority (maskGuestVtimer cpu)).2 := by
  rw [handleIrqException]
  dsimp only
  rw [if_neg (by decide), if_neg (by decide), if_neg (by decide), if_neg (by decide), if_pos (by decide)]
  split_ifs
  · rfl
  · rfl

/-- The timer's interrupt is in a list register, or can come again by itself. -/
def NotSwallowed (e : El2) (high : Fin 12 → U64) (after : Cpu Other) : Prop :=
  (∃ n : Fin 16, n.val < numListRegisters e.ichVtrEl2 ∧ HoldsVtimer (hwLr after high n)) ∨
    (let ctl : U64 := after .cntvCtlEl0; ctl &&& timerImask = 0) ∧ deactivates vtimerIrq = true

/-- The interrupt of the virtual timer survives exactly if a list register can take it, or has it already. -/
theorem vtimer_not_swallowed_iff (e : El2) (high : Fin 12 → U64) (cpu : Cpu Other) :
    NotSwallowed e high (handleIrqException cpu vtimerIrq e).cpu ↔
      (∃ n : Fin 4, IsImplemented e.ichVtrEl2 n ∧ CanTake true vtimerIrq (lrs cpu n)) ∨
        ∃ n : Fin 16, n.val < numListRegisters e.ichVtrEl2 ∧ HoldsVtimer (hwLr cpu high n) := by
  have lost : deactivates vtimerIrq = false := by decide
  have masked : lrs (maskGuestVtimer cpu) = lrs cpu := rfl
  have free : (∃ n : Fin 4, IsImplemented e.ichVtrEl2 n ∧
      getLrState (lrs (clearStale e.ichVtrEl2 vtimerIrq (maskGuestVtimer cpu)) n) = 0) ↔
        ∃ n : Fin 4, IsImplemented e.ichVtrEl2 n ∧ CanTake true vtimerIrq (lrs cpu n) := by
    refine exists_congr fun n => and_congr_right fun implemented => ?_
    rw [getLrState_clearStale implemented, masked, CanTake, and_iff_right rfl]
  rw [NotSwallowed, lost, or_iff_left fun again => Bool.false_ne_true again.2, cpu_handleIrqException_vtimer,
    injectHwInterrupt_eq,
    exists_hwLr_writeFreeLr_iff holdsVtimer_buildHwLr (fun _ holds => getLrState_ne_zero_of_pending holds.state), free]
  simp only [holdsVtimer_clearStale, hwLr_congr masked]

/-- The four list registers are in use, and none holds the timer's interrupt. -/
theorem vtimer_swallowed :
    let e : El2 := ⟨0, fun _ => .new, 0, 0, 0, false, 0, 3⟩
    ¬NotSwallowed e (fun _ => 0) (handleIrqException busyCpu 27 e).cpu := by
  intro e
  rintro (⟨n, implemented, holds⟩ | ⟨-, again⟩)
  · have other : ∀ n : Fin 4, getLrIntid (lrs (handleIrqException busyCpu 27 e).cpu n) ≠ 27 := by decide
    have four : numListRegisters e.ichVtrEl2 = 4 := by decide
    have named : n.val < 4 := four ▸ implemented
    have intid := holds.intid
    rw [hwLr, dif_pos named] at intid
    exact other _ intid
  · exact absurd again (by decide)

end Vtimer

end Hypervisor
