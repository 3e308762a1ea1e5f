import Hypervisor.Soundness.Injection
import Hypervisor.ToMathlib.Prefix

/-! # One list register per interrupt

The architecture forbids two valid list registers with the same virtual INTID. Only `inject_hw_interrupt`
looks for an entry of the interrupt that it injects, and only for one that is active and no longer pending.
So the registers stay unique exactly in the runs that inject no interrupt which is still in a register.
-/

namespace Hypervisor

variable {Other : Type} [DecidableEq Other]

/-! ## Runs -/

/-- The word with another state. -/
def setLrState (lr state : U64) : U64 :=
  (lr &&& ~~~(lrStateMask <<< lrStateShift)) ||| (state <<< lrStateShift)

/-- What happens to the list registers of a vCPU. -/
inductive LrOp where
  | inject (intid : U32) (priority : U8)
  | injectHw (intid pintid : U32) (priority : U8)
  /-- `inject_pending_sgis` or `inject_pending_spis` with this mask, between an exit and an entry. -/
  | entry (kind : PendingKind) (mask : U32)
  /-- `flush_pending_spis_to_hardware` with this mask. -/
  | flush (mask : U32)
  /-- The guest acknowledges a pending interrupt. -/
  | ack (n : Fin 4)
  /-- The guest ends an active interrupt. -/
  | eoi (n : Fin 4)
deriving DecidableEq, Repr

namespace LrOp

/-- Save the registers, change the list registers there, and restore them. -/
def onSaved (f : (Fin 4 → U64) → Fin 4 → U64) (cpu : Cpu Other) : Cpu Other :=
  let saved := (default : VcpuArchState).save cpu
  { saved with ichLr := f saved.ichLr }.restore cpu

def step (e : El2) (cpu : Cpu Other) : LrOp → Cpu Other
  | inject intid priority => (injectInterrupt e.ichVtrEl2 intid priority cpu).2
  | injectHw intid pintid priority => (injectHwInterrupt e.ichVtrEl2 intid pintid priority cpu).2
  | entry kind mask => onSaved (fun ichLr => (injectPending kind.base mask (List.range kind.count) ichLr).1) cpu
  | flush mask => (flushPendingSpis cpu (e.setCurrent { e.currentVmState with pendingSpis := fun _ => mask })).1
  | ack n =>
      if getLrState (lrs cpu n) = lrStatePending then
        Function.update cpu (.ichLrEl2 n) (setLrState (lrs cpu n) lrStateActive)
      else cpu
  | eoi n =>
      if getLrState (lrs cpu n) = lrStateActive then Function.update cpu (.ichLrEl2 n) (setLrState (lrs cpu n) 0)
      else cpu

def run (e : El2) (cpu : Cpu Other) (ops : List LrOp) : Cpu Other := ops.foldl (step e) cpu

end LrOp

/-- Every INTID is in at most one valid list register. -/
def UniqueLrs (bank : Fin 4 → U64) : Prop := FirstFit.Unique (fun lr => getLrState lr ≠ 0) getLrIntid bank

/-- Some valid list register holds the interrupt. -/
def InUse (bank : Fin 4 → U64) (intid : U32) : Prop := ∃ n, getLrState (bank n) ≠ 0 ∧ getLrIntid (bank n) = intid

/-- What the operation injects is not in use. Interrupts for which no register is free do not count, and a
hardware interrupt may be in one that the guest has acknowledged. -/
def LrOp.Fresh (e : El2) (cpu : Cpu Other) : LrOp → Prop
  | inject intid _ => (∃ n, IsImplemented e.ichVtrEl2 n ∧ getLrState (lrs cpu n) = 0) → ¬InUse (lrs cpu) intid
  | injectHw intid _ _ =>
      (∃ n, IsImplemented e.ichVtrEl2 n ∧ (getLrState (lrs cpu n) = 0 ∨ isStale intid (lrs cpu n) = true)) →
        ∀ n, getLrState (lrs cpu n) ≠ 0 → getLrIntid (lrs cpu n) = intid →
          IsImplemented e.ichVtrEl2 n ∧ getLrState (lrs cpu n) = lrStateActive
  | entry kind mask =>
      ∀ bit ∈ ((List.range kind.count).filter fun bit => mask.getLsbD bit).take
        (FirstFit.freeSlots savedFree (lrs cpu)).length, ¬InUse (lrs cpu) (BitVec.ofNat 32 (kind.base + bit))
  | flush mask =>
      ∀ bit ∈ (pendingBits mask).take (FirstFit.freeSlots (liveFree e.ichVtrEl2) (lrs cpu)).length,
        ¬InUse (lrs cpu) (BitVec.ofNat 32 (32 + bit))
  | ack _ => True
  | eoi _ => True

/-! ## One step -/

section Step

variable {A : Type} {e : El2} {cpu : Cpu Other} {bank : Fin 4 → U64}

/-- Filling keeps the registers unique exactly if no interrupt that finds a register is in use. -/
theorem uniqueLrs_fill {free : Fin 4 → U64 → Bool} {make : A → U64} {items : List A} (unique : UniqueLrs bank)
    (invalid : ∀ n lr, free n lr = true → getLrState lr = 0) (valid : ∀ item, getLrState (make item) ≠ 0)
    (distinct : (items.map fun item => getLrIntid (make item)).Nodup) :
    UniqueLrs (FirstFit.fill free make items bank).1 ↔ ∀ item ∈ items.take (FirstFit.freeSlots free bank).length,
      ¬InUse bank (getLrIntid (make item)) := by
  have busy (n : Fin 4) (item : A) : free n (make item) = false :=
    Bool.eq_false_iff.mpr fun unused => valid item (invalid n _ unused)
  obtain ⟨filled, -⟩ := FirstFit.filled_fill busy items bank
  have kept := filled.unique_iff unique (fun n lr unused => not_not.mpr (invalid n lr unused)) valid distinct
  simp only [InUse, not_exists, not_and]
  exact kept

theorem getLrState_of_liveFree {n : Fin 4} {lr : U64} (free : liveFree e.ichVtrEl2 n lr = true) : getLrState lr = 0 :=
  (liveFree_eq_true.mp free).2

/-- One interrupt that is written to the first free register. -/
theorem uniqueLrs_writeFreeLr {lr : U64} (unique : UniqueLrs (lrs cpu)) (valid : getLrState lr ≠ 0) :
    UniqueLrs (lrs (writeFreeLr e.ichVtrEl2 lr cpu).2) ↔
      ((∃ n, IsImplemented e.ichVtrEl2 n ∧ getLrState (lrs cpu n) = 0) → ¬InUse (lrs cpu) (getLrIntid lr)) := by
  have one : ([()].map fun _ => getLrIntid lr).Nodup := List.nodup_singleton _
  rw [lrs_writeFreeLr, uniqueLrs_fill unique (fun _ _ => getLrState_of_liveFree) (fun _ => valid) one]
  have room : (∃ n, IsImplemented e.ichVtrEl2 n ∧ getLrState (lrs cpu n) = 0) ↔
      FirstFit.freeSlots (liveFree e.ichVtrEl2) (lrs cpu) ≠ [] := by
    rw [Ne, List.eq_nil_iff_forall_not_mem]
    simp only [FirstFit.mem_freeSlots, liveFree_eq_true, not_forall, not_not]
  rw [room]
  cases FirstFit.freeSlots (liveFree e.ichVtrEl2) (lrs cpu) with
  | nil => simp
  | cons first rest => simp

theorem getLrIntid_setLrState (lr state : U64) : getLrIntid (setLrState lr state) = getLrIntid lr := by
  have field : lrStateMask <<< lrStateShift = BitVec.mask 62 2 := by decide
  apply BitVec.eq_of_getLsbD_eq
  intro k bound
  rw [getLsbD_getLrIntid, getLsbD_getLrIntid, setLrState, field, lrStateShift]
  simp only [BitVec.getLsbD_or, BitVec.getLsbD_and, BitVec.getLsbD_not, BitVec.getLsbD_mask, BitVec.getLsbD_shiftLeft]
  grind

/-- The guest changes the state of a register that is in use. -/
theorem uniqueLrs_setLrState (unique : UniqueLrs bank) {n : Fin 4} (valid : getLrState (bank n) ≠ 0) (state : U64) :
    UniqueLrs (Function.update bank n (setLrState (bank n) state)) := by
  refine unique.of_used fun m use => ?_
  by_cases same : m = n
  · rw [same, Function.update_self, getLrIntid_setLrState]
    exact ⟨valid, rfl⟩
  · rw [Function.update_of_ne same] at use ⊢
    exact ⟨use, rfl⟩

/-- The registers without the stale entries of an interrupt. -/
theorem uniqueLrs_clearStale (unique : UniqueLrs (lrs cpu)) (intid : U32) :
    UniqueLrs (lrs (clearStale e.ichVtrEl2 intid cpu)) := by
  refine unique.of_used fun n use => ?_
  rw [lrs_clearStale] at use ⊢
  split_ifs at use ⊢ with stale
  · exact absurd rfl use
  · exact ⟨use, rfl⟩

/-- The interrupt is in use without its stale entries only where the guest has not acknowledged it. -/
theorem inUse_clearStale (intid : U32) : InUse (lrs (clearStale e.ichVtrEl2 intid cpu)) intid ↔
    ∃ n, getLrState (lrs cpu n) ≠ 0 ∧ getLrIntid (lrs cpu n) = intid ∧
      ¬(IsImplemented e.ichVtrEl2 n ∧ getLrState (lrs cpu n) = lrStateActive) := by
  refine exists_congr fun n => ?_
  rw [lrs_clearStale]
  split_ifs with stale
  · refine iff_of_false (fun use => use.1 rfl) fun use => use.2.2 ⟨stale.1, ?_⟩
    exact (of_decide_eq_true stale.2).2
  · refine and_congr_right fun _ => (and_iff_left_of_imp fun same active => stale ⟨active.1, ?_⟩).symm
    exact decide_eq_true ⟨same, active.2⟩

theorem getLrIntid_pendingLr (base bit : ℕ) : getLrIntid (pendingLr base bit) = BitVec.ofNat 32 (base + bit) :=
  getLrIntid_buildLr

/-- Different bits of a mask are different interrupts. -/
theorem nodup_intids {base count : ℕ} (few : count ≤ 32) (mask : U32) :
    (((List.range count).filter fun bit => mask.getLsbD bit).map fun bit => getLrIntid (pendingLr base bit)).Nodup := by
  refine List.Nodup.map_on ?_ (List.nodup_range.filter _)
  intro bit member bit' member' same
  have bound := List.mem_range.mp (List.mem_filter.mp member).1
  have bound' := List.mem_range.mp (List.mem_filter.mp member').1
  rw [getLrIntid_pendingLr, getLrIntid_pendingLr, ← BitVec.toNat_inj, BitVec.toNat_ofNat, BitVec.toNat_ofNat] at same
  omega

/-- The interrupts of a mask that are written to the free registers. -/
theorem uniqueLrs_fill_mask {free : Fin 4 → U64 → Bool} (unique : UniqueLrs bank)
    (invalid : ∀ n lr, free n lr = true → getLrState lr = 0) {base count : ℕ} (few : count ≤ 32) (mask : U32) :
    UniqueLrs (FirstFit.fill free (pendingLr base) ((List.range count).filter fun bit => mask.getLsbD bit) bank).1 ↔
      ∀ bit ∈ ((List.range count).filter fun bit => mask.getLsbD bit).take (FirstFit.freeSlots free bank).length,
        ¬InUse bank (BitVec.ofNat 32 (base + bit)) := by
  have valid (bit : ℕ) : getLrState (pendingLr base bit) ≠ 0 := by
    rw [pendingLr, getLrState_buildLr]
    decide
  rw [uniqueLrs_fill unique invalid valid (nodup_intids few mask)]
  simp only [getLrIntid_pendingLr]

/-- A step keeps the registers unique exactly if what it injects is not in use. -/
theorem uniqueLrs_step_iff (unique : UniqueLrs (lrs cpu)) (op : LrOp) :
    UniqueLrs (lrs (op.step e cpu)) ↔ op.Fresh e cpu := by
  cases op with
  | inject intid priority =>
      rw [LrOp.step, injectInterrupt, uniqueLrs_writeFreeLr unique (by rw [getLrState_buildLr]; decide), getLrIntid_buildLr]
      rfl
  | injectHw intid pintid priority =>
      rw [LrOp.step, injectHwInterrupt_eq, uniqueLrs_writeFreeLr (uniqueLrs_clearStale unique intid)
        (by rw [getLrState_buildHwLr]; decide), getLrIntid_buildHwLr, inUse_clearStale, LrOp.Fresh]
      refine imp_congr (exists_congr fun n => and_congr_right fun implemented => ?_) ?_
      · exact getLrState_clearStale implemented intid
      · rw [not_exists]
        exact forall_congr' fun n => by rw [not_and, not_and_not_right]
  | entry kind mask =>
      have few : kind.count ≤ 32 := by cases kind <;> decide
      have saved : lrs ((LrOp.entry kind mask).step e cpu) =
          (injectPending kind.base mask (List.range kind.count) (lrs cpu)).1 := rfl
      rw [saved, injectPending_eq]
      exact uniqueLrs_fill_mask unique (fun _ _ free => of_decide_eq_true free) few mask
  | flush mask =>
      rw [LrOp.step, flushPendingSpis_eq, El2.currentVmState_setCurrent]
      dsimp only
      rw [(foldl_flushBit _ mask (List.range 32) cpu 0).1]
      exact uniqueLrs_fill_mask unique (fun _ _ => getLrState_of_liveFree) (by decide) mask
  | ack n =>
      rw [LrOp.step]
      split_ifs with pending
      · rw [lrs_update]
        exact iff_of_true (uniqueLrs_setLrState unique (by rw [pending]; decide) _) trivial
      · exact iff_of_true unique trivial
  | eoi n =>
      rw [LrOp.step]
      split_ifs with active
      · rw [lrs_update]
        exact iff_of_true (uniqueLrs_setLrState unique (by rw [active]; decide) _) trivial
      · exact iff_of_true unique trivial

end Step

/-! ## Whole runs -/

theorem LrOp.run_cons (e : El2) (cpu : Cpu Other) (op : LrOp) (ops : List LrOp) :
    LrOp.run e cpu (op :: ops) = LrOp.run e (op.step e cpu) ops := rfl

/-- From a state with unique registers: they stay unique exactly in the runs whose steps inject nothing that
is in use. -/
theorem uniqueLrs_run_iff {e : El2} {cpu : Cpu Other} (unique : UniqueLrs (lrs cpu)) (ops : List LrOp) :
    (∀ k ≤ ops.length, UniqueLrs (lrs (LrOp.run e cpu (ops.take k)))) ↔
      ∀ (k : ℕ) (op : LrOp), ops[k]? = some op → op.Fresh e (LrOp.run e cpu (ops.take k)) := by
  refine List.forall_take_iff (P := fun past => UniqueLrs (lrs (LrOp.run e cpu past)))
    (C := fun past op => op.Fresh e (LrOp.run e cpu past)) unique ?_ ops
  intro past op here
  rw [LrOp.run, List.foldl_append]
  exact uniqueLrs_step_iff here op

/-- Runs that start with all list registers invalid. -/
theorem unique_list_registers_iff (e : El2) (cpu : Cpu Other) (invalid : ∀ n, getLrState (lrs cpu n) = 0)
    (ops : List LrOp) :
    (∀ k ≤ ops.length, UniqueLrs (lrs (LrOp.run e cpu (ops.take k)))) ↔
      ∀ (k : ℕ) (op : LrOp), ops[k]? = some op → op.Fresh e (LrOp.run e cpu (ops.take k)) := by
  refine uniqueLrs_run_iff ?_ ops
  intro n m use
  exact absurd (invalid n) use

/-- The timer's interrupt is injected, acknowledged, and injected again in place of the stale entry. -/
theorem unique_after_acknowledge : UniqueLrs (lrs (LrOp.run ⟨0, fun _ => .new, 0, 0, 0, false, 0, 3⟩
    (fun _ => 0 : Cpu Empty) [.inject 27 0xA0, .ack 0, .injectHw 27 27 0xA0])) := by
  have start : ∀ n, getLrState (lrs (fun _ => 0 : Cpu Empty) n) = 0 := by decide
  refine (unique_list_registers_iff _ _ start [.inject 27 0xA0, .ack 0, .injectHw 27 27 0xA0]).mpr ?_ 3 le_rfl
  intro k op here
  rcases k with _ | _ | _ | k
  · cases here
    rintro - ⟨n, valid, -⟩
    exact valid (start n)
  · cases here
    exact True.intro
  · cases here
    rintro -
    decide
  · cases here

/-- The same interrupt is injected twice. -/
theorem duplicate_list_registers : ¬UniqueLrs (lrs (LrOp.run ⟨0, fun _ => .new, 0, 0, 0, false, 0, 3⟩
    (fun _ => 0 : Cpu Empty) [.inject 27 0xA0, .inject 27 0xA0])) := by
  intro unique
  exact absurd (unique 0 1 (by decide) (by decide) (by decide)) (by decide)

end Hypervisor
