import Hypervisor.Proofs.Exception
import Hypervisor.Proofs.ListRegisters

/-! # Pending interrupts on entry

`inject_pending_sgis` and `inject_pending_spis` take a mask out of the shared word with one swap and give
back what finds no list register, bit by bit. Other CPUs may add bits at any point of the call. What they
add only joins what the call leaves, so nothing is lost or injected twice. The fast path from the handlers
fills the live registers in the same way.
-/

namespace Hypervisor

/-! ## A call among others -/

/-- A call in progress: the shared mask, the saved list registers, and what was taken from the mask with
the bits that are still to be looked at. -/
structure PendingCall where
  pending : U32
  ichLr : Fin 4 → U64
  taken : Option (U32 × List ℕ) := none

/-- An access to the shared mask, or the next bit of the loop. -/
inductive PendingOp where
  | own
  /-- `fetch_or` from another CPU. -/
  | fetchOr (bits : U32)
deriving DecidableEq, Repr

namespace PendingCall

variable {kind : PendingKind} {call : PendingCall}

def step (kind : PendingKind) (call : PendingCall) : PendingOp → PendingCall
  | .fetchOr bits => { call with pending := call.pending ||| bits }
  | .own =>
      match call.taken with
      | none => { call with pending := 0, taken := some (call.pending, List.range kind.count) }
      | some (_, []) => call
      | some (all, bit :: bits) =>
          if all &&& ((1 : U32) <<< bit) = 0 then { call with taken := some (all, bits) }
          else
            match freeSaved call.ichLr with
            | some n =>
                { call with
                  ichLr := Function.update call.ichLr n (buildLr (BitVec.ofNat 32 (kind.base + bit)) irqDefaultPriority)
                  taken := some (all, bits) }
            | none => { call with pending := call.pending ||| ((1 : U32) <<< bit), taken := some (all, bits) }

def run (kind : PendingKind) (call : PendingCall) (ops : List PendingOp) : PendingCall := ops.foldl (step kind) call

/-- The bits that other CPUs add. -/
def added : List PendingOp → U32
  | [] => 0
  | .own :: ops => added ops
  | .fetchOr bits :: ops => bits ||| added ops

theorem run_cons (call : PendingCall) (op : PendingOp) (ops : List PendingOp) :
    run kind call (op :: ops) = run kind (call.step kind op) ops := rfl

theorem run_append (call : PendingCall) (now later : List PendingOp) :
    run kind call (now ++ later) = run kind (run kind call now) later := List.foldl_append

/-- The loop among others does what it does alone; what the others add joins the mask. -/
theorem run_taken (all : U32) (bits : List ℕ) (pending : U32) (ichLr : Fin 4 → U64) (ops : List PendingOp)
    (finished : bits.length ≤ ops.count .own) :
    run kind ⟨pending, ichLr, some (all, bits)⟩ ops =
      ⟨pending ||| (injectPending kind.base all bits ichLr).2 ||| added ops,
        (injectPending kind.base all bits ichLr).1, some (all, [])⟩ := by
  induction ops generalizing pending ichLr bits with
  | nil =>
      obtain rfl := List.length_eq_zero_iff.mp (Nat.le_zero.mp finished)
      rw [injectPending, added, show (0 : U32) = 0#32 from rfl, BitVec.or_zero, BitVec.or_zero]
      rfl
  | cons op ops ih =>
      rw [run_cons]
      cases op with
      | fetchOr more =>
          rw [List.count_cons_of_ne PendingOp.noConfusion] at finished
          rw [step, ih _ _ _ finished, added]
          dsimp only
          congr 1
          ac_rfl
      | own =>
          rw [List.count_cons_self] at finished
          rw [added]
          cases bits with
          | nil => exact ih [] pending ichLr (Nat.zero_le _)
          | cons bit bits =>
              have rest : bits.length ≤ ops.count .own := Nat.le_of_succ_le_succ finished
              simp only [step, injectPending]
              split_ifs
              · exact ih bits pending ichLr rest
              · cases freeSaved ichLr with
                | some n => exact ih bits pending _ rest
                | none =>
                    dsimp only
                    rw [ih bits _ ichLr rest]
                    congr 1
                    ac_rfl

/-- A whole call: other CPUs add bits before the swap and after it. -/
theorem run_call (pending : U32) (ichLr : Fin 4 → U64) (before : List U32) {during : List PendingOp} {taken : U32}
    (total : before.foldl (· ||| ·) pending = taken) (finished : kind.count ≤ during.count .own) :
    run kind ⟨pending, ichLr, none⟩ (before.map .fetchOr ++ .own :: during) =
      ⟨(injectPending kind.base taken (List.range kind.count) ichLr).2 ||| added during,
        (injectPending kind.base taken (List.range kind.count) ichLr).1, some (taken, [])⟩ := by
  have early : run kind ⟨pending, ichLr, none⟩ (before.map .fetchOr) = ⟨taken, ichLr, none⟩ := by
    rw [← total]
    clear total
    induction before generalizing pending with
    | nil => rfl
    | cons bits before ih => exact ih _
  rw [run_append, early, run_cons, step]
  dsimp only
  rw [run_taken _ _ _ _ _ (by rw [List.length_range]; exact finished), show (0 : U32) = 0#32 from rfl, BitVec.zero_or]

theorem added_replicate (n : ℕ) : added (List.replicate n .own) = 0 := by
  induction n with
  | zero => rfl
  | succ n ih => exact ih

/-- A call that nobody interferes with is the loop of the model. -/
theorem run_alone (kind : PendingKind) (pending : U32) (ichLr : Fin 4 → U64) :
    run kind ⟨pending, ichLr, none⟩ (.own :: List.replicate kind.count .own) =
      ⟨(injectPending kind.base pending (List.range kind.count) ichLr).2,
        (injectPending kind.base pending (List.range kind.count) ichLr).1, some (pending, [])⟩ := by
  have finished : kind.count ≤ (List.replicate kind.count PendingOp.own).count .own :=
    Nat.le_of_eq List.count_replicate_self.symm
  have call := run_call pending ichLr [] rfl finished
  rwa [added_replicate, show (0 : U32) = 0#32 from rfl, BitVec.or_zero] at call

theorem injectPendingSgis_eq_run (id : VcpuId) (vcpu : Vcpu) (vs : VmGlobalState) :
    let last := run .sgi ⟨vs.pendingSgis id, vcpu.archState.ichLr, none⟩ (.own :: List.replicate 16 .own)
    injectPendingSgis id vcpu vs =
      (vcpu.setIchLr last.ichLr, { vs with pendingSgis := Function.update vs.pendingSgis id last.pending }) := by
  have alone := run_alone .sgi (vs.pendingSgis id) vcpu.archState.ichLr
  dsimp only [PendingKind.count, PendingKind.base] at alone ⊢
  rw [alone, injectPendingSgis]

theorem injectPendingSpis_eq_run (id : VcpuId) (vcpu : Vcpu) (vs : VmGlobalState) :
    let last := run .spi ⟨vs.pendingSpis id, vcpu.archState.ichLr, none⟩ (.own :: List.replicate 32 .own)
    injectPendingSpis id vcpu vs =
      (vcpu.setIchLr last.ichLr, { vs with pendingSpis := Function.update vs.pendingSpis id last.pending }) := by
  have alone := run_alone .spi (vs.pendingSpis id) vcpu.archState.ichLr
  dsimp only [PendingKind.count, PendingKind.base] at alone ⊢
  rw [alone, injectPendingSpis]

end PendingCall

/-! ## Nothing is lost -/

/-- The interrupts of a mask, lowest first. -/
def pendingBits (mask : U32) : List ℕ := (List.range 32).filter fun bit => mask.getLsbD bit

/-- A pending interrupt of Group 1. -/
structure HoldsPending (lr : U64) (intid : ℕ) : Prop where
  state : getLrState lr = lrStatePending
  group : lr &&& lrGroup1Bit ≠ 0
  intid : (getLrIntid lr).toNat = intid

/-- What a call makes of the list registers and of a mask that was taken: its lowest interrupts are in the
registers that were free, and the others are back in the mask. -/
structure Conserved (base : ℕ) (before after : Fin 4 → U64) (taken pending added : U32) : Prop where
  kept : ∀ n, getLrState (before n) ≠ 0 → after n = before n
  injected : ∀ bit ∈ (pendingBits taken).take (FirstFit.freeSlots savedFree before).length,
    ∃! n, getLrState (before n) = 0 ∧ HoldsPending (after n) (base + bit)
  left : ∀ bit ∈ (pendingBits taken).drop (FirstFit.freeSlots savedFree before).length,
    ∀ n, getLrState (before n) = 0 → ¬HoldsPending (after n) (base + bit)
  only : ∀ n, after n ≠ before n → ∃ bit ∈ (pendingBits taken).take (FirstFit.freeSlots savedFree before).length,
    HoldsPending (after n) (base + bit)
  count : ((List.finRange 4).filter fun n => after n ≠ before n).length =
    min (pendingBits taken).length (FirstFit.freeSlots savedFree before).length
  pending : ∀ bit, pending.getLsbD bit = true ↔
    bit ∈ (pendingBits taken).drop (FirstFit.freeSlots savedFree before).length ∨ added.getLsbD bit = true

section Conservation

variable {base bit : ℕ} {ichLr : Fin 4 → U64} {all : U32}

theorem savedFree_pendingLr {n : Fin 4} : savedFree n (pendingLr base bit) = false := by
  rw [savedFree, isFreeLr, pendingLr, getLrState_buildLr]
  rfl

theorem mem_pendingBits : bit ∈ pendingBits all ↔ all.getLsbD bit = true := by
  rw [pendingBits, List.mem_filter, List.mem_range]
  exact and_iff_right_of_imp BitVec.lt_of_getLsbD

theorem nodup_pendingBits : (pendingBits all).Nodup := List.nodup_range.filter _

theorem holdsPending_buildLr (intid : U32) (priority : U8) : HoldsPending (buildLr intid priority) intid.toNat where
  state := getLrState_buildLr
  group := by
    rw [BitVec.and_ne_zero_iff]
    exact ⟨60, by rw [getLsbD_buildLr (by decide)]; rfl, by decide⟩
  intid := by rw [getLrIntid_buildLr]

theorem holdsPending_pendingLr (bound : base + bit < 2 ^ 32) : HoldsPending (pendingLr base bit) (base + bit) := by
  have holds := holdsPending_buildLr (BitVec.ofNat 32 (base + bit)) irqDefaultPriority
  rwa [BitVec.toNat_ofNat, Nat.mod_eq_of_lt bound] at holds

theorem eq_of_pendingLr_eq {bit' : ℕ} (bound : base + bit < 2 ^ 32) (bound' : base + bit' < 2 ^ 32)
    (same : pendingLr base bit = pendingLr base bit') : bit = bit' := by
  have intid := (holdsPending_pendingLr bound).intid
  rw [same, (holdsPending_pendingLr bound').intid] at intid
  exact (Nat.add_left_cancel intid).symm

theorem pendingBits_eq_filter {count : ℕ} (few : count ≤ 32) (valid : ∀ bit, all.getLsbD bit = true → bit < count) :
    ((List.range count).filter fun bit => all.getLsbD bit) = pendingBits all := by
  have split : List.range 32 = List.range count ++ (List.range (32 - count)).map (count + ·) := by
    rw [← List.range_add, Nat.add_sub_cancel' few]
  have above : (((List.range (32 - count)).map (count + ·)).filter fun bit => all.getLsbD bit) = [] := by
    rw [List.filter_eq_nil_iff]
    intro bit member set
    obtain ⟨i, -, rfl⟩ := List.mem_map.mp member
    exact absurd (valid _ set) (Nat.not_lt.mpr (Nat.le_add_right ..))
  rw [pendingBits, split, List.filter_append, above, List.append_nil]

/-- Filling the bank with the interrupts of a mask conserves them. -/
theorem conserved_of_filled {after : Fin 4 → U64} {pending added : U32} (low : base ≤ 32)
    (filled : FirstFit.Filled savedFree (pendingLr base) (pendingBits all) ichLr after)
    (left : pending = maskOf ((pendingBits all).drop (FirstFit.freeSlots savedFree ichLr).length) ||| added) :
    Conserved base ichLr after all pending added := by
  have busy (n : Fin 4) (bit : ℕ) : savedFree n (pendingLr base bit) = false := savedFree_pendingLr
  have bound {bit : ℕ} (member : bit ∈ pendingBits all) : base + bit < 2 ^ 32 := by
    have := BitVec.lt_of_getLsbD (mem_pendingBits.mp member)
    omega
  have injective : ∀ bit ∈ pendingBits all, ∀ bit' ∈ pendingBits all,
      pendingLr base bit = pendingLr base bit' → bit = bit' :=
    fun bit member bit' member' => eq_of_pendingLr_eq (bound member) (bound member')
  -- in a register that was free, a pending interrupt is one that was injected
  have holds_iff {n : Fin 4} {bit : ℕ} (free : getLrState (ichLr n) = 0) (member : bit ∈ pendingBits all) :
      HoldsPending (after n) (base + bit) ↔ after n = pendingLr base bit := by
    constructor
    · intro holds
      have new : after n ≠ ichLr n := by
        intro same
        have state := holds.state
        rw [same, free] at state
        cases state
      obtain ⟨k, -, other, there, placed⟩ := filled.place_of_new new
      have intid := (holdsPending_pendingLr (bound (List.mem_of_getElem? there))).intid
      rw [← placed, holds.intid] at intid
      rw [placed, Nat.add_left_cancel intid]
    · intro placed
      rw [placed]
      exact holdsPending_pendingLr (bound member)
  constructor
  · intro n used
    exact filled.kept n (decide_eq_false used)
  · intro bit member
    have inside := List.mem_of_mem_take member
    obtain ⟨n, ⟨free, placed⟩, unique⟩ := filled.existsUnique_of_mem_take busy injective nodup_pendingBits member
    refine ⟨n, ⟨of_decide_eq_true free, (holds_iff (of_decide_eq_true free) inside).mpr placed⟩, ?_⟩
    rintro m ⟨free', holds⟩
    exact unique m ⟨decide_eq_true free', (holds_iff free' inside).mp holds⟩
  · intro bit member n free holds
    refine filled.not_holds_of_mem_drop busy injective nodup_pendingBits member (decide_eq_true free) ?_
    exact (holds_iff free (List.mem_of_mem_drop member)).mp holds
  · intro n new
    obtain ⟨k, here, bit, there, placed⟩ := filled.place_of_new new
    refine ⟨bit, List.mem_of_getElem? (i := k) ?_, placed ▸ holdsPending_pendingLr (bound (List.mem_of_getElem? there))⟩
    rw [List.getElem?_take, if_pos (List.getElem?_eq_some_iff.mp here).1, there]
  · exact filled.length_changed busy
  · intro bit
    rw [left, BitVec.getLsbD_or, Bool.or_eq_true, getLsbD_maskOf]
    refine or_congr_left (and_iff_right_of_imp fun member => ?_)
    exact BitVec.lt_of_getLsbD (mem_pendingBits.mp (List.mem_of_mem_drop member))

/-- A call conserves the interrupts it takes, whatever other CPUs add meanwhile. The loop over SGIs looks
at their sixteen bits only. -/
theorem pending_interrupts_conserved (kind : PendingKind) (ichLr : Fin 4 → U64) (pending : U32) (before : List U32)
    (during : List PendingOp) (valid : ∀ bit, (before.foldl (· ||| ·) pending).getLsbD bit = true → bit < kind.count)
    (finished : kind.count ≤ during.count .own) :
    let last := PendingCall.run kind ⟨pending, ichLr, none⟩ (before.map .fetchOr ++ .own :: during)
    Conserved kind.base ichLr last.ichLr (before.foldl (· ||| ·) pending) last.pending (PendingCall.added during) := by
  have few : kind.count ≤ 32 := by cases kind <;> decide
  have low : kind.base ≤ 32 := by cases kind <;> decide
  rw [PendingCall.run_call _ _ _ rfl finished, injectPending_eq, pendingBits_eq_filter few valid]
  obtain ⟨filled, left⟩ := FirstFit.filled_fill (fun _ _ => savedFree_pendingLr) _ ichLr
  exact conserved_of_filled low filled (congrArg (maskOf · ||| _) left)

/-- Two SGIs for one free register, and a third one that another CPU sends during the call. -/
theorem sgis_conserved_with_one_free :
    let ichLr : Fin 4 → U64 := fun n => if n = 2 then 0 else buildLr 27 0xA0
    let during : List PendingOp := .fetchOr 2 :: List.replicate 16 .own
    let last := PendingCall.run .sgi ⟨0x11, ichLr, none⟩ ([].map .fetchOr ++ .own :: during)
    Conserved 0 ichLr last.ichLr 0x11 last.pending 2 := by
  have valid : ∀ bit < 32, BitVec.getLsbD (0x11 : U32) bit = true → bit < 16 := by decide
  exact pending_interrupts_conserved .sgi _ 0x11 [] (.fetchOr 2 :: List.replicate 16 .own)
    (fun bit set => valid bit (BitVec.lt_of_getLsbD set) set) (by decide)

/-- A bit of the mask of SGIs that stands for no SGI is dropped. -/
theorem high_bit_of_sgis_dropped :
    let last := PendingCall.run .sgi ⟨0x10000, fun _ => 0, none⟩ (.own :: List.replicate 16 .own)
    ¬Conserved 0 (fun _ => 0) last.ichLr 0x10000 last.pending 0 := by
  intro last conserved
  obtain ⟨n, ⟨-, holds⟩, -⟩ := conserved.injected 16 (by decide)
  have unchanged : ∀ n, last.ichLr n = 0 := by decide
  have state := holds.state
  rw [unchanged n] at state
  cases state

end Conservation

/-! ## The fast path -/

section Flush

variable {Other : Type} [DecidableEq Other] {ichVtrEl2 : U32}

/-- One bit of the loop of `flush_pending_spis_to_hardware`. -/
def flushBit (ichVtrEl2 pending : U32) (live : Cpu Other × U32) (bit : ℕ) : Cpu Other × U32 :=
  if pending &&& ((1 : U32) <<< bit) = 0 then live
  else
    let (injected, cpu) := injectInterrupt ichVtrEl2 (BitVec.ofNat 32 (bit + 32)) irqDefaultPriority live.1
    (cpu, if injected then live.2 else live.2 ||| ((1 : U32) <<< bit))

theorem flushPendingSpis_eq (cpu : Cpu Other) (e : El2) :
    let vs := e.currentVmState
    let last := (List.range 32).foldl (flushBit e.ichVtrEl2 (vs.pendingSpis vs.currentVcpuId)) (cpu, 0)
    flushPendingSpis cpu e =
      (last.1, e.setCurrent { vs with pendingSpis := Function.update vs.pendingSpis vs.currentVcpuId last.2 }) := by
  rw [flushPendingSpis, List.foldl_ext _ (flushBit e.ichVtrEl2 _) _ ?_]
  rintro ⟨cpu, requeued⟩ bit -
  rfl

/-- The loop fills the live registers. With more than four of them, it takes every interrupt for injected. -/
theorem foldl_flushBit (ichVtrEl2 pending : U32) (bits : List ℕ) (cpu : Cpu Other) (requeued : U32) :
    let filled := FirstFit.fill (liveFree ichVtrEl2) (pendingLr 32) (bits.filter fun bit => pending.getLsbD bit) (lrs cpu)
    let last := bits.foldl (flushBit ichVtrEl2 pending) (cpu, requeued)
    lrs last.1 = filled.1 ∧
      last.2 = if 4 < numListRegisters ichVtrEl2 then requeued else requeued ||| maskOf filled.2 := by
  induction bits generalizing cpu requeued with
  | nil =>
      refine ⟨rfl, ?_⟩
      split_ifs
      · rfl
      · exact BitVec.or_zero.symm
  | cons bit bits ih =>
      rw [List.foldl_cons, flushBit]
      by_cases set : pending.getLsbD bit = true
      · rw [if_neg ((and_one_shiftLeft_ne_zero_iff pending bit).mpr set), List.filter_cons_of_pos set, FirstFit.fill,
          injectInterrupt, writeFreeLr_eq, Nat.add_comm bit, ← pendingLr]
        cases FirstFit.firstFree (liveFree ichVtrEl2) (lrs cpu) with
        | some n =>
            have later := ih (Function.update cpu (.ichLrEl2 n) (pendingLr 32 bit)) requeued
            rw [lrs_update] at later
            exact later
        | none =>
            simp only [Option.elim_none, decide_eq_true_eq]
            by_cases many : 4 < numListRegisters ichVtrEl2
            · simp only [many, if_true]
              obtain ⟨bank, left⟩ := ih cpu requeued
              exact ⟨bank, left.trans (if_pos many)⟩
            · simp only [many, if_false]
              obtain ⟨bank, left⟩ := ih cpu (requeued ||| ((1 : U32) <<< bit))
              exact ⟨bank, (left.trans (if_neg many)).trans (BitVec.or_assoc ..)⟩
      · rw [if_pos (not_not.mp (mt (and_one_shiftLeft_ne_zero_iff pending bit).mp set)), List.filter_cons_of_neg set]
        exact ih cpu requeued

/-- The fast path leaves the list registers and the mask as the slow one does. -/
theorem flush_agrees_with_entry (cpu : Cpu Other) (e : El2) (vcpu : Vcpu) (four : numListRegisters e.ichVtrEl2 = 4)
    (saved : vcpu.archState.ichLr = lrs cpu) :
    let vs := e.currentVmState
    let fast := flushPendingSpis cpu e
    let slow := injectPendingSpis vs.currentVcpuId vcpu vs
    lrs fast.1 = slow.1.archState.ichLr ∧ fast.2.currentVmState = slow.2 := by
  obtain ⟨bank, left⟩ := foldl_flushBit e.ichVtrEl2 (e.currentVmState.pendingSpis e.currentVmState.currentVcpuId)
    (List.range 32) cpu 0
  rw [liveFree_of_four four] at bank left
  rw [four, if_neg (Nat.lt_irrefl 4)] at left
  dsimp only
  rw [flushPendingSpis_eq, injectPendingSpis, saved, injectPending_eq]
  refine ⟨bank, ?_⟩
  rw [El2.currentVmState_setCurrent, left, show (0 : U32) = 0#32 from rfl, BitVec.zero_or]

theorem flush_agrees_with_entry_for_two_spis :
    let e : El2 := ⟨0, fun _ => VmGlobalState.new.orSpis fun _ => 0x30000, 0, 0, 0, false, 0, 3⟩
    let vs := e.currentVmState
    let fast := flushPendingSpis (fun _ => 0 : Cpu Empty) e
    let slow := injectPendingSpis vs.currentVcpuId default vs
    lrs fast.1 = slow.1.archState.ichLr ∧ fast.2.currentVmState = slow.2 :=
  flush_agrees_with_entry _ _ _ (by decide) rfl


end Flush

end Hypervisor
