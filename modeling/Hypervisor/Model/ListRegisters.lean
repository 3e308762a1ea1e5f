import Hypervisor.Model.Vcpu
import Hypervisor.Model.VmState

/-! # Injecting virtual interrupts

The virtual interface of `gicv3.rs` on the live list registers, and `inject_pending_sgis` and
`inject_pending_spis` of `vm.rs` on the saved ones. The code names four list registers, whatever
number `ICH_VTR_EL2` reports: further ones read as zero and ignore writes.
-/

namespace Hypervisor

def lrStateShift : ℕ := 62
def lrStateMask : U64 := 0x3
def lrHwBit : U64 := 1 <<< 61
def lrGroup1Bit : U64 := 1 <<< 60
def lrPriorityShift : ℕ := 48
def lrPintidShift : ℕ := 32
def lrPintidMask : U64 := 0x3FF
def lrVintidMask : U64 := 0xFFFFFFFF
def vtrListregsMask : U32 := 0x1F
def lrStatePending : U64 := 0b01
def lrStateActive : U64 := 0b10
def lrStatePendingActive : U64 := 0b11
def irqDefaultPriority : U8 := 0xA0
def vtimerIrq : U32 := 27

def getLrState (lr : U64) : U64 := (lr >>> lrStateShift) &&& lrStateMask

def getLrIntid (lr : U64) : U32 := (lr &&& lrVintidMask).setWidth 32

def buildLr (intid : U32) (priority : U8) : U64 :=
  (lrStatePending <<< lrStateShift) ||| lrGroup1Bit ||| (priority.setWidth 64 <<< lrPriorityShift) |||
    intid.setWidth 64

def buildHwLr (intid pintid : U32) (priority : U8) : U64 :=
  (lrStatePending <<< lrStateShift) ||| lrHwBit ||| lrGroup1Bit ||| (priority.setWidth 64 <<< lrPriorityShift) |||
    ((pintid.setWidth 64 &&& lrPintidMask) <<< lrPintidShift) ||| intid.setWidth 64

/-! ## The live registers -/

section Live

variable {Other : Type}

def readLr (cpu : Cpu Other) (n : ℕ) : U64 := if bound : n < 4 then cpu (.ichLrEl2 ⟨n, bound⟩) else 0

def writeLr [DecidableEq Other] (cpu : Cpu Other) (n : ℕ) (value : U64) : Cpu Other :=
  if bound : n < 4 then Function.update cpu (.ichLrEl2 ⟨n, bound⟩) value else cpu

def numListRegisters (ichVtrEl2 : U32) : ℕ := (ichVtrEl2 &&& vtrListregsMask).toNat + 1

def findFreeLr (ichVtrEl2 : U32) (cpu : Cpu Other) : Option ℕ :=
  (List.range (numListRegisters ichVtrEl2)).find? fun n => getLrState (readLr cpu n) = 0

def pendingCount (ichVtrEl2 : U32) (cpu : Cpu Other) : ℕ :=
  (List.range (numListRegisters ichVtrEl2)).countP fun n =>
    getLrState (readLr cpu n) = lrStatePending ∨ getLrState (readLr cpu n) = lrStatePendingActive

variable [DecidableEq Other]

/-- Write `lr` to the first free register; the flag is whether there was one. -/
def writeFreeLr (ichVtrEl2 : U32) (lr : U64) (cpu : Cpu Other) : Bool × Cpu Other :=
  match findFreeLr ichVtrEl2 cpu with
  | some n => (true, writeLr cpu n lr)
  | none => (false, cpu)

def injectInterrupt (ichVtrEl2 : U32) (intid : U32) (priority : U8) (cpu : Cpu Other) : Bool × Cpu Other :=
  writeFreeLr ichVtrEl2 (buildLr intid priority) cpu

/-- Stale active entries of the interrupt are cleared first. -/
def injectHwInterrupt (ichVtrEl2 : U32) (intid pintid : U32) (priority : U8) (cpu : Cpu Other) : Bool × Cpu Other :=
  let cpu := (List.range (numListRegisters ichVtrEl2)).foldl (fun cpu n =>
    let lr := readLr cpu n
    if getLrIntid lr = intid ∧ getLrState lr = lrStateActive then writeLr cpu n 0 else cpu) cpu
  writeFreeLr ichVtrEl2 (buildHwLr intid pintid priority) cpu

end Live

/-! ## The registers of a vCPU that is not running -/

/-- The first free one of the saved list registers. -/
def freeSaved (ichLr : Fin 4 → U64) : Option (Fin 4) := (List.finRange 4).find? fun n => getLrState (ichLr n) = 0

inductive PendingKind where
  | sgi
  | spi
deriving DecidableEq, Repr

namespace PendingKind

/-- The INTID of bit 0. -/
def base : PendingKind → ℕ
  | sgi => 0
  | spi => 32

/-- The number of bits that the loop looks at. -/
def count : PendingKind → ℕ
  | sgi => 16
  | spi => 32

end PendingKind

/-- Inject the interrupts of `all`, whose lowest bit is INTID `base`; the ones for which no list
register is free are given back. -/
def injectPending (base : ℕ) (all : U32) : List ℕ → (Fin 4 → U64) → (Fin 4 → U64) × U32
  | [], ichLr => (ichLr, 0)
  | bit :: bits, ichLr =>
      if all &&& ((1 : U32) <<< bit) = 0 then injectPending base all bits ichLr
      else
        match freeSaved ichLr with
        | some n =>
            injectPending base all bits
              (Function.update ichLr n (buildLr (BitVec.ofNat 32 (base + bit)) irqDefaultPriority))
        | none =>
            let (ichLr, requeued) := injectPending base all bits ichLr
            (ichLr, ((1 : U32) <<< bit) ||| requeued)

def Vcpu.setIchLr (vcpu : Vcpu) (ichLr : Fin 4 → U64) : Vcpu :=
  { vcpu with archState := { vcpu.archState with ichLr } }

@[simp] theorem Vcpu.setIchLr_context (vcpu : Vcpu) (ichLr : Fin 4 → U64) : (vcpu.setIchLr ichLr).context = vcpu.context :=
  rfl

/-- `inject_pending_sgis` for vCPU `id`. -/
def injectPendingSgis (id : VcpuId) (vcpu : Vcpu) (vs : VmGlobalState) : Vcpu × VmGlobalState :=
  let (ichLr, requeued) := injectPending 0 (vs.pendingSgis id) (List.range 16) vcpu.archState.ichLr
  (vcpu.setIchLr ichLr, { vs with pendingSgis := Function.update vs.pendingSgis id requeued })

/-- `inject_pending_spis` for vCPU `id`. -/
def injectPendingSpis (id : VcpuId) (vcpu : Vcpu) (vs : VmGlobalState) : Vcpu × VmGlobalState :=
  let (ichLr, requeued) := injectPending 32 (vs.pendingSpis id) (List.range 32) vcpu.archState.ichLr
  (vcpu.setIchLr ichLr, { vs with pendingSpis := Function.update vs.pendingSpis id requeued })

end Hypervisor
