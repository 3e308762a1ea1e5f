import Hypervisor.Model.Scheduler

/-! # What the exception handlers and the run loop share

The per-VM part of `global.rs`: pending interrupts, terminal exits, the mask of online vCPUs and the
one-entry mailbox for `PSCI_CPU_ON`. Everything runs on one physical CPU with interrupts masked at
EL2, so an atomic read-modify-write is a function on the state.
-/

namespace Hypervisor

/-- A pending PSCI `CPU_ON` request from the exception handler to the run loop. -/
structure PendingCpuOn where
  requested : Bool
  targetCpu : U64
  entryPoint : U64
  contextId : U64
deriving DecidableEq, Repr

namespace PendingCpuOn

def new : PendingCpuOn := ⟨false, 0, 0, 0⟩

/-- A request overwrites the one before it. -/
def request (_ : PendingCpuOn) (target entry ctx : U64) : PendingCpuOn := ⟨true, target, entry, ctx⟩

def take (self : PendingCpuOn) : Option (U64 × U64 × U64) × PendingCpuOn :=
  if self.requested then
    (some (self.targetCpu, self.entryPoint, self.contextId), { self with requested := false })
  else (none, self)

end PendingCpuOn

structure VmGlobalState where
  /-- Bit `n` is SGI `n`. -/
  pendingSgis : VcpuId → U32
  /-- Bit `n` is the SPI with INTID `n + 32`. -/
  pendingSpis : VcpuId → U32
  /-- Set by `CPU_OFF`, `SYSTEM_OFF` and `SYSTEM_RESET`. -/
  terminalExit : VcpuId → Bool
  /-- Bit `n` is vCPU `n`. -/
  vcpuOnlineMask : U64
  currentVcpuId : VcpuId
  pendingCpuOn : PendingCpuOn
  /-- Set by the IRQ handler to signal a preemptive exit. -/
  preemptionExit : Bool

namespace VmGlobalState

def new : VmGlobalState := ⟨fun _ => 0, fun _ => 0, fun _ => false, 0, 0, .new, false⟩

/-- `vcpu_online_mask.fetch_or(1 << id)`. -/
def setOnline (vs : VmGlobalState) (id : VcpuId) : VmGlobalState :=
  { vs with vcpuOnlineMask := vs.vcpuOnlineMask ||| ((1 : U64) <<< id.val) }

/-- `vcpu_online_mask & (1 << id) != 0`. -/
def isOnline (vs : VmGlobalState) (id : VcpuId) : Bool := vs.vcpuOnlineMask &&& ((1 : U64) <<< id.val) != 0

/-- More than one bit of the mask is set. -/
def multiVcpu (vs : VmGlobalState) : Bool :=
  vs.vcpuOnlineMask != 0 && vs.vcpuOnlineMask &&& (vs.vcpuOnlineMask - 1) != 0

/-- `pending_sgis[id].fetch_or(bits)`. -/
def orSgis (vs : VmGlobalState) (id : VcpuId) (bits : U32) : VmGlobalState :=
  { vs with pendingSgis := Function.update vs.pendingSgis id (vs.pendingSgis id ||| bits) }

/-- `pending_spis[id].fetch_or(spis[id])`, for every vCPU. -/
def orSpis (vs : VmGlobalState) (spis : VcpuId → U32) : VmGlobalState :=
  { vs with pendingSpis := fun id => vs.pendingSpis id ||| spis id }

def setTerminalExit (vs : VmGlobalState) (id : VcpuId) (value : Bool) : VmGlobalState :=
  { vs with terminalExit := Function.update vs.terminalExit id value }

end VmGlobalState

end Hypervisor
