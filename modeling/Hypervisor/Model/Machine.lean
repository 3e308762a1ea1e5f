import Hypervisor.Model.Memory
import Hypervisor.Model.Stage2Walker
import Hypervisor.Model.StubSpmc

/-! # The state the FF-A proxy works on

One record holds the statics that the memory handlers read and write: the tables and heap, the
per-VM L0 addresses, the current VM and its `VTTBR_EL2`, the share records, and the mailboxes.
Which VM calls is visible to a handler only through `CURRENT_VM_ID` and `VTTBR_EL2`; the outer
scheduler sets both before it enters a VM, which is `Machine.activate`.
-/

namespace Hypervisor

structure Machine where
  phys : Phys
  /-- `Vm::vttbr`: the saved register value, with the VMID in the upper bits. -/
  vmVttbr : VmId → U64
  /-- `PER_VM_VTTBR`: the L0 table of each VM, 0 before its memory is initialised. -/
  perVmVttbr : VmId → U64
  currentVmId : ℕ
  vttbrEl2 : U64
  spmc : StubSpmc
  /-- `MAILBOXES`, one per partition that can be a VM. -/
  mailboxes : Fin ffaMaxVms → FfaMailbox

namespace Machine

/-- `CURRENT_VM_ID.store(vm.id)` and `vm.activate_stage2()`. -/
def activate (m : Machine) (v : VmId) : Machine :=
  { m with currentVmId := v, vttbrEl2 := m.vmVttbr v }

section Activate

variable (m : Machine) (v : VmId)

@[simp] theorem activate_phys : (m.activate v).phys = m.phys := rfl
@[simp] theorem activate_spmc : (m.activate v).spmc = m.spmc := rfl
@[simp] theorem activate_currentVmId : (m.activate v).currentVmId = v := rfl

end Activate

/-- The mailbox of a VM. -/
def mailbox (m : Machine) (v : VmId) : FfaMailbox := m.mailboxes (v.castLE (by decide))

/-- `mailbox::get_mailbox`, with its assertion. -/
def getMailbox (m : Machine) (vmId : ℕ) : Option FfaMailbox :=
  if bound : vmId < ffaMaxVms then some (m.mailboxes ⟨vmId, bound⟩) else none

/-- A store through the reference that `mailbox::get_mailbox` returns. -/
def setMailbox (m : Machine) (vmId : ℕ) (mbox : FfaMailbox) : Machine :=
  { m with mailboxes := fun i => if i.val = vmId then mbox else m.mailboxes i }

/-- `PER_VM_VTTBR[vmId]`, with the bounds check. -/
def loadPerVmVttbr (m : Machine) (vmId : ℕ) : Option U64 :=
  if bound : vmId < maxVms then some (m.perVmVttbr ⟨vmId, bound⟩) else none

end Machine

end Hypervisor
