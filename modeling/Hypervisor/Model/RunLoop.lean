import Hypervisor.Model.Exception

/-! # Running VMs on one physical CPU

The vCPU table of `vm.rs`, `run_one_iteration` and the loops around it. A guest is the sequence of
exceptions that it takes; between two of them its registers are arbitrary. Bytes of the physical UART
and frames of the switch that are handed to the devices before an entry show up as the SPIs they
raise. `vcpu.run()` is called on vCPUs in state `Ready` only, as nothing here stops one, so that state
is left out, and the redistributor that `wake_gicr` polls is taken to wake up.
-/

namespace Hypervisor

/-- `VmState` of `vm.rs`. -/
inductive VmRunState where
  | uninitialized
  | ready
  | running
  | paused
  | stopped
deriving DecidableEq, Repr

/-- A vCPU in the table of its VM. -/
structure GuestVcpu extends Vcpu where
  id : VcpuId

/-- `VcpuContext::new`. -/
def VcpuContext.new (entryPoint stackPointer : U64) : VcpuContext where
  gpRegs _ := 0
  spEl1 := stackPointer
  elrEl1 := 0
  spsrEl1 := spsrEl1h
  pc := entryPoint
  spsrEl2 := spsrEl1hDaifMasked

/-- `VcpuArchState::init_for_vcpu`. -/
def VcpuArchState.initForVcpu (self : VcpuArchState) (mpidrEl1 : U64) (vcpuId : VcpuId) : VcpuArchState :=
  { self with
    vmpidr := (mpidrEl1 &&& ~~~0xFF) ||| (BitVec.ofNat 64 vcpuId.val &&& 0xFF)
    ichHcr := ((1 : U64) <<< 13) ||| 1
    ichVmcr := ((0xFF : U64) <<< 24) ||| ((1 : U64) <<< 1)
    ichLr := fun _ => 0
    cntvCtl := 0
    cntvCval := 0 }

/-- `VcpuArchState::new`: every register is zero. -/
def VcpuArchState.new : VcpuArchState :=
  ⟨fun _ => 0, 0, 0, 0, 0, 0, 0, 0, 0, 0, 0, 0, 0, 0, 0, 0, 0, 0, 0, 0, 0, 0, 0, 0, 0, 0, 0, 0, 0, 0, 0, 0, 0, 0,
    0, 0, 0, 0, 0⟩

/-- `Vcpu::new`. -/
def GuestVcpu.new (mpidrEl1 : U64) (id : VcpuId) (entryPoint stackPointer : U64) : GuestVcpu where
  id := id
  context := VcpuContext.new entryPoint stackPointer
  archState := VcpuArchState.new.initForVcpu mpidrEl1 id

/-- A vCPU as `boot_secondary_vcpu` sets it up: x0 is the context identifier, MMU and caches are off. -/
def GuestVcpu.secondary (mpidrEl1 : U64) (id : VcpuId) (entry ctxId : U64) : GuestVcpu :=
  let fresh := GuestVcpu.new mpidrEl1 id entry 0
  { id
    context := { fresh.context with
      gpRegs := Function.update fresh.context.gpRegs 0 ctxId
      spsrEl2 := spsrEl1hDaifMasked }
    archState := { fresh.archState with sctlrEl1 := 0x30D00800, cpacrEl1 := (3 : U64) <<< 20 } }

/-- The part of `Vm` that runs: the memory of a VM is `Vm`. -/
structure GuestVm where
  id : VmId
  state : VmRunState
  vcpus : VcpuId → Option GuestVcpu
  vcpuCount : ℕ
  scheduler : Scheduler

namespace GuestVm

def new (id : VmId) : GuestVm := ⟨id, .uninitialized, fun _ => none, 0, .new⟩

def setVcpu (vm : GuestVm) (id : VcpuId) (vcpu : GuestVcpu) : GuestVm :=
  { vm with vcpus := Function.update vm.vcpus id (some vcpu) }

@[simp] theorem setVcpu_vcpus (vm : GuestVm) (id : VcpuId) (vcpu : GuestVcpu) :
    (vm.setVcpu id vcpu).vcpus = Function.update vm.vcpus id (some vcpu) := rfl

/-- The first vCPU makes a VM ready. -/
def becomeReady (vm : GuestVm) : GuestVm :=
  if vm.state = .uninitialized then { vm with state := .ready } else vm

def createVcpu (vm : GuestVm) (mpidrEl1 : U64) (vcpuId : ℕ) : Except String GuestVm :=
  if bound : vcpuId < maxVcpus then
    if (vm.vcpus ⟨vcpuId, bound⟩).isSome then .error "vCPU already exists"
    else
      let vm := vm.setVcpu ⟨vcpuId, bound⟩ (.new mpidrEl1 ⟨vcpuId, bound⟩ 0 0)
      .ok (becomeReady { vm with vcpuCount := vm.vcpuCount + 1, scheduler := vm.scheduler.addVcpu vcpuId })
  else .error "vCPU ID out of range"

/-- The next slot is the number of vCPUs; the scheduler is not told. -/
def addVcpu (vm : GuestVm) (mpidrEl1 entryPoint stackPointer : U64) : Except String (VcpuId × GuestVm) :=
  if bound : vm.vcpuCount < maxVcpus then
    let vcpuId : VcpuId := ⟨vm.vcpuCount, bound⟩
    let vm := vm.setVcpu vcpuId (.new mpidrEl1 vcpuId entryPoint stackPointer)
    .ok (vcpuId, becomeReady { vm with vcpuCount := vm.vcpuCount + 1 })
  else .error "Maximum vCPU count reached"

/-- The number of vCPUs is taken for the bound of their ids; `none` is the panic of an index out of range. -/
def vcpu (vm : GuestVm) (vcpuId : ℕ) : Option (Option GuestVcpu) :=
  if vcpuId < vm.vcpuCount then
    if bound : vcpuId < maxVcpus then some (vm.vcpus ⟨vcpuId, bound⟩) else none
  else some none

/-- The vCPU that may then be changed. -/
def vcpuMut (vm : GuestVm) (vcpuId : ℕ) : Option (Option GuestVcpu) := vm.vcpu vcpuId

/-- `boot_secondary_vcpu`. -/
def bootSecondaryVcpu (vm : GuestVm) (id : VcpuId) (entry ctxId : U64) (e : El2) : GuestVm × El2 :=
  let vm := { vm.setVcpu id (.secondary e.mpidrEl1 id entry ctxId) with
    vcpuCount := vm.vcpuCount + 1
    scheduler := vm.scheduler.addVcpu id }
  (vm, (e.setVmState vm.id ((e.vmState vm.id).setOnline id)).resetExceptionCounters)

/-- Take a pending `CPU_ON` and boot the vCPU that it names, if that slot is free. -/
def takeCpuOn (vm : GuestVm) (e : El2) : GuestVm × El2 :=
  let vs := e.vmState vm.id
  let e := e.setVmState vm.id { vs with pendingCpuOn := vs.pendingCpuOn.take.2 }
  match vs.pendingCpuOn.take.1 with
  | none => (vm, e)
  | some (target, entry, ctxId) =>
      let vcpuId := (target &&& 0xFF).toNat
      if bound : vcpuId < maxVcpus then
        if (vm.vcpus ⟨vcpuId, bound⟩).isNone then vm.bootSecondaryVcpu ⟨vcpuId, bound⟩ entry ctxId e else (vm, e)
      else (vm, e)

/-- Unblock every vCPU that passes a test. -/
def unblockAll (test : VcpuId → Bool) (s : Scheduler) : Scheduler :=
  (List.finRange maxVcpus).foldl (fun s id => if test id then s.unblock id else s) s

/-- `wake_pending_vcpus`: vCPUs with pending interrupts are unblocked. -/
def wakePendingVcpus (vm : GuestVm) (vs : VmGlobalState) : GuestVm :=
  let pending := fun id => (vm.vcpus id).isSome && (vs.pendingSgis id != 0 || vs.pendingSpis id != 0)
  { vm with scheduler := unblockAll pending vm.scheduler }

/-- A vCPU that is online and in the table. -/
def isUp (vm : GuestVm) (vs : VmGlobalState) (id : VcpuId) : Bool := vs.isOnline id && (vm.vcpus id).isSome

/-- How far an iteration gets before guest code runs. -/
inductive Turn where
  /-- No vCPU was ready; the flag is what `run_one_iteration` returns. -/
  | idle (done : Bool) (vm : GuestVm) (e : El2)
  /-- vCPU `id` is about to run. -/
  | entry (id : VcpuId) (vcpu : GuestVcpu) (vm : GuestVm) (e : El2)

/-- SGIs first, then SPIs. -/
def injectPendingInterrupts (id : VcpuId) (vcpu : Vcpu) (vs : VmGlobalState) : Vcpu × VmGlobalState :=
  let sgis := injectPendingSgis id vcpu vs
  injectPendingSpis id sgis.1 sgis.2

/-- The preemption timer is armed only if several vCPUs of the VM are online. -/
def armPreemptionTimer (v : VmId) (e : El2) : El2 :=
  if (e.vmState v).multiVcpu then { e with cnthpArmed := true } else e

/-- The last steps before `vcpu.run()`: note who runs, hand input to the devices, inject what is
pending, and arm the preemption timer. -/
def prepareEntry (v : VmId) (id : VcpuId) (spis : VcpuId → U32) (vcpu : GuestVcpu) (e : El2) : GuestVcpu × El2 :=
  let e := e.setVmState v { e.vmState v with currentVcpuId := id }
  let e := e.setCurrent (e.currentVmState.orSpis spis)
  let injected := injectPendingInterrupts vcpu.id vcpu.toVcpu e.currentVmState
  ({ vcpu with toVcpu := injected.1 }, armPreemptionTimer v (e.setCurrent injected.2))

def enter (vm : GuestVm) (id : VcpuId) (drained : Option (VcpuId → U32)) (e : El2) : Option Turn :=
  drained.bind fun spis => (vm.vcpus id).map fun vcpu =>
    let entry := prepareEntry vm.id id spis vcpu e
    .entry id entry.1 vm entry.2

/-- `run_one_iteration` up to `vcpu.run()`. -/
def beforeRun (vm : GuestVm) (drained : Option (VcpuId → U32)) (e : El2) : Option Turn :=
  let (vm, e) := vm.takeCpuOn e
  let vm := vm.wakePendingVcpus (e.vmState vm.id)
  match vm.scheduler.pickNext with
  | (some id, scheduler) => enter { vm with scheduler } id drained e
  | (none, scheduler) =>
      -- everything is blocked: let timers fire
      let up := vm.isUp (e.vmState vm.id)
      let any := (List.finRange maxVcpus).any up
      some (.idle (!any) { vm with scheduler := unblockAll up scheduler } e)

/-- What `vcpu.run()` returns. -/
inductive RunResult where
  | ok
  | wfi
deriving DecidableEq, Repr

/-- The end of `run_one_iteration`. -/
def afterRun (vm : GuestVm) (id : VcpuId) (result : RunResult) (e : El2) : GuestVm × El2 :=
  let vs := e.vmState vm.id
  match result with
  | .ok =>
      if vs.terminalExit id then
        ({ vm with scheduler := vm.scheduler.removeVcpu id }, e.setVmState vm.id (vs.setTerminalExit id false))
      else if vs.pendingCpuOn.requested then ({ vm with scheduler := vm.scheduler.yieldCurrent }, e)
      else if vs.preemptionExit then
        ({ vm with scheduler := vm.scheduler.yieldCurrent }, e.setVmState vm.id { vs with preemptionExit := false })
      else ({ vm with scheduler := vm.scheduler.yieldCurrent }, e)
  | .wfi => ({ vm with scheduler := vm.scheduler.blockCurrent }, e)

end GuestVm

section Guest

variable {Other : Type} [DecidableEq Other]

/-- What `enter_guest` returns when a handler leaves the guest: the vector for synchronous exceptions
looks at the syndrome, the one for interrupts does not. -/
def GuestException.result (x : GuestException Other) : GuestVm.RunResult :=
  match x.cause with
  | .sync esr _ => if esrEc esr = 0x01 then .wfi else .ok
  | .irq _ => .ok

/-- How a guest stands after some exceptions. -/
inductive GuestPhase (Other : Type) where
  /-- It is still running. -/
  | running (e : El2)
  /-- A handler has left it. -/
  | left (last : GuestException Other) (handled : Handled Other)
  /-- A handler did not come back. -/
  | stopped

/-- The exceptions that a guest takes, until a handler leaves it. -/
def runGuest : List (GuestException Other) → El2 → GuestPhase Other
  | [], e => .running e
  | x :: rest, e =>
      match x.handle e with
      | none => .stopped
      | some handled => if handled.resume then runGuest rest handled.el2 else .left x handled

/-- What an iteration takes from outside. -/
structure Inputs (Other : Type) where
  /-- The SPIs raised when input is handed to the devices; `none` if that panics. -/
  drained : Option (VcpuId → U32)
  /-- What the guest does, should it run. -/
  events : List (GuestException Other)

/-- `vcpu.run()` and what follows it. -/
def GuestVm.runVcpu (vm : GuestVm) (id : VcpuId) (vcpu : GuestVcpu) (last : GuestException Other)
    (handled : Handled Other) : GuestVm × El2 :=
  let saved := { vcpu with toVcpu := vcpu.exit (fun _ => handled.context) handled.cpu }
  (vm.setVcpu id saved).afterRun id last.result handled.el2

/-- `run_one_iteration`; `none` if the iteration does not end with these inputs. -/
def GuestVm.runOneIteration (vm : GuestVm) (inputs : Inputs Other) (e : El2) : Option (Bool × GuestVm × El2) := do
  match ← vm.beforeRun inputs.drained e with
  | .idle done vm e => return (done, vm, e)
  | .entry id vcpu vm e =>
      match runGuest inputs.events e with
      | .left last handled => return (false, vm.runVcpu id vcpu last handled)
      | _ => none

end Guest

/-! ## Several VMs -/

structure System where
  el2 : El2
  vms : VmId → GuestVm

namespace System

variable {Other : Type} [DecidableEq Other]

/-- `CURRENT_VM_ID.store(v)`. -/
def activate (s : System) (v : VmId) : System := { s with el2 := { s.el2 with currentVmId := v } }

def setVm (s : System) (v : VmId) (vm : GuestVm) (e : El2) : System := ⟨e, Function.update s.vms v vm⟩

/-- One iteration of VM `v`. -/
def turn (s : System) (v : VmId) (inputs : Inputs Other) : Option (Bool × System) := do
  let (done, vm, e) ← ((s.activate v).vms v).runOneIteration inputs (s.activate v).el2
  return (done, s.setVm v vm e)

/-- `run_smp` up to its loop. -/
def startSmp (s : System) (v : VmId) : Except String System :=
  if (s.vms v).state ≠ .ready then .error "VM is not in Ready state"
  else if (s.vms v).vcpuCount = 0 then .error "No vCPUs configured"
  else .ok ((s.activate v).setVm v { s.vms v with state := .running }
    ((s.activate v).el2.setVmState v ((s.el2.vmState v).setOnline 0)))

/-- The first loop of `run_multi_vm`, for one VM. -/
def markRunning (s : System) (v : VmId) : System :=
  if (s.vms v).state = .ready then
    s.setVm v { s.vms v with state := .running } (s.el2.setVmState v ((s.el2.vmState v).setOnline 0))
  else s

def startMulti (s : System) : System := (List.finRange maxVms).foldl markRunning s

/-- `vm.state = VmState::Ready`. -/
def markReady (s : System) (v : VmId) : System := s.setVm v { s.vms v with state := .ready } s.el2

end System

/-- The second loop of `run_multi_vm` between two turns. It ends when every VM is done. -/
structure MultiVm where
  sys : System
  done : VmId → Bool
  /-- The VM whose turn is next. -/
  next : VmId

namespace MultiVm

def start (s : System) : MultiVm := ⟨s.startMulti, fun _ => false, 0⟩

/-- One round of the loop over the VMs: one that is done is skipped. -/
def step {Other : Type} [DecidableEq Other] (m : MultiVm) (inputs : Inputs Other) : Option MultiVm :=
  if m.done m.next then some { m with next := m.next + 1 }
  else (m.sys.turn m.next inputs).map fun after =>
    if after.1 then ⟨after.2.markReady m.next, Function.update m.done m.next true, m.next + 1⟩
    else ⟨after.2, m.done, m.next + 1⟩

end MultiVm

end Hypervisor
