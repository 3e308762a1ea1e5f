import Hypervisor.Concurrent.Basic
import Hypervisor.Model.RunLoop

/-! # One physical CPU per vCPU

The build with feature `multi_pcpu`: vCPU `n` runs on pCPU `n`, and the pCPUs share the state of the one VM, the
mailboxes for `PSCI_CPU_ON`, the wake-up SGI and the event register of each pCPU. A function of the source is a program
of the atomic accesses it makes; other pCPUs come in between any two of them, with sequential consistency. What the
guest does between two traps is arbitrary, as is which SPIs the devices signal and what the physical `GICD_IROUTER`
holds. Traps that touch nothing shared appear with their outcome only. A panic halts the pCPU it happens on.
-/

namespace Hypervisor

open Concurrent

/-- `PerVcpuCpuOnRequest`. -/
structure PerVcpuCpuOnRequest where
  requested : Bool
  entryPoint : U64
  contextId : U64

namespace VmGlobalState

/-- `pending_sgis` or `pending_spis`. -/
def pending (vs : VmGlobalState) (kind : PendingKind) (id : VcpuId) : U32 :=
  if kind = .sgi then vs.pendingSgis id else vs.pendingSpis id

def setPending (vs : VmGlobalState) (kind : PendingKind) (id : VcpuId) (value : U32) : VmGlobalState :=
  { vs with
    pendingSgis := fun t => if kind = .sgi ∧ t = id then value else vs.pendingSgis t
    pendingSpis := fun t => if kind = .spi ∧ t = id then value else vs.pendingSpis t }

/-- `vcpu_online_mask.fetch_and(!(1 << id))`. -/
def clearOnline (vs : VmGlobalState) (id : VcpuId) : VmGlobalState :=
  { vs with vcpuOnlineMask := vs.vcpuOnlineMask &&& ~~~((1 : U64) <<< id.val) }

end VmGlobalState

namespace MultiPcpu

/-- What the pCPUs share. -/
structure Shared where
  vs : VmGlobalState
  /-- `PENDING_CPU_ON_PER_VCPU`. -/
  pendingCpuOn : VcpuId → PerVcpuCpuOnRequest
  /-- SGI 0 is pending at the redistributor of the pCPU. -/
  wakeup : VcpuId → Bool
  /-- The event register of the pCPU, which WFE waits for. -/
  event : VcpuId → Bool
  /-- Ghost: what the last injection gave back for want of a list register. -/
  putBack : PendingKind → VcpuId → U32
  /-- Ghost: the first pCPU has queued an interrupt for the second one and not yet sent the SGI. -/
  owes : VcpuId → VcpuId → Bool
  /-- Ghost: the pCPU has made a `CPU_ON` request and not yet executed SEV. -/
  signals : VcpuId → Bool
  /-- Ghost: the pCPU has taken a `CPU_ON` request and not yet left its guest for good. -/
  serving : VcpuId → Bool
  /-- Ghost: the request in the slot was made while the pCPU was serving another one. -/
  late : VcpuId → Bool

/-! ## Accesses -/

namespace Shared

variable (s : Shared) (self target : VcpuId) (kind : PendingKind)

def init : Shared where
  vs := .new
  pendingCpuOn _ := ⟨false, 0, 0⟩
  wakeup _ := false
  event _ := false
  putBack _ _ := 0
  owes _ _ := false
  signals _ := false
  serving _ := false
  late _ := false

/-- `fetch_or` on the mask of another pCPU, or of the caller itself. -/
def orPending (bits : U32) : Shared :=
  { s with
    vs := s.vs.setPending kind target (s.vs.pending kind target ||| bits)
    owes := fun p t => s.owes p t || (decide (p = self) && decide (t = target) && decide (target ≠ self)) }

/-- `fetch_or` for an interrupt that finds no list register. -/
def requeue (bit : ℕ) : Shared :=
  { s with
    vs := s.vs.setPending kind self (s.vs.pending kind self ||| ((1 : U32) <<< bit))
    putBack := fun k t => if k = kind ∧ t = self then s.putBack k t ||| ((1 : U32) <<< bit) else s.putBack k t }

/-- `swap(0)`. -/
def takePending : Shared :=
  { s with
    vs := s.vs.setPending kind self 0
    putBack := fun k t => if k = kind ∧ t = self then 0 else s.putBack k t }

/-- The second load of the mask of online vCPUs in `handle_sgi_trap`: whoever is offline is owed nothing. -/
def forgive : Shared := { s with owes := fun p t => s.owes p t && (decide (p ≠ self) || s.vs.isOnline t) }

/-- A write to ICC_SGI1R_EL1 with INTID 0. -/
def ring (targetList : U16) : Shared :=
  { s with
    wakeup := fun t => s.wakeup t || targetList.getLsbD t.val
    owes := fun p t => s.owes p t && (decide (p ≠ self) || !targetList.getLsbD t.val) }

/-- Acknowledging the SGI. -/
def acknowledge : Shared := { s with wakeup := Function.update s.wakeup self false }

def setOnline : Shared := { s with vs := s.vs.setOnline self }

def clearOnline : Shared :=
  { s with vs := s.vs.clearOnline self, serving := Function.update s.serving self false }

def setTerminalExit (value : Bool) : Shared := { s with vs := s.vs.setTerminalExit self value }

/-- A store of `request` to the slot of a vCPU. -/
def storeSlot (slot : PerVcpuCpuOnRequest → PerVcpuCpuOnRequest) : Shared :=
  { s with pendingCpuOn := Function.update s.pendingCpuOn target (slot (s.pendingCpuOn target)) }

/-- The last store of `request`. -/
def storeRequested : Shared :=
  { s.storeSlot target ({ · with requested := true }) with
    signals := Function.update s.signals self true
    late := Function.update s.late target (s.serving target) }

/-- SEV: the event goes to every pCPU. -/
def sendEvent : Shared := { s with event := fun _ => true, signals := Function.update s.signals self false }

/-- WFE ends: the event is used up. -/
def waitForEvent : Shared := { s with event := Function.update s.event self false }

/-- `requested.compare_exchange(true, false)` of `take`. -/
def takeRequested : Shared :=
  { s.storeSlot self ({ · with requested := false }) with
    serving := Function.update s.serving self (s.serving self || (s.pendingCpuOn self).requested) }

end Shared

/-! ## What a pCPU does -/

/-- Where a pCPU is, between two stretches of hypervisor code. -/
inductive Mode
  /-- pCPU 0, before `run_vcpu`. -/
  | boot (vcpu : Vcpu)
  /-- A secondary pCPU at WFE. -/
  | idle
  /-- At the head of the run loop. -/
  | top (vcpu : Vcpu)
  /-- The guest runs. -/
  | guest (vcpu : Vcpu)
  /-- pCPU 0, after `run_vcpu`. -/
  | stopped
  /-- After a panic. -/
  | halted

abbrev LrBank := Fin 4 → U64

variable (self : VcpuId)

/-- Bit `id` of a mask. -/
def hasBit (mask : U64) (id : VcpuId) : Bool := mask &&& ((1 : U64) <<< id.val) != 0

/-- The mask with the bits of some vCPUs, as the loops build it. -/
def bitmapOf (chosen : VcpuId → Bool) : U64 :=
  (List.finRange maxVcpus).foldl (fun bitmap id => if chosen id then bitmap ||| ((1 : U64) <<< id.val) else bitmap) 0

/-! ## Interrupts -/

/-- `send_physical_sgi(0, target_list)`. -/
def sendPhysicalSgi (targetList : U16) : Prog Shared Unit := .modify (·.ring self targetList)

/-- `inject_spi`; `irouter` is what the physical distributor has for the SPI. -/
def injectSpi (intid : U32) (irouter : U64) : Prog Shared Unit :=
  if intid < 32 ∨ 63 < intid then .done ()
  else
    let target := (irouter &&& 0xFF).toNat
    if bound : target < maxVcpus then do
      Prog.modify (·.orPending self ⟨target, bound⟩ .spi ((1 : U32) <<< (intid - 32).toNat))
      if target ≠ self.val then sendPhysicalSgi self ((1 : U16) <<< target) else .done ()
    else .done ()

/-- The loop of `inject_pending_sgis`, `inject_pending_spis` and `flush_pending_spis_to_hardware` over the bits of
what was taken. `place` puts an interrupt into a list register, if one is free. -/
def placeAll (kind : PendingKind) (place : ℕ → LrBank → Option LrBank) (all : U32) : List ℕ → LrBank → Prog Shared LrBank
  | [], ichLr => .done ichLr
  | bit :: bits, ichLr =>
      if all &&& ((1 : U32) <<< bit) = 0 then placeAll kind place all bits ichLr
      else
        match place bit ichLr with
        | some ichLr => placeAll kind place all bits ichLr
        | none => do
            Prog.modify (·.requeue self kind bit)
            placeAll kind place all bits ichLr

def takeAndPlace (kind : PendingKind) (place : ℕ → LrBank → Option LrBank) (ichLr : LrBank) : Prog Shared LrBank := do
  let all ← Prog.modifyGet (·.vs.pending kind self) (·.takePending self kind)
  if all = 0 then .done ichLr else placeAll self kind place all (List.range kind.count) ichLr

/-- Into a saved list register. -/
def placeSaved (kind : PendingKind) (bit : ℕ) (ichLr : LrBank) : Option LrBank :=
  (freeSaved ichLr).map fun n =>
    Function.update ichLr n (buildLr (BitVec.ofNat 32 (kind.base + bit)) irqDefaultPriority)

/-- The live list registers, with no others. -/
def liveBank (ichLr : LrBank) : Cpu Empty
  | .ichLrEl2 n => ichLr n
  | _ => 0

/-- `inject_interrupt`, which is into a live list register. -/
def injectLive (ichVtrEl2 intid : U32) (ichLr : LrBank) : Option LrBank :=
  let (injected, cpu) := injectInterrupt ichVtrEl2 intid irqDefaultPriority (liveBank ichLr)
  if injected then some fun n => cpu (.ichLrEl2 n) else none

/-- `inject_pending_sgis`. -/
def injectPendingSgis (ichLr : LrBank) : Prog Shared LrBank := takeAndPlace self .sgi (placeSaved .sgi) ichLr

/-- `inject_pending_spis`. -/
def injectPendingSpis (ichLr : LrBank) : Prog Shared LrBank := takeAndPlace self .spi (placeSaved .spi) ichLr

/-- `flush_pending_spis_to_hardware`. -/
def flushPendingSpis (ichVtrEl2 : U32) (ichLr : LrBank) : Prog Shared LrBank :=
  takeAndPlace self .spi (fun bit => injectLive ichVtrEl2 (BitVec.ofNat 32 (bit + 32))) ichLr

/-- The loop of `handle_sgi_trap` over a target list: the flag is whether an SGI was queued for another vCPU. -/
def queueSgis (ichVtrEl2 : U32) (targetList intid : U64) :
    List VcpuId → LrBank → Bool → Prog Shared (LrBank × Bool)
  | [], ichLr, remoteQueued => .done (ichLr, remoteQueued)
  | bit :: bits, ichLr, remoteQueued =>
      if hasBit targetList bit = false then queueSgis ichVtrEl2 targetList intid bits ichLr remoteQueued
      else if bit = self then
        queueSgis ichVtrEl2 targetList intid bits ((injectLive ichVtrEl2 (intid.setWidth 32) ichLr).getD ichLr) remoteQueued
      else do
        Prog.modify (·.orPending self bit .sgi ((1 : U32) <<< intid.toNat))
        queueSgis ichVtrEl2 targetList intid bits ichLr true

/-- `handle_sgi_trap`. For all but the caller, the mask of online vCPUs is loaded once for the SGIs and once for the
pCPUs to wake. -/
def handleSgiTrap (ichVtrEl2 : U32) (value : U64) (ichLr : LrBank) : Prog Shared LrBank :=
  let targetList := value &&& 0xFFFF
  let intid := (value >>> 24) &&& 0xF
  if (value >>> 40) &&& 1 = 1 then do
    let online ← Prog.read (·.vs.vcpuOnlineMask)
    let targets := (List.finRange maxVcpus).filter fun id => id ≠ self && hasBit online id
    Prog.forEach (fun id => .modify (·.orPending self id .sgi ((1 : U32) <<< intid.toNat))) targets
    if targets = [] then .done ichLr
    else do
      let online ← Prog.modifyGet (·.vs.vcpuOnlineMask) (·.forgive self)
      let targetBitmap := bitmapOf fun id => id ≠ self && hasBit online id
      if targetBitmap = 0 then .done ichLr
      else do
        sendPhysicalSgi self (targetBitmap.setWidth 16)
        .done ichLr
  else do
    let queued ← queueSgis self ichVtrEl2 targetList intid (List.finRange maxVcpus) ichLr false
    let targetBitmap := bitmapOf fun id => hasBit targetList id && id ≠ self
    if queued.2 = false ∨ targetBitmap = 0 then .done queued.1
    else do
      sendPhysicalSgi self (targetBitmap.setWidth 16)
      .done queued.1

/-! ## Power -/

/-- `PerVcpuCpuOnRequest::request` and the SEV that follows it. -/
def requestCpuOn (target : VcpuId) (entry ctx : U64) : Prog Shared Unit := do
  Prog.modify (·.storeSlot target ({ · with entryPoint := entry }))
  Prog.modify (·.storeSlot target ({ · with contextId := ctx }))
  Prog.modify (·.storeRequested self target)
  Prog.modify (·.sendEvent self)

/-- `PerVcpuCpuOnRequest::take`. -/
def takeCpuOn : Prog Shared (Option (U64 × U64)) := do
  let requested ← Prog.modifyGet (fun s => (s.pendingCpuOn self).requested) (·.takeRequested self)
  if requested then do
    let entry ← Prog.read fun s => (s.pendingCpuOn self).entryPoint
    let ctx ← Prog.read fun s => (s.pendingCpuOn self).contextId
    .done (some (entry, ctx))
  else .done none

/-- `handle_psci`: whether the guest continues, and its registers; `none` is a panic. What touches nothing shared is
as in the other build. -/
def handlePsci (numCpus : ℕ) (context : VcpuContext) (functionId : U64) : Prog Shared (Option (Bool × VcpuContext)) :=
  if functionId = psciCpuOff then do
    Prog.modify (·.setTerminalExit self true)
    .done (some (false, context.setX 0 psciSuccess))
  else if functionId = psciCpuOn32 ∨ functionId = psciCpuOn64 then
    let targetId := (context.gpRegs 1 &&& 0xFF).toNat
    if numCpus ≤ targetId then .done (some (false, context.setX 0 psciSuccess))
    else if bound : targetId < maxVcpus then do
      requestCpuOn self ⟨targetId, bound⟩ (context.gpRegs 2) (context.gpRegs 3)
      .done (some (false, context.setX 0 psciSuccess))
    -- the index is out of bounds
    else .done none
  else if functionId = psciAffinityInfo32 ∨ functionId = psciAffinityInfo64 then do
    let online ← Prog.read (·.vs.vcpuOnlineMask)
    .done ((affinityInfo (context.gpRegs 1) online).map fun state => (true, context.setX 0 state))
  else if functionId = psciSystemOff ∨ functionId = psciSystemReset then do
    Prog.modify (·.setTerminalExit self true)
    .done (some (false, context))
  else .done ((Hypervisor.handlePsci context functionId .new).map fun answer => (answer.1, answer.2.1))

/-! ## The run loop -/

/-- `run_vcpu` and `secondary_enter_guest` after `vcpu.run()` has returned `Ok`. -/
def leaveGuest (vcpu : Vcpu) : Prog Shared Mode := do
  let terminal ← Prog.modifyGet (·.vs.terminalExit self) (·.setTerminalExit self false)
  if terminal = false then .done (.top vcpu)
  else if self = 0 then .done .stopped
  else do
    Prog.modify (·.clearOnline self)
    .done .idle

/-- The head of the run loop. pCPU 0 first hands the input of the UART and of the switch to the devices, which may
signal SPIs. -/
def enterLoop (spis : List (U32 × U64)) (vcpu : Vcpu) : Prog Shared Mode := do
  Prog.forEach (fun spi => injectSpi self spi.1 spi.2) spis
  let ichLr ← injectPendingSgis self vcpu.archState.ichLr
  let ichLr ← injectPendingSpis self ichLr
  .done (.guest (vcpu.setIchLr ichLr))

/-- What takes a pCPU out of its guest. -/
inductive Trap
  /-- A write to ICC_SGI1R_EL1. -/
  | sgi (value : U64)
  /-- An access to a device, the SPIs it signals, and whether it is handled. -/
  | mmio (spis : List (U32 × U64)) (handled : Bool)
  /-- A PSCI call, by HVC or SMC. -/
  | psci (functionId : U64)
  /-- An interrupt that is the wake-up SGI, or spurious. -/
  | irq
  /-- Anything else, and whether the guest goes on. -/
  | other (resume : Bool)
  /-- The guest executes WFE, which does not trap. -/
  | wfe

/-- The handlers, up to the next ERET or to the run loop. -/
def handleTrap (numCpus : ℕ) (ichVtrEl2 : U32) (vcpu : Vcpu) : Trap → Prog Shared Mode
  | .sgi value => do
      let ichLr ← handleSgiTrap self ichVtrEl2 value vcpu.archState.ichLr
      .done (.guest (vcpu.setIchLr ichLr))
  | .mmio spis handled => do
      Prog.forEach (fun spi => injectSpi self spi.1 spi.2) spis
      if handled then do
        let ichLr ← flushPendingSpis self ichVtrEl2 vcpu.archState.ichLr
        .done (.guest (vcpu.setIchLr ichLr))
      else leaveGuest self vcpu
  | .psci functionId => do
      let answer ← handlePsci self numCpus vcpu.context functionId
      match answer with
      | none => .done .halted
      | some (resume, context) =>
          if resume then .done (.guest { vcpu with context }) else leaveGuest self { vcpu with context }
  | .irq => do
      let woken ← Prog.modifyGet (·.wakeup self) (·.acknowledge self)
      if woken then leaveGuest self vcpu else .done (.guest vcpu)
  | .other resume => if resume then .done (.guest vcpu) else leaveGuest self vcpu
  | .wfe => do
      Prog.modify (·.waitForEvent self)
      .done (.guest vcpu)

/-- One round of the idle loop of `rust_main_secondary`, up to the run loop of `secondary_enter_guest`. -/
def idleRound (mpidrEl1 : U64) : Prog Shared Mode := do
  Prog.modify (·.waitForEvent self)
  let request ← takeCpuOn self
  match request with
  | none => .done .idle
  | some (entry, ctx) => do
      Prog.modify (·.setOnline self)
      .done (.top (GuestVcpu.secondary mpidrEl1 self entry ctx).toVcpu)

/-- `run_vcpu` up to its loop. -/
def runVcpu (vcpu : Vcpu) : Prog Shared Mode := do
  Prog.modify (·.setOnline self)
  .done (.top vcpu)

/-- The code that a pCPU may start. Only pCPU 0 serves the devices at the head of the loop, and the guest has done
what it likes to its registers. -/
inductive Code (numCpus : ℕ) (ichVtrEl2 : U32) : VcpuId → Mode → Prog Shared Mode → Prop
  | boot (vcpu : Vcpu) : Code numCpus ichVtrEl2 0 (.boot vcpu) (runVcpu 0 vcpu)
  | idle {self : VcpuId} (mpidrEl1 : U64) (secondary : self ≠ 0) :
      Code numCpus ichVtrEl2 self .idle (idleRound self mpidrEl1)
  | top {self : VcpuId} {vcpu : Vcpu} (spis : List (U32 × U64)) (served : self ≠ 0 → spis = []) :
      Code numCpus ichVtrEl2 self (.top vcpu) (enterLoop self spis vcpu)
  | guest {self : VcpuId} {vcpu : Vcpu} (trap : Trap) (vcpu' : Vcpu) :
      Code numCpus ichVtrEl2 self (.guest vcpu) (handleTrap self numCpus ichVtrEl2 vcpu' trap)

/-- The start: pCPU 0 has its vCPU, the others wait. -/
def start (vcpu : Vcpu) : Config VcpuId Shared Mode where
  shared := .init
  thread t := if t = 0 then .done (.boot vcpu) else .done .idle

/-- The states that some interleaving reaches. -/
def Reached (numCpus : ℕ) (ichVtrEl2 : U32) (c : Config VcpuId Shared Mode) : Prop :=
  ∃ vcpu, Config.Reach (Code numCpus ichVtrEl2) (fun _ => True) (start vcpu) c

end MultiPcpu

end Hypervisor
