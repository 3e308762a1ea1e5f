import Hypervisor.Model.ListRegisters
import Hypervisor.Model.Psci

/-! # The exception handlers

`handle_exception` and `handle_irq_exception` of `exception.rs` for the normal world on one physical
CPU: what they do to the saved registers, to the live ones and to the state they share with the run
loop, and whether the guest continues. Devices, the FF-A proxy and EL3 are behind `Reply`. `none` is
a handler that does not come back: a panic, the halt after too many exceptions, or a callee that
never returns. Console output, the bytes of the physical UART and the diagnostic reads of the aborts
are left out.
-/

namespace Hypervisor

/-- The statics and the hardware that the handlers and the run loop use besides the guest's registers. -/
structure El2 where
  currentVmId : VmId
  /-- `VM_STATE`. -/
  vmState : VmId → VmGlobalState
  exceptionCount : U32
  wfiConsecutiveCount : U32
  lastWfiPc : U64
  /-- `CNTHP_CTL_EL2.ENABLE`: the preemption timer is armed. -/
  cnthpArmed : Bool
  /-- The identity of the physical CPU. -/
  mpidrEl1 : U64
  /-- The number of list registers, minus one. -/
  ichVtrEl2 : U32

namespace El2

/-- `vm_state(v)`, written. -/
def setVmState (e : El2) (v : VmId) (vs : VmGlobalState) : El2 :=
  { e with vmState := Function.update e.vmState v vs }

/-- `current_vm_state()`. -/
def currentVmState (e : El2) : VmGlobalState := e.vmState e.currentVmId

def setCurrent (e : El2) (vs : VmGlobalState) : El2 := e.setVmState e.currentVmId vs

def resetExceptionCount (e : El2) : El2 := { e with exceptionCount := 0 }

def resetExceptionCounters (e : El2) : El2 :=
  { e with exceptionCount := 0, wfiConsecutiveCount := 0, lastWfiPc := 0 }

end El2

/-- What devices, the FF-A proxy or EL3 do with a call that is passed on to them: the guest's new
registers, whether a device took the access, and the SPIs that were routed to each vCPU. -/
structure Reply where
  gpRegs : Fin 31 → U64
  handled : Bool
  spis : VcpuId → U32

/-- What a handler leaves: whether the guest continues, its saved and live registers, and EL2. -/
structure Handled (Other : Type) where
  resume : Bool
  context : VcpuContext
  cpu : Cpu Other
  el2 : El2

/-! ## Exit reasons -/

inductive ExitReason where
  | unknown
  | wfiWfe
  | hvcCall
  | smcCall
  | trapMsrMrs
  | instructionAbort
  | dataAbort
  | other (ec : U64)
deriving DecidableEq, Repr

/-- `(esr >> ESR_EC_SHIFT) & ESR_EC_MASK`. -/
def esrEc (esr : U64) : U64 := (esr >>> 26) &&& 0x3F

def exitReason (esr : U64) : ExitReason :=
  let ec := esrEc esr
  if ec = 0x00 then .unknown
  else if ec = 0x01 then .wfiWfe
  else if ec = 0x16 then .hvcCall
  else if ec = 0x17 then .smcCall
  else if ec = 0x18 then .trapMsrMrs
  else if ec = 0x20 ∨ ec = 0x21 then .instructionAbort
  else if ec = 0x24 ∨ ec = 0x25 then .dataAbort
  else .other ec

def maxConsecutiveExceptions : U32 := 100
def maxConsecutiveWfi : U32 := 500000
def aarch64InsnSize : U64 := 4
def gicSpuriousIntid : U32 := 1020
def jailhouseHvcImmediate : U64 := 0x4A48

/-- `context.pc += AARCH64_INSN_SIZE`. -/
def VcpuContext.advance (context : VcpuContext) : Option VcpuContext :=
  (checkedAdd context.pc aarch64InsnSize).map fun pc => { context with pc }

section Handlers

variable {Other : Type}

/-! ## The guest's timer -/

def timerEnable : U64 := 1 <<< 0
def timerImask : U64 := 1 <<< 1
def timerIstatus : U64 := 1 <<< 2

def isGuestVtimerPending (cpu : Cpu Other) : Bool :=
  let ctl : U64 := cpu .cntvCtlEl0
  ctl &&& timerEnable != 0 && ctl &&& timerIstatus != 0 && !(ctl &&& timerImask != 0)

variable [DecidableEq Other]

def maskGuestVtimer (cpu : Cpu Other) : Cpu Other :=
  let ctl : U64 := cpu .cntvCtlEl0
  Function.update cpu .cntvCtlEl0 (ctl ||| timerImask)

/-! ## WFI -/

def injectVtimer (cpu : Cpu Other) (e : El2) : Cpu Other :=
  (injectInterrupt e.ichVtrEl2 vtimerIrq irqDefaultPriority cpu).2

/-- One more WFI at the same place, the `count`-th in a row. -/
def handleRepeatedWfi (count : U32) (cpu : Cpu Other) (e : El2) : Bool × Cpu Other × El2 :=
  let counted := { e with wfiConsecutiveCount := count }
  let cleared := { e with wfiConsecutiveCount := 0 }
  if maxConsecutiveWfi < count then (false, cpu, counted)
  else if isGuestVtimerPending cpu then (true, injectVtimer (maskGuestVtimer cpu) e, cleared)
  else if 0 < pendingCount e.ichVtrEl2 cpu then (true, cpu, cleared)
  -- an occasional tick, so that the guest makes progress
  else if count % 100 = 0 then (true, injectVtimer cpu e, counted)
  else (true, cpu, counted)

/-- The flag is whether the guest goes on. -/
def handleWfiWithTimerInjection (context : VcpuContext) (cpu : Cpu Other) (e : El2) :
    Option (Bool × Cpu Other × El2) :=
  if context.pc ≠ e.lastWfiPc then
    some (true, injectVtimer cpu e, { e with wfiConsecutiveCount := 0, lastWfiPc := context.pc })
  else (checkedAddU32 e.wfiConsecutiveCount 1).map fun count => handleRepeatedWfi count cpu e

/-! ## SGIs -/

/-- The vCPUs that a write to `ICC_SGI1R_EL1` targets besides the caller. -/
def sgiTargets (value : U64) (vs : VmGlobalState) (id : VcpuId) : Bool :=
  if (value >>> 40) &&& 1 = 1 then vs.isOnline id else value &&& 0xFFFF &&& ((1 : U64) <<< id.val) != 0

/-- `handle_sgi_trap`: SGIs for other vCPUs are queued, one for the caller itself goes to a list
register. -/
def handleSgiTrap (value : U64) (cpu : Cpu Other) (e : El2) : Cpu Other × El2 :=
  let vs := e.currentVmState
  let intid : U64 := (value >>> 24) &&& 0xF
  let self := (value >>> 40) &&& 1 ≠ 1 ∧ sgiTargets value vs vs.currentVcpuId
  let pendingSgis := fun id =>
    if id ≠ vs.currentVcpuId ∧ sgiTargets value vs id then vs.pendingSgis id ||| ((1 : U32) <<< intid.toNat)
    else vs.pendingSgis id
  (if self then (injectInterrupt e.ichVtrEl2 (intid.setWidth 32) irqDefaultPriority cpu).2 else cpu,
    e.setCurrent { vs with pendingSgis })

/-! ## System registers -/

/-- The fields of a trapped MSR or MRS: Op0, Op1, CRn, CRm and Op2. -/
def sysRegOf (esr : U64) : U64 × U64 × U64 × U64 × U64 :=
  ((esr >>> 20) &&& 0x3, (esr >>> 14) &&& 0x7, (esr >>> 10) &&& 0xF, (esr >>> 1) &&& 0xF, (esr >>> 17) &&& 0x7)

def emulateMrs (reg : U64 × U64 × U64 × U64 × U64) (cpu : Cpu Other) : U64 :=
  if reg = (2, 0, 0, 2, 2) then cpu .mdscrEl1
  else if reg = (2, 0, 1, 1, 4) then 1 <<< 3
  else 0

/-- Besides SGIs only MDSCR_EL1 is written; the OS lock is not a register of the model. -/
def emulateMsr (reg : U64 × U64 × U64 × U64 × U64) (value : U64) (cpu : Cpu Other) (e : El2) : Cpu Other × El2 :=
  if reg = (3, 0, 12, 11, 5) then handleSgiTrap value cpu e
  else if reg = (2, 0, 0, 2, 2) then (Function.update cpu .mdscrEl1 value, e)
  else (cpu, e)

/-- `handle_msr_mrs_trap`. Register 31 is XZR. -/
def handleMsrMrsTrap (context : VcpuContext) (esr : U64) (cpu : Cpu Other) (e : El2) :
    VcpuContext × Cpu Other × El2 :=
  let rt := ((esr >>> 5) &&& 0x1F).toNat
  if esr &&& 1 = 1 then
    let value := emulateMrs (sysRegOf esr) cpu
    (if bound : rt < 31 then context.setX ⟨rt, bound⟩ value else context, cpu, e)
  else
    let value := if bound : rt < 31 then context.gpRegs ⟨rt, bound⟩ else 0
    (context, emulateMsr (sysRegOf esr) value cpu e)

/-! ## Calls -/

/-- `is_ffa_function`. -/
def isFfaFunction (fid : U64) : Bool :=
  (fid &&& 0xFFFFFF00 = 0x84000000 || fid &&& 0xFFFFFF00 = 0xC4000000) && 0x60 ≤ fid &&& 0xFF

/-- The debug console: only reading a character needs the device. -/
def handleJailhouseDebugConsole (context : VcpuContext) (reply : Option Reply) : Option VcpuContext :=
  if context.gpRegs 0 = 9 then reply.map fun reply => context.setX 0 (reply.gpRegs 0)
  else some (context.setX 0 0)

/-- `handle_hypercall`. -/
def handleHypercall (context : VcpuContext) (esr : U64) (reply : Option Reply) (vs : VmGlobalState) :
    Option (Bool × VcpuContext × VmGlobalState) :=
  let hypercallNum := context.gpRegs 0
  if esr &&& 0xFFFF = jailhouseHvcImmediate then
    (handleJailhouseDebugConsole context reply).map (true, ·, vs)
  else if hypercallNum &&& 0x80000000 ≠ 0 then handlePsci context hypercallNum vs
  else if hypercallNum = 0 then some (true, context.setX 0 0, vs)
  else if hypercallNum = 1 then some (false, context.setX 0 0, vs)
  else some (false, context.setX 0 (~~~0), vs)

/-- `handle_smc`: PSCI, FF-A, or forwarded to EL3, which answers in x0 to x3. -/
def handleSmc (context : VcpuContext) (reply : Option Reply) (vs : VmGlobalState) :
    Option (Bool × VcpuContext × VmGlobalState) :=
  let functionId := context.gpRegs 0
  if isPsciFunction functionId then handlePsci context functionId vs
  else if isFfaFunction functionId then reply.map fun reply => (true, { context with gpRegs := reply.gpRegs }, vs)
  else reply.map fun reply =>
    (true, { context with gpRegs := fun n => if n.val < 4 then reply.gpRegs n else context.gpRegs n }, vs)

/-! ## Aborts -/

/-- `flush_pending_spis_to_hardware`. -/
def flushPendingSpis (cpu : Cpu Other) (e : El2) : Cpu Other × El2 :=
  let vs := e.currentVmState
  let pending := vs.pendingSpis vs.currentVcpuId
  let (cpu, requeued) := (List.range 32).foldl (fun (cpu, requeued) bit =>
    if pending &&& ((1 : U32) <<< bit) = 0 then (cpu, requeued)
    else
      let (injected, cpu) := injectInterrupt e.ichVtrEl2 (BitVec.ofNat 32 (bit + 32)) irqDefaultPriority cpu
      (cpu, if injected then requeued else requeued ||| ((1 : U32) <<< bit))) (cpu, (0 : U32))
  (cpu, e.setCurrent { vs with pendingSpis := Function.update vs.pendingSpis vs.currentVcpuId requeued })

/-- A data abort: an access that a device takes is skipped and continued, any other one leaves the
guest. -/
def handleDataAbort (context : VcpuContext) (reply : Option Reply) (cpu : Cpu Other) (e : El2) :
    Option (Handled Other) := do
  let reply ← reply
  let e := e.setCurrent (e.currentVmState.orSpis reply.spis)
  if reply.handled then
    let context ← VcpuContext.advance { context with gpRegs := reply.gpRegs }
    let (cpu, e) := flushPendingSpis cpu e.resetExceptionCount
    return ⟨true, context, cpu, e⟩
  return ⟨false, context, cpu, e⟩

/-! ## The two entry points -/

/-- A trapped WFI. With several vCPUs online the guest is always left, so that another one can run. -/
def exitWfi (context : VcpuContext) (cpu : Cpu Other) (e : El2) : Option (Handled Other) := do
  let (inject, cpu, e) ← handleWfiWithTimerInjection context cpu e
  if e.currentVmState.multiVcpu then context.advance.map (⟨false, ·, cpu, e⟩)
  else if inject then context.advance.map (⟨true, ·, cpu, e⟩)
  else some ⟨false, context, cpu, e⟩

def exitHvc (context : VcpuContext) (cpu : Cpu Other) (esr : U64) (reply : Option Reply) (e : El2) :
    Option (Handled Other) :=
  (handleHypercall context esr reply e.currentVmState).map fun (resume, context, vs) =>
    ⟨resume, context, cpu, e.setCurrent vs⟩

/-- The PC of a trapped SMC is the instruction itself. -/
def exitSmc (context : VcpuContext) (cpu : Cpu Other) (reply : Option Reply) (e : El2) : Option (Handled Other) := do
  let (resume, context, vs) ← handleSmc context reply e.currentVmState
  context.advance.map (⟨resume, ·, cpu, e.setCurrent vs⟩)

def exitMsrMrs (context : VcpuContext) (cpu : Cpu Other) (esr : U64) (e : El2) : Option (Handled Other) :=
  let (context, cpu, e) := handleMsrMrsTrap context esr cpu e
  context.advance.map (⟨true, ·, cpu, e⟩)

/-- FP, SIMD and SVE traps are skipped; any other class leaves the guest. -/
def exitOther (context : VcpuContext) (cpu : Cpu Other) (ec : U64) (e : El2) : Option (Handled Other) :=
  if ec = 0x07 ∨ ec = 0x09 ∨ ec = 0x19 then context.advance.map (⟨true, ·, cpu, e⟩)
  else some ⟨false, context, cpu, e⟩

/-- `handle_exception` by exit reason. Aborts and unknown classes do not reset the counter. -/
def dispatchException (context : VcpuContext) (cpu : Cpu Other) (esr : U64) (reply : Option Reply) (e : El2) :
    Option (Handled Other) :=
  match exitReason esr with
  | .wfiWfe => exitWfi context cpu e.resetExceptionCount
  | .hvcCall => exitHvc context cpu esr reply e.resetExceptionCount
  | .smcCall => exitSmc context cpu reply e.resetExceptionCount
  | .trapMsrMrs => exitMsrMrs context cpu esr e.resetExceptionCount
  | .instructionAbort => some ⟨false, context, cpu, e⟩
  | .dataAbort => handleDataAbort context reply cpu e
  | .other ec => exitOther context cpu ec e
  | .unknown => some ⟨false, context, cpu, e⟩

/-- `handle_exception`, on the context that the vector has saved. Too many exceptions in a row halt
the system. -/
def handleException (cpu : Cpu Other) (esr : U64) (reply : Option Reply) (e : El2) : Option (Handled Other) := do
  let count ← checkedAddU32 e.exceptionCount 1
  if maxConsecutiveExceptions < count then none
  else dispatchException (saveContext cpu) cpu esr reply { e with exceptionCount := count }

/-- Another vCPU than the running one has an SGI pending. -/
def needsSwitch (vs : VmGlobalState) : Bool :=
  (List.finRange maxVcpus).any fun id => id ≠ vs.currentVcpuId && vs.pendingSgis id != 0

/-- `handle_irq_exception` for the acknowledged interrupt. -/
def handleIrqException (cpu : Cpu Other) (intid : U32) (e : El2) : Handled Other :=
  let context := saveContext cpu
  let e := e.resetExceptionCount
  let vs := e.currentVmState
  if gicSpuriousIntid ≤ intid then ⟨true, context, cpu, e⟩
  else if intid ≤ 15 then
    -- a physical SGI is for vCPU 0
    if vs.currentVcpuId = 0 then
      ⟨true, context, (injectInterrupt e.ichVtrEl2 intid irqDefaultPriority cpu).2, e⟩
    else ⟨true, context, cpu, e.setCurrent (vs.orSgis 0 ((1 : U32) <<< intid.toNat))⟩
  else if intid = 26 then
    -- the preemption watchdog
    let e := { e with cnthpArmed := false }
    if vs.multiVcpu then ⟨false, context, cpu, e.setCurrent { vs with preemptionExit := true }⟩
    else ⟨true, context, cpu, e⟩
  else if intid = 33 then ⟨false, context, cpu, e⟩
  else if intid = 27 then
    let cpu := (injectHwInterrupt e.ichVtrEl2 vtimerIrq vtimerIrq irqDefaultPriority (maskGuestVtimer cpu)).2
    if vs.multiVcpu && needsSwitch vs then ⟨false, context, cpu, e.setCurrent { vs with preemptionExit := true }⟩
    else ⟨true, context, cpu, e⟩
  else ⟨true, context, cpu, e⟩

/-- Whether `handle_irq_exception` writes `ICC_DIR_EL1` for the interrupt. The write to `ICC_EOIR1_EL1`, which it
always does, only drops the priority and leaves the interrupt active. -/
def deactivates (intid : U32) : Bool := intid < gicSpuriousIntid && intid != 27

end Handlers

/-! ## What a guest does -/

/-- Why a guest is interrupted. -/
inductive Cause where
  /-- A synchronous exception, with the syndrome and the answer of whatever is asked for it. -/
  | sync (esr : U64) (reply : Option Reply)
  | irq (intid : U32)

/-- One exception that is taken from a guest, with the registers at that point. -/
structure GuestException (Other : Type) where
  cpu : Cpu Other
  cause : Cause

namespace GuestException

variable {Other : Type} [DecidableEq Other]

def handle (x : GuestException Other) (e : El2) : Option (Handled Other) :=
  match x.cause with
  | .sync esr reply => handleException x.cpu esr reply e
  | .irq intid => some (handleIrqException x.cpu intid e)

end GuestException

end Hypervisor
