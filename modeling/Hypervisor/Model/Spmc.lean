import Hypervisor.Model.Exception
import Hypervisor.Model.Ffa
import Hypervisor.Model.Memory

/-! # The secure partition manager

`sp_context.rs` and `spmc_handler.rs` in a build for S-EL2: the state machine of a secure partition
(SP), the store of SPs, and the dispatch of one request from the normal world. An SP that is entered
runs until an exit, with whatever registers it likes; `none` is a failed `expect`. The preemption timer
is on during the stay only. Descriptors go to the memory of the normal world, which is not the store.
-/

namespace Hypervisor

/-! ## Secure partitions -/

inductive SpState where
  /-- Loaded, not yet booted. -/
  | reset
  /-- Booted and waiting for a message. -/
  | idle
  | running
  | blocked
  /-- Interrupted; `FFA_RUN` resumes it. -/
  | preempted
deriving DecidableEq, Repr

structure SpContext where
  ctx : VcpuContext
  id : U16
  state : SpState
  entry : U64
  /-- The root of the SP's Stage 2. -/
  vsttbr : U64
  uuid : Fin 4 → U32

/-- The registers of a request or of a response. -/
abbrev SmcResult8 := GpRegs

namespace SpContext

def new (spId : U16) (entryPoint stackTop : U64) (uuid : Fin 4 → U32) : SpContext where
  ctx := ⟨fun _ => 0, stackTop, 0, 0, entryPoint, spsrEl1hDaifMasked⟩
  id := spId
  state := .reset
  entry := entryPoint
  vsttbr := 0
  uuid := uuid

def validTransition : SpState → SpState → Bool
  | .reset, .idle => true
  | .idle, .running => true
  | .running, .idle => true
  | .running, .blocked => true
  | .blocked, .running => true
  | .running, .preempted => true
  | .preempted, .running => true
  | _, _ => false

def transitionTo (sp : SpContext) (newState : SpState) : Except String SpContext :=
  if validTransition sp.state newState then .ok { sp with state := newState } else .error "invalid SP state transition"

def setArgs (sp : SpContext) (args : SmcResult8) : SpContext :=
  let values := [args.x0, args.x1, args.x2, args.x3, args.x4, args.x5, args.x6, args.x7]
  { sp with ctx := { sp.ctx with gpRegs := fun n => values.getD n.val (sp.ctx.gpRegs n) } }

def getArgs (sp : SpContext) : SmcResult8 :=
  let x := sp.ctx.gpRegs
  ⟨x 0, x 1, x 2, x 3, x 4, x 5, x 6, x 7⟩

end SpContext

/-- How a stay in an SP ends: the registers, and why; `none` is an interrupt. -/
structure SpExit where
  context : VcpuContext
  reason : Option ExitReason

/-- `SP_IRQ_PREEMPTED` after the stay. -/
def SpExit.preempted (exit : SpExit) : Bool := exit.reason.isNone

/-! ## The manager -/

abbrev maxSps : ℕ := 4

/-- The RX and TX buffers of the normal world. -/
structure NwdRxtxState where
  txPa : U64
  rxPa : U64
  pageCount : U32
  mapped : Bool

structure Spmc where
  spStore : Fin maxSps → Option SpContext
  nwdRxtx : NwdRxtxState
  /-- The memory of the normal world. -/
  ram : GuestRam

/-- What `enter_guest` is given: the registers, under the Stage 2 of the SP in that slot. -/
structure SpEntry where
  slot : Fin maxSps
  ctx : VcpuContext
  vsttbr : U64

/-- What becomes of a request: the response, the manager, and the SP that was entered, if any. -/
structure Dispatched where
  response : SmcResult8
  spmc : Spmc
  entered : Option SpEntry

/-- `make_error`: the error code is sign-extended. -/
def makeError (errorCode : I32) : SmcResult8 := { x0 := ffaErrorId, x2 := errorCode.signExtend 64 }

def success : SmcResult8 := { x0 := ffaSuccess32 }

def ffaVersion11 : U32 := 0x00010001
def ffaSpmcId : U16 := 0x8000
def ffaFwkMsgBit : U64 := (1 : U64) <<< 31
def spmdFwkMsgFfaVersionReq : U64 := 0x8
def spmdFwkMsgFfaVersionResp : U64 := 0x9

/-- x1 with source and destination swapped. -/
def swapped (x1 : U64) : U64 :=
  let source := (x1 >>> 16) &&& 0xFFFF
  let dest := x1 &&& 0xFFFF
  (dest <<< 16) ||| source

namespace Spmc

variable (spmc : Spmc)

/-- The first slot with that identifier. -/
def getSp (spId : U16) : Option (Fin maxSps) :=
  (List.finRange maxSps).find? fun slot => (spmc.spStore slot).any fun sp => sp.id == spId

def isRegisteredSp (spId : U16) : Bool := (spmc.getSp spId).isSome

def setSp (slot : Fin maxSps) (sp : SpContext) : Spmc :=
  { spmc with spStore := Function.update spmc.spStore slot (some sp) }

/-! ## Entering an SP -/

/-- The common part of `dispatch_to_sp` and `resume_preempted_sp`: the SP in the slot runs, and the
response is either that it was interrupted or its x0 to x7. -/
def runSp (slot : Fin maxSps) (sp : SpContext) (exit : SpExit) : Except String Dispatched := do
  let sp ← sp.transitionTo .running
  let entry : SpEntry := ⟨slot, sp.ctx, sp.vsttbr⟩
  let sp := { sp with ctx := exit.context }
  if exit.preempted then
    let sp ← sp.transitionTo .preempted
    return ⟨{ x0 := ffaInterrupt }, spmc.setSp slot sp, some entry⟩
  let sp ← sp.transitionTo .idle
  return ⟨sp.getArgs, spmc.setSp slot sp, some entry⟩

/-- The SP with an identifier, in its slot. -/
def findSp (spId : U16) : Option (Fin maxSps × SpContext) :=
  (spmc.getSp spId).bind fun slot => (spmc.spStore slot).map (slot, ·)

def dispatchToSp (req : SmcResult8) (spId : U16) (exit : SpExit) : Except String Dispatched :=
  match spmc.findSp spId with
  | none => .ok ⟨makeError ffaInvalidParameters, spmc, none⟩
  | some (slot, sp) =>
      if sp.state ≠ .idle then .ok ⟨makeError ffaBusy, spmc, none⟩
      else spmc.runSp slot (sp.setArgs req) exit

def resumePreemptedSp (spId : U16) (exit : SpExit) : Except String Dispatched :=
  match spmc.findSp spId with
  | none => .ok ⟨makeError ffaInvalidParameters, spmc, none⟩
  | some (slot, sp) =>
      if sp.state ≠ .preempted then .ok ⟨makeError ffaDenied, spmc, none⟩
      else spmc.runSp slot sp exit

/-! ## Requests that the manager answers itself -/

def handleRxtxMap (req : SmcResult8) : SmcResult8 × Spmc :=
  let txPa := req.x1
  let rxPa := req.x2
  let pageCount : U32 := req.x3.setWidth 32
  if txPa &&& 0xFFF ≠ 0 ∨ rxPa &&& 0xFFF ≠ 0 ∨ pageCount = 0 then (makeError ffaInvalidParameters, spmc)
  else if spmc.nwdRxtx.mapped then (makeError ffaDenied, spmc)
  else (success, { spmc with nwdRxtx := ⟨txPa, rxPa, pageCount, true⟩ })

def handleRxtxUnmap : SmcResult8 × Spmc :=
  if spmc.nwdRxtx.mapped then (success, { spmc with nwdRxtx := ⟨0, 0, 0, false⟩ }) else (makeError ffaDenied, spmc)

def handleRxRelease : SmcResult8 × Spmc :=
  if spmc.nwdRxtx.mapped then (success, spmc) else (makeError ffaDenied, spmc)

/-- One descriptor of 24 bytes: the identifier, one execution context, direct requests only, the UUID. -/
def writeDescriptor (ram : GuestRam) (ptr : ℕ) (sp : SpContext) : GuestRam :=
  let ram := writeU16 ram ptr sp.id
  let ram := writeU16 ram (ptr + 2) 1
  let ram := writeU32 ram (ptr + 4) 1
  (List.finRange 4).foldl (fun ram n => writeU32 ram (ptr + 8 + 4 * n.val) (sp.uuid n)) ram

/-- `handle_partition_info_get`: the descriptors that fit are written, all SPs are counted. -/
def handlePartitionInfoGet : SmcResult8 × Spmc :=
  let maxBytes := if spmc.nwdRxtx.mapped then spmc.nwdRxtx.pageCount.toNat * 4096 else 0
  let (count, ram) := (List.finRange maxSps).foldl (fun (count, ram) slot =>
    match spmc.spStore slot with
    | none => (count, ram)
    | some sp =>
        let offset := count * 24
        (count + 1, if spmc.nwdRxtx.mapped ∧ offset + 24 ≤ maxBytes
          then writeDescriptor ram (spmc.nwdRxtx.rxPa.toNat + offset) sp else ram)) (0, spmc.ram)
  ({ x0 := ffaSuccess32, x2 := BitVec.ofNat 64 count }, { spmc with ram })

/-- `handle_direct_req_32`: framework messages of the monitor, and else an echo. -/
def handleDirectReq32 (req : SmcResult8) : SmcResult8 :=
  if req.x2 &&& ffaFwkMsgBit ≠ 0 then
    if req.x2 &&& ~~~ffaFwkMsgBit = spmdFwkMsgFfaVersionReq then
      { x0 := ffaMsgSendDirectResp32, x1 := swapped req.x1
        x2 := ffaFwkMsgBit ||| spmdFwkMsgFfaVersionResp, x3 := ffaVersion11.setWidth 64 }
    else makeError ffaNotSupported
  else { req with x0 := ffaMsgSendDirectResp32, x1 := swapped req.x1, x2 := 0 }

/-- The functions that `FFA_FEATURES` reports. -/
def supported : List U64 :=
  [ffaVersion, ffaIdGet, ffaFeatures, ffaSpmIdGet, ffaPartitionInfoGet, ffaMsgSendDirectReq32,
    ffaMsgSendDirectReq64, ffaRxtxMap, ffaRxRelease, ffaRun]

/-- `FFA_RUN` as `dispatch_ffa` answers it: `dispatch_request` does not let it get here. -/
def handleRun (spId : U16) : SmcResult8 :=
  match spmc.findSp spId with
  | none => makeError ffaInvalidParameters
  | some (_, sp) => if sp.state ≠ .preempted then makeError ffaDenied else makeError ffaNotSupported

def dispatchFfa (req : SmcResult8) : SmcResult8 × Spmc :=
  if req.x0 = ffaVersion then ({ x0 := ffaVersion11.setWidth 64 }, spmc)
  else if req.x0 = ffaIdGet ∨ req.x0 = ffaSpmIdGet then
    ({ x0 := ffaSuccess32, x2 := ffaSpmcId.setWidth 64 }, spmc)
  else if req.x0 = ffaFeatures then (if supported.contains req.x1 then success else makeError ffaNotSupported, spmc)
  else if req.x0 = ffaRun then (spmc.handleRun ((req.x1 >>> 16).setWidth 16), spmc)
  else if req.x0 = ffaRxtxMap then spmc.handleRxtxMap req
  else if req.x0 = ffaRxtxUnmap then spmc.handleRxtxUnmap
  else if req.x0 = ffaRxRelease then spmc.handleRxRelease
  else if req.x0 = ffaPartitionInfoGet then spmc.handlePartitionInfoGet
  else if req.x0 = ffaMsgSendDirectReq32 then (handleDirectReq32 req, spmc)
  else if req.x0 = ffaMsgSendDirectReq64 then
    ({ req with x0 := ffaMsgSendDirectResp64, x1 := swapped req.x1, x2 := 0 }, spmc)
  else (makeError ffaNotSupported, spmc)

/-! ## One request -/

def isDirectReq (req : SmcResult8) : Bool := req.x0 = ffaMsgSendDirectReq32 || req.x0 = ffaMsgSendDirectReq64

/-- The destination of a direct request. -/
def destOf (req : SmcResult8) : U16 := req.x1.setWidth 16

/-- The SP that `FFA_RUN` names. -/
def runTarget (req : SmcResult8) : U16 := (req.x1 >>> 16).setWidth 16

/-- `dispatch_request`; `exit` is how the SP ends its stay, should one be entered. -/
def dispatchRequest (req : SmcResult8) (exit : SpExit) : Except String Dispatched :=
  if isDirectReq req ∧ spmc.isRegisteredSp (destOf req) then spmc.dispatchToSp req (destOf req) exit
  else if req.x0 = ffaRun then spmc.resumePreemptedSp (runTarget req) exit
  else
    let answer := spmc.dispatchFfa req
    .ok ⟨answer.1, answer.2, none⟩

end Spmc

end Hypervisor
