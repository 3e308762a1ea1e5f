import Hypervisor.Model.Ffa
import Mathlib.Logic.Function.Basic

/-! # Notifications

`ffa/notifications.rs` and its handlers in `ffa/proxy.rs`. Every endpoint has pending bits and up to
eight records of which sender may set which bits. A failed operation leaves all endpoints as they were,
so the operations return the new endpoints or an error code. The flags of BIND and SET are not used.
-/

namespace Hypervisor

def maxEndpoints : ℕ := 8
def maxBinds : ℕ := 8

instance : NeZero maxEndpoints := ⟨by decide⟩

/-- A sender and the notifications it may set. -/
structure NotifBind where
  senderId : U16
  bitmap : U64
  active : Bool
deriving DecidableEq, Repr

def NotifBind.new : NotifBind := ⟨0, 0, false⟩

/-- What is left of a record; one without bits becomes free. -/
def NotifBind.without (bind : NotifBind) (bitmap : U64) : NotifBind :=
  let rest := bind.bitmap &&& ~~~bitmap
  { bind with bitmap := rest, active := bind.active && rest != 0 }

structure EndpointNotifState where
  enabled : Bool
  pending : U64
  binds : List NotifBind
deriving DecidableEq, Repr

def EndpointNotifState.new : EndpointNotifState := ⟨false, 0, List.replicate maxBinds .new⟩

/-- `NOTIF_STATE`. -/
abbrev NotifState := Fin maxEndpoints → EndpointNotifState

namespace NotifState

def init : NotifState := fun _ => .new

/-- VMs come first, then the two secure partitions. The identifiers of VMs are below `FFA_MAX_VMS`. -/
def endpointIndex (partId : U16) : Option (Fin maxEndpoints) :=
  match partitionIdToVmId partId with
  | some vmId => some (Fin.ofNat maxEndpoints vmId)
  | none =>
      if partId = 0x8001 then some (Fin.ofNat maxEndpoints ffaMaxVms)
      else if partId = 0x8002 then some (Fin.ofNat maxEndpoints (ffaMaxVms + 1))
      else none

/-- `get_state`: the endpoint of a partition. -/
def getState (partId : U16) : Except I32 (Fin maxEndpoints) :=
  match endpointIndex partId with
  | none => .error ffaInvalidParameters
  | some idx => .ok idx

def bitmapCreate (states : NotifState) (partId : U16) : Except I32 NotifState := do
  let idx ← getState partId
  let state := states idx
  if state.enabled then .error ffaDenied
  else .ok (Function.update states idx { state with enabled := true })

def bitmapDestroy (states : NotifState) (partId : U16) : Except I32 NotifState := do
  let idx ← getState partId
  let state := states idx
  if !state.enabled then .error ffaDenied
  else .ok (Function.update states idx { enabled := false, pending := 0, binds := state.binds.map fun _ => .new })

def bind (states : NotifState) (sender receiver : U16) (bitmap : U64) : Except I32 NotifState :=
  if bitmap = 0 then .error ffaInvalidParameters
  else do
    let idx ← getState receiver
    let state := states idx
    if !state.enabled then .error ffaDenied
    else if state.binds.any fun bind => bind.active && bind.bitmap &&& bitmap != 0 then .error ffaDenied
    else
      match state.binds.findIdx? fun bind => !bind.active with
      | none => .error ffaNoMemory
      | some slot =>
          .ok (Function.update states idx { state with binds := state.binds.set slot ⟨sender, bitmap, true⟩ })

/-- Only the first record that matches loses its bits. -/
def unbind (states : NotifState) (sender receiver : U16) (bitmap : U64) : Except I32 NotifState := do
  let idx ← getState receiver
  let state := states idx
  match state.binds.findIdx? fun bind => bind.active && bind.senderId == sender && bind.bitmap &&& bitmap != 0 with
  | none => .error ffaDenied
  | some slot =>
      .ok (Function.update states idx { state with binds := state.binds.modify slot (NotifBind.without · bitmap) })

/-- The bits that a sender may set. -/
def allowed (binds : List NotifBind) (sender : U16) : U64 :=
  binds.foldl (fun acc bind => if bind.active && bind.senderId == sender then acc ||| bind.bitmap else acc) 0

def set (states : NotifState) (sender receiver : U16) (bitmap : U64) : Except I32 NotifState := do
  let idx ← getState receiver
  let state := states idx
  if !state.enabled then .error ffaDenied
  else if bitmap &&& ~~~allowed state.binds sender ≠ 0 then .error ffaDenied
  else .ok (Function.update states idx { state with pending := state.pending ||| bitmap })

/-- Return the pending bits and clear them. -/
def get (states : NotifState) (receiver : U16) : Except I32 (U64 × NotifState) := do
  let idx ← getState receiver
  let state := states idx
  if !state.enabled then .error ffaDenied
  else .ok (state.pending, Function.update states idx { state with pending := 0 })

/-- The first four partitions with pending notifications, VMs before secure partitions. -/
def infoGet (states : NotifState) : List U16 :=
  let vms := (List.range ffaMaxVms).map fun vmId => (Fin.ofNat maxEndpoints vmId, vmIdToPartitionId vmId)
  let sps := (List.range 2).map fun spIdx =>
    (Fin.ofNat maxEndpoints (ffaMaxVms + spIdx), (0x8001 : U16) + BitVec.ofNat 16 spIdx)
  let waiting := (vms ++ sps).filter fun (idx, _) => (states idx).enabled && (states idx).pending != 0
  (waiting.map Prod.snd).take 4

end NotifState

/-! ## The operations store by store

The functions above return new endpoints or an error. Here an operation changes its endpoint by the
stores of the code, one after the other, and an error keeps the stores that were made before it. -/

/-- A program on one endpoint. -/
abbrev EndpointM := ExceptT I32 (StateM EndpointNotifState)

namespace EndpointM

def storeEnabled (enabled : Bool) : EndpointM Unit := modify fun state => { state with enabled }

def storePending (pending : U64) : EndpointM Unit := modify fun state => { state with pending }

def storeBind (slot : ℕ) (f : NotifBind → NotifBind) : EndpointM Unit :=
  modify fun state => { state with binds := state.binds.modify slot f }

def bitmapCreateM : EndpointM Unit := do
  if (← get).enabled then throw ffaDenied
  storeEnabled true

def bitmapDestroyM : EndpointM Unit := do
  if !(← get).enabled then throw ffaDenied
  storeEnabled false
  storePending 0
  modify fun state => { state with binds := state.binds.map fun _ => .new }

def bindM (sender : U16) (bitmap : U64) : EndpointM Unit := do
  if !(← get).enabled then throw ffaDenied
  if (← get).binds.any fun bind => bind.active && bind.bitmap &&& bitmap != 0 then throw ffaDenied
  match (← get).binds.findIdx? fun bind => !bind.active with
  | none => throw ffaNoMemory
  | some slot =>
      storeBind slot fun bind => { bind with active := true }
      storeBind slot fun bind => { bind with senderId := sender }
      storeBind slot fun bind => { bind with bitmap }

def unbindM (sender : U16) (bitmap : U64) : EndpointM Unit := do
  match (← get).binds.findIdx? fun bind =>
      bind.active && bind.senderId == sender && bind.bitmap &&& bitmap != 0 with
  | none => throw ffaDenied
  | some slot =>
      storeBind slot fun bind => { bind with bitmap := bind.bitmap &&& ~~~bitmap }
      storeBind slot fun bind => if bind.bitmap == 0 then { bind with active := false } else bind

def setM (sender : U16) (bitmap : U64) : EndpointM Unit := do
  if !(← get).enabled then throw ffaDenied
  if bitmap &&& ~~~NotifState.allowed (← get).binds sender ≠ 0 then throw ffaDenied
  storePending ((← get).pending ||| bitmap)

def getM : EndpointM U64 := do
  if !(← get).enabled then throw ffaDenied
  let pending := (← get).pending
  storePending 0
  return pending

end EndpointM

/-- The operations on endpoints. -/
inductive NotifOp where
  | bitmapCreate (partId : U16)
  | bitmapDestroy (partId : U16)
  | bind (sender receiver : U16) (bitmap : U64)
  | unbind (sender receiver : U16) (bitmap : U64)
  | set (sender receiver : U16) (bitmap : U64)
  | get (receiver : U16)
deriving DecidableEq, Repr

/-- Run a program on the endpoint of a partition. -/
def onEndpoint {α : Type} (states : NotifState) (partId : U16) (program : EndpointM α) : Except I32 α × NotifState :=
  match NotifState.endpointIndex partId with
  | none => (.error ffaInvalidParameters, states)
  | some idx =>
      let (result, state) := program.run.run (states idx)
      (result, Function.update states idx state)

/-- What an operation returns, which is a mask or nothing, and the endpoints after it. -/
def NotifOp.exec (op : NotifOp) (states : NotifState) : Except I32 (Option U64) × NotifState :=
  match op with
  | bitmapCreate partId => onEndpoint states partId do EndpointM.bitmapCreateM; return none
  | bitmapDestroy partId => onEndpoint states partId do EndpointM.bitmapDestroyM; return none
  | bind sender receiver bitmap =>
      if bitmap = 0 then (.error ffaInvalidParameters, states)
      else onEndpoint states receiver do EndpointM.bindM sender bitmap; return none
  | unbind sender receiver bitmap => onEndpoint states receiver do EndpointM.unbindM sender bitmap; return none
  | set sender receiver bitmap => onEndpoint states receiver do EndpointM.setM sender bitmap; return none
  | get receiver => onEndpoint states receiver do return some (← EndpointM.getM)

/-! ## Handlers -/

/-- The notification calls among the FF-A functions. -/
inductive NotifCall where
  | bitmapCreate
  | bitmapDestroy
  | bind
  | unbind
  | set
  | get
  | infoGet
deriving DecidableEq, Repr

/-- `handle_ffa_call` on the notification function identifiers. -/
def notifCallOf (functionId : U64) : Option NotifCall :=
  if functionId = ffaNotificationBitmapCreate then some .bitmapCreate
  else if functionId = ffaNotificationBitmapDestroy then some .bitmapDestroy
  else if functionId = ffaNotificationBind then some .bind
  else if functionId = ffaNotificationUnbind then some .unbind
  else if functionId = ffaNotificationSet then some .set
  else if functionId = ffaNotificationGet then some .get
  else if functionId = ffaNotificationInfoGet32 ∨ functionId = ffaNotificationInfoGet64 then some .infoGet
  else none

/-- `x1` as a partition, or as a sender and a receiver. -/
def notifPartition (ctx : GpRegs) : U16 := ctx.x1.setWidth 16
def notifSender (ctx : GpRegs) : U16 := ((ctx.x1 >>> 16) &&& 0xFFFF).setWidth 16
def notifReceiver (ctx : GpRegs) : U16 := (ctx.x1 &&& 0xFFFF).setWidth 16

def notifBitmap (ctx : GpRegs) : U64 := ctx.x3 ||| (ctx.x4 <<< 32)

/-- The answer to a call that returns no data. -/
def notifAnswer (states : NotifState) (ctx : GpRegs) (result : Except I32 NotifState) : GpRegs × NotifState :=
  match result with
  | .ok states => ({ ctx with x0 := ffaSuccess32 }, states)
  | .error code => (ffaError ctx code, states)

/-- Run the handler of a notification call. Which VM made the call is not known to it. -/
def NotifCall.handle (call : NotifCall) (states : NotifState) (ctx : GpRegs) : GpRegs × NotifState :=
  match call with
  | bitmapCreate => notifAnswer states ctx (states.bitmapCreate (notifPartition ctx))
  | bitmapDestroy => notifAnswer states ctx (states.bitmapDestroy (notifPartition ctx))
  | bind => notifAnswer states ctx (states.bind (notifSender ctx) (notifReceiver ctx) (notifBitmap ctx))
  | unbind => notifAnswer states ctx (states.unbind (notifSender ctx) (notifReceiver ctx) (notifBitmap ctx))
  | set => notifAnswer states ctx (states.set (notifSender ctx) (notifReceiver ctx) (notifBitmap ctx))
  | get =>
      match states.get (notifPartition ctx) with
      | .ok (pending, states) =>
          ({ ctx with x0 := ffaSuccess32, x2 := pending, x3 := 0, x4 := 0, x5 := 0 }, states)
      | .error code => (ffaError ctx code, states)
  | infoGet =>
      let ids := states.infoGet
      if ids.length = 0 then (ffaError ctx ffaNoData, states)
      else
        let packed := ids.zipIdx.foldl (fun acc (id, i) => acc ||| (id.setWidth 64 <<< (i * 16))) 0
        ({ ctx with x0 := ffaSuccess32, x2 := BitVec.ofNat 64 ids.length, x3 := packed }, states)

end Hypervisor
