import Hypervisor.Model.Defs

/-! # FF-A identifiers, page ownership and mailboxes

The constants and small functions of `ffa/mod.rs`, `ffa/memory.rs` and `ffa/mailbox.rs`. Error
codes are `i32` values; `ffaError` zero-extends them into `x2` as the source does.
-/

namespace Hypervisor

/-! ## Function identifiers -/

def ffaErrorId : U64 := 0x84000060
def ffaSuccess32 : U64 := 0x84000061
def ffaInterrupt : U64 := 0x84000062
def ffaVersion : U64 := 0x84000063
def ffaFeatures : U64 := 0x84000064
def ffaRxRelease : U64 := 0x84000065
def ffaRxtxUnmap : U64 := 0x84000067
def ffaPartitionInfoGet : U64 := 0x84000068
def ffaIdGet : U64 := 0x84000069
def ffaMsgWait : U64 := 0x8400006B
def ffaRun : U64 := 0x8400006D
def ffaMsgSendDirectReq32 : U64 := 0x8400006F
def ffaMsgSendDirectResp32 : U64 := 0x84000070
def ffaMemLend32 : U64 := 0x84000072
def ffaMemShare32 : U64 := 0x84000073
def ffaMemRetrieveReq32 : U64 := 0x84000074
def ffaMemRetrieveResp : U64 := 0x84000075
def ffaMemRelinquish : U64 := 0x84000076
def ffaMemReclaim : U64 := 0x84000077
def ffaNotificationBitmapCreate : U64 := 0x8400007D
def ffaNotificationBitmapDestroy : U64 := 0x8400007E
def ffaNotificationBind : U64 := 0x8400007F
def ffaNotificationUnbind : U64 := 0x84000080
def ffaNotificationSet : U64 := 0x84000081
def ffaNotificationGet : U64 := 0x84000082
def ffaNotificationInfoGet32 : U64 := 0x84000083
def ffaSpmIdGet : U64 := 0x84000085
def ffaMsgSend2 : U64 := 0x84000086
def ffaRxtxMap : U64 := 0xC4000066
def ffaMsgSendDirectReq64 : U64 := 0xC400006F
def ffaMsgSendDirectResp64 : U64 := 0xC4000070
def ffaMemLend64 : U64 := 0xC4000072
def ffaMemShare64 : U64 := 0xC4000073
def ffaMemRetrieveReq64 : U64 := 0xC4000074
def ffaNotificationInfoGet64 : U64 := 0xC4000083

/-! ## Error codes -/

def ffaNotSupported : I32 := -1
def ffaInvalidParameters : I32 := -2
def ffaNoMemory : I32 := -3
def ffaBusy : I32 := -4
def ffaDenied : I32 := -6
def ffaNoData : I32 := -8

/-! ## Partition identifiers -/

def ffaMaxVms : ℕ := 4

def vmIdToPartitionId (vmId : ℕ) : U16 := BitVec.ofNat 16 (vmId + 1)

theorem vmIdToPartitionId_injective {u v : VmId} (same : vmIdToPartitionId u = vmIdToPartitionId v) : u = v := by
  revert u v
  decide

def partitionIdToVmId (partId : U16) : Option ℕ :=
  if 1 ≤ partId.toNat ∧ partId.toNat ≤ ffaMaxVms then some (partId.toNat - 1) else none

def isVmPartition (partId : U16) : Bool := (partitionIdToVmId partId).isSome

/-- The identifiers of `STUB_PARTITIONS`. -/
def stubPartitions : List U16 := [0x8001, 0x8002]

def isValidSp (partId : U16) : Bool := stubPartitions.contains partId

def isValidReceiver (partId : U16) : Bool := isVmPartition partId || isValidSp partId

/-! ## Page ownership -/

/-- Page ownership state, kept in the SW bits of a descriptor. -/
inductive PageOwnership where
  | owned
  | sharedOwned
  | sharedBorrowed
  | donated
deriving DecidableEq, Repr

namespace PageOwnership

def bits : PageOwnership → U8
  | owned => 0b00
  | sharedOwned => 0b01
  | sharedBorrowed => 0b10
  | donated => 0b11

def fromBits (bits : U8) : PageOwnership :=
  match (bits &&& 0x3).toNat with
  | 0 => owned
  | 1 => sharedOwned
  | 2 => sharedBorrowed
  | _ => donated

end PageOwnership

/-- Only an owned page can be shared. -/
def validatePageForShare (swBits : U8) : Except I32 Unit :=
  match PageOwnership.fromBits swBits with
  | .owned => .ok ()
  | _ => .error ffaDenied

/-! ## Mailboxes and registers -/

/-- The RXTX buffers of one VM. -/
structure FfaMailbox where
  /-- The guest writes this buffer, the proxy reads it. -/
  txIpa : U64
  /-- The proxy writes this buffer, the guest reads it. -/
  rxIpa : U64
  pageCount : U32
  mapped : Bool
  /-- Whether the proxy, not the VM, owns the RX buffer. -/
  rxHeldByProxy : Bool
  msgPending : Bool
  msgSenderId : U16
deriving DecidableEq, Repr

def FfaMailbox.new : FfaMailbox := ⟨0, 0, 0, false, true, false, 0⟩

/-- The general-purpose registers an FF-A call passes and returns. -/
structure GpRegs where
  x0 : U64 := 0
  x1 : U64 := 0
  x2 : U64 := 0
  x3 : U64 := 0
  x4 : U64 := 0
  x5 : U64 := 0
  x6 : U64 := 0
  x7 : U64 := 0
deriving DecidableEq, Repr

/-- Set the `FFA_ERROR` return with an error code. -/
def ffaError (ctx : GpRegs) (errorCode : I32) : GpRegs :=
  { ctx with x0 := ffaErrorId, x2 := errorCode.setWidth 64 }

/-! ## Results -/

theorem exceptMap_eq_ok_iff {ε α β : Type} {f : α → β} {result : Except ε α} {y : β} :
    result.map f = .ok y ↔ ∃ x, result = .ok x ∧ f x = y := by
  cases result with
  | error code => exact iff_of_false (by rintro ⟨⟩) (by rintro ⟨x, ⟨⟩, mapped⟩)
  | ok x =>
    constructor
    · intro mapped
      exact ⟨x, rfl, Except.ok.inj mapped⟩
    · rintro ⟨x', same, rfl⟩
      cases same
      rfl

end Hypervisor
