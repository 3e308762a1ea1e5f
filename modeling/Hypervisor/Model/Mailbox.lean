import Hypervisor.Model.Machine

/-! # RXTX buffers and indirect messages

The mailbox handlers of `ffa/proxy.rs` in the `linux_guest` build, where no SPMC is present:
RXTX_MAP, RXTX_UNMAP, RX_RELEASE, PARTITION_INFO_GET, MSG_SEND2 and MSG_WAIT. A guest IPA is an
address of EL2, so the proxy reads TX buffers and writes RX buffers in guest memory directly. As
for the memory calls, the constant `true` that the handlers return is left out.
-/

namespace Hypervisor

/-! ## Registration -/

/-- The range lies in the window of guest RAM, which is the same for all VMs. -/
def isGuestRam (ipa len : U64) : Bool :=
  let ramStart := guestLoadAddr
  let ramSize := linuxMemSize
  decide (ramStart ≤ ipa) && decide (len ≤ ramSize) && decide (ipa ≤ ramStart + ramSize - len)

/-- Register the TX and RX buffers of the calling VM. -/
def handleRxtxMap (m : Machine) (ctx : GpRegs) : Option (GpRegs × Machine) := do
  let txIpa := ctx.x1
  let rxIpa := ctx.x2
  let pageCount : U32 := ctx.x3.setWidth 32
  if txIpa &&& 0xFFF ≠ 0 ∨ rxIpa &&& 0xFFF ≠ 0 ∨ pageCount = 0 ∨ 1 < pageCount then
    return (ffaError ctx ffaInvalidParameters, m)
  let bufSize : U64 := pageCount.setWidth 64 * 4096
  if !isGuestRam txIpa bufSize || !isGuestRam rxIpa bufSize then
    return (ffaError ctx ffaInvalidParameters, m)
  let mbox ← m.getMailbox m.currentVmId
  if mbox.mapped then return (ffaError ctx ffaDenied, m)
  return ({ ctx with x0 := ffaSuccess32 },
    m.setMailbox m.currentVmId { mbox with txIpa, rxIpa, pageCount, mapped := true, rxHeldByProxy := true })

def handleRxtxUnmap (m : Machine) (ctx : GpRegs) : Option (GpRegs × Machine) := do
  let mbox ← m.getMailbox m.currentVmId
  if !mbox.mapped then return (ffaError ctx ffaDenied, m)
  return ({ ctx with x0 := ffaSuccess32 }, m.setMailbox m.currentVmId .new)

/-- The VM gives its RX buffer back to the proxy. -/
def handleRxRelease (m : Machine) (ctx : GpRegs) : Option (GpRegs × Machine) := do
  let mbox ← m.getMailbox m.currentVmId
  if !mbox.mapped then return (ffaError ctx ffaDenied, m)
  return ({ ctx with x0 := ffaSuccess32 },
    m.setMailbox m.currentVmId { mbox with rxHeldByProxy := true, msgPending := false })

/-! ## Partition discovery -/

/-- The fields of a `StubPartition` that its descriptor holds. -/
structure StubPartition where
  id : U16
  execCtxCount : U16
  properties : U32
deriving DecidableEq, Repr

/-- `STUB_PARTITIONS`: both have one execution context and support direct messaging. -/
def stubPartitionInfo : List StubPartition := stubPartitions.map (⟨·, 1, 1⟩)

/-- The loop that stores 8-byte descriptors, the next of which has index `i`. -/
def writePartitions (rxPtr : ℕ) : List StubPartition → ℕ → GuestRam → GuestRam
  | [], _, ram => ram
  | sp :: rest, i, ram =>
      let ptr := rxPtr + i * 8
      let ram := writeU16 ram ptr sp.id
      let ram := writeU16 ram (ptr + 2) sp.execCtxCount
      let ram := writeU32 ram (ptr + 4) sp.properties
      writePartitions rxPtr rest (i + 1) ram

/-- Store the partition descriptors in the RX buffer of the calling VM, which then owns it. -/
def handlePartitionInfoGet (m : Machine) (ctx : GpRegs) (ram : GuestRam) :
    Option (GpRegs × Machine × GuestRam) := do
  let mbox ← m.getMailbox m.currentVmId
  if !mbox.mapped then return (ffaError ctx ffaDenied, m, ram)
  if !mbox.rxHeldByProxy then return (ffaError ctx ffaBusy, m, ram)
  return ({ ctx with x0 := ffaSuccess32, x2 := BitVec.ofNat 64 stubPartitionInfo.length },
    m.setMailbox m.currentVmId { mbox with rxHeldByProxy := false },
    writePartitions mbox.rxIpa.toNat stubPartitionInfo 0 ram)

/-! ## Indirect messages -/

/-- The header of an indirect message: sender, receiver and payload size. -/
structure MsgHeader where
  senderId : U16
  receiverId : U16
  size : U32
deriving DecidableEq, Repr

def readMsgHeader (ram : GuestRam) (txIpa : ℕ) : MsgHeader :=
  ⟨readU16 ram txIpa, readU16 ram (txIpa + 2), readU32 ram (txIpa + 4)⟩

/-- Copy the message in the caller's TX buffer to the RX buffer of the VM its header names. The sum
`8 + msg_size` is a `u32` and panics on overflow; a longer message than a page is cut off. -/
def handleMsgSend2 (m : Machine) (ctx : GpRegs) (ram : GuestRam) : Option (GpRegs × Machine × GuestRam) := do
  let senderMbox ← m.getMailbox m.currentVmId
  if !senderMbox.mapped then return (ffaError ctx ffaDenied, m, ram)
  let header := readMsgHeader ram senderMbox.txIpa.toNat
  if header.senderId ≠ vmIdToPartitionId m.currentVmId then
    return (ffaError ctx ffaInvalidParameters, m, ram)
  match partitionIdToVmId header.receiverId with
  | none => return (ffaError ctx ffaInvalidParameters, m, ram)
  | some recvVmId =>
      let recvMbox ← m.getMailbox recvVmId
      if !recvMbox.mapped then return (ffaError ctx ffaDenied, m, ram)
      if !recvMbox.rxHeldByProxy then return (ffaError ctx ffaBusy, m, ram)
      if recvMbox.msgPending then return (ffaError ctx ffaBusy, m, ram)
      let total ← checkedAddU32 8 header.size
      let ram ← copyNonoverlapping ram senderMbox.txIpa.toNat recvMbox.rxIpa.toNat (min total.toNat 4096)
      return ({ ctx with x0 := ffaSuccess32 },
        m.setMailbox recvVmId
          { recvMbox with msgPending := true, msgSenderId := header.senderId, rxHeldByProxy := false },
        ram)

/-- Report the sender of the pending message. -/
def handleMsgWait (m : Machine) (ctx : GpRegs) : Option (GpRegs × Machine) := do
  let mbox ← m.getMailbox m.currentVmId
  if !mbox.mapped then return (ffaError ctx ffaDenied, m)
  if mbox.msgPending then
    return ({ ctx with x0 := ffaSuccess32, x1 := mbox.msgSenderId.setWidth 64 }, m)
  return (ffaError ctx ffaNoData, m)

/-! ## Dispatch -/

/-- The calls among the FF-A functions that use mailboxes. -/
inductive MailCall where
  | rxtxMap
  | rxtxUnmap
  | rxRelease
  | partitionInfoGet
  | msgSend2
  | msgWait
deriving DecidableEq, Repr

/-- `handle_ffa_call` on the mailbox function identifiers. -/
def mailCallOf (functionId : U64) : Option MailCall :=
  if functionId = ffaRxtxMap then some .rxtxMap
  else if functionId = ffaRxtxUnmap then some .rxtxUnmap
  else if functionId = ffaRxRelease then some .rxRelease
  else if functionId = ffaPartitionInfoGet then some .partitionInfoGet
  else if functionId = ffaMsgSend2 then some .msgSend2
  else if functionId = ffaMsgWait then some .msgWait
  else none

/-- Run the handler of a mailbox call. -/
def MailCall.handle (call : MailCall) (m : Machine) (ctx : GpRegs) (ram : GuestRam) :
    Option (GpRegs × Machine × GuestRam) :=
  match call with
  | rxtxMap => (handleRxtxMap m ctx).map fun (regs, m) => (regs, m, ram)
  | rxtxUnmap => (handleRxtxUnmap m ctx).map fun (regs, m) => (regs, m, ram)
  | rxRelease => (handleRxRelease m ctx).map fun (regs, m) => (regs, m, ram)
  | partitionInfoGet => handlePartitionInfoGet m ctx ram
  | msgSend2 => handleMsgSend2 m ctx ram
  | msgWait => (handleMsgWait m ctx).map fun (regs, m) => (regs, m, ram)

end Hypervisor
