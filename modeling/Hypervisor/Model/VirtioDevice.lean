import Mathlib.Data.List.Basic
import Hypervisor.Model.Virtqueue

/-! # Virtio devices

The `VirtioDevice` trait of `devices/virtio/mod.rs` with its two implementations, the block device
of `blk.rs` and the network device of `net.rs`. The two devices empty a queue in the same loop,
which the rings can keep from ending, so that loop has a `fuel`. Calls that leave the transport, to
the virtual switch and to `inject_spi`, are recorded in the order in which they are made.
-/

namespace Hypervisor

/-- What a transport reaches outside itself. -/
structure VirtioEnv where
  ram : GuestRam
  /-- The frames passed to `vswitch_forward`, with the port they come from. -/
  forwarded : List (ℕ × List U8) := []
  /-- The interrupts passed to `inject_spi`. -/
  spis : List U32 := []

def VirtioEnv.vswitchForward (env : VirtioEnv) (srcPort : ℕ) (frame : List U8) : VirtioEnv :=
  { env with forwarded := env.forwarded ++ [(srcPort, frame)] }

def VirtioEnv.injectSpi (env : VirtioEnv) (intid : U32) : VirtioEnv :=
  { env with spis := env.spis ++ [intid] }

class VirtioDevice (D : Type) where
  deviceId : D → U32
  deviceFeatures : D → U64
  /-- Read from the configuration space of the device, by offset and size. -/
  configRead : D → U64 → U8 → U64
  configWrite : D → U64 → U64 → U8 → D
  /-- Handle a write to QUEUE_NOTIFY. -/
  queueNotify : ℕ → D → U16 → Virtqueue → VirtioEnv → Except VirtioStop (D × Virtqueue × VirtioEnv)
  numQueues : D → U16
  maxQueueSize : D → U16 := fun _ => 256

/-- The loop `while let Some(chain) = queue.get_avail_desc()` around the handling of one chain. -/
def Virtqueue.drain (handle : Virtqueue → DescChain → VirtioEnv → Except VirtioStop VirtioEnv) :
    ℕ → Virtqueue → VirtioEnv → Except VirtioStop (Virtqueue × VirtioEnv)
  | 0, _, _ => .error .outOfFuel
  | fuel + 1, q, env => do
      match ← q.getAvailDesc env.ram with
      | none => return (q, env)
      | some (chain, q) =>
          let env ← handle q chain env
          drain handle fuel q env

/-! ## Block device -/

def virtioBlkTIn : U32 := 0
def virtioBlkTOut : U32 := 1
def virtioBlkTGetId : U32 := 8

def virtioBlkSOk : U8 := 0
def virtioBlkSIoerr : U8 := 1
def virtioBlkSUnsupp : U8 := 2

def virtioBlkFSizeMax : U64 := 1 <<< 1
def virtioBlkFSegMax : U64 := 1 <<< 2
def virtioBlkFBlkSize : U64 := 1 <<< 6
def virtioFVersion1 : U64 := 1 <<< 32

/-- The header of a request, of which the second word is reserved. -/
structure VirtioBlkReqHeader where
  reqType : U32
  sector : U64
deriving DecidableEq, Repr

def readVirtioBlkReqHeader (ram : GuestRam) (addr : ℕ) : VirtioBlkReqHeader :=
  ⟨readU32 ram addr, readU64 ram (addr + 8)⟩

structure VirtioBlk where
  diskBase : U64
  diskSize : U64
  /-- Capacity in sectors of 512 bytes. -/
  capacity : U64
deriving DecidableEq, Repr

/-- The direction of a transfer: a read copies from the disk image, a write copies to it. -/
inductive DiskDir where
  | fromDisk
  | toDisk
deriving DecidableEq, Repr

def DiskDir.copy (dir : DiskDir) (ram : GuestRam) (disk buf len : ℕ) : Option GuestRam :=
  match dir with
  | .fromDisk => copyNonoverlapping ram disk buf len
  | .toDisk => copyNonoverlapping ram buf disk len

/-- Only bytes written to guest buffers are counted. -/
def DiskDir.count (dir : DiskDir) (totalWritten len : U32) : Option U32 :=
  match dir with
  | .fromDisk => checkedAddU32 totalWritten len
  | .toDisk => some totalWritten

/-- How far a request has got. The bytes of the disk image that it has read or written are kept as
a list of ranges, each by its first address and its length. -/
structure BlkProgress where
  ram : GuestRam
  status : U8 := virtioBlkSOk
  totalWritten : U32 := 0
  touched : List (ℕ × ℕ) := []

/-- A request that has been handled; without a status it has too few descriptors. -/
structure BlkCompletion where
  ram : GuestRam
  status : Option U8 := none
  touched : List (ℕ × ℕ) := []

/-- `b"hypervisor-vda\0\0\0\0\0\0"`. -/
def blkDeviceIdString : List U8 :=
  [0x68, 0x79, 0x70, 0x65, 0x72, 0x76, 0x69, 0x73, 0x6F, 0x72, 0x2D, 0x76, 0x64, 0x61, 0, 0, 0, 0, 0, 0]

namespace VirtioBlk

def new (diskBase diskSize : U64) : VirtioBlk := ⟨diskBase, diskSize, diskSize / 512⟩

/-- The loop over the data descriptors of a read or a write, the next of which starts at `diskOff`. -/
def transfer (blk : VirtioBlk) (dir : DiskDir) : List VirtqDesc → U64 → BlkProgress → Except VirtioStop BlkProgress
  | [], _, done => .ok done
  | desc :: rest, diskOff, done => do
      let stop ← orStop .devicePanic (checkedAdd diskOff (desc.len.setWidth 64))
      if blk.diskSize < stop then return { done with status := virtioBlkSIoerr }
      let disk ← orStop .devicePanic (checkedAdd blk.diskBase diskOff)
      let ram ← orStop .devicePanic (dir.copy done.ram disk.toNat desc.addr.toNat desc.len.toNat)
      let totalWritten ← orStop .devicePanic (dir.count done.totalWritten desc.len)
      transfer blk dir rest stop
        { done with ram, totalWritten, touched := done.touched ++ [(disk.toNat, desc.len.toNat)] }

/-- The byte offset of a sector: the product is a `u64` and panics on overflow. -/
def byteOffset (sector : U64) : Option U64 :=
  if sector.toNat * 512 < 2 ^ 64 then some (sector * 512) else none

/-- The cases on the type of a request, whose data descriptors are those between header and status. -/
def serve (blk : VirtioBlk) (header : VirtioBlkReqHeader) (data : List VirtqDesc) (ram : GuestRam) :
    Except VirtioStop BlkProgress :=
  if header.reqType = virtioBlkTIn then do
    let off ← orStop .devicePanic (byteOffset header.sector)
    blk.transfer .fromDisk data off { ram }
  else if header.reqType = virtioBlkTOut then do
    let off ← orStop .devicePanic (byteOffset header.sector)
    blk.transfer .toDisk data off { ram }
  else if header.reqType = virtioBlkTGetId then
    match data with
    | [] => .ok { ram }
    | desc :: _ =>
        let copyLen := min desc.len.toNat 20
        .ok { ram := storeBytes ram desc.addr.toNat copyLen fun i => blkDeviceIdString.getD i 0,
              totalWritten := BitVec.ofNat 32 copyLen }
  else .ok { ram, status := virtioBlkSUnsupp }

/-- Handle a request: the first descriptor has the header, the last one takes the status. -/
def processRequest (blk : VirtioBlk) (queue : Virtqueue) (head : U16) (descs : List VirtqDesc) (ram : GuestRam) :
    Except VirtioStop BlkCompletion :=
  match descs with
  | first :: second :: rest => do
      let header := readVirtioBlkReqHeader ram first.addr.toNat
      let statusDesc := (second :: rest).getLast (List.cons_ne_nil second rest)
      let done ← blk.serve header (second :: rest).dropLast ram
      let ram := writeU8 done.ram statusDesc.addr.toNat done.status
      let totalWritten ← orStop .devicePanic (checkedAddU32 done.totalWritten 1)
      let ram ← queue.putUsed ram head totalWritten
      return { ram, status := some done.status, touched := done.touched }
  | _ => .ok { ram }

def configRead (blk : VirtioBlk) (offset : U64) (size : U8) : U64 :=
  if offset = 0 ∧ size = 4 then (blk.capacity.setWidth 32).setWidth 64
  else if offset = 4 ∧ size = 4 then ((blk.capacity >>> 32).setWidth 32).setWidth 64
  else if offset = 0 ∧ size = 8 then blk.capacity
  else if offset = 8 ∧ size = 4 then 0x200000
  else if offset = 12 ∧ size = 4 then 128
  else if offset = 20 ∧ size = 4 then 512
  else 0

/-- Handle one chain of the request queue. -/
def handleChain (blk : VirtioBlk) (queue : Virtqueue) (chain : DescChain) (env : VirtioEnv) :
    Except VirtioStop VirtioEnv := do
  let done ← blk.processRequest queue chain.head chain.descs env.ram
  return { env with ram := done.ram }

instance : VirtioDevice VirtioBlk where
  deviceId _ := 2
  deviceFeatures _ := virtioFVersion1 ||| virtioBlkFBlkSize ||| virtioBlkFSizeMax ||| virtioBlkFSegMax
  configRead := configRead
  -- the configuration space is read-only
  configWrite blk _ _ _ := blk
  queueNotify fuel blk _ queue env := do
    let (queue, env) ← queue.drain blk.handleChain fuel env
    return (blk, queue, env)
  numQueues _ := 1

end VirtioBlk

/-! ## Network device -/

def virtioNetFMac : U64 := 1 <<< 5
def virtioNetFStatus : U64 := 1 <<< 16
def virtioNetSLinkUp : U16 := 1
def virtioNetHdrSize : ℕ := 12

/-- `vswitch::MAX_FRAME_SIZE`. -/
def maxFrameSize : ℕ := 1514

structure VirtioNet where
  mac : Vector U8 6
  portId : ℕ
  status : U16
deriving DecidableEq, Repr

/-- The `len` bytes of guest memory from `addr` on. -/
def readBytes (ram : GuestRam) (addr len : ℕ) : List U8 := (List.range len).map fun i => ram (addr + i)

namespace VirtioNet

def macForVm (vmId : ℕ) : Vector U8 6 := #v[0x52, 0x54, 0x00, 0x00, 0x00, BitVec.ofNat 8 (vmId + 1)]

def new (vmId : ℕ) : VirtioNet := ⟨macForVm vmId, vmId, virtioNetSLinkUp⟩

/-- The loop that gathers a frame from the buffers of a chain: `totalLen` bytes have been seen, of
which the first twelve are the header. A piece that does not fit the frame buffer is left out. -/
def gatherFrame (ram : GuestRam) : List VirtqDesc → (totalLen : ℕ) → (frame : List U8) → List U8
  | [], _, frame => frame
  | desc :: rest, totalLen, frame =>
      let bufLen := desc.len.toNat
      if totalLen < virtioNetHdrSize then
        let skip := min (virtioNetHdrSize - totalLen) bufLen
        let dataLen := bufLen - skip
        if 0 < dataLen ∧ frame.length + dataLen ≤ maxFrameSize then
          gatherFrame ram rest (totalLen + bufLen) (frame ++ readBytes ram (desc.addr.toNat + skip) dataLen)
        else gatherFrame ram rest (totalLen + bufLen) frame
      else if frame.length + bufLen ≤ maxFrameSize then
        gatherFrame ram rest (totalLen + bufLen) (frame ++ readBytes ram desc.addr.toNat bufLen)
      else gatherFrame ram rest (totalLen + bufLen) frame

/-- Handle one chain of the TX queue. -/
def handleChain (net : VirtioNet) (queue : Virtqueue) (chain : DescChain) (env : VirtioEnv) :
    Except VirtioStop VirtioEnv := do
  let frame := gatherFrame env.ram chain.descs 0 []
  let env := if 14 ≤ frame.length then env.vswitchForward net.portId frame else env
  let ram ← queue.putUsed env.ram chain.head 0
  return { env with ram }

def processTx (net : VirtioNet) (fuel : ℕ) (queue : Virtqueue) (env : VirtioEnv) :
    Except VirtioStop (Virtqueue × VirtioEnv) :=
  queue.drain net.handleChain fuel env

def configRead (net : VirtioNet) (offset : U64) (size : U8) : U64 :=
  if h : offset.toNat < 6 ∧ size = 1 then (net.mac.get ⟨offset.toNat, h.1⟩).setWidth 64
  else if offset = 6 ∧ size = 2 then net.status.setWidth 64
  else if offset = 0 ∧ size = 4 then
    net.mac[0].setWidth 64 ||| net.mac[1].setWidth 64 <<< 8 ||| net.mac[2].setWidth 64 <<< 16
      ||| net.mac[3].setWidth 64 <<< 24
  else if offset = 4 ∧ size = 4 then
    net.mac[4].setWidth 64 ||| net.mac[5].setWidth 64 <<< 8 ||| net.status.setWidth 64 <<< 16
  else 0

instance : VirtioDevice VirtioNet where
  deviceId _ := 1
  deviceFeatures _ := virtioFVersion1 ||| virtioNetFMac ||| virtioNetFStatus
  configRead := configRead
  -- the configuration space is read-only
  configWrite net _ _ _ := net
  queueNotify fuel net queueIdx queue env :=
    -- queue 0 is the RX queue, for which a notification needs no action
    if queueIdx = 1 then do
      let (queue, env) ← net.processTx fuel queue env
      return (net, queue, env)
    else .ok (net, queue, env)
  numQueues _ := 2

end VirtioNet

end Hypervisor
