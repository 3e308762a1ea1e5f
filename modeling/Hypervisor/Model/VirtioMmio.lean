import Hypervisor.Model.VirtioDevice

/-! # The virtio-mmio transport

`devices/virtio/mmio.rs`: the register interface of a virtio device, and the delivery of received
frames to the network device. The answers of `write`, which is always `true`, and of `read`, which
is always `Some`, are left out.
-/

namespace Hypervisor

/-- `MAX_QUEUES` of a transport. -/
abbrev maxQueues : ℕ := 2

/-- The registers below the configuration space. -/
inductive MmioReg where
  | magicValue | version | deviceId | vendorId
  | deviceFeatures | deviceFeaturesSel | driverFeatures | driverFeaturesSel
  | queueSel | queueNumMax | queueNum | queueReady | queueNotify
  | interruptStatus | interruptAck | status
  | queueDescLow | queueDescHigh | queueDriverLow | queueDriverHigh | queueDeviceLow | queueDeviceHigh
  | configGeneration
deriving DecidableEq, Repr

namespace MmioReg

def offset : MmioReg → U64
  | magicValue => 0x000
  | version => 0x004
  | deviceId => 0x008
  | vendorId => 0x00C
  | deviceFeatures => 0x010
  | deviceFeaturesSel => 0x014
  | driverFeatures => 0x020
  | driverFeaturesSel => 0x024
  | queueSel => 0x030
  | queueNumMax => 0x034
  | queueNum => 0x038
  | queueReady => 0x044
  | queueNotify => 0x050
  | interruptStatus => 0x060
  | interruptAck => 0x064
  | status => 0x070
  | queueDescLow => 0x080
  | queueDescHigh => 0x084
  | queueDriverLow => 0x090
  | queueDriverHigh => 0x094
  | queueDeviceLow => 0x0A0
  | queueDeviceHigh => 0x0A4
  | configGeneration => 0x0FC

def all : List MmioReg :=
  [magicValue, version, deviceId, vendorId, deviceFeatures, deviceFeaturesSel, driverFeatures,
    driverFeaturesSel, queueSel, queueNumMax, queueNum, queueReady, queueNotify, interruptStatus,
    interruptAck, status, queueDescLow, queueDescHigh, queueDriverLow, queueDriverHigh, queueDeviceLow,
    queueDeviceHigh, configGeneration]

/-- The register that a `match` on the offset selects. -/
def ofOffset (off : U64) : Option MmioReg := all.find? fun reg => reg.offset == off

theorem ofOffset_offset (reg : MmioReg) : ofOffset reg.offset = some reg := by
  cases reg <;> decide

end MmioReg

/-- Offset of the configuration space of the device. -/
def configSpace : U64 := 0x100

def virtioMmioMagic : U32 := 0x74726976
def virtioMmioVersion : U32 := 2
def virtioVendorId : U32 := 0x554D4551
def virtioIntVring : U32 := 1

structure VirtioMmioTransport (D : Type) where
  base : U64
  device : D
  queues : Fin maxQueues → Virtqueue := fun _ => .new
  queueSel : U32 := 0
  status : U32 := 0
  interruptStatus : U32 := 0
  deviceFeaturesSel : U32 := 0
  driverFeaturesSel : U32 := 0
  driverFeatures : U64 := 0
  configGeneration : U32 := 0
  irqIntid : U32
  /-- The high halves of ring addresses written since the queue was selected. -/
  queueDescHigh : U32 := 0
  queueDriverHigh : U32 := 0
  queueDeviceHigh : U32 := 0

namespace VirtioMmioTransport

section Generic

variable {D : Type}

def new (base : U64) (device : D) (irqIntid : U32) : VirtioMmioTransport D := { base, device, irqIntid }

/-- Replace one queue. -/
def setQueue (t : VirtioMmioTransport D) (i : Fin maxQueues) (q : Virtqueue) : VirtioMmioTransport D :=
  { t with queues := Function.update t.queues i q }

def signalInterrupt (t : VirtioMmioTransport D) (env : VirtioEnv) : VirtioMmioTransport D × VirtioEnv :=
  ({ t with interruptStatus := t.interruptStatus ||| virtioIntVring }, env.injectSpi t.irqIntid)

/-- Reset the device: the high halves of ring addresses stay. -/
def reset (t : VirtioMmioTransport D) : VirtioMmioTransport D :=
  { t with status := 0, interruptStatus := 0, deviceFeaturesSel := 0, driverFeaturesSel := 0,
           driverFeatures := 0, queueSel := 0, queues := fun i => (t.queues i).reset }

variable [VirtioDevice D]

open VirtioDevice

/-- The queue of index `idx`, if the device has it. -/
def queueIndex (t : VirtioMmioTransport D) (idx : ℕ) : Option (Fin maxQueues) :=
  if h : idx < maxQueues ∧ idx < (numQueues t.device).toNat then some ⟨idx, h.1⟩ else none

def currentQueue (t : VirtioMmioTransport D) : Option (Fin maxQueues) := t.queueIndex t.queueSel.toNat

/-- Change the selected queue, if there is one. -/
def modifyCurrent (t : VirtioMmioTransport D) (f : Virtqueue → Virtqueue) : VirtioMmioTransport D :=
  match t.currentQueue with
  | some i => t.setQueue i (f (t.queues i))
  | none => t

def readReg (t : VirtioMmioTransport D) : MmioReg → U32
  | .magicValue => virtioMmioMagic
  | .version => virtioMmioVersion
  | .deviceId => deviceId t.device
  | .vendorId => virtioVendorId
  | .deviceFeatures =>
      let features := deviceFeatures t.device
      if t.deviceFeaturesSel = 0 then features.setWidth 32 else (features >>> 32).setWidth 32
  | .queueNumMax => if t.currentQueue.isSome then (maxQueueSize t.device).setWidth 32 else 0
  | .queueReady =>
      match t.currentQueue with
      | some i => if (t.queues i).ready then 1 else 0
      | none => 0
  | .interruptStatus => t.interruptStatus
  | .status => t.status
  | .configGeneration => t.configGeneration
  | _ => 0

def read (t : VirtioMmioTransport D) (offset : U64) (size : U8) : U64 :=
  if configSpace ≤ offset then configRead t.device (offset - configSpace) size
  else if size ≠ 4 then 0
  else
    match MmioReg.ofOffset offset with
    | some reg => (t.readReg reg).setWidth 64
    | none => 0

/-- QUEUE_NOTIFY: the device handles the queue, then the guest gets an interrupt. -/
def notify (fuel : ℕ) (t : VirtioMmioTransport D) (env : VirtioEnv) (queueIdx : U16) :
    Except VirtioStop (VirtioMmioTransport D × VirtioEnv) :=
  match t.queueIndex queueIdx.toNat with
  | some i =>
      if (t.queues i).ready then do
        let (device, q, env) ← queueNotify fuel t.device queueIdx (t.queues i) env
        return ({ t with device }.setQueue i q).signalInterrupt env
      else .ok (t, env)
  | none => .ok (t, env)

def writeReg (fuel : ℕ) (t : VirtioMmioTransport D) (env : VirtioEnv) (val : U32) :
    MmioReg → Except VirtioStop (VirtioMmioTransport D × VirtioEnv)
  | .deviceFeaturesSel => .ok ({ t with deviceFeaturesSel := val }, env)
  | .driverFeatures =>
      let driverFeatures :=
        if t.driverFeaturesSel = 0 then t.driverFeatures &&& 0xFFFFFFFF00000000 ||| val.setWidth 64
        else t.driverFeatures &&& 0x00000000FFFFFFFF ||| val.setWidth 64 <<< 32
      .ok ({ t with driverFeatures }, env)
  | .driverFeaturesSel => .ok ({ t with driverFeaturesSel := val }, env)
  | .queueSel =>
      .ok ({ t with queueSel := val, queueDescHigh := 0, queueDriverHigh := 0, queueDeviceHigh := 0 }, env)
  | .queueNum => .ok (t.modifyCurrent fun q => { q with num := val.setWidth 16 }, env)
  | .queueReady => .ok (t.modifyCurrent fun q => { q with ready := val != 0 }, env)
  | .queueNotify => t.notify fuel env (val.setWidth 16)
  | .interruptAck => .ok ({ t with interruptStatus := t.interruptStatus &&& ~~~val }, env)
  | .status => .ok (if val = 0 then t.reset else { t with status := val }, env)
  | .queueDescLow => .ok (t.modifyCurrent fun q => q.setDescAddr val t.queueDescHigh, env)
  | .queueDescHigh =>
      .ok ({ t with queueDescHigh := val }.modifyCurrent fun q => q.setDescAddr q.descAddrLow val, env)
  | .queueDriverLow => .ok (t.modifyCurrent fun q => q.setAvailAddr val t.queueDriverHigh, env)
  | .queueDriverHigh =>
      .ok ({ t with queueDriverHigh := val }.modifyCurrent fun q => q.setAvailAddr q.availAddrLow val, env)
  | .queueDeviceLow => .ok (t.modifyCurrent fun q => q.setUsedAddr val t.queueDeviceHigh, env)
  | .queueDeviceHigh =>
      .ok ({ t with queueDeviceHigh := val }.modifyCurrent fun q => q.setUsedAddr q.usedAddrLow val, env)
  | _ => .ok (t, env)

def write (fuel : ℕ) (t : VirtioMmioTransport D) (env : VirtioEnv) (offset value : U64) (size : U8) :
    Except VirtioStop (VirtioMmioTransport D × VirtioEnv) :=
  if configSpace ≤ offset then
    .ok ({ t with device := configWrite t.device (offset - configSpace) value size }, env)
  else if size ≠ 4 then .ok (t, env)
  else
    match MmioReg.ofOffset offset with
    | some reg => t.writeReg fuel env (value.setWidth 32) reg
    | none => .ok (t, env)

end Generic

/-! ## Received frames -/

def isWritable (desc : VirtqDesc) : Bool := desc.flags &&& virtqDescFWrite != 0

/-- Bytes that a chain can take. -/
def totalCap (descs : List VirtqDesc) : ℕ := ((descs.filter isWritable).map fun desc => desc.len.toNat).sum

/-- `virtio_net_hdr_v1`: zero except for `num_buffers`, which is one. -/
def netHdr : List U8 := [0, 0, 0, 0, 0, 0, 0, 0, 0, 0, 1, 0]

/-- The loop that spreads header and frame over the writable buffers, with the number of bytes it
has written. A buffer that has both gets the rest of the header first. -/
def scatterFrame (frame : List U8) : List VirtqDesc → GuestRam → (written : ℕ) → GuestRam × ℕ
  | [], ram, written => (ram, written)
  | desc :: rest, ram, written =>
      if !isWritable desc then scatterFrame frame rest ram written
      else
        let remaining := netHdr.length + frame.length - written
        let toWrite := min remaining desc.len.toNat
        let dst := desc.addr.toNat
        if written < 12 then
          let hdrBytes := min (12 - written) toWrite
          let ram := storeBytes ram dst hdrBytes fun i => netHdr.getD (written + i) 0
          let ram := storeBytes ram (dst + hdrBytes) (toWrite - hdrBytes) fun i => frame.getD i 0
          scatterFrame frame rest ram (written + toWrite)
        else
          let ram := storeBytes ram dst toWrite fun i => frame.getD (written - 12 + i) 0
          scatterFrame frame rest ram (written + toWrite)

/-- Put a frame into the next buffer of the RX queue; the answer is whether it was delivered. -/
def injectRx (t : VirtioMmioTransport VirtioNet) (env : VirtioEnv) (frame : List U8) :
    Except VirtioStop (Bool × VirtioMmioTransport VirtioNet × VirtioEnv) := do
  match ← (t.queues 0).getAvailDesc env.ram with
  | none => return (false, t, env)
  | some (chain, rxQueue) =>
      let t := t.setQueue 0 rxQueue
      if chain.count = 0 then return (false, t, env)
      if totalCap chain.descs < netHdr.length + frame.length then
        let ram ← rxQueue.putUsed env.ram chain.head 0
        return (false, t, { env with ram })
      let (ram, written) := scatterFrame frame chain.descs env.ram 0
      let ram ← rxQueue.putUsed ram chain.head (BitVec.ofNat 32 written)
      return (true, t.signalInterrupt { env with ram })

end VirtioMmioTransport

/-! ## The transports of a VM -/

/-- `Device::VirtioBlk` and `Device::VirtioNet`. -/
inductive VirtioTransport where
  | blk (t : VirtioMmioTransport VirtioBlk)
  | net (t : VirtioMmioTransport VirtioNet)

/-- What happens to a transport: a trapped access of the guest, or a frame for it. -/
inductive VirtioAccess where
  | read (offset : U64) (size : U8)
  | write (offset value : U64) (size : U8)
  | injectRx (frame : List U8)

namespace VirtioTransport

/-- The transport after an access. Only the network device receives frames. -/
def step (fuel : ℕ) (env : VirtioEnv) :
    VirtioTransport → VirtioAccess → Except VirtioStop (VirtioTransport × VirtioEnv)
  | t, .read _ _ => .ok (t, env)
  | .blk t, .write offset value size => do
      let (t, env) ← t.write fuel env offset value size
      return (.blk t, env)
  | .net t, .write offset value size => do
      let (t, env) ← t.write fuel env offset value size
      return (.net t, env)
  | .blk t, .injectRx _ => .ok (.blk t, env)
  | .net t, .injectRx frame => do
      let (_, t, env) ← t.injectRx env frame
      return (.net t, env)

end VirtioTransport

end Hypervisor
