import Hypervisor.Model.Decode
import Hypervisor.Model.Distributor
import Hypervisor.Model.Pl011
import Hypervisor.Model.Pl031
import Hypervisor.Model.Redistributor
import Hypervisor.Model.Vcpu
import Hypervisor.Model.VirtioMmio

/-! # Emulated devices behind trapped accesses

`devices/mod.rs` and `handle_mmio_abort` of `exception.rs`: a data abort is decoded, the device whose
window holds the address serves it, and a load puts the answer into the register. Device windows end
below 2^64, so their bounds are numbers. Console output is left out.
-/

namespace Hypervisor

/-- What the devices read of the machine. -/
structure MmioHost where
  info : PlatformInfo
  uartBase : U64
  cntfrq : U64
  cntvct : U64
  /-- For the loops of the virtio devices. -/
  fuel : ℕ

/-- A store to a physical device. -/
structure PhysWrite where
  addr : U64
  size : U8
  value : U64
deriving DecidableEq, Repr

/-- What the devices change besides themselves. -/
structure MmioWorld where
  env : VirtioEnv
  physWrites : List PhysWrite := []

def MmioWorld.physWrite (world : MmioWorld) (write : Option PhysWrite) : MmioWorld :=
  { world with physWrites := world.physWrites ++ write.toList }

inductive Device where
  | uart (d : VirtualUart)
  | gicd (d : VirtualGicd)
  | gicr (d : VirtualGicr)
  | virtioBlk (d : VirtioMmioTransport VirtioBlk)
  | virtioNet (d : VirtioMmioTransport VirtioNet)
  | pl031 (d : VirtualPl031)

namespace Device

def baseAddress (host : MmioHost) : Device → U64
  | uart _ => host.uartBase
  | gicd _ => host.info.gicdBase
  | gicr _ => host.info.gicrBase
  | virtioBlk d => d.base
  | virtioNet d => d.base
  | pl031 _ => 0x09010000

def size : Device → ℕ
  | uart _ => 0x1000
  | gicd _ => 0x10000
  | gicr d => 0x20000 * d.numVcpus
  | virtioBlk _ => 0x200
  | virtioNet _ => 0x200
  | pl031 _ => 0x1000

def contains (host : MmioHost) (dev : Device) (addr : U64) : Bool :=
  (dev.baseAddress host).toNat ≤ addr.toNat && addr.toNat < (dev.baseAddress host).toNat + dev.size

def read (host : MmioHost) (offset : U64) (size : U8) : Device → Except VirtioStop (Option U64 × Device)
  | uart d => .ok (some (d.read offset size).1, uart (d.read offset size).2)
  | gicd d => .ok (some (d.read offset size), gicd d)
  | gicr d => .ok (d.read offset size, gicr d)
  | virtioBlk d => .ok (some (d.read offset size), virtioBlk d)
  | virtioNet d => .ok (some (d.read offset size), virtioNet d)
  | pl031 d => do
      let value ← orStop .devicePanic (d.read host.cntfrq host.cntvct offset size)
      return (some value, pl031 d)

def write (host : MmioHost) (offset value : U64) (size : U8) (world : MmioWorld) :
    Device → Except VirtioStop (Device × MmioWorld)
  | uart d =>
      let (char, d) := d.write offset value size
      .ok (uart d, world.physWrite (char.map fun ch => ⟨host.uartBase, 4, ch.setWidth 64⟩))
  | gicd d =>
      let forwarded := (VirtualGicd.forward offset value size).map fun fwd => ⟨host.info.gicdBase + offset, size, fwd⟩
      .ok (gicd (d.write offset value size), world.physWrite forwarded)
  | gicr d => .ok (gicr (d.write offset value size), world)
  | virtioBlk d => do
      let (d, env) ← d.write host.fuel world.env offset value size
      return (virtioBlk d, { world with env })
  | virtioNet d => do
      let (d, env) ← d.write host.fuel world.env offset value size
      return (virtioNet d, { world with env })
  | pl031 d => .ok (pl031 (d.write host.cntvct offset value size), world)

end Device

/-! ## The manager -/

/-- `MAX_DEVICES`. -/
abbrev maxDevices : ℕ := 8

/-- `DeviceManager`, without the number of devices that only registration uses. -/
structure DeviceManager where
  devices : Fin maxDevices → Option Device

namespace DeviceManager

def setDevice (m : DeviceManager) (slot : Fin maxDevices) (dev : Device) : DeviceManager :=
  ⟨Function.update m.devices slot (some dev)⟩

/-- The first slot whose device has a property. -/
def firstSlot (m : DeviceManager) (test : Device → Bool) : Option (Fin maxDevices × Device) :=
  (List.finRange maxDevices).findSome? fun slot =>
    (m.devices slot).bind fun dev => if test dev then some (slot, dev) else none

/-- Unknown addresses read as zero, and writes to them are ignored. -/
def handleMmio (host : MmioHost) (m : DeviceManager) (world : MmioWorld) (addr value : U64) (size : U8)
    (isWrite : Bool) : Except VirtioStop (Option U64 × DeviceManager × MmioWorld) :=
  match m.firstSlot (·.contains host addr) with
  | some (slot, dev) =>
      let offset := addr - dev.baseAddress host
      if isWrite then do
        let (dev, world) ← dev.write host offset value size world
        return (none, m.setDevice slot dev, world)
      else do
        let (answer, dev) ← dev.read host offset size
        return (answer, m.setDevice slot dev, world)
  | none => .ok (if isWrite then none else some 0, m, world)

end DeviceManager

/-! ## The data abort -/

def esrIssMask : U64 := 0x1FFFFFF

/-- Register 31 reads as zero. -/
def VcpuContext.getReg (context : VcpuContext) (reg : U8) : U64 :=
  if bound : reg.toNat < 31 then context.gpRegs ⟨reg.toNat, bound⟩ else 0

/-- Writes to register 31 are ignored. -/
def VcpuContext.setReg (context : VcpuContext) (reg : U8) (value : U64) : VcpuContext :=
  if bound : reg.toNat < 31 then
    { context with gpRegs := Function.update context.gpRegs ⟨reg.toNat, bound⟩ value }
  else context

/-- The instruction for the decoder, read from memory if the syndrome is not valid. An address that looks
like a virtual one cannot be read. -/
def abortInsn (fetch : U64 → U32) (pc : U64) (iss : U32) : Option U32 :=
  if (iss >>> 24) &&& 1 = 1 then some 0
  else if pc < 0x800000000000 then some (fetch pc)
  else none

/-- The flag is whether the access was handled. -/
def handleMmioAbort (host : MmioHost) (fetch : U64 → U32) (context : VcpuContext) (esr addr : U64)
    (m : DeviceManager) (world : MmioWorld) :
    Except VirtioStop (Bool × VcpuContext × DeviceManager × MmioWorld) :=
  let iss : U32 := (esr &&& esrIssMask).setWidth 32
  match (abortInsn fetch context.pc iss).bind fun insn => MmioAccess.decode insn iss with
  | none => .ok (false, context, m, world)
  | some access =>
      if access.isStore then do
        let (_, m, world) ← m.handleMmio host world addr (context.getReg access.reg) access.size true
        return (true, context, m, world)
      else do
        let (answer, m, world) ← m.handleMmio host world addr 0 access.size false
        match answer with
        | some value => return (true, context.setReg access.reg value, m, world)
        | none => return (false, context, m, world)

end Hypervisor
