import Hypervisor.Model.VirtioDevice
import Mathlib.Data.List.OfFn

/-! # The virtual switch

`vswitch.rs`: the table of learned addresses, and a ring of frames for each port, in which they wait
until the run loop takes them. A ring has one producer and one consumer, and the operations of both are
atomic here. A port outside `PORT_RX` is a panic, which is `none`.
-/

namespace Hypervisor

/-- `NET_RX_RING_SIZE`: one slot of a ring always stays free. -/
abbrev netRxRingSize : ℕ := 9

/-- `MAX_PORTS` -/
abbrev maxPorts : ℕ := 2

/-! ## Rings of frames -/

structure FrameSlot where
  buf : Fin maxFrameSize → U8
  len : U16
  fits : len.toNat ≤ maxFrameSize

namespace FrameSlot

def new : FrameSlot := ⟨fun _ => 0, 0, Nat.zero_le _⟩

/-- Copy a frame into the slot. The bytes behind it stay. -/
def write (slot : FrameSlot) (frame : List U8) (fits : frame.length ≤ maxFrameSize) : FrameSlot where
  buf i := frame.getD i (slot.buf i)
  len := BitVec.ofNat 16 frame.length
  fits := Nat.le_trans (Nat.mod_le _ _) fits

/-- The first `n` bytes of the slot. -/
def bytes (slot : FrameSlot) (n : ℕ) (fits : n ≤ maxFrameSize) : List U8 :=
  List.ofFn fun i : Fin n => slot.buf (i.castLE fits)

end FrameSlot

structure NetRxRing where
  frames : Fin netRxRingSize → FrameSlot := fun _ => .new
  /-- The consumer reads from here. -/
  head : Fin netRxRingSize := 0
  /-- The producer writes here. -/
  tail : Fin netRxRingSize := 0

namespace NetRxRing

def new : NetRxRing := {}

/-- The slot behind `i`. -/
def next (i : Fin netRxRingSize) : Fin netRxRingSize := ⟨(i + 1) % netRxRingSize, Nat.mod_lt _ (Nat.succ_pos _)⟩

/-- Store a frame; the answer is `false` if it is refused. -/
def store (ring : NetRxRing) (frame : List U8) : Bool × NetRxRing :=
  if h : frame.length = 0 ∨ maxFrameSize < frame.length then (false, ring)
  else if next ring.tail = ring.head then (false, ring)
  else
    let slot := (ring.frames ring.tail).write frame (Nat.le_of_not_lt fun long => h (.inr long))
    (true, { ring with frames := Function.update ring.frames ring.tail slot, tail := next ring.tail })

/-- Take a frame into a buffer: its length, if there was one, and the buffer. -/
def take (ring : NetRxRing) (buf : List U8) : Option ℕ × List U8 × NetRxRing :=
  if ring.head = ring.tail then (none, buf, ring)
  else
    let slot := ring.frames ring.head
    let copyLen := min slot.len.toNat buf.length
    let copied := slot.bytes copyLen (Nat.le_trans (Nat.min_le_left _ _) slot.fits)
    (some slot.len.toNat, copied ++ buf.drop copyLen, { ring with head := next ring.head })

end NetRxRing

/-- `PORT_RX` -/
abbrev PortRx := Fin maxPorts → NetRxRing

/-! ## The table of addresses -/

def macTableSize : ℕ := 16

structure MacEntry where
  mac : List U8
  portId : ℕ
  valid : Bool
deriving DecidableEq, Repr

namespace MacEntry

def new : MacEntry := ⟨List.replicate 6 0, 0, false⟩

/-- The entry is in use, for this address. -/
def isFor (entry : MacEntry) (mac : List U8) : Bool := entry.valid && entry.mac == mac

end MacEntry

structure VSwitch where
  macTable : List MacEntry
  macCount : ℕ
deriving DecidableEq, Repr

namespace VSwitch

def new : VSwitch := ⟨List.replicate macTableSize .new, 0⟩

/-- Forget all addresses. They stay in their slots, which become free. -/
def reset (switch : VSwitch) : VSwitch :=
  ⟨switch.macTable.map fun entry => { entry with valid := false }, 0⟩

/-- Remember the port of an address. There is no eviction from a full table. -/
def learn (switch : VSwitch) (mac : List U8) (portId : ℕ) : VSwitch :=
  match switch.macTable.findIdx? fun entry => entry.isFor mac with
  | some i => { switch with macTable := switch.macTable.modify i fun entry => { entry with portId } }
  | none =>
      if switch.macCount < macTableSize then
        match switch.macTable.findIdx? fun entry => !entry.valid with
        | some i => ⟨switch.macTable.set i ⟨mac, portId, true⟩, switch.macCount + 1⟩
        | none => switch
      else switch

/-- The port of an address. -/
def lookup (switch : VSwitch) (mac : List U8) : Option ℕ :=
  (switch.macTable.find? fun entry => entry.isFor mac).map (·.portId)

/-- Store a frame for all ports but the one it comes from. -/
def flood (ports : PortRx) (srcPort : ℕ) (frame : List U8) : PortRx := fun port =>
  if (port : ℕ) ≠ srcPort then ((ports port).store frame).2 else ports port

def dstMac (frame : List U8) : List U8 := frame.take 6
def srcMac (frame : List U8) : List U8 := (frame.drop 6).take 6

/-- Broadcast and multicast addresses have bit 0 of the first byte set. -/
def isMulticast (frame : List U8) : Bool := frame.headD 0 &&& 1 != 0

/-- Learn the source of a frame and pass the frame on to the port of its destination, or to all ports
if there is none. -/
def forward (switch : VSwitch) (ports : PortRx) (srcPort : ℕ) (frame : List U8) : Option (VSwitch × PortRx) :=
  if frame.length < 14 then some (switch, ports)
  else
    let switch := switch.learn (srcMac frame) srcPort
    if isMulticast frame then some (switch, flood ports srcPort frame)
    else
      match switch.lookup (dstMac frame) with
      | some dstPort =>
          if dstPort = srcPort then some (switch, ports)
          else if h : dstPort < maxPorts then
            some (switch, Function.update ports ⟨dstPort, h⟩ ((ports ⟨dstPort, h⟩).store frame).2)
          else none
      | none => some (switch, flood ports srcPort frame)

end VSwitch

end Hypervisor
