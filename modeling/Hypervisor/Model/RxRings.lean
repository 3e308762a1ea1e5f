import Hypervisor.Model.VSwitch
import Hypervisor.Ring.Spsc

/-! # The receive rings, access by access

`NetRxRing` of `vswitch.rs` and `UartRxRing` of `global.rs` are written by one party and read by another
without a lock. Here are the single accesses of their operations: the bytes of a frame and its length, or
the one byte from the UART. The order of the accesses to the indices is that of `Spsc`.
-/

namespace Hypervisor

/-! ## Frames -/

namespace FrameSlot

def setByte (i : Fin maxFrameSize) (byte : U8) (slot : FrameSlot) : FrameSlot :=
  { slot with buf := Function.update slot.buf i byte }

def setLen (len : U16) (fits : len.toNat ≤ maxFrameSize) (slot : FrameSlot) : FrameSlot := { slot with len, fits }

/-- The length of a frame that fits, as the slot keeps it. -/
theorem toNat_len_le {frame : List U8} (fits : frame.length ≤ maxFrameSize) :
    (BitVec.ofNat 16 frame.length).toNat ≤ maxFrameSize :=
  Nat.le_trans (Nat.mod_le _ _) fits

/-- The stores of a frame to a slot: `copy_from_slice`, then the length. -/
def storesOf (frame : List U8) (fits : frame.length ≤ maxFrameSize) : List (FrameSlot → FrameSlot) :=
  (List.finRange frame.length).map (fun i => setByte (i.castLE fits) (frame.get i)) ++
    [setLen (BitVec.ofNat 16 frame.length) (toNat_len_le fits)]

/-- Load some bytes of a slot. -/
def load {R : Type} : List (Fin maxFrameSize) → (List U8 → Spsc.Reader FrameSlot R) → Spsc.Reader FrameSlot R
  | [], next => next []
  | i :: rest, next => .look fun slot => load rest fun bytes => next (slot.buf i :: bytes)

/-- The loads of a frame into a buffer: the length, then the bytes for which the buffer has room. -/
def readInto (buf : List U8) : Spsc.Reader FrameSlot (ℕ × List U8) :=
  .look fun slot =>
    let copyLen := min slot.len.toNat buf.length
    load ((List.finRange copyLen).map (Fin.castLE (Nat.le_trans (Nat.min_le_left _ _) slot.fits))) fun bytes =>
      .done (slot.len.toNat, bytes ++ buf.drop copyLen)

end FrameSlot

/-! ## Bytes -/

/-- `UART_RX_RING_SIZE` -/
abbrev uartRxRingSize : ℕ := 64

structure UartRxRing where
  buf : Fin uartRxRingSize → U8 := fun _ => 0
  /-- The read index. -/
  head : Fin uartRxRingSize := 0
  /-- The write index. -/
  tail : Fin uartRxRingSize := 0

namespace UartRxRing

def new : UartRxRing := {}

def next (i : Fin uartRxRingSize) : Fin uartRxRingSize :=
  ⟨(i + 1) % uartRxRingSize, Nat.mod_lt _ (Nat.succ_pos _)⟩

/-- Push a byte. It is dropped if the ring is full. -/
def push (ring : UartRxRing) (ch : U8) : UartRxRing :=
  if next ring.tail = ring.head then ring
  else { ring with buf := Function.update ring.buf ring.tail ch, tail := next ring.tail }

def pop (ring : UartRxRing) : Option U8 × UartRxRing :=
  if ring.head = ring.tail then (none, ring)
  else (some (ring.buf ring.head), { ring with head := next ring.head })

end UartRxRing

end Hypervisor
