import Hypervisor.Model.Ffa
import Hypervisor.Model.Memory

/-! # Composite memory region descriptors

`ffa/descriptors.rs`: parsing of the FF-A v1.1 descriptor a guest puts into its TX buffer. The
buffer is a function from offsets to bytes, read little-endian at the offsets of the packed
structs. Offsets are sums of 32-bit fields and small constants, so `usize` arithmetic is exact.
-/

namespace Hypervisor

def maxAddrRanges : ℕ := 16

/-- The bytes of a TX buffer, by offset. -/
abbrev TxBuffer := ℕ → U8

/-- A base IPA and a number of 4KB pages. -/
abbrev AddrRange := U64 × U32

/-- Sizes of the packed structs. The fields of the first sum to 44 bytes, not the 48 its comment names. -/
def sizeOfMemRegion : ℕ := 44
def sizeOfMemAccessDesc : ℕ := 16
def sizeOfCompositeMemRegion : ℕ := 16
def sizeOfMemRegionAddrRange : ℕ := 16

structure ParsedMemRegion where
  senderId : U16
  receiverId : U16
  flags : U32
  /-- The first `range_count` entries of the source's array. -/
  ranges : List AddrRange
  totalPageCount : U32
deriving DecidableEq, Repr

/-- The loop over address ranges: `count` of them are left, the next has index `i`. -/
def parseRanges (buf : TxBuffer) (total rangesOffset : ℕ) : ℕ → ℕ → Except I32 (List AddrRange)
  | 0, _ => .ok []
  | count + 1, i =>
      let rangeOff := rangesOffset + i * sizeOfMemRegionAddrRange
      if total < rangeOff + sizeOfMemRegionAddrRange then .error ffaInvalidParameters
      else
        let address := readU64 buf rangeOff
        let pageCount := readU32 buf (rangeOff + 8)
        if address &&& 0xFFF ≠ 0 then .error ffaInvalidParameters
        else (parseRanges buf total rangesOffset count (i + 1)).map ((address, pageCount) :: ·)

def parseMemRegion (buf : TxBuffer) (totalLength : U32) : Except I32 ParsedMemRegion :=
  let total := totalLength.toNat
  if total < sizeOfMemRegion then .error ffaInvalidParameters
  else
    let senderId := readU16 buf 0
    let flags := readU32 buf 8
    let receiverCount := readU32 buf 32
    let receiversOffset := readU32 buf 36
    if receiverCount = 0 ∨ 1 < receiverCount then .error ffaInvalidParameters
    else
      let accessOffset := receiversOffset.toNat
      if total < accessOffset + sizeOfMemAccessDesc then .error ffaInvalidParameters
      else
        let receiverId := readU16 buf accessOffset
        let compOffset := (readU32 buf (accessOffset + 4)).toNat
        let compEnd := compOffset + sizeOfCompositeMemRegion
        if total < compEnd then .error ffaInvalidParameters
        else
          let totalPageCount := readU32 buf compOffset
          let addressRangeCount := readU32 buf (compOffset + 4)
          if addressRangeCount = 0 then .error ffaInvalidParameters
          else
            let count := min addressRangeCount.toNat maxAddrRanges
            (parseRanges buf total compEnd count 0).map fun ranges =>
              { senderId, receiverId, flags, ranges, totalPageCount }

/-! ## Building a descriptor -/

/-- The loop that stores address ranges, the next of which has index `i`. -/
def writeRanges (rangesStart : ℕ) : List AddrRange → ℕ → TxBuffer → TxBuffer
  | [], _, buf => buf
  | (addr, count) :: rest, i, buf =>
      let buf := writeU64 buf (rangesStart + i * 16) addr
      writeRanges rangesStart rest (i + 1) (writeU32 buf (rangesStart + i * 16 + 8) count)

/-- The length of the descriptor and the buffer that holds it. The sum of the page counts panics when
it overflows. -/
def buildTestDescriptor (buf : TxBuffer) (senderId receiverId : U16) (ranges : List AddrRange) :
    Option (U32 × TxBuffer) :=
  let buf : TxBuffer := fun i => if i < 128 then 0 else buf i
  let buf := writeU16 buf 0 senderId
  let buf := writeU32 buf 32 1
  let recvOff := 48
  let buf := writeU32 buf 36 (BitVec.ofNat 32 recvOff)
  let buf := writeU16 buf recvOff receiverId
  let compOff := 48 + 16
  let buf := writeU32 buf (recvOff + 4) (BitVec.ofNat 32 compOff)
  let totalPages := (ranges.map (·.2.toNat)).sum
  if totalPages < 2 ^ 32 then
    let buf := writeU32 buf compOff (BitVec.ofNat 32 totalPages)
    let buf := writeU32 buf (compOff + 4) (BitVec.ofNat 32 ranges.length)
    let rangesStart := compOff + 16
    let buf := writeRanges rangesStart ranges 0 buf
    some (BitVec.ofNat 32 (rangesStart + ranges.length * 16), buf)
  else none

end Hypervisor
