import Hypervisor.Model.Proxy
import Hypervisor.ReadTree.Basic

/-! # The descriptor parser with its reads

`parse_mem_region` once more, read by read: every `read_unaligned` of the source is a sequence of
byte reads at offsets from `tx_ptr`. The result is that of `parseMemRegion`, and the cells are the
bytes of guest memory that EL2 touches while it parses.
-/

namespace Hypervisor

/-- A program that reads bytes at offsets and can fail with an FF-A error. -/
abbrev TxReader := ReadTree ℕ U8 I32

namespace TxReader

def u16 (off : ℕ) : TxReader U16 := do
  let low ← ReadTree.cell off
  let high ← ReadTree.cell (off + 1)
  return high ++ low

def u32 (off : ℕ) : TxReader U32 := do
  let low ← u16 off
  let high ← u16 (off + 2)
  return high ++ low

def u64 (off : ℕ) : TxReader U64 := do
  let low ← u32 off
  let high ← u32 (off + 4)
  return high ++ low

/-- The loop over address ranges: `count` of them are left, the next has index `i`. -/
def ranges (total rangesOffset : ℕ) : ℕ → ℕ → TxReader (List AddrRange)
  | 0, _ => return []
  | count + 1, i => do
      let rangeOff := rangesOffset + i * sizeOfMemRegionAddrRange
      if total < rangeOff + sizeOfMemRegionAddrRange then .fail ffaInvalidParameters
      else
        let address ← u64 rangeOff
        let pageCount ← u32 (rangeOff + 8)
        if address &&& 0xFFF ≠ 0 then .fail ffaInvalidParameters
        else
          let rest ← ranges total rangesOffset count (i + 1)
          return (address, pageCount) :: rest

/-- The part after the header, with the composite descriptor at `compOffset`. -/
def composite (total compOffset : ℕ) (senderId receiverId : U16) (flags : U32) : TxReader ParsedMemRegion := do
  let compEnd := compOffset + sizeOfCompositeMemRegion
  if total < compEnd then .fail ffaInvalidParameters
  else
    let totalPageCount ← u32 compOffset
    let addressRangeCount ← u32 (compOffset + 4)
    if addressRangeCount = 0 then .fail ffaInvalidParameters
    else
      let ranges ← ranges total compEnd (min addressRangeCount.toNat maxAddrRanges) 0
      return { senderId, receiverId, flags, ranges, totalPageCount }

/-- The part after the header, with the receiver's descriptor at `accessOffset`. -/
def access (total accessOffset : ℕ) (senderId : U16) (flags : U32) : TxReader ParsedMemRegion := do
  if total < accessOffset + sizeOfMemAccessDesc then .fail ffaInvalidParameters
  else
    let receiverId ← u16 accessOffset
    let compositeOffset ← u32 (accessOffset + 4)
    composite total compositeOffset.toNat senderId receiverId flags

/-- `parse_mem_region`. The attributes are read and not used. -/
def memRegion (totalLength : U32) : TxReader ParsedMemRegion := do
  let total := totalLength.toNat
  if total < sizeOfMemRegion then .fail ffaInvalidParameters
  else
    let senderId ← u16 0
    let _attributes ← u16 2
    let flags ← u32 8
    let receiverCount ← u32 32
    let receiversOffset ← u32 36
    if receiverCount = 0 ∨ 1 < receiverCount then .fail ffaInvalidParameters
    else access total receiversOffset.toNat senderId flags

/-! ## Results and cells of the words -/

section Words

variable (buf : TxBuffer) (off : ℕ)

theorem result_u16 : (u16 off).result buf = .ok (readU16 buf off) := rfl
theorem result_u32 : (u32 off).result buf = .ok (readU32 buf off) := rfl
theorem result_u64 : (u64 off).result buf = .ok (readU64 buf off) := rfl

theorem cells_u16 : (u16 off).cells buf = List.range' off 2 := rfl
theorem cells_u32 : (u32 off).cells buf = List.range' off 4 := rfl
theorem cells_u64 : (u64 off).cells buf = List.range' off 8 := rfl

end Words

/-! ## The same parser -/

theorem result_ranges (buf : TxBuffer) (total rangesOffset count i : ℕ) :
    (ranges total rangesOffset count i).result buf = parseRanges buf total rangesOffset count i := by
  induction count generalizing i with
  | zero => rfl
  | succ count ih =>
    rw [ranges, parseRanges]
    dsimp only
    split_ifs with short unaligned
    · rfl
    · rw [ReadTree.result_bind_of_ok (result_u64 ..), ReadTree.result_bind_of_ok (result_u32 ..), if_pos unaligned]
      rfl
    · rw [ReadTree.result_bind_of_ok (result_u64 ..), ReadTree.result_bind_of_ok (result_u32 ..), if_neg unaligned,
        ReadTree.result_bind, ih]
      rfl

theorem result_composite (buf : TxBuffer) (total compOffset : ℕ) (senderId receiverId : U16) (flags : U32) :
    (composite total compOffset senderId receiverId flags).result buf =
      if total < compOffset + sizeOfCompositeMemRegion then .error ffaInvalidParameters
      else if readU32 buf (compOffset + 4) = 0 then .error ffaInvalidParameters
      else (parseRanges buf total (compOffset + sizeOfCompositeMemRegion)
          (min (readU32 buf (compOffset + 4)).toNat maxAddrRanges) 0).map fun ranges =>
        { senderId, receiverId, flags, ranges, totalPageCount := readU32 buf compOffset } := by
  rw [composite]
  split_ifs with short empty
  · rfl
  · rw [ReadTree.result_bind_of_ok (result_u32 ..), ReadTree.result_bind_of_ok (result_u32 ..), if_pos empty]
    rfl
  · rw [ReadTree.result_bind_of_ok (result_u32 ..), ReadTree.result_bind_of_ok (result_u32 ..), if_neg empty,
      ReadTree.result_bind, result_ranges]
    rfl

theorem result_access (buf : TxBuffer) (total accessOffset : ℕ) (senderId : U16) (flags : U32) :
    (access total accessOffset senderId flags).result buf =
      if total < accessOffset + sizeOfMemAccessDesc then .error ffaInvalidParameters
      else (composite total (readU32 buf (accessOffset + 4)).toNat senderId (readU16 buf accessOffset)
        flags).result buf := by
  rw [access]
  split_ifs with short
  · rfl
  · rw [ReadTree.result_bind_of_ok (result_u16 ..), ReadTree.result_bind_of_ok (result_u32 ..)]

theorem result_memRegion (buf : TxBuffer) (totalLength : U32) :
    (memRegion totalLength).result buf = parseMemRegion buf totalLength := by
  rw [memRegion, parseMemRegion]
  dsimp only
  rcases Nat.lt_or_ge totalLength.toNat sizeOfMemRegion with small | large
  · rw [if_pos small, if_pos small]
    rfl
  · rw [if_neg (by omega), if_neg (by omega), ReadTree.result_bind_of_ok (result_u16 ..),
      ReadTree.result_bind_of_ok (result_u16 ..), ReadTree.result_bind_of_ok (result_u32 ..),
      ReadTree.result_bind_of_ok (result_u32 ..), ReadTree.result_bind_of_ok (result_u32 ..)]
    split_ifs with receivers
    · rfl
    all_goals rw [result_access, result_composite]
    all_goals simp only [*, if_true, if_false]

end TxReader

/-! ## The arithmetic of `usize`

The parser with its sums as the processor forms them: in 64 bits, with a panic where one does not fit
and where an index is past the end of the array. -/

/-- A program as above that can also panic, which is the error `none`. -/
abbrev UsizeReader := ReadTree ℕ U8 (Option I32)

namespace UsizeReader

def reads {α : Type} (reader : TxReader α) : UsizeReader α := reader.mapError some

def error {α : Type} (code : I32) : UsizeReader α := .fail (some code)

def panic {α : Type} : UsizeReader α := .fail none

def add (x y : ℕ) : UsizeReader ℕ := if x + y < 2 ^ 64 then pure (x + y) else panic

def mul (x y : ℕ) : UsizeReader ℕ := if x * y < 2 ^ 64 then pure (x * y) else panic

def ranges (total rangesOffset : ℕ) : ℕ → ℕ → UsizeReader (List AddrRange)
  | 0, _ => return []
  | count + 1, i => do
      let rangeOff ← add rangesOffset (← mul i sizeOfMemRegionAddrRange)
      let rangeEnd ← add rangeOff sizeOfMemRegionAddrRange
      if total < rangeEnd then error ffaInvalidParameters
      else
        let address ← reads (TxReader.u64 rangeOff)
        let pageCount ← reads (TxReader.u32 (rangeOff + 8))
        if address &&& 0xFFF ≠ 0 then error ffaInvalidParameters
        else if maxAddrRanges ≤ i then panic
        else
          let rest ← ranges total rangesOffset count (i + 1)
          return (address, pageCount) :: rest

def composite (total compOffset : ℕ) (senderId receiverId : U16) (flags : U32) : UsizeReader ParsedMemRegion := do
  let compEnd ← add compOffset sizeOfCompositeMemRegion
  if total < compEnd then error ffaInvalidParameters
  else
    let totalPageCount ← reads (TxReader.u32 compOffset)
    let addressRangeCount ← reads (TxReader.u32 (compOffset + 4))
    if addressRangeCount = 0 then error ffaInvalidParameters
    else
      let ranges ← ranges total compEnd (min addressRangeCount.toNat maxAddrRanges) 0
      return { senderId, receiverId, flags, ranges, totalPageCount }

def access (total accessOffset : ℕ) (senderId : U16) (flags : U32) : UsizeReader ParsedMemRegion := do
  let accessEnd ← add accessOffset sizeOfMemAccessDesc
  if total < accessEnd then error ffaInvalidParameters
  else
    let receiverId ← reads (TxReader.u16 accessOffset)
    let compositeOffset ← reads (TxReader.u32 (accessOffset + 4))
    composite total compositeOffset.toNat senderId receiverId flags

/-- `parse_mem_region`. -/
def memRegion (totalLength : U32) : UsizeReader ParsedMemRegion := do
  let total := totalLength.toNat
  if total < sizeOfMemRegion then error ffaInvalidParameters
  else
    let senderId ← reads (TxReader.u16 0)
    let _attributes ← reads (TxReader.u16 2)
    let flags ← reads (TxReader.u32 8)
    let receiverCount ← reads (TxReader.u32 32)
    let receiversOffset ← reads (TxReader.u32 36)
    if receiverCount = 0 ∨ 1 < receiverCount then error ffaInvalidParameters
    else access total receiversOffset.toNat senderId flags

end UsizeReader

/-- The addresses that EL2 reads in guest memory for a share or lend by the owner of a mailbox. The
register form reads none. -/
def shareReads (ctx : GpRegs) (mbox : FfaMailbox) (ram : GuestRam) : List ℕ :=
  let totalLength : U32 := ctx.x1.setWidth 32
  let fragmentLength : U32 := ctx.x2.setWidth 32
  if !mbox.mapped then []
  else if totalLength ≠ fragmentLength ∨ totalLength = 0 then []
  else ((TxReader.memRegion totalLength).cells fun off => ram (mbox.txIpa.toNat + off)).map (mbox.txIpa.toNat + ·)

/-- The request is a function of the bytes that `shareReads` lists. -/
theorem shareRequest_congr {ctx : GpRegs} {mbox : FfaMailbox} {ram ram' : GuestRam}
    (agree : ∀ a ∈ shareReads ctx mbox ram, ram' a = ram a) :
    shareRequest ctx mbox ram' = shareRequest ctx mbox ram := by
  rw [shareRequest, shareRequest]
  split_ifs with mapped
  · rw [parseShareDescriptor, parseShareDescriptor]
    split_ifs with malformed
    · rfl
    · rw [shareReads, mapped, if_neg (by decide), if_neg malformed] at agree
      rw [← TxReader.result_memRegion, ← TxReader.result_memRegion, ReadTree.result_congr]
      intro off member
      exact agree _ (List.mem_map_of_mem member)
  · rfl

end Hypervisor
