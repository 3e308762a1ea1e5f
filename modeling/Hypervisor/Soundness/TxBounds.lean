import Hypervisor.Model.TxReads
import Hypervisor.Soundness.RoundTrip

/-! # The reads of a descriptor and the TX buffer

The parser follows two offsets and a list of ranges and bounds all of them by the length that the
guest passes. Which bytes it reads is known from the fields it follows, so the reads stay inside the
TX buffer exactly when these offsets do; a length within the buffer is enough.
-/

namespace Hypervisor

theorem forall_range'_lt_iff {off n size : ℕ} (positive : 0 < n) :
    (∀ a ∈ List.range' off n, a < size) ↔ off + n ≤ size := by
  simp only [List.mem_range'_1]
  constructor
  · intro inside
    have last := inside (off + n - 1) (by omega)
    omega
  · intro fits a member
    omega

/-- The offset of range `i`. -/
def rangeOffset (rangesOffset i : ℕ) : ℕ := rangesOffset + i * sizeOfMemRegionAddrRange

/-- The ranges that the loop gets to end within `size`: those before them are page-aligned, and they
end within `total`. -/
def RangesInside (buf : TxBuffer) (total size rangesOffset count : ℕ) : Prop :=
  ∀ i < count, rangeOffset rangesOffset i + sizeOfMemRegionAddrRange ≤ total →
    (∀ j < i, readU64 buf (rangeOffset rangesOffset j) &&& 0xFFF = 0) → rangeOffset rangesOffset i + 12 ≤ size

/-- The composite descriptor that the parser gets to, and its ranges, end within `size`. -/
def CompositeInside (buf : TxBuffer) (total size compOffset : ℕ) : Prop :=
  compOffset + sizeOfCompositeMemRegion ≤ total →
    compOffset + 8 ≤ size ∧ RangesInside buf total size (compOffset + sizeOfCompositeMemRegion)
      (min (readU32 buf (compOffset + 4)).toNat maxAddrRanges)

/-- Everything the parser follows in a descriptor of length `total` ends within `size`. -/
def DescriptorInside (buf : TxBuffer) (total size : ℕ) : Prop :=
  sizeOfMemRegion ≤ total → 40 ≤ size ∧ (readU32 buf 32 = 1 →
    (readU32 buf 36).toNat + sizeOfMemAccessDesc ≤ total → (readU32 buf 36).toNat + 8 ≤ size ∧
      CompositeInside buf total size (readU32 buf ((readU32 buf 36).toNat + 4)).toNat)

section Cells

variable {buf : TxBuffer} {total size : ℕ}

theorem ranges_inside_iff (rangesOffset count first : ℕ) :
    (∀ a ∈ (TxReader.ranges total rangesOffset count first).cells buf, a < size) ↔
      ∀ i < count, rangeOffset rangesOffset (first + i) + sizeOfMemRegionAddrRange ≤ total →
        (∀ j < i, readU64 buf (rangeOffset rangesOffset (first + j)) &&& 0xFFF = 0) →
          rangeOffset rangesOffset (first + i) + 12 ≤ size := by
  induction count generalizing first with
  | zero => simp [TxReader.ranges]
  | succ count ih =>
    rw [TxReader.ranges]
    change (∀ a ∈ (if total < rangeOffset rangesOffset first + sizeOfMemRegionAddrRange then _ else _ : TxReader _).cells
      buf, a < size) ↔ _
    split_ifs with short
    · refine iff_of_true (by simp) fun i _ fits => ?_
      simp only [rangeOffset, sizeOfMemRegionAddrRange] at short fits
      omega
    rw [ReadTree.forall_cells_bind (TxReader.result_u64 ..), ReadTree.forall_cells_bind (TxReader.result_u32 ..),
      TxReader.cells_u64, TxReader.cells_u32, forall_range'_lt_iff (by decide), forall_range'_lt_iff (by decide)]
    change (rangeOffset rangesOffset first + 8 ≤ size ∧ rangeOffset rangesOffset first + 8 + 4 ≤ size ∧
      ∀ a ∈ (if readU64 buf (rangeOffset rangesOffset first) &&& 0xFFF ≠ 0 then _ else _ : TxReader _).cells buf,
        a < size) ↔ _
    split_ifs with unaligned
    · -- no range after the first is read
      constructor
      · rintro ⟨-, fits, -⟩ i _ _ aligned
        rcases Nat.eq_zero_or_pos i with rfl | later
        · simpa using fits
        · exact absurd (aligned 0 later) unaligned
      · intro inside
        have fits : rangeOffset rangesOffset first + 12 ≤ size := inside 0 (by omega) (by simpa using short)
          fun j before => absurd before (Nat.not_lt_zero j)
        exact ⟨by omega, fits, by simp⟩
    · rw [ReadTree.cells_bind_pure, ih]
      constructor
      · rintro ⟨-, fits, rest⟩ i bound within aligned
        rcases i with _ | i
        · simpa using fits
        · rw [show first + (i + 1) = first + 1 + i by omega] at within ⊢
          refine rest i (by omega) within fun j before => ?_
          rw [show first + 1 + j = first + (j + 1) by omega]
          exact aligned (j + 1) (by omega)
      · intro inside
        have fits : rangeOffset rangesOffset first + 12 ≤ size := inside 0 (by omega) (by simpa using short)
          fun j before => absurd before (Nat.not_lt_zero j)
        refine ⟨by omega, fits, fun i bound within aligned => ?_⟩
        rw [show first + 1 + i = first + (i + 1) by omega] at within ⊢
        refine inside (i + 1) (by omega) within fun j before => ?_
        rcases j with _ | j
        · exact not_not.mp unaligned
        · rw [show first + (j + 1) = first + 1 + j by omega]
          exact aligned j (by omega)

theorem composite_inside_iff (compOffset : ℕ) (senderId receiverId : U16) (flags : U32) :
    (∀ a ∈ (TxReader.composite total compOffset senderId receiverId flags).cells buf, a < size) ↔
      CompositeInside buf total size compOffset := by
  rw [TxReader.composite, CompositeInside]
  split_ifs with short
  · exact iff_of_true (by simp) fun within => absurd within (by omega)
  rw [ReadTree.forall_cells_bind (TxReader.result_u32 ..), ReadTree.forall_cells_bind (TxReader.result_u32 ..),
    TxReader.cells_u32, TxReader.cells_u32, forall_range'_lt_iff (by decide), forall_range'_lt_iff (by decide),
    forall_prop_of_true (by omega)]
  refine (and_iff_right_of_imp fun rest => by omega).trans (and_congr_right fun _ => ?_)
  split_ifs with empty
  · refine iff_of_true (by simp) ?_
    rw [empty]
    exact fun i bound => absurd bound (by simp)
  · rw [ReadTree.cells_bind_pure, ranges_inside_iff]
    simp only [Nat.zero_add, RangesInside]

theorem access_inside_iff (accessOffset : ℕ) (senderId : U16) (flags : U32) :
    (∀ a ∈ (TxReader.access total accessOffset senderId flags).cells buf, a < size) ↔
      (accessOffset + sizeOfMemAccessDesc ≤ total →
        accessOffset + 8 ≤ size ∧ CompositeInside buf total size (readU32 buf (accessOffset + 4)).toNat) := by
  rw [TxReader.access]
  split_ifs with short
  · exact iff_of_true (by simp) fun within => absurd within (by omega)
  rw [ReadTree.forall_cells_bind (TxReader.result_u16 ..), ReadTree.forall_cells_bind (TxReader.result_u32 ..),
    TxReader.cells_u16, TxReader.cells_u32, forall_range'_lt_iff (by decide), forall_range'_lt_iff (by decide),
    composite_inside_iff, forall_prop_of_true (by omega)]
  exact and_iff_right_of_imp fun rest => by omega

theorem memRegion_inside_iff (totalLength : U32) :
    (∀ a ∈ (TxReader.memRegion totalLength).cells buf, a < size) ↔
      DescriptorInside buf totalLength.toNat size := by
  rw [TxReader.memRegion, DescriptorInside]
  split_ifs with small
  · exact iff_of_true (by simp) fun large => absurd large (by omega)
  rw [ReadTree.forall_cells_bind (TxReader.result_u16 ..), ReadTree.forall_cells_bind (TxReader.result_u16 ..),
    ReadTree.forall_cells_bind (TxReader.result_u32 ..), ReadTree.forall_cells_bind (TxReader.result_u32 ..),
    ReadTree.forall_cells_bind (TxReader.result_u32 ..), TxReader.cells_u16, TxReader.cells_u16,
    TxReader.cells_u32, TxReader.cells_u32, TxReader.cells_u32, forall_prop_of_true (by omega)]
  simp only [forall_range'_lt_iff (by decide : 0 < 2), forall_range'_lt_iff (by decide : 0 < 4)]
  have header : ∀ rest : Prop, (0 + 2 ≤ size ∧ 2 + 2 ≤ size ∧ 8 + 4 ≤ size ∧ 32 + 4 ≤ size ∧ 36 + 4 ≤ size ∧ rest) ↔
      40 ≤ size ∧ rest := by
    intro rest
    constructor
    · rintro ⟨-, -, -, -, last, rest⟩
      exact ⟨last, rest⟩
    · rintro ⟨fits, rest⟩
      exact ⟨by omega, by omega, by omega, by omega, by omega, rest⟩
  have one : ∀ count : U32, ¬(count = 0 ∨ 1 < count) ↔ count = 1 := by
    intro count
    bv_omega
  refine (header _).trans (and_congr_right fun _ => ?_)
  split_ifs with receivers
  · exact iff_of_true (by simp) fun same => absurd receivers ((one _).mpr same)
  · rw [access_inside_iff, forall_prop_of_true ((one _).mp receivers)]

/-- A length within the buffer is enough. -/
theorem descriptorInside_of_le (within : total ≤ size) : DescriptorInside buf total size := by
  intro large
  simp only [sizeOfMemRegion] at large
  refine ⟨by omega, fun _ access => ⟨?_, fun composite => ⟨?_, fun i _ range _ => ?_⟩⟩⟩
  · simp only [sizeOfMemAccessDesc] at access
    omega
  · simp only [sizeOfCompositeMemRegion] at composite
    omega
  · simp only [sizeOfMemRegionAddrRange] at range
    omega

end Cells

/-- The bytes of a TX buffer, from its mailbox. -/
def FfaMailbox.txBytes (mbox : FfaMailbox) (ram : GuestRam) : TxBuffer := fun off => ram (mbox.txIpa.toNat + off)

/-- For a mapped mailbox, all that EL2 reads of guest memory for a share or lend is inside the TX
buffer exactly when the length is refused or the offsets that the parser follows end in the buffer. -/
theorem share_reads_inside {mbox : FfaMailbox} (mapped : mbox.mapped = true) (ctx : GpRegs) (ram : GuestRam) :
    (∀ a ∈ shareReads ctx mbox ram,
        mbox.txIpa.toNat ≤ a ∧ a < mbox.txIpa.toNat + mbox.pageCount.toNat * 4096) ↔
      ((ctx.x1.setWidth 32 : U32) = ctx.x2.setWidth 32 → (ctx.x1.setWidth 32 : U32) ≠ 0 →
        DescriptorInside (mbox.txBytes ram) (ctx.x1.setWidth 32 : U32).toNat (mbox.pageCount.toNat * 4096)) := by
  rw [shareReads, mapped, if_neg (by decide)]
  split_ifs with malformed
  · refine iff_of_true (by simp) fun same positive => ?_
    rcases malformed with differ | zero
    · exact absurd same differ
    · exact absurd zero positive
  · rw [not_or, not_not] at malformed
    rw [forall_prop_of_true malformed.1, forall_prop_of_true malformed.2, List.forall_mem_map,
      ← memRegion_inside_iff]
    simp only [Nat.le_add_right, true_and, Nat.add_lt_add_iff_left]
    rfl

/-- The descriptor of five pages lies in its buffer. -/
theorem share_reads_inside_mailGuests : (mailGuests.mailbox 0).mapped = true ∧
    ∀ a ∈ shareReads { x0 := ffaMemShare32, x1 := 160, x2 := 160 } (mailGuests.mailbox 0) fivePagesRam,
      0x48100000 ≤ a ∧ a < 0x48101000 :=
  ⟨rfl, (share_reads_inside rfl _ fivePagesRam).mpr fun _ _ => descriptorInside_of_le (by decide)⟩

/-- A length of two pages, one receiver, and its descriptor at the end of the first page. -/
def farDescriptorRam : GuestRam := fun a =>
  if a = 0x48100020 then 1 else if a = 0x48100025 then 0x10 else 0

/-- EL2 reads the page after the TX buffer. -/
theorem share_reads_past_buffer : (mailGuests.mailbox 0).mapped = true ∧
    ¬∀ a ∈ shareReads { x0 := ffaMemShare32, x1 := 0x2000, x2 := 0x2000 } (mailGuests.mailbox 0) farDescriptorRam,
      (mailGuests.mailbox 0).txIpa.toNat ≤ a ∧
        a < (mailGuests.mailbox 0).txIpa.toNat + (mailGuests.mailbox 0).pageCount.toNat * 4096 := by
  decide

end Hypervisor
