import Hypervisor.Proofs.GuestMemory
import Hypervisor.Soundness.TxBounds

/-! # The descriptor parser

What `parse_mem_region` accepts, and what it makes of it. `parser_safe`: no sum overflows and every
byte that is read is in the descriptor. `accepted_as_declared_iff`: the result is what the descriptor
declares exactly if that is consistent, which the parser does not check. `descriptor_round_trip`: the
parser reads back what `build_test_descriptor` writes.
-/

namespace Hypervisor

/-! ## Sums and reads -/

namespace UsizeReader

theorem add_of_lt {x y : ℕ} (fits : x + y < 2 ^ 64) : add x y = pure (x + y) := if_pos fits

theorem mul_of_lt {x y : ℕ} (fits : x * y < 2 ^ 64) : mul x y = pure (x * y) := if_pos fits

theorem reads_bind {α β : Type} (reader : TxReader α) (k : α → TxReader β) :
    reads (reader >>= k) = reads reader >>= fun x => reads (k x) := ReadTree.mapError_bind some reader k

theorem pure_bind {α β : Type} (x : α) (k : α → UsizeReader β) : (pure x >>= k) = k x := rfl

/-- The loop does not panic as long as its index stays in the array. -/
theorem ranges_eq {total rangesOffset : ℕ} (low : rangesOffset < 2 ^ 33) {count i : ℕ}
    (index : i + count ≤ maxAddrRanges) :
    ranges total rangesOffset count i = reads (TxReader.ranges total rangesOffset count i) := by
  induction count generalizing i with
  | zero => rfl
  | succ count ih =>
    simp only [maxAddrRanges] at index
    have size : sizeOfMemRegionAddrRange = 16 := rfl
    have stride : i * sizeOfMemRegionAddrRange ≤ 240 := by rw [size]; omega
    rw [ranges, TxReader.ranges, mul_of_lt (by omega), pure_bind, add_of_lt (by omega), pure_bind,
      add_of_lt (by omega), pure_bind]
    have room : ¬ maxAddrRanges ≤ i := by simp only [maxAddrRanges]; omega
    simp only [if_neg room]
    split_ifs with short
    · rfl
    · rw [reads_bind]
      refine congrArg (_ >>= ·) (funext fun address => ?_)
      rw [reads_bind]
      refine congrArg (_ >>= ·) (funext fun pageCount => ?_)
      split_ifs with unaligned
      · rfl
      · rw [ih (by simp only [maxAddrRanges]; omega), reads_bind]
        rfl

theorem composite_eq {total compOffset : ℕ} (low : compOffset < 2 ^ 32) (senderId receiverId : U16) (flags : U32) :
    composite total compOffset senderId receiverId flags =
      reads (TxReader.composite total compOffset senderId receiverId flags) := by
  have size : sizeOfCompositeMemRegion = 16 := rfl
  rw [composite, TxReader.composite, add_of_lt (by omega), pure_bind]
  split_ifs with short
  · rfl
  · rw [reads_bind]
    refine congrArg (_ >>= ·) (funext fun totalPageCount => ?_)
    rw [reads_bind]
    refine congrArg (_ >>= ·) (funext fun addressRangeCount => ?_)
    split_ifs with empty
    · rfl
    · rw [ranges_eq (by omega) (by omega), reads_bind]
      rfl

theorem access_eq {total accessOffset : ℕ} (low : accessOffset < 2 ^ 32) (senderId : U16) (flags : U32) :
    access total accessOffset senderId flags = reads (TxReader.access total accessOffset senderId flags) := by
  have size : sizeOfMemAccessDesc = 16 := rfl
  rw [access, TxReader.access, add_of_lt (by omega), pure_bind]
  split_ifs with short
  · rfl
  · rw [reads_bind]
    refine congrArg (_ >>= ·) (funext fun receiverId => ?_)
    rw [reads_bind]
    refine congrArg (_ >>= ·) (funext fun compositeOffset => ?_)
    exact composite_eq compositeOffset.isLt senderId receiverId flags

/-- The parser never panics: it is the one on unbounded numbers. -/
theorem memRegion_eq (totalLength : U32) : memRegion totalLength = reads (TxReader.memRegion totalLength) := by
  rw [memRegion, TxReader.memRegion]
  split_ifs with small
  · rfl
  · rw [reads_bind]
    refine congrArg (_ >>= ·) (funext fun senderId => ?_)
    rw [reads_bind]
    refine congrArg (_ >>= ·) (funext fun attributes => ?_)
    rw [reads_bind]
    refine congrArg (_ >>= ·) (funext fun flags => ?_)
    rw [reads_bind]
    refine congrArg (_ >>= ·) (funext fun receiverCount => ?_)
    rw [reads_bind]
    refine congrArg (_ >>= ·) (funext fun receiversOffset => ?_)
    split_ifs with receivers
    · rfl
    · exact access_eq receiversOffset.isLt senderId flags

end UsizeReader

/-- For every buffer and length, `parse_mem_region` returns, with a result and without a panic, and
reads bytes of the first `total_length` only. -/
theorem parser_safe (buf : TxBuffer) (totalLength : U32) :
    (UsizeReader.memRegion totalLength).result buf = (parseMemRegion buf totalLength).mapError some ∧
      ∀ off ∈ (UsizeReader.memRegion totalLength).cells buf, off < totalLength.toNat := by
  rw [UsizeReader.memRegion_eq, UsizeReader.reads, ReadTree.result_mapError, ReadTree.cells_mapError,
    TxReader.result_memRegion]
  exact ⟨rfl, (memRegion_inside_iff totalLength).mpr (descriptorInside_of_le le_rfl)⟩

/-! ## What is accepted -/

/-- The address range with index `j` of those that start at `start`. -/
def rangeAt (buf : TxBuffer) (start j : ℕ) : AddrRange :=
  (readU64 buf (start + j * sizeOfMemRegionAddrRange), readU32 buf (start + j * sizeOfMemRegionAddrRange + 8))

/-- Where the composite descriptor of a buffer starts. -/
def compositeOffset (buf : TxBuffer) : ℕ := (readU32 buf ((readU32 buf 36).toNat + 4)).toNat

/-- The `address_range_count` of the composite descriptor. -/
def declaredCount (buf : TxBuffer) : ℕ := (readU32 buf (compositeOffset buf + 4)).toNat

/-- The first `count` ranges that follow the composite descriptor. -/
def rangesOf (buf : TxBuffer) (count : ℕ) : List AddrRange :=
  (List.range count).map (rangeAt buf (compositeOffset buf + sizeOfCompositeMemRegion))

/-- A range stands in the descriptor and starts on a page. -/
def RangeFits (buf : TxBuffer) (total start j : ℕ) : Prop :=
  start + j * sizeOfMemRegionAddrRange + sizeOfMemRegionAddrRange ≤ total ∧ (rangeAt buf start j).1 &&& 0xFFF = 0

/-- The checks of the parser. -/
structure Accepts (buf : TxBuffer) (total : ℕ) : Prop where
  header : sizeOfMemRegion ≤ total
  receivers : readU32 buf 32 = 1
  access : (readU32 buf 36).toNat + sizeOfMemAccessDesc ≤ total
  composite : compositeOffset buf + sizeOfCompositeMemRegion ≤ total
  nonempty : 0 < declaredCount buf
  ranges : ∀ j < min (declaredCount buf) maxAddrRanges,
    RangeFits buf total (compositeOffset buf + sizeOfCompositeMemRegion) j

/-- The fields that the parser returns. -/
def parsedRegion (buf : TxBuffer) : ParsedMemRegion where
  senderId := readU16 buf 0
  receiverId := readU16 buf (readU32 buf 36).toNat
  flags := readU32 buf 8
  ranges := rangesOf buf (min (declaredCount buf) maxAddrRanges)
  totalPageCount := readU32 buf (compositeOffset buf)

theorem parseRanges_eq_ok_iff {buf : TxBuffer} {total start count i : ℕ} {ranges : List AddrRange} :
    parseRanges buf total start count i = .ok ranges ↔
      (∀ j, i ≤ j → j < i + count → RangeFits buf total start j) ∧
        ranges = (List.range' i count).map (rangeAt buf start) := by
  induction count generalizing i ranges with
  | zero =>
    constructor
    · intro parsed
      cases parsed
      exact ⟨fun j low high => absurd high (by omega), rfl⟩
    · rintro ⟨-, rfl⟩
      rfl
  | succ count ih =>
    have step : (∀ j, i ≤ j → j < i + (count + 1) → RangeFits buf total start j) ↔
        RangeFits buf total start i ∧ ∀ j, i + 1 ≤ j → j < i + 1 + count → RangeFits buf total start j := by
      constructor
      · intro fits
        exact ⟨fits i le_rfl (by omega), fun j low high => fits j (by omega) (by omega)⟩
      · rintro ⟨first, others⟩ j low high
        obtain rfl | later := Nat.eq_or_lt_of_le low
        · exact first
        · exact others j later (by omega)
    rw [step, parseRanges]
    dsimp only
    split_ifs with short unaligned
    · exact iff_of_false (by rintro ⟨⟩) fun fits => absurd fits.1.1.1 (Nat.not_le.mpr short)
    · exact iff_of_false (by rintro ⟨⟩) fun fits => unaligned fits.1.1.2
    · have fits : RangeFits buf total start i := ⟨Nat.not_lt.mp short, not_not.mp unaligned⟩
      rw [exceptMap_eq_ok_iff, List.range'_succ, List.map_cons]
      constructor
      · rintro ⟨rest, parsed, rfl⟩
        obtain ⟨others, rfl⟩ := ih.mp parsed
        exact ⟨⟨fits, others⟩, rfl⟩
      · rintro ⟨⟨-, others⟩, rfl⟩
        exact ⟨_, ih.mpr ⟨others, rfl⟩, rfl⟩

theorem parseMemRegion_eq_ok_iff {buf : TxBuffer} {totalLength : U32} {region : ParsedMemRegion} :
    parseMemRegion buf totalLength = .ok region ↔ Accepts buf totalLength.toNat ∧ region = parsedRegion buf := by
  have single : ¬ (readU32 buf 32 = 0 ∨ 1 < readU32 buf 32) ↔ readU32 buf 32 = 1 := by bv_omega
  have counted : readU32 buf (compositeOffset buf + 4) = 0 ↔ declaredCount buf = 0 := BitVec.toNat_eq
  rw [parseMemRegion]
  dsimp only
  split_ifs with small receivers access composite empty
  · exact iff_of_false (by rintro ⟨⟩) fun accepted => absurd accepted.1.header (Nat.not_le.mpr small)
  · exact iff_of_false (by rintro ⟨⟩) fun accepted => single.mpr accepted.1.receivers receivers
  · exact iff_of_false (by rintro ⟨⟩) fun accepted => absurd accepted.1.access (Nat.not_le.mpr access)
  · exact iff_of_false (by rintro ⟨⟩) fun accepted => absurd accepted.1.composite (Nat.not_le.mpr composite)
  · exact iff_of_false (by rintro ⟨⟩) fun accepted => accepted.1.nonempty.ne' (counted.mp empty)
  · rw [exceptMap_eq_ok_iff]
    constructor
    · rintro ⟨ranges, parsed, rfl⟩
      obtain ⟨fits, rfl⟩ := parseRanges_eq_ok_iff.mp parsed
      refine ⟨⟨Nat.not_lt.mp small, single.mp receivers, Nat.not_lt.mp access, Nat.not_lt.mp composite,
        Nat.pos_of_ne_zero (mt counted.mpr empty), fun j low => fits j (Nat.zero_le j) (by rwa [Nat.zero_add])⟩, ?_⟩
      rw [parsedRegion, rangesOf, List.range_eq_range']
      rfl
    · rintro ⟨accepted, rfl⟩
      refine ⟨_, parseRanges_eq_ok_iff.mpr
        ⟨fun j _ high => accepted.ranges j (by rwa [Nat.zero_add] at high), rfl⟩, ?_⟩
      rw [parsedRegion, rangesOf, List.range_eq_range']
      rfl

/-! ## What is covered -/

/-- The page counts of a list of ranges, summed. -/
def pageSum (ranges : List AddrRange) : ℕ := (ranges.map (·.2.toNat)).sum

/-- Every range has a page, and the total is the sum. -/
def CountsAgree (ranges : List AddrRange) (totalPageCount : U32) : Prop :=
  (∀ range ∈ ranges, 0 < range.2.toNat) ∧ totalPageCount.toNat = pageSum ranges

/-- A parsed region is what the descriptor declares. -/
def AsDeclared (buf : TxBuffer) (region : ParsedMemRegion) : Prop :=
  region.ranges = rangesOf buf (declaredCount buf) ∧ CountsAgree region.ranges region.totalPageCount

/-- The descriptor declares no more ranges than the parser can return, and its counts agree. -/
def SelfConsistent (buf : TxBuffer) : Prop :=
  declaredCount buf ≤ maxAddrRanges ∧
    CountsAgree (rangesOf buf (declaredCount buf)) (readU32 buf (compositeOffset buf))

theorem length_rangesOf (buf : TxBuffer) (count : ℕ) : (rangesOf buf count).length = count := by
  rw [rangesOf, List.length_map, List.length_range]

/-- The ranges that the parser returns are all that are declared exactly if they fit its array. -/
theorem rangesOf_min_eq_iff {buf : TxBuffer} {count : ℕ} :
    rangesOf buf (min count maxAddrRanges) = rangesOf buf count ↔ count ≤ maxAddrRanges := by
  constructor
  · intro same
    have lengths := congrArg List.length same
    rw [length_rangesOf, length_rangesOf] at lengths
    exact min_eq_left_iff.mp lengths
  · intro fits
    rw [Nat.min_eq_left fits]

/-- An accepted descriptor gives a transaction of exactly what it declares if and only if it is
consistent. The parser checks neither the number of ranges against its array nor the page counts. -/
theorem accepted_as_declared_iff {buf : TxBuffer} {totalLength : U32} {region : ParsedMemRegion}
    (accepted : parseMemRegion buf totalLength = .ok region) : AsDeclared buf region ↔ SelfConsistent buf := by
  obtain ⟨-, rfl⟩ := parseMemRegion_eq_ok_iff.mp accepted
  rw [AsDeclared, SelfConsistent, parsedRegion, rangesOf_min_eq_iff]
  constructor
  · rintro ⟨fits, counts⟩
    rw [rangesOf_min_eq_iff.mpr fits] at counts
    exact ⟨fits, counts⟩
  · rintro ⟨fits, counts⟩
    rw [rangesOf_min_eq_iff.mpr fits]
    exact ⟨fits, counts⟩

/-- A descriptor of `count` ranges with one page each, the `j`th at the address `j << 16`. -/
def onePageRanges (count : U8) : TxBuffer := fun off =>
  if off = 32 then 1
  else if off = 36 then 48
  else if off = 52 then 64
  else if off = 64 ∨ off = 68 then count
  else if 80 ≤ off ∧ off % 16 = 2 then BitVec.ofNat 8 ((off - 80) / 16)
  else if 80 ≤ off ∧ off % 16 = 8 then 1
  else 0

theorem accepted_as_declared_iff_two :
    ∃ region, parseMemRegion (onePageRanges 2) 112 = .ok region ∧ AsDeclared (onePageRanges 2) region := by
  have declared : rangesOf (onePageRanges 2) (declaredCount (onePageRanges 2)) = [(0, 1), (0x10000, 1)] := by rfl
  refine ⟨parsedRegion (onePageRanges 2), by rfl, (@accepted_as_declared_iff _ 112 _ (by rfl)).mpr ?_⟩
  rw [SelfConsistent, declared]
  exact ⟨by decide, by simp, by decide⟩

/-- Of seventeen ranges the parser returns sixteen, with a total of seventeen pages. -/
theorem seventeenth_range_dropped :
    ∃ region, parseMemRegion (onePageRanges 17) 352 = .ok region ∧ ¬ AsDeclared (onePageRanges 17) region ∧
      region.ranges.length = 16 ∧ pageSum region.ranges = 16 ∧ region.totalPageCount = 17 ∧
      declaredCount (onePageRanges 17) = 17 := by
  refine ⟨parsedRegion (onePageRanges 17), by rfl, ?_, by decide, by decide, by decide, by decide⟩
  rintro ⟨same, -⟩
  exact absurd (congrArg List.length same) (by rw [length_rangesOf]; decide)

/-! ## The round trip -/

section RoundTrip

variable {ram : TxBuffer} {off dst : ℕ}

theorem readU16_skip_writeU16 {x : U16} (apart : off + 2 ≤ dst ∨ dst + 2 ≤ off) :
    readU16 (writeU16 ram dst x) off = readU16 ram off := readU16_congr (eqOn_of_apart (eqOn_writeU16 ..) apart)

theorem readU16_skip_writeU32 {x : U32} (apart : off + 2 ≤ dst ∨ dst + 4 ≤ off) :
    readU16 (writeU32 ram dst x) off = readU16 ram off := readU16_congr (eqOn_of_apart (eqOn_writeU32 ..) apart)

theorem readU32_skip_writeU16 {x : U16} (apart : off + 4 ≤ dst ∨ dst + 2 ≤ off) :
    readU32 (writeU16 ram dst x) off = readU32 ram off := readU32_congr (eqOn_of_apart (eqOn_writeU16 ..) apart)

theorem readU32_skip_writeU32 {x : U32} (apart : off + 4 ≤ dst ∨ dst + 4 ≤ off) :
    readU32 (writeU32 ram dst x) off = readU32 ram off := readU32_congr (eqOn_of_apart (eqOn_writeU32 ..) apart)

theorem readU64_skip_writeU32 {x : U32} (apart : off + 8 ≤ dst ∨ dst + 4 ≤ off) :
    readU64 (writeU32 ram dst x) off = readU64 ram off := readU64_congr (eqOn_of_apart (eqOn_writeU32 ..) apart)

/-- The range loop stores nothing outside its ranges. -/
theorem eqOn_writeRanges (start : ℕ) (ranges : List AddrRange) (i : ℕ) (buf : TxBuffer) :
    Set.EqOn (writeRanges start ranges i buf) buf (bytesAt (start + i * 16) (ranges.length * 16))ᶜ := by
  induction ranges generalizing i buf with
  | nil => exact fun _ _ => rfl
  | cons range rest ih =>
    rw [List.length_cons]
    exact (eqOn_around (ih (i + 1) _) (by omega) (by omega)).trans
      ((eqOn_around (eqOn_writeU32 ..) (by omega) (by omega)).trans
        (eqOn_around (eqOn_writeU64 ..) (by omega) (by omega)))

theorem rangeAt_congr {ram' : TxBuffer} {start j : ℕ} (same : Set.EqOn ram' ram (bytesAt (start + j * 16) 16)) :
    rangeAt ram' start j = rangeAt ram start j := by
  have size : sizeOfMemRegionAddrRange = 16 := rfl
  rw [rangeAt, rangeAt, size, readU64_congr (same.mono (bytesAt_subset (by omega) (by omega))),
    readU32_congr (same.mono (bytesAt_subset (by omega) (by omega)))]

/-- The ranges that were stored are read back in their order. -/
theorem map_rangeAt_writeRanges (start : ℕ) (ranges : List AddrRange) (i : ℕ) (buf : TxBuffer) :
    (List.range' i ranges.length).map (rangeAt (writeRanges start ranges i buf) start) = ranges := by
  induction ranges generalizing i buf with
  | nil => rfl
  | cons range rest ih =>
    obtain ⟨address, pageCount⟩ := range
    rw [writeRanges, List.length_cons, List.range'_succ, List.map_cons, ih,
      rangeAt_congr (eqOn_of_apart (eqOn_writeRanges ..) (by omega)), rangeAt]
    have size : sizeOfMemRegionAddrRange = 16 := rfl
    rw [size, readU32_writeU32, readU64_skip_writeU32 (by omega), readU64_writeU64]

/-- The fields before the ranges, as the builder stores them. -/
structure HeaderAt (buf : TxBuffer) (senderId receiverId : U16) (total count : U32) : Prop where
  sender : readU16 buf 0 = senderId
  receivers : readU32 buf 32 = 1
  receiversOffset : readU32 buf 36 = 48
  receiver : readU16 buf 48 = receiverId
  composite : readU32 buf 52 = 64
  total : readU32 buf 64 = total
  count : readU32 buf 68 = count

theorem HeaderAt.congr {buf buf' : TxBuffer} {senderId receiverId : U16} {total count : U32}
    (header : HeaderAt buf senderId receiverId total count) (same : Set.EqOn buf' buf (bytesAt 0 80)) :
    HeaderAt buf' senderId receiverId total count where
  sender := (readU16_congr (same.mono (bytesAt_subset (by omega) (by omega)))).trans header.sender
  receivers := (readU32_congr (same.mono (bytesAt_subset (by omega) (by omega)))).trans header.receivers
  receiversOffset := (readU32_congr (same.mono (bytesAt_subset (by omega) (by omega)))).trans header.receiversOffset
  receiver := (readU16_congr (same.mono (bytesAt_subset (by omega) (by omega)))).trans header.receiver
  composite := (readU32_congr (same.mono (bytesAt_subset (by omega) (by omega)))).trans header.composite
  total := (readU32_congr (same.mono (bytesAt_subset (by omega) (by omega)))).trans header.total
  count := (readU32_congr (same.mono (bytesAt_subset (by omega) (by omega)))).trans header.count

/-- The builder stores the header, then the ranges from offset 80 on. -/
theorem buildTestDescriptor_eq (buf : TxBuffer) (senderId receiverId : U16) {ranges : List AddrRange}
    (fits : pageSum ranges < 2 ^ 32) :
    ∃ header, HeaderAt header senderId receiverId (BitVec.ofNat 32 (pageSum ranges)) (BitVec.ofNat 32 ranges.length) ∧
      buildTestDescriptor buf senderId receiverId ranges =
        some (BitVec.ofNat 32 (80 + ranges.length * 16), writeRanges 80 ranges 0 header) := by
  refine ⟨_, ?_, (if_pos fits).trans rfl⟩
  constructor <;>
    simp [readU16_skip_writeU16, readU16_skip_writeU32, readU32_skip_writeU16, readU32_skip_writeU32,
      readU16_writeU16, readU32_writeU32, pageSum]

/-- What a built descriptor shows: the composite descriptor is at 64, and the ranges are those given. -/
structure Built (buf : TxBuffer) (senderId receiverId : U16) (ranges : List AddrRange) : Prop where
  header : HeaderAt buf senderId receiverId (BitVec.ofNat 32 (pageSum ranges)) (BitVec.ofNat 32 ranges.length)
  offset : compositeOffset buf = 64
  stored : rangesOf buf ranges.length = ranges

theorem built_writeRanges {header : TxBuffer} {senderId receiverId : U16} {ranges : List AddrRange}
    (stored : HeaderAt header senderId receiverId (BitVec.ofNat 32 (pageSum ranges)) (BitVec.ofNat 32 ranges.length)) :
    Built (writeRanges 80 ranges 0 header) senderId receiverId ranges := by
  have kept := stored.congr (eqOn_of_apart (eqOn_writeRanges 80 ranges 0 header) (by omega))
  have offset : compositeOffset (writeRanges 80 ranges 0 header) = 64 := by
    rw [compositeOffset, kept.receiversOffset]
    exact congrArg BitVec.toNat kept.composite
  refine ⟨kept, offset, ?_⟩
  rw [rangesOf, offset, List.range_eq_range']
  exact map_rangeAt_writeRanges 80 ranges 0 header

section Built

variable {buf : TxBuffer} {senderId receiverId : U16} {ranges : List AddrRange}

theorem Built.declaredCount_eq (built : Built buf senderId receiverId ranges) (few : ranges.length ≤ maxAddrRanges) :
    declaredCount buf = ranges.length := by
  rw [declaredCount, built.offset, built.header.count, BitVec.toNat_ofNat]
  exact Nat.mod_eq_of_lt (few.trans_lt (by decide))

/-- The parser accepts what the builder stores. -/
theorem Built.accepts (built : Built buf senderId receiverId ranges) (nonempty : 1 ≤ ranges.length)
    (few : ranges.length ≤ maxAddrRanges) (aligned : ∀ range ∈ ranges, range.1 &&& 0xFFF = 0) :
    Accepts buf (80 + ranges.length * 16) where
  header := by simp only [sizeOfMemRegion]; omega
  receivers := built.header.receivers
  access := by
    rw [built.header.receiversOffset]
    exact (show 48 + sizeOfMemAccessDesc ≤ 80 by decide).trans (Nat.le_add_right ..)
  composite := by
    rw [built.offset]
    exact Nat.le_add_right ..
  nonempty := by
    rw [built.declaredCount_eq few]
    exact nonempty
  ranges := by
    rw [built.declaredCount_eq few, Nat.min_eq_left few]
    intro j inside
    constructor
    · rw [built.offset]
      simp only [sizeOfCompositeMemRegion, sizeOfMemRegionAddrRange]
      omega
    · refine aligned _ ?_
      -- the range is one of those that were given
      have member : rangeAt buf (compositeOffset buf + sizeOfCompositeMemRegion) j ∈ rangesOf buf ranges.length :=
        List.mem_map_of_mem (List.mem_range.mpr inside)
      rwa [built.stored] at member

end Built

/-- Parsing what `build_test_descriptor` wrote, with the length it returned, gives back the sender, the
receiver and the ranges, and the sum of their page counts as the total. -/
theorem descriptor_round_trip (buf : TxBuffer) (senderId receiverId : U16) {ranges : List AddrRange}
    (nonempty : 1 ≤ ranges.length) (few : ranges.length ≤ 16) (aligned : ∀ range ∈ ranges, range.1 &&& 0xFFF = 0)
    (fits : pageSum ranges < 2 ^ 32) :
    ∃ length buf' region, buildTestDescriptor buf senderId receiverId ranges = some (length, buf') ∧
      parseMemRegion buf' length = .ok region ∧ region.senderId = senderId ∧ region.receiverId = receiverId ∧
      region.ranges = ranges ∧ region.totalPageCount.toNat = pageSum ranges := by
  obtain ⟨header, stored, returned⟩ := buildTestDescriptor_eq buf senderId receiverId fits
  have built := built_writeRanges stored
  have length : (BitVec.ofNat 32 (80 + ranges.length * 16)).toNat = 80 + ranges.length * 16 :=
    (BitVec.toNat_ofNat ..).trans (Nat.mod_eq_of_lt (by omega))
  refine ⟨_, _, parsedRegion (writeRanges 80 ranges 0 header), returned, parseMemRegion_eq_ok_iff.mpr ⟨?_, rfl⟩,
    built.header.sender, ?_, ?_, ?_⟩
  · rw [length]
    exact built.accepts nonempty few aligned
  · rw [parsedRegion, built.header.receiversOffset]
    exact built.header.receiver
  · rw [parsedRegion, built.declaredCount_eq few, Nat.min_eq_left (show ranges.length ≤ maxAddrRanges from few)]
    exact built.stored
  · rw [parsedRegion, built.offset, built.header.total, BitVec.toNat_ofNat]
    exact Nat.mod_eq_of_lt fits

theorem descriptor_round_trip_two :
    ∃ length buf' region, buildTestDescriptor (fun _ => 0) 2 0x8002 [(0x50000000, 1), (0x60000000, 3)] =
        some (length, buf') ∧
      parseMemRegion buf' length = .ok region ∧ region.senderId = 2 ∧ region.receiverId = 0x8002 ∧
      region.ranges = [(0x50000000, 1), (0x60000000, 3)] ∧
      region.totalPageCount.toNat = pageSum [(0x50000000, 1), (0x60000000, 3)] :=
  descriptor_round_trip _ 2 0x8002 (by decide) (by decide) (by simp) (by decide)

end RoundTrip

end Hypervisor
