import Hypervisor.ToMathlib.Mask
import Hypervisor.Model.Stage2Walker
import Mathlib.Tactic.IntervalCases

/-! # What a descriptor means for one page

A leaf descriptor at height `h` maps `512 ^ h` pages. `translate` gives the translation of one of
them: the output address and the fields of the descriptor. Splitting a block and editing a field
are then statements about translations, whatever the height of the leaf.
-/

namespace Hypervisor

/-- The 4KB page of an IPA: bits 47:12, the part that selects table entries. -/
def pageOf (ipa : U64) : ℕ := ipa.toNat / 4096 % 2 ^ 36

/-- The address of a page. -/
def pageAddr (a : ℕ) : U64 := BitVec.ofNat 64 a <<< 12

/-- The table that an entry points to. -/
def nextTable (entry : U64) : Option U64 :=
  if isTable entry then some (entry &&& pteAddrMask) else none

/-- What a stage-2 walk sees of one page. -/
@[ext] structure Translation where
  output : U64
  /-- The descriptor bits other than the address, SW, S2AP and type fields. -/
  attrs : U64
  sw : U8
  s2ap : U8
deriving DecidableEq, Repr

/-- The bits of a descriptor that are attributes. -/
def attrMask : U64 := ~~~(pteAddrMask ||| pteSwMask ||| s2apMask ||| pteTable ||| pteValid)

/-- The bits of an output address that a leaf at height `h` takes from the page. -/
def offsetMask (h : ℕ) : U64 := BitVec.mask 12 (9 * h)

/-- The translation of page `a` by a leaf at height `h`. -/
def translate (h a : ℕ) (entry : U64) : Translation :=
  { output := (entry &&& pteAddrMask &&& ~~~offsetMask h) ||| (pageAddr a &&& offsetMask h)
    attrs := entry &&& attrMask
    sw := swBits entry
    s2ap := s2apBits entry }

/-- Bit 0 of S2AP permits loads. -/
def Translation.readable (tr : Translation) : Bool := tr.s2ap.getLsbD 0

/-- Bit 1 of S2AP permits stores. -/
def Translation.writable (tr : Translation) : Bool := tr.s2ap.getLsbD 1

/-- MemAttr[5:2] of Normal write-back memory. -/
def Translation.isNormal (tr : Translation) : Bool := (tr.attrs >>> 2) &&& 0xF == 0xF

/-! ## Type bits -/

theorem and_pteValid_eq_zero (e : U64) : e &&& pteValid = 0 ↔ e.getLsbD 0 = false := by
  rw [show pteValid = BitVec.mask 0 1 by decide, BitVec.and_mask_eq_zero_iff]
  grind

theorem and_pteTable_eq_zero (e : U64) : e &&& pteTable = 0 ↔ e.getLsbD 1 = false := by
  rw [show pteTable = BitVec.mask 1 1 by decide, BitVec.and_mask_eq_zero_iff]
  grind

theorem isTable_eq (e : U64) : isTable e = (e.getLsbD 0 && e.getLsbD 1) := by
  rw [Bool.eq_iff_iff, isTable, beq_iff_eq, show pteValid ||| pteTable = BitVec.mask 0 2 by decide]
  constructor
  · intro both
    have low := congrArg (BitVec.getLsbD · 0) both
    have high := congrArg (BitVec.getLsbD · 1) both
    simp only [BitVec.getLsbD_and, BitVec.getLsbD_mask] at low high
    grind
  · intro set
    apply BitVec.eq_of_getLsbD_eq
    intro i _
    simp only [BitVec.getLsbD_and, BitVec.getLsbD_mask]
    have cases : i < 2 → i = 0 ∨ i = 1 := by omega
    grind

/-! ## Fields by bits

One lemma per constructor of descriptors and one per field, each for a single bit. -/

section Bits

variable (e : U64) (i : ℕ)

theorem getLsbD_withSwBits (bits : U8) : (withSwBits e bits).getLsbD i =
    if 55 ≤ i ∧ i < 57 then bits.getLsbD (i - 55) else e.getLsbD i := by
  simp only [withSwBits, show pteSwMask = BitVec.mask 55 2 by decide, pteSwShift,
    show (0x3 : U64) = BitVec.mask 0 2 by decide, BitVec.getLsbD_or, BitVec.getLsbD_and,
    BitVec.getLsbD_not, BitVec.getLsbD_shiftLeft, BitVec.getLsbD_setWidth, BitVec.getLsbD_mask]
  grind

theorem getLsbD_withS2ap (s2ap : U8) : (withS2ap e s2ap).getLsbD i =
    if 6 ≤ i ∧ i < 8 then s2ap.getLsbD (i - 6) else e.getLsbD i := by
  simp only [withS2ap, show s2apMask = BitVec.mask 6 2 by decide, s2apShift,
    show (0x3 : U64) = BitVec.mask 0 2 by decide, BitVec.getLsbD_or, BitVec.getLsbD_and,
    BitVec.getLsbD_not, BitVec.getLsbD_shiftLeft, BitVec.getLsbD_setWidth, BitVec.getLsbD_mask]
  grind

theorem getLsbD_swBits : (swBits e).getLsbD i = (decide (i < 2) && e.getLsbD (55 + i)) := by
  simp only [swBits, pteSwShift, show (0x3 : U64) = BitVec.mask 0 2 by decide, BitVec.getLsbD_and,
    BitVec.getLsbD_ushiftRight, BitVec.getLsbD_setWidth, BitVec.getLsbD_mask]
  grind

theorem getLsbD_s2apBits : (s2apBits e).getLsbD i = (decide (i < 2) && e.getLsbD (6 + i)) := by
  simp only [s2apBits, s2apShift, show (0x3 : U64) = BitVec.mask 0 2 by decide, BitVec.getLsbD_and,
    BitVec.getLsbD_ushiftRight, BitVec.getLsbD_setWidth, BitVec.getLsbD_mask]
  grind

theorem getLsbD_attrs : (e &&& attrMask).getLsbD i =
    (e.getLsbD i && decide (2 ≤ i ∧ ¬(6 ≤ i ∧ i < 8) ∧ ¬(12 ≤ i ∧ i < 48) ∧ ¬(55 ≤ i ∧ i < 57))) := by
  have fields : attrMask = ~~~(BitVec.mask 12 36 ||| BitVec.mask 55 2 ||| BitVec.mask 6 2 |||
      BitVec.mask 0 2) := by decide
  simp only [fields, BitVec.getLsbD_or, BitVec.getLsbD_and, BitVec.getLsbD_not, BitVec.getLsbD_mask]
  grind

theorem getLsbD_output (h a : ℕ) (height : h ≤ 2) : (translate h a e).output.getLsbD i =
    if 12 + 9 * h ≤ i ∧ i < 48 then e.getLsbD i
    else decide (12 ≤ i ∧ i < 12 + 9 * h) && a.testBit (i - 12) := by
  simp only [translate, offsetMask, pageAddr, show pteAddrMask = BitVec.mask 12 36 by decide,
    BitVec.getLsbD_or, BitVec.getLsbD_and, BitVec.getLsbD_not, BitVec.getLsbD_shiftLeft,
    BitVec.getLsbD_ofNat, BitVec.getLsbD_mask]
  grind

/-- A block address has no bits below 2MB, so adding the page offset only sets bits. -/
theorem blockPa_add {j : ℕ} (index : j < 512) : (e &&& ~~~blockMask2mb) + BitVec.ofNat 64 j * pageSize4kb =
    (e &&& ~~~blockMask2mb) ||| (BitVec.ofNat 64 j <<< 12) := by
  have offset : BitVec.ofNat 64 j * pageSize4kb = BitVec.ofNat 64 j <<< 12 := by
    rw [BitVec.shiftLeft_eq_mul_twoPow]
    rfl
  have small : ∀ k, 9 ≤ k → j.testBit k = false := fun k le =>
    Nat.testBit_lt_two_pow (lt_of_lt_of_le index (Nat.pow_le_pow_right (by decide : 0 < 2) le))
  rw [offset]
  apply BitVec.add_eq_or_of_and_eq_zero
  apply BitVec.eq_of_getLsbD_eq
  intro k _
  simp only [show blockMask2mb = BitVec.mask 0 21 by decide, BitVec.getLsbD_and, BitVec.getLsbD_not,
    BitVec.getLsbD_shiftLeft, BitVec.getLsbD_ofNat, BitVec.getLsbD_mask]
  grind

theorem getLsbD_splitEntry (blocked : e &&& BitVec.mask 12 9 = 0) (j : ℕ) (index : j < 512) :
    (splitEntry e j).getLsbD i =
      if i < 2 then true else if 12 ≤ i ∧ i < 21 then j.testBit (i - 12) else e.getLsbD i := by
  rw [BitVec.and_mask_eq_zero_iff] at blocked
  have small : ∀ k, 9 ≤ k → j.testBit k = false := fun k le =>
    Nat.testBit_lt_two_pow (lt_of_lt_of_le index (Nat.pow_le_pow_right (by decide : 0 < 2) le))
  simp only [splitEntry, blockPa_add e index]
  simp only [show blockMask2mb = BitVec.mask 0 21 by decide, show pteSwMask = BitVec.mask 55 2 by decide,
    show pteTable = BitVec.mask 1 1 by decide, show pteValid = BitVec.mask 0 1 by decide,
    show (0x3 : U64) = BitVec.mask 0 2 by decide, BitVec.getLsbD_or, BitVec.getLsbD_and,
    BitVec.getLsbD_not, BitVec.getLsbD_shiftLeft, BitVec.getLsbD_ofNat, BitVec.getLsbD_mask]
  grind

/-- The upper bits of the IPA survive above bit 48, in the SW field too. -/
theorem getLsbD_borrowEntry (ipa : U64) (s2ap sw : U8) : (borrowEntry ipa s2ap sw).getLsbD i =
    if i < 12 then
      decide (i < 6 ∨ 8 ≤ i ∧ i < 11) || (decide (6 ≤ i ∧ i < 8) && s2ap.getLsbD (i - 6))
    else ipa.getLsbD i || (decide (55 ≤ i ∧ i < 57) && sw.getLsbD (i - 55)) := by
  simp only [borrowEntry, pteSwShift, s2apShift, show pageMask4kb = BitVec.mask 0 12 by decide,
    show (0b1111 <<< 2 : U64) = BitVec.mask 2 4 by decide,
    show (0b11 <<< 8 : U64) = BitVec.mask 8 2 by decide,
    show (1 <<< 10 : U64) = BitVec.mask 10 1 by decide,
    show pteTable = BitVec.mask 1 1 by decide, show pteValid = BitVec.mask 0 1 by decide,
    show (0x3 : U64) = BitVec.mask 0 2 by decide, BitVec.getLsbD_or, BitVec.getLsbD_and,
    BitVec.getLsbD_not, BitVec.getLsbD_shiftLeft, BitVec.getLsbD_setWidth, BitVec.getLsbD_mask]
  grind

end Bits

/-! ## Translations of rewritten leaves -/

section Translations

variable {h : ℕ} (a : ℕ) (e : U64)

private theorem translate_congr {e e' : U64} (height : h ≤ 2)
    (agree : ∀ i, ¬(i < 2 ∨ 6 ≤ i ∧ i < 8 ∨ 55 ≤ i ∧ i < 57) → e'.getLsbD i = e.getLsbD i) :
    translate h a e' = { translate h a e with sw := swBits e', s2ap := s2apBits e' } := by
  apply Translation.ext
  · apply BitVec.eq_of_getLsbD_eq
    intro i _
    simp only [getLsbD_output _ _ _ _ height]
    grind
  · apply BitVec.eq_of_getLsbD_eq
    intro i _
    simp only [translate, getLsbD_attrs]
    grind
  · rfl
  · rfl

theorem translate_withSwBits (height : h ≤ 2) (bits : U8) :
    translate h a (withSwBits e bits) = { translate h a e with sw := bits &&& 3 } := by
  rw [translate_congr a height (e := e)]
  · have sw : swBits (withSwBits e bits) = bits &&& 3 := by
      apply BitVec.eq_of_getLsbD_eq
      intro i _
      simp only [getLsbD_swBits, getLsbD_withSwBits, BitVec.getLsbD_and,
        show (3 : U8) = BitVec.mask 0 2 by decide, BitVec.getLsbD_mask]
      grind
    have s2ap : s2apBits (withSwBits e bits) = s2apBits e := by
      apply BitVec.eq_of_getLsbD_eq
      intro i _
      simp only [getLsbD_s2apBits, getLsbD_withSwBits]
      grind
    rw [sw, s2ap]
    rfl
  · intro i _
    rw [getLsbD_withSwBits]
    grind

theorem translate_withS2ap (height : h ≤ 2) (s2ap : U8) :
    translate h a (withS2ap e s2ap) = { translate h a e with s2ap := s2ap &&& 3 } := by
  rw [translate_congr a height (e := e)]
  · have same : swBits (withS2ap e s2ap) = swBits e := by
      apply BitVec.eq_of_getLsbD_eq
      intro i _
      simp only [getLsbD_swBits, getLsbD_withS2ap]
      grind
    have new : s2apBits (withS2ap e s2ap) = s2ap &&& 3 := by
      apply BitVec.eq_of_getLsbD_eq
      intro i _
      simp only [getLsbD_s2apBits, getLsbD_withS2ap, BitVec.getLsbD_and,
        show (3 : U8) = BitVec.mask 0 2 by decide, BitVec.getLsbD_mask]
      grind
    rw [same, new]
    rfl
  · intro i _
    rw [getLsbD_withS2ap]
    grind

/-- Splitting a block does not change what it maps. -/
theorem translate_splitEntry (blocked : e &&& BitVec.mask 12 9 = 0) :
    translate 0 a (splitEntry e (a % 512)) = translate 1 a e := by
  have index : a % 512 < 512 := Nat.mod_lt _ (by decide)
  have low : ∀ k, k < 9 → (a % 512).testBit k = a.testBit k := by
    intro k bound
    rw [show 512 = 2 ^ 9 by rfl, Nat.testBit_mod_two_pow, decide_eq_true bound, Bool.true_and]
  have bits := fun i => getLsbD_splitEntry e i blocked (a % 512) index
  apply Translation.ext
  · apply BitVec.eq_of_getLsbD_eq
    intro i _
    simp only [getLsbD_output, bits, Nat.zero_le, Nat.one_le_ofNat]
    grind
  · apply BitVec.eq_of_getLsbD_eq
    intro i _
    simp only [translate, getLsbD_attrs, bits]
    grind
  · apply BitVec.eq_of_getLsbD_eq
    intro i _
    simp only [translate, getLsbD_swBits, bits]
    grind
  · apply BitVec.eq_of_getLsbD_eq
    intro i _
    simp only [translate, getLsbD_s2apBits, bits]
    grind

/-- A borrowed page is mapped to itself, and never looks owned: SW bit 1 is set. -/
theorem borrowEntry_output (ipa : U64) (s2ap sw : U8) :
    (translate 0 a (borrowEntry ipa s2ap sw)).output = pageAddr (pageOf ipa) := by
  apply BitVec.eq_of_getLsbD_eq
  intro i bound
  have page : ∀ k, (pageOf ipa).testBit k = (decide (k < 36) && ipa.getLsbD (k + 12)) := by
    intro k
    rw [pageOf, Nat.testBit_mod_two_pow, show 4096 = 2 ^ 12 by rfl, Nat.testBit_div_two_pow]
    rfl
  simp only [getLsbD_output, Nat.zero_le, getLsbD_borrowEntry, pageAddr, BitVec.getLsbD_shiftLeft,
    BitVec.getLsbD_ofNat, page]
  grind

theorem borrowEntry_sw (ipa : U64) (s2ap sw : U8) (borrowed : sw.getLsbD 1 = true) :
    (translate 0 a (borrowEntry ipa s2ap sw)).sw.getLsbD 1 = true := by
  simp only [translate, getLsbD_swBits, getLsbD_borrowEntry]
  grind

theorem borrowEntry_s2ap (ipa : U64) (sw : U8) : (translate 0 a (borrowEntry ipa 3 sw)).s2ap = 3 := by
  apply BitVec.eq_of_getLsbD_eq
  intro i bound
  have three : (3 : U8).getLsbD i = decide (i < 2) := by
    rw [show (3 : U8) = BitVec.mask 0 2 by decide, BitVec.getLsbD_mask]
    grind
  simp only [translate, getLsbD_s2apBits, getLsbD_borrowEntry, three]
  grind

theorem pageAddr_toNat (bound : a < 2 ^ 36) : (pageAddr a).toNat = a * 4096 := by
  rw [pageAddr, BitVec.toNat_shiftLeft, BitVec.toNat_ofNat, Nat.shiftLeft_eq]
  omega

theorem pageAddr_injective {b : ℕ} (bound : a < 2 ^ 36) (bound' : b < 2 ^ 36) (same : pageAddr a = pageAddr b) :
    a = b := by
  have addresses := congrArg BitVec.toNat same
  rw [pageAddr_toNat _ bound, pageAddr_toNat _ bound'] at addresses
  omega

/-- A leaf whose address is its own first page maps every page to itself. -/
theorem translate_output_eq (height : h ≤ 2) (bound : a < 2 ^ 36)
    (first : e &&& pteAddrMask = pageAddr (a / 512 ^ h * 512 ^ h)) :
    (translate h a e).output = pageAddr a := by
  apply BitVec.eq_of_getLsbD_eq
  intro i _
  have rounded : ∀ k, (a / 512 ^ h * 512 ^ h).testBit k = (decide (9 * h ≤ k) && a.testBit k) := by
    intro k
    rw [show 512 ^ h = 2 ^ (9 * h) by rw [pow_mul]; rfl, Nat.testBit_mul_two_pow, Nat.testBit_div_two_pow]
    by_cases high : 9 * h ≤ k
    · simp [high]
    · simp [high]
  have above : ∀ k, 36 ≤ k → a.testBit k = false := fun k le =>
    Nat.testBit_lt_two_pow (lt_of_lt_of_le bound (Nat.pow_le_pow_right (by decide) le))
  have bit := congrArg (BitVec.getLsbD · i) first
  simp only [pageAddr, show pteAddrMask = BitVec.mask 12 36 by decide, BitVec.getLsbD_and,
    BitVec.getLsbD_mask, BitVec.getLsbD_shiftLeft, BitVec.getLsbD_ofNat, rounded] at bit
  rw [getLsbD_output _ _ h a height]
  simp only [pageAddr, BitVec.getLsbD_shiftLeft, BitVec.getLsbD_ofNat]
  have top := above (i - 12)
  grind

/-! ## Links -/

theorem nextTable_eq_none : nextTable e = none ↔ e.getLsbD 0 = false ∨ e.getLsbD 1 = false := by
  simp only [nextTable, isTable_eq]
  grind

theorem nextTable_eq_some {t : U64} :
    nextTable e = some t ↔ e.getLsbD 0 = true ∧ e.getLsbD 1 = true ∧ e &&& pteAddrMask = t := by
  simp only [nextTable, isTable_eq]
  grind

theorem getLsbD_tableDesc (table : U64) : (tableDesc table).getLsbD i = (table.getLsbD i || decide (i < 2)) := by
  simp only [tableDesc, show pteTable = BitVec.mask 1 1 by decide,
    show pteValid = BitVec.mask 0 1 by decide, BitVec.getLsbD_or, BitVec.getLsbD_mask]
  grind

theorem isTable_tableDesc (table : U64) : isTable (tableDesc table) = true := by
  rw [isTable_eq, getLsbD_tableDesc, getLsbD_tableDesc]
  simp

theorem nextTable_tableDesc {table : U64} (aligned : table &&& pteAddrMask = table) :
    nextTable (tableDesc table) = some table := by
  have address : tableDesc table &&& pteAddrMask = table := by
    refine Eq.trans ?_ aligned
    apply BitVec.eq_of_getLsbD_eq
    intro i _
    simp only [BitVec.getLsbD_and, getLsbD_tableDesc, show pteAddrMask = BitVec.mask 12 36 by decide,
      BitVec.getLsbD_mask]
    grind
  rw [nextTable, isTable_tableDesc, address]
  rfl

/-- The mapper finds the table behind a link by clearing the low bits. -/
theorem tableDesc_and_not_offset {table : U64} (aligned : table &&& pteAddrMask = table) :
    tableDesc table &&& ~~~pageOffsetMask = table := by
  apply BitVec.eq_of_getLsbD_eq
  intro i _
  have bit := congrArg (BitVec.getLsbD · i) aligned
  simp only [show pteAddrMask = BitVec.mask 12 36 by decide, show pageOffsetMask = BitVec.mask 0 12 by decide,
    BitVec.getLsbD_and, BitVec.getLsbD_not, BitVec.getLsbD_mask, getLsbD_tableDesc] at bit ⊢
  grind

end Translations

/-! ## Indices -/

section Indices

variable (ipa : U64)

private theorem field_eq_digit (lo h : ℕ) (position : lo = 12 + 9 * h) (bound : h < 4) :
    ((ipa >>> lo) &&& ptIndexMask).toNat = Radix.digit 512 h (pageOf ipa) := by
  rw [show ptIndexMask = BitVec.mask 0 9 by decide, BitVec.toNat_shift_and_mask, Radix.digit, pageOf]
  subst position
  interval_cases h <;> norm_num <;> omega

theorem l0Idx_eq : l0Idx ipa = Radix.digit 512 3 (pageOf ipa) := field_eq_digit ipa 39 3 rfl (by decide)
theorem l1Idx_eq : l1Idx ipa = Radix.digit 512 2 (pageOf ipa) := field_eq_digit ipa 30 2 rfl (by decide)
theorem l2Idx_eq : l2Idx ipa = Radix.digit 512 1 (pageOf ipa) := field_eq_digit ipa 21 1 rfl (by decide)
theorem l3Idx_eq : l3Idx ipa = Radix.digit 512 0 (pageOf ipa) := field_eq_digit ipa 12 0 rfl (by decide)

theorem pageOf_lt : pageOf ipa < 2 ^ 36 := Nat.mod_lt _ (by decide)

end Indices

end Hypervisor
