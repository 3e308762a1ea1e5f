import Hypervisor.Model.Mmu
import Hypervisor.Proofs.Walker

/-! # What the operations of the mapper do to its tables

The mapper works on the tables of one VM. `Drives` says that these tables are sound and that the L1
table of the mapper is the one below the first L0 entry. Each operation keeps that, for every
address, and changes only what it is about: the view of the other VMs stays, and so do the pages above
512GB, which no operation reaches. The lemmas are total: they also say when the mapper reports no
error, in terms of the L2 tables still to be made and the heap.
-/

namespace Hypervisor

open Radix

/-! ## Descriptors of the mapper -/

/-- Page `a` mapped to itself. -/
def mappedAs (attr : MemoryAttribute) (a : ℕ) : Translation where
  output := pageAddr a
  attrs := attr.bits &&& attrMask
  sw := 0
  s2ap := s2apBits attr.bits

section Entries

variable (attr : MemoryAttribute)

/-- Attributes lie between the type bits and the address. -/
theorem getLsbD_attributeBits {i : ℕ} (outside : i < 2 ∨ 12 ≤ i) : attr.bits.getLsbD i = false := by
  have masked : attr.bits = attr.bits &&& BitVec.mask 2 10 := by
    cases attr <;> decide
  rw [masked, BitVec.getLsbD_and, BitVec.getLsbD_mask]
  grind

/-- The bits of a block descriptor. -/
theorem getLsbD_makeBlockEntry (x : U64) (i : ℕ) : (makeBlockEntry x attr).getLsbD i =
    (decide (i = 0) || attr.bits.getLsbD i || decide (21 ≤ i) && x.getLsbD i) := by
  have inside := @BitVec.lt_of_getLsbD 64 x i
  simp only [makeBlockEntry, show blockMask2mb = BitVec.mask 0 21 by decide,
    show pteValid = BitVec.mask 0 1 by decide, BitVec.getLsbD_or, BitVec.getLsbD_and, BitVec.getLsbD_not,
    BitVec.getLsbD_mask]
  grind

/-- The bits of a page descriptor. -/
theorem getLsbD_makePageEntry (x : U64) (i : ℕ) : (makePageEntry (x &&& ~~~pageMask4kb) attr).getLsbD i =
    (decide (i < 2) || attr.bits.getLsbD i || decide (12 ≤ i) && x.getLsbD i) := by
  have inside := @BitVec.lt_of_getLsbD 64 x i
  simp only [makePageEntry, show pageMask4kb = BitVec.mask 0 12 by decide,
    show pteValid = BitVec.mask 0 1 by decide, show pteTable = BitVec.mask 1 1 by decide, BitVec.getLsbD_or,
    BitVec.getLsbD_and, BitVec.getLsbD_not, BitVec.getLsbD_mask]
  grind

theorem makeBlockEntry_valid (x : U64) : (makeBlockEntry x attr).getLsbD 0 = true := by
  rw [getLsbD_makeBlockEntry]
  rfl

theorem makePageEntry_valid (x : U64) : (makePageEntry (x &&& ~~~pageMask4kb) attr).getLsbD 0 = true := by
  rw [getLsbD_makePageEntry]
  rfl

theorem nextTable_makeBlockEntry (x : U64) : nextTable (makeBlockEntry x attr) = none := by
  rw [nextTable_eq_none, getLsbD_makeBlockEntry, getLsbD_makeBlockEntry,
    getLsbD_attributeBits attr (.inl (by decide : 1 < 2))]
  exact .inr rfl

theorem makeBlockEntry_blocked (x : U64) : makeBlockEntry x attr &&& BitVec.mask 12 9 = 0 := by
  rw [BitVec.and_mask_eq_zero_iff]
  intro i low high
  rw [getLsbD_makeBlockEntry, getLsbD_attributeBits attr (.inr low)]
  grind

/-- A descriptor with attributes and the upper bits of an address maps the pages around it to
themselves. -/
theorem translate_identity {h b : ℕ} {x e : U64} (height : h ≤ 2) (bound : x.toNat < 2 ^ 48)
    (same : b / 512 ^ h = x.toNat / 4096 / 512 ^ h) (low : ∀ i, 2 ≤ i → i < 12 + 9 * h → e.getLsbD i = attr.bits.getLsbD i)
    (high : ∀ i, 12 + 9 * h ≤ i → e.getLsbD i = x.getLsbD i) : translate h b e = mappedAs attr b := by
  have outside := fun i => getLsbD_attributeBits attr (i := i)
  have pages : ∀ i, 12 + 9 * h ≤ i → x.getLsbD i = b.testBit (i - 12) := by
    intro i above
    obtain ⟨j, rfl⟩ := Nat.exists_eq_add_of_le above
    rw [show 12 + 9 * h + j - 12 = j + 9 * h by omega, ← Nat.testBit_div_two_pow, Nat.pow_mul,
      show (2 ^ 9 : ℕ) = 512 by decide, same, show (512 : ℕ) = 2 ^ 9 by decide, ← Nat.pow_mul,
      Nat.testBit_div_two_pow, show (4096 : ℕ) = 2 ^ 12 by decide, Nat.testBit_div_two_pow]
    exact congrArg x.toNat.testBit (by omega)
  have top : ∀ i, 48 ≤ i → x.getLsbD i = false := fun i le =>
    Nat.testBit_lt_two_pow (lt_of_lt_of_le bound (Nat.pow_le_pow_right (by decide) le))
  apply Translation.ext
  · apply BitVec.eq_of_getLsbD_eq
    intro i _
    have page := pages i
    have entry := high i
    have clear := top i
    rw [getLsbD_output _ _ h b height]
    simp only [mappedAs, pageAddr, BitVec.getLsbD_shiftLeft, BitVec.getLsbD_ofNat]
    grind
  · apply BitVec.eq_of_getLsbD_eq
    intro i _
    simp only [translate, mappedAs, getLsbD_attrs]
    grind
  · apply BitVec.eq_of_getLsbD_eq
    intro i _
    simp only [translate, mappedAs, getLsbD_swBits]
    grind
  · apply BitVec.eq_of_getLsbD_eq
    intro i _
    simp only [translate, mappedAs, getLsbD_s2apBits]
    grind

/-- A block maps its pages to themselves. -/
theorem translate_makeBlockEntry {x : U64} {b : ℕ} (bound : x.toNat < 2 ^ 48) (same : b / 512 = x.toNat / 2 ^ 21) :
    translate 1 b (makeBlockEntry x attr) = mappedAs attr b := by
  refine translate_identity attr (by decide) bound (by omega) (fun i low high => ?_) fun i high => ?_
  · rw [getLsbD_makeBlockEntry]
    grind
  · rw [getLsbD_makeBlockEntry, getLsbD_attributeBits attr (.inr (by omega))]
    grind

/-- A page is mapped to itself. -/
theorem translate_makePageEntry {x : U64} {b : ℕ} (bound : x.toNat < 2 ^ 48) (same : b = x.toNat / 4096) :
    translate 0 b (makePageEntry (x &&& ~~~pageMask4kb) attr) = mappedAs attr b := by
  refine translate_identity attr (by decide) bound (by omega) (fun i low high => ?_) fun i high => ?_
  · rw [getLsbD_makePageEntry]
    grind
  · rw [getLsbD_makePageEntry, getLsbD_attributeBits attr (.inr (by omega))]
    grind

/-- The mapper splits blocks as the walker does. -/
theorem pageOfBlock_eq (e : U64) {i : ℕ} (index : i < 512) :
    DynamicIdentityMapper.pageOfBlock e i = splitEntry e i := by
  apply BitVec.eq_of_getLsbD_eq
  intro k _
  simp only [DynamicIdentityMapper.pageOfBlock, splitEntry, blockPa_add e index]
  simp only [show blockMask2mb = BitVec.mask 0 21 by decide, show pteSwMask = BitVec.mask 55 2 by decide,
    BitVec.getLsbD_or, BitVec.getLsbD_and, BitVec.getLsbD_not, BitVec.getLsbD_mask]
  grind

end Entries

/-! ## The tables of the mapper -/

/-- The mapper works on sound tables of VM `v`, and its L1 table is the first one. -/
structure Drives (root : VmId → U64) (v : VmId) (mapper : DynamicIdentityMapper) (s : Phys) (room : ℕ) : Prop where
  tables : ∃ role, Tables root s role room
  booted : root v ≠ 0
  l0 : root v = mapper.l0Table
  l1 : nextTable (s.mem ⟨mapper.l0Table, 0⟩) = some mapper.l1Table
  links : ∀ i < 512, s.mem ⟨mapper.l1Table, i⟩ = 0 ∨
    ∃ t, HeapPage t ∧ s.mem ⟨mapper.l1Table, i⟩ = tableDesc t

/-- A leaf as it was, or the page it is after its block was split. -/
def Finer (leaf leaf' : Option Leaf) : Prop := leaf' = leaf ∨ leaf' = leaf.map Leaf.toPage

/-- Only blocks of VM `v` were split. -/
structure Keeps (root : VmId → U64) (v : VmId) (mem mem' : PhysMem) : Prop where
  others : ∀ u, u ≠ v → view root mem' u = view root mem u
  pages : ∀ b, Finer (view root mem v b) (view root mem' v b)

/-- How many of the first four gigabytes have no L2 table yet. -/
def unlinked (mem : PhysMem) (l1Table : U64) : ℕ := ((Finset.range 4).filter fun i => mem ⟨l1Table, i⟩ = 0).card

/-- L2 tables for the first four gigabytes can be had, and `spare` pages are left after them. -/
def Fits (mapper : DynamicIdentityMapper) (s : Phys) (room spare : ℕ) : Prop :=
  mapper.l2Count + unlinked s.mem mapper.l1Table ≤ 4 ∧ unlinked s.mem mapper.l1Table + spare ≤ room

/-- There is an L3 table for page `a`. -/
def HasL3 (root : VmId → U64) (v : VmId) (s : Phys) (a : ℕ) : Prop :=
  tableAt nextTable 512 s.mem 0 3 (root v) a ≠ none

/-- The page that `unmap_4kb_page` removes: the mapper reads no bit above its L1 index. -/
def unmapTarget (ipa : U64) : ℕ := pageOf ipa % 2 ^ 27

/-- How many blocks `map_region` stores. -/
def blocksOf (size : U64) : ℕ := (size.toNat + (2 ^ 21 - 1)) / 2 ^ 21

theorem unmapTarget_lt (ipa : U64) : unmapTarget ipa < 2 ^ 27 := Nat.mod_lt _ (by decide)

theorem unmapTarget_of_lt {ipa : U64} (bound : ipa.toNat < 2 ^ 39) : unmapTarget ipa = ipa.toNat / 4096 := by
  rw [unmapTarget, pageOf]
  omega

theorem digit_unmapTarget (ipa : U64) {h : ℕ} (low : h ≤ 2) :
    digit 512 h (unmapTarget ipa) = digit 512 h (pageOf ipa) := by
  rw [digit, digit, unmapTarget]
  interval_cases h <;> norm_num <;> omega

section Finer

variable {leaf leaf' leaf'' : Option Leaf}

theorem Finer.rfl : Finer leaf leaf := .inl (Eq.refl _)

theorem Finer.trans (first : Finer leaf leaf') (second : Finer leaf' leaf'') : Finer leaf leaf'' := by
  have twice : ∀ leaf : Leaf, leaf.toPage.toPage = leaf.toPage := by
    rintro ⟨height, translation⟩
    by_cases block : height = 1 <;> simp [Leaf.toPage, block]
  rcases second with rfl | rfl
  · exact first
  · rcases first with rfl | rfl
    · exact .inr (Eq.refl _)
    · refine .inr ?_
      rw [Option.map_map]
      exact congrArg (leaf.map ·) (funext twice)

/-- Splitting a block changes no translation. -/
theorem Finer.translation (finer : Finer leaf leaf') : leaf'.map Leaf.translation = leaf.map Leaf.translation := by
  rcases finer with rfl | rfl
  · exact Eq.refl _
  · rw [Option.map_map]
    exact Eq.refl _

theorem Finer.eq_none_iff (finer : Finer leaf leaf') : leaf' = none ↔ leaf = none := by
  rcases finer with rfl | rfl
  · exact Iff.rfl
  · exact Option.map_eq_none_iff

end Finer

theorem Keeps.rfl {root : VmId → U64} {v : VmId} {mem : PhysMem} : Keeps root v mem mem :=
  ⟨fun _ _ => Eq.refl _, fun _ => .rfl⟩

theorem Keeps.of_eq {root : VmId → U64} {v : VmId} {mem mem' : PhysMem} (same : view root mem' = view root mem) :
    Keeps root v mem mem' :=
  ⟨fun u _ => congrFun same u, fun b => .inl (congrFun (congrFun same v) b)⟩

theorem Keeps.trans {root : VmId → U64} {v : VmId} {mem mem' mem'' : PhysMem} (first : Keeps root v mem mem')
    (second : Keeps root v mem' mem'') : Keeps root v mem mem'' :=
  ⟨fun u other => (second.others u other).trans (first.others u other),
    fun b => (first.pages b).trans (second.pages b)⟩

section Driving

variable {root : VmId → U64} {v : VmId} {mapper : DynamicIdentityMapper} {s : Phys} {room a p : ℕ} {t : U64}

/-- All pages the mapper can reach are below its L1 table. -/
theorem Drives.reach (drives : Drives root v mapper s room) (bound : a < 2 ^ 27) :
    tableAt nextTable 512 s.mem 2 3 (root v) a = some mapper.l1Table := by
  have first : digit 512 3 a = 0 := by
    rw [digit, Nat.div_eq_of_lt (by simpa using bound)]
  refine tableAt_next tableAt_self ?_
  rw [first, drives.l0]
  exact drives.l1

/-- The L0 and the L1 table lie above the tables of height 1 and 0. -/
theorem Drives.apart (drives : Drives root v mapper s room) {role : U64 → Option (Role VmId)}
    (tables : Tables root s role room) {r : Role VmId} (known : role t = some r) (low : r.height ≤ 1) :
    t ≠ mapper.l0Table ∧ t ≠ mapper.l1Table := by
  have top := tables.roots v drives.booted
  have next := tables.layout.tableAt_role (by decide) (tables.start drives.booted (by decide : 0 < 2 ^ 36))
    (drives.reach (by decide : 0 < 2 ^ 27))
  rw [drives.l0] at top
  constructor
  · rintro rfl
    obtain rfl := Option.some.inj (top.symm.trans known)
    simp at low
  · rintro rfl
    obtain rfl := Option.some.inj (next.symm.trans known)
    simp at low

/-- A change below the L1 table. -/
theorem Drives.below (drives : Drives root v mapper s room) {s' : Phys} {room' : ℕ}
    (tables : ∃ role, Tables root s' role room')
    (frame : ∀ i, s'.mem ⟨mapper.l0Table, i⟩ = s.mem ⟨mapper.l0Table, i⟩ ∧
      s'.mem ⟨mapper.l1Table, i⟩ = s.mem ⟨mapper.l1Table, i⟩) : Drives root v mapper s' room' where
  tables := tables
  booted := drives.booted
  l0 := drives.l0
  l1 := by rw [(frame 0).1, drives.l1]
  links i index := by
    rw [(frame i).2]
    exact drives.links i index

/-- A page that the heap refuses changes nothing. -/
theorem Drives.refuse (drives : Drives root v mapper s room) :
    Drives root v mapper { s with refused := s.refused + 1 } room := by
  obtain ⟨role, tables⟩ := drives.tables
  exact drives.below ⟨role, tables.layout, tables.page, tables.blocks, tables.heap, tables.roots⟩
    fun _ => ⟨rfl, rfl⟩

/-- A store to a table of height 1 or 0. -/
theorem Drives.store (drives : Drives root v mapper s room) {k : ℕ} {e : U64} (low : k ≤ 1) (bound : p < 2 ^ 27)
    (reach : tableAt nextTable 512 s.mem k 3 (root v) p = some t) (leaf : k = 0 ∨ nextTable e = none)
    (blocked : k = 1 → e.getLsbD 0 = true → e &&& BitVec.mask 12 9 = 0) :
    Drives root v mapper (s.write ⟨t, digit 512 k p⟩ e) room ∧
      unlinked (s.write ⟨t, digit 512 k p⟩ e).mem mapper.l1Table = unlinked s.mem mapper.l1Table ∧
      ∀ u b, view root (s.write ⟨t, digit 512 k p⟩ e).mem u b =
        if u = v ∧ b / 512 ^ k = p / 512 ^ k then entryLeaf k b e else view root s.mem u b := by
  obtain ⟨role, tables⟩ := drives.tables
  have bound' : p < 2 ^ 36 := by omega
  have known := tables.layout.tableAt_role (by decide) (tables.start drives.booted bound') reach
  obtain ⟨notL0, notL1⟩ := drives.apart tables known low
  obtain ⟨tables', sees⟩ := tables.store drives.booted bound' (by omega) reach leaf blocked
  have frame : ∀ i, (s.write ⟨t, digit 512 k p⟩ e).mem ⟨mapper.l0Table, i⟩ = s.mem ⟨mapper.l0Table, i⟩ ∧
      (s.write ⟨t, digit 512 k p⟩ e).mem ⟨mapper.l1Table, i⟩ = s.mem ⟨mapper.l1Table, i⟩ := by
    intro i
    rw [Phys.write_mem, Function.update_of_ne, Function.update_of_ne]
    · exact ⟨rfl, rfl⟩
    · exact fun same => notL1 (Slot.mk.inj same).1.symm
    · exact fun same => notL0 (Slot.mk.inj same).1.symm
  refine ⟨drives.below ⟨role, tables'⟩ frame, ?_, sees⟩
  simp only [unlinked, (frame _).2]

/-! ### L2 tables -/

/-- Linking one of the first four gigabytes leaves one less to be linked. -/
theorem unlinked_of_link {mem mem' : PhysMem} {l1Table : U64} {i : ℕ} (index : i < 4) (zero : mem ⟨l1Table, i⟩ = 0)
    (link : mem' ⟨l1Table, i⟩ ≠ 0) (frame : ∀ j, j ≠ i → mem' ⟨l1Table, j⟩ = mem ⟨l1Table, j⟩) :
    unlinked mem' l1Table + 1 = unlinked mem l1Table := by
  have member : i ∈ (Finset.range 4).filter fun j => mem ⟨l1Table, j⟩ = 0 := by simp [index, zero]
  have erased : (Finset.range 4).filter (fun j => mem' ⟨l1Table, j⟩ = 0) =
      ((Finset.range 4).filter fun j => mem ⟨l1Table, j⟩ = 0).erase i := by
    ext j
    by_cases same : j = i
    · subst same
      simpa using fun _ => link
    · simp [same, frame j same]
  rw [unlinked, erased, Finset.card_erase_add_one member]
  rfl

theorem unlinked_pos {mem : PhysMem} {l1Table : U64} {i : ℕ} (index : i < 4) (zero : mem ⟨l1Table, i⟩ = 0) :
    0 < unlinked mem l1Table :=
  Finset.card_pos.mpr ⟨i, by simp [index, zero]⟩

theorem tableDesc_ne_zero (table : U64) : tableDesc table ≠ 0 := by
  intro zero
  have link := isTable_tableDesc table
  rw [zero] at link
  contradiction

/-- An L2 table below an L1 entry that was zero maps nothing. -/
theorem Drives.link (drives : Drives root v mapper s room) (bound : p < 2 ^ 27)
    (zero : s.mem ⟨mapper.l1Table, digit 512 2 p⟩ = 0) {role : U64 → Option (Role VmId)}
    (tables : Tables root s role room) {page : U64} {s₁ : Phys} {n : ℕ}
    (taken : s.Allocated (fun q => role q ≠ none) n page s₁) :
    Drives root v { mapper with l2Count := mapper.l2Count + 1 }
        (({ s₁ with mem := zeroPage s₁.mem page } : Phys).write ⟨mapper.l1Table, digit 512 2 p⟩ (tableDesc page)) n ∧
      tableAt nextTable 512 (Function.update (zeroPage s₁.mem page) ⟨mapper.l1Table, digit 512 2 p⟩ (tableDesc page))
        1 3 (root v) p = some page ∧
      view root (Function.update (zeroPage s₁.mem page) ⟨mapper.l1Table, digit 512 2 p⟩ (tableDesc page)) =
        view root s.mem ∧
      (digit 512 2 p < 4 → unlinked (Function.update (zeroPage s₁.mem page) ⟨mapper.l1Table, digit 512 2 p⟩
        (tableDesc page)) mapper.l1Table + 1 = unlinked s.mem mapper.l1Table) := by
  have bound' : p < 2 ^ 36 := by omega
  have reach := drives.reach bound
  have fresh : role page = none := not_not.mp taken.unused
  have knownL1 := tables.layout.tableAt_role (by decide) (tables.start drives.booted bound') reach
  have knownL0 := tables.roots v drives.booted
  rw [drives.l0] at knownL0
  obtain ⟨tables', stop, sees⟩ := tables.grow (fun _ => 0) drives.booted bound' (by decide) reach
    (.inr fun _ _ => rfl) taken
  have frame : ∀ slot : PtePtr, slot ≠ ⟨mapper.l1Table, digit 512 2 p⟩ → role slot.table ≠ none →
      Function.update (zeroPage s₁.mem page) ⟨mapper.l1Table, digit 512 2 p⟩ (tableDesc page) slot = s.mem slot := by
    intro slot other used
    have old : slot.table ≠ page := fun same => used (same ▸ fresh)
    rw [Function.update_of_ne other]
    exact (if_neg fun hit => old hit.1).trans (taken.frame slot old)
  have apart : mapper.l0Table ≠ mapper.l1Table := by
    intro equal
    rw [equal, knownL1] at knownL0
    simp at knownL0
  refine ⟨⟨tables', drives.booted, drives.l0, ?_, ?_⟩, (tableAt_of_descend stop).1, ?_, fun index => ?_⟩
  · rw [Phys.write_mem, frame _ (fun slots => apart (Slot.mk.inj slots).1) (by simp [knownL0])]
    exact drives.l1
  · intro i index
    rw [Phys.write_mem]
    by_cases linked : i = digit 512 2 p
    · rw [linked, Function.update_self]
      exact .inr ⟨page, taken.heapPage, rfl⟩
    · rw [frame _ (fun slots => linked (Slot.mk.inj slots).2) (by simp [knownL1])]
      exact drives.links i index
  · funext u b
    refine (sees u b).trans ?_
    split_ifs with hit
    · obtain ⟨rfl, near⟩ := hit
      rw [tables.view_of_invalid drives.booted (page_lt_of_same (by decide) bound' near) (by decide) reach near]
      · rfl
      · rw [zero]
        rfl
    · rfl
  · refine unlinked_of_link index zero ?_ fun j other => ?_
    · rw [Function.update_self]
      exact tableDesc_ne_zero page
    · exact frame _ (fun slots => other (Slot.mk.inj slots).2) (by simp [knownL1])

/-- The L2 table of a page, new or not. No error occurs in the first four gigabytes while tables fit. -/
theorem Drives.getOrCreateL2 (drives : Drives root v mapper s room) (spare : ℕ) (bound : p < 2 ^ 27) :
    ∃ result mapper' s' room', mapper.getOrCreateL2 (digit 512 2 p) s = some (result, mapper', s') ∧
      Drives root v mapper' s' room' ∧ view root s'.mem = view root s.mem ∧
      (∀ t, result = .ok t → tableAt nextTable 512 s'.mem 1 3 (root v) p = some t) ∧
      (Fits mapper s room spare → digit 512 2 p < 4 → (∃ t, result = .ok t) ∧ Fits mapper' s' room' spare) := by
  have reach := drives.reach bound
  rw [DynamicIdentityMapper.getOrCreateL2]
  rcases drives.links (digit 512 2 p) (digit_lt (by decide) 2 p) with zero | ⟨t, page, link⟩
  · rw [zero, if_neg (by decide)]
    by_cases full : 4 ≤ mapper.l2Count
    · rw [if_pos full]
      refine ⟨_, _, s, room, rfl, drives, rfl, ?_, fun fits index => ?_⟩
      · rintro t ⟨⟩
      · have positive := unlinked_pos index zero
        exact absurd fits.1 (by omega)
    · rw [if_neg full]
      obtain ⟨role, tables⟩ := drives.tables
      rcases Phys.allocPage_cases tables.heap with ⟨empty, refused⟩ | ⟨n, page, s₁, left, taken⟩
      · refine ⟨_, _, _, room, bind_of_eq_some _ refused, drives.refuse, rfl, ?_, fun fits index => ?_⟩
        · rintro t ⟨⟩
        · have positive := unlinked_pos index zero
          exact absurd fits.2 (by omega)
      · have desc : page ||| (pteValid ||| pteTable) = tableDesc page := (BitVec.or_assoc ..).symm
        obtain ⟨drives', reach', same, count⟩ := drives.link bound zero tables taken
        rw [← desc] at drives' reach' same count
        refine ⟨_, _, _, n, bind_of_eq_some _ taken.result, drives', same, ?_, fun fits index => ⟨⟨_, rfl⟩, ?_⟩⟩
        · rintro t ⟨⟩
          exact reach'
        · rw [Fits, Phys.write_mem]
          have fewer := count index
          obtain ⟨tables, pages⟩ := fits
          dsimp only
          omega
  · rw [link, if_pos (isTable_tableDesc t)]
    refine ⟨_, mapper, s, room, rfl, drives, rfl, ?_, fun fits _ => ⟨⟨_, rfl⟩, fits⟩⟩
    rintro table ⟨⟩
    refine tableAt_next reach ?_
    rw [link, tableDesc_and_not_offset page.table, nextTable_tableDesc page.table]

/-! ### Blocks -/

/-- A block descriptor under the L2 table maps 2MB. -/
theorem Drives.mapBlock (drives : Drives root v mapper s room) (x : U64) (attr : MemoryAttribute)
    (reach : tableAt nextTable 512 s.mem 1 3 (root v) (unmapTarget x) = some t) :
    Drives root v mapper (s.write ⟨t, l2Idx x⟩ (makeBlockEntry x attr)) room ∧
      unlinked (s.write ⟨t, l2Idx x⟩ (makeBlockEntry x attr)).mem mapper.l1Table = unlinked s.mem mapper.l1Table ∧
      ∀ u b, view root (s.write ⟨t, l2Idx x⟩ (makeBlockEntry x attr)).mem u b =
        if u = v ∧ b / 512 = unmapTarget x / 512 then some ⟨1, translate 1 b (makeBlockEntry x attr)⟩
        else view root s.mem u b := by
  obtain ⟨drives', count, sees⟩ := drives.store le_rfl (unmapTarget_lt x) reach (.inr (nextTable_makeBlockEntry attr x))
    fun _ _ => makeBlockEntry_blocked attr x
  rw [digit_unmapTarget x (by decide), ← l2Idx_eq] at drives' count sees
  refine ⟨drives', count, fun u b => ?_⟩
  rw [sees u b, pow_one, entryLeaf, if_pos (makeBlockEntry_valid attr x)]

/-- The loop over 2MB blocks. It panics only on overflow. Without an error it has mapped each block
from the one of the first address on, if they are all in the first 512GB. -/
theorem Drives.mapBlocks (drives : Drives root v mapper s room) (spare : ℕ) (ipa : U64) (attr : MemoryAttribute)
    (count : ℕ) (offset : U64) :
    DynamicIdentityMapper.mapBlocks ipa attr count offset mapper s = none ∧
        2 ^ 64 ≤ ipa.toNat + offset.toNat + 2 ^ 21 * count ∨
      ∃ result mapper' s' room',
        DynamicIdentityMapper.mapBlocks ipa attr count offset mapper s = some (result, mapper', s') ∧
        Drives root v mapper' s' room' ∧
        (∀ u b, (u = v → 2 ^ 27 ≤ b) → view root s'.mem u b = view root s.mem u b) ∧
        ((ipa.toNat + offset.toNat) / 2 ^ 21 + count ≤ 2 ^ 18 → result = .ok () → ∀ b, view root s'.mem v b =
          if (ipa.toNat + offset.toNat) / 2 ^ 21 ≤ b / 512 ∧ b / 512 < (ipa.toNat + offset.toNat) / 2 ^ 21 + count then
            some ⟨1, mappedAs attr b⟩
          else view root s.mem v b) ∧
        (Fits mapper s room spare → (ipa.toNat + offset.toNat) / 2 ^ 21 + count ≤ 2 ^ 11 →
          result = .ok () ∧ Fits mapper' s' room' spare) := by
  induction count generalizing offset mapper s room with
  | zero =>
    refine .inr ⟨_, mapper, s, room, rfl, drives, fun _ _ _ => rfl, fun _ _ b => ?_, fun fits _ => ⟨rfl, fits⟩⟩
    exact (if_neg (by omega)).symm
  | succ count ih =>
    rw [DynamicIdentityMapper.mapBlocks]
    by_cases inRange : ipa.toNat + offset.toNat < 2 ^ 64
    · obtain ⟨x, here⟩ : ∃ x, ipa + offset = x := ⟨_, rfl⟩
      have address : x.toNat = ipa.toNat + offset.toNat := by
        rw [← here, BitVec.toNat_add]
        omega
      have block : unmapTarget x / 512 = x.toNat / 2 ^ 21 % 2 ^ 18 := by
        rw [unmapTarget, pageOf]
        omega
      have size : blockSize2mb.toNat = 2 ^ 21 := by decide
      rw [bind_of_eq_some _ (checkedAdd_of_lt inRange), here]
      obtain ⟨result, mapper₁, s₁, room₁, run, drives₁, same₁, reach₁, enough₁⟩ :=
        drives.getOrCreateL2 spare (unmapTarget_lt x)
      have gigabyte : digit 512 2 (unmapTarget x) = l1Idx x := by
        rw [digit_unmapTarget x le_rfl, ← l1Idx_eq]
      rw [gigabyte] at run enough₁
      have low : (ipa.toNat + offset.toNat) / 2 ^ 21 + (count + 1) ≤ 2 ^ 11 → l1Idx x < 4 := by
        intro inside
        rw [← gigabyte, digit]
        omega
      rw [bind_of_eq_some _ run, ← address]
      cases result with
      | error text =>
        refine .inr ⟨_, mapper₁, s₁, room₁, rfl, drives₁, fun u b _ => by rw [same₁], ?_, fun fits inside => ?_⟩
        · rintro - ⟨⟩
        · rw [address] at inside
          obtain ⟨⟨t, ok⟩, -⟩ := enough₁ fits (low inside)
          cases ok
      | ok table =>
        obtain ⟨drives₂, count₂, sees₂⟩ := drives₁.mapBlock x attr (reach₁ table rfl)
        dsimp only
        by_cases room₂ : offset.toNat + blockSize2mb.toNat < 2 ^ 64
        · rw [bind_of_eq_some _ (checkedAdd_of_lt room₂)]
          have next : (offset + blockSize2mb).toNat = offset.toNat + 2 ^ 21 := by
            rw [BitVec.toNat_add, size]
            omega
          have after : ipa.toNat + (offset + blockSize2mb).toNat = x.toNat + 2 ^ 21 := by omega
          have step : (x.toNat + 2 ^ 21) / 2 ^ 21 = x.toNat / 2 ^ 21 + 1 := by omega
          have loop := ih drives₂ (offset + blockSize2mb)
          rw [after, step] at loop
          rcases loop with ⟨panics, far⟩ | ⟨result, mapper', s', room', run', drives', high, exact', enough'⟩
          · exact .inl ⟨panics, by omega⟩
          · refine .inr ⟨result, mapper', s', room', run', drives', fun u b above => ?_, fun bound ok b => ?_,
              fun fits inside => ?_⟩
            · rw [high u b above, sees₂ u b, same₁, if_neg]
              rintro ⟨owner, near⟩
              have large := above owner
              omega
            · rw [exact' (by omega) ok b, sees₂ v b, same₁]
              have first : unmapTarget x / 512 = x.toNat / 2 ^ 21 := by omega
              by_cases near : b / 512 = unmapTarget x / 512
              · rw [if_neg (by omega), if_pos ⟨rfl, near⟩, if_pos (by omega),
                  translate_makeBlockEntry attr (by omega) (by omega)]
              · rw [if_neg fun hit : v = v ∧ b / 512 = unmapTarget x / 512 => near hit.2]
                split_ifs <;> first | rfl | omega
            · rw [address] at inside
              refine enough' ?_ (by omega)
              obtain ⟨-, fits₁⟩ := enough₁ fits (low inside)
              rwa [Fits, count₂]
        · refine .inl ⟨?_, by omega⟩
          rw [checkedAdd, if_neg room₂]
          rfl
    · refine .inl ⟨?_, by omega⟩
      rw [checkedAdd, if_neg inRange]
      rfl

/-- `map_region`. -/
theorem Drives.mapRegion (drives : Drives root v mapper s room) (spare : ℕ) (ipa size : U64) (attr : MemoryAttribute) :
    mapper.mapRegion ipa size attr s = none ∧ 2 ^ 64 ≤ ipa.toNat + 2 ^ 21 * blocksOf size ∨
      ∃ result mapper' s' room', mapper.mapRegion ipa size attr s = some (result, mapper', s') ∧
        Drives root v mapper' s' room' ∧
        (∀ u b, (u = v → 2 ^ 27 ≤ b) → view root s'.mem u b = view root s.mem u b) ∧
        (ipa.toNat / 2 ^ 21 + blocksOf size ≤ 2 ^ 18 → result = .ok () → ∀ b, view root s'.mem v b =
          if ipa.toNat / 2 ^ 21 ≤ b / 512 ∧ b / 512 < ipa.toNat / 2 ^ 21 + blocksOf size then
            some ⟨1, mappedAs attr b⟩
          else view root s.mem v b) ∧
        (Fits mapper s room spare → ipa.toNat / 2 ^ 21 + blocksOf size ≤ 2 ^ 11 →
          result = .ok () ∧ Fits mapper' s' room' spare) :=
  drives.mapBlocks spare ipa attr (blocksOf size) 0

/-! ### Pages -/

/-- A page from the heap becomes the L3 table under an L2 entry. -/
theorem Drives.grow (drives : Drives root v mapper s room) (new : ℕ → U64) (bound : a < 2 ^ 27)
    (reach : tableAt nextTable 512 s.mem 1 3 (root v) a = some t) {role : U64 → Option (Role VmId)}
    (tables : Tables root s role room) {page : U64} {s₁ : Phys} {n : ℕ}
    (taken : s.Allocated (fun q => role q ≠ none) n page s₁) :
    Drives root v mapper
        (({ s₁ with mem := fillPage s₁.mem page new } : Phys).write ⟨t, digit 512 1 a⟩ (tableDesc page)) n ∧
      tableAt nextTable 512 (Function.update (fillPage s₁.mem page new) ⟨t, digit 512 1 a⟩ (tableDesc page)) 0 3
        (root v) a = some page ∧
      ∀ u b, view root (Function.update (fillPage s₁.mem page new) ⟨t, digit 512 1 a⟩ (tableDesc page)) u b =
        if u = v ∧ b / 512 = a / 512 then entryLeaf 0 b (new (digit 512 0 b)) else view root s.mem u b := by
  have bound' : a < 2 ^ 36 := by omega
  have known := tables.layout.tableAt_role (by decide) (tables.start drives.booted bound') reach
  have knownL1 := tables.layout.tableAt_role (by decide) (tables.start drives.booted bound') (drives.reach bound)
  have knownL0 := tables.roots v drives.booted
  rw [drives.l0] at knownL0
  obtain ⟨notL0, notL1⟩ := drives.apart tables known le_rfl
  obtain ⟨tables', stop, sees⟩ := tables.grow new drives.booted bound' (by decide) reach (.inl rfl) taken
  have old : ∀ {q r} i, role q = some r → q ≠ t →
      Function.update (fillPage s₁.mem page new) ⟨t, digit 512 1 a⟩ (tableDesc page) ⟨q, i⟩ = s.mem ⟨q, i⟩ := by
    intro q r i used other
    have apart : q ≠ page := by
      rintro rfl
      exact taken.unused (by simp [used])
    rw [Function.update_of_ne fun same => other (Slot.mk.inj same).1, fillPage_of_ne apart, taken.frame _ apart]
  refine ⟨drives.below tables' fun i => ⟨old i knownL0 notL0.symm, old i knownL1 notL1.symm⟩,
    (tableAt_of_descend stop).1, fun u b => ?_⟩
  simpa only [zero_add, pow_one] using sees u b

/-- Splitting a block changes no translation. -/
theorem Drives.split (drives : Drives root v mapper s room) (spare : ℕ) (bound : a < 2 ^ 27)
    (reach : tableAt nextTable 512 s.mem 1 3 (root v) a = some t)
    (valid : (s.mem ⟨t, digit 512 1 a⟩).getLsbD 0 = true) (block : (s.mem ⟨t, digit 512 1 a⟩).getLsbD 1 = false) :
    ∃ result s' room', DynamicIdentityMapper.split2mbBlock ⟨t, digit 512 1 a⟩ (s.mem ⟨t, digit 512 1 a⟩) s =
        some (result, s') ∧
      Drives root v mapper s' room' ∧ Keeps root v s.mem s'.mem ∧
      (∀ table, result = .ok table → tableAt nextTable 512 s'.mem 0 3 (root v) a = some table) ∧
      (spare < room → (∃ table, result = .ok table) ∧ spare ≤ room') := by
  have bound' : a < 2 ^ 36 := by omega
  obtain ⟨role, tables⟩ := drives.tables
  have known := tables.layout.tableAt_role (by decide) (tables.start drives.booted bound') reach
  have blocked := tables.blocks known (digit_lt (by decide) 1 a) valid block
  rcases Phys.allocPage_cases tables.heap with ⟨empty, refused⟩ | ⟨n, page, s₁, left, taken⟩
  · refine ⟨_, _, room, bind_of_eq_some _ refused, drives.refuse, .rfl, ?_, fun some => absurd empty (by omega)⟩
    rintro table ⟨⟩
  · obtain ⟨drives', reach', sees⟩ := drives.grow
      (DynamicIdentityMapper.pageOfBlock (s.mem ⟨t, digit 512 1 a⟩)) bound reach tables taken
    refine ⟨_, _, n, bind_of_eq_some _ taken.result, ?_, ?_, ?_, fun _ => ⟨⟨page, rfl⟩, by omega⟩⟩
    · rw [Phys.write_write]
      exact drives'
    · rw [Phys.write_write]
      refine ⟨fun u other => ?_, fun b => ?_⟩
      · funext b
        rw [Phys.write_mem, sees u b, if_neg fun hit => other hit.1]
      · rw [Phys.write_mem, sees v b]
        split_ifs with hit
        · have near : b / 512 ^ 1 = a / 512 ^ 1 := by simpa using hit.2
          refine .inr ?_
          rw [tables.view_of_stop drives.booted (page_lt_of_same (by decide) bound' near) (by decide) reach near
            (.inr ((nextTable_eq_none _).mpr (.inr block))), pageOfBlock_eq _ (digit_lt (by decide) 0 b), digit_zero,
            entryLeaf, entryLeaf, if_pos valid, if_pos, translate_splitEntry b _ blocked]
          · rfl
          · rw [getLsbD_splitEntry _ _ blocked _ (Nat.mod_lt _ (by decide))]
            rfl
        · exact .rfl
    · rintro table ⟨⟩
      rw [Phys.write_write]
      exact reach'

/-- Page `a` has an L3 table or is in a block that can be split, and `spare` pages are left after that. -/
def Splits (root : VmId → U64) (v : VmId) (s : Phys) (room spare a : ℕ) : Prop :=
  HasL3 root v s a ∧ spare ≤ room ∨ (∃ b, b / 512 = a / 512 ∧ view root s.mem v b ≠ none) ∧ spare < room

/-- The entry for the 2MB of a page is a block, a link or invalid. -/
theorem l2Entry_cases (e : U64) : e.getLsbD 0 = true ∧ e.getLsbD 1 = false ∨
    isTable e = true ∧ nextTable e = some (e &&& pteAddrMask) ∨ e.getLsbD 0 = false ∧ isTable e = false := by
  rw [isTable_eq, nextTable_eq_some]
  cases e.getLsbD 0 <;> cases e.getLsbD 1 <;> simp

theorem not_block_of_isTable {entry : U64} (link : isTable entry = true) :
    ¬(entry.getLsbD 0 = true ∧ entry.getLsbD 1 = false) := by
  rw [isTable_eq] at link
  rintro ⟨-, block⟩
  rw [block] at link
  simp at link

/-- The L3 table of a page, found or made by a split. -/
theorem Drives.l3TableOf (drives : Drives root v mapper s room) (spare : ℕ) (bound : a < 2 ^ 27)
    (reach : tableAt nextTable 512 s.mem 1 3 (root v) a = some t) :
    ∃ result s' room', DynamicIdentityMapper.l3TableOf ⟨t, digit 512 1 a⟩ s = some (result, s') ∧
      Drives root v mapper s' room' ∧ Keeps root v s.mem s'.mem ∧
      (∀ table, result = .ok table → tableAt nextTable 512 s'.mem 0 3 (root v) a = some table) ∧
      (Splits root v s room spare a → (∃ table, result = .ok table) ∧ spare ≤ room') := by
  have next : tableAt nextTable 512 s.mem 0 3 (root v) a = nextTable (s.mem ⟨t, digit 512 1 a⟩) := by
    rw [tableAt_succ (by decide), reach, Option.bind_some]
  simp only [DynamicIdentityMapper.l3TableOf, ne_eq, and_pteValid_eq_zero, and_pteTable_eq_zero, Bool.not_eq_false]
  rcases l2Entry_cases (s.mem ⟨t, digit 512 1 a⟩) with ⟨valid, block⟩ | ⟨link, table⟩ | ⟨invalid, unlinked⟩
  · rw [if_pos ⟨valid, block⟩]
    obtain ⟨result, s', room', run, drives', keeps, good, enough⟩ := drives.split spare bound reach valid block
    refine ⟨result, s', room', run, drives', keeps, good, ?_⟩
    rintro (⟨table, -⟩ | ⟨-, some⟩)
    · exact absurd (next.trans ((nextTable_eq_none _).mpr (.inr block))) table
    · exact enough some
  · rw [if_neg (not_block_of_isTable link), if_pos link]
    refine ⟨_, s, room, rfl, drives, .rfl, ?_, fun ready => ⟨⟨_, rfl⟩, ready.elim And.right fun ready => ready.2.le⟩⟩
    rintro found ⟨⟩
    exact next.trans table
  · rw [if_neg fun both => absurd both.1 (by rw [invalid]; simp), if_neg (by rw [unlinked]; simp)]
    refine ⟨_, s, room, rfl, drives, .rfl, ?_, ?_⟩
    · rintro table ⟨⟩
    · rintro (⟨table, -⟩ | ⟨⟨b, same, mapped⟩, -⟩)
      · exact absurd (next.trans ((nextTable_eq_none _).mpr (.inl invalid))) table
      · obtain ⟨role, tables⟩ := drives.tables
        have near : b / 512 ^ 1 = a / 512 ^ 1 := by simpa using same
        exact absurd (tables.view_of_invalid drives.booted (page_lt_of_same (by decide) (by omega) near) (by decide)
          reach near invalid) mapped

/-- The L3 table of a page, found, made by a split, or new and empty. -/
theorem Drives.l3TableOrNew (drives : Drives root v mapper s room) (bound : a < 2 ^ 27)
    (reach : tableAt nextTable 512 s.mem 1 3 (root v) a = some t) :
    ∃ result s' room', DynamicIdentityMapper.l3TableOrNew ⟨t, digit 512 1 a⟩ s = some (result, s') ∧
      Drives root v mapper s' room' ∧ Keeps root v s.mem s'.mem ∧
      (∀ table, result = .ok table → tableAt nextTable 512 s'.mem 0 3 (root v) a = some table) ∧
      (0 < room → ∃ table, result = .ok table) := by
  simp only [DynamicIdentityMapper.l3TableOrNew, ne_eq, and_pteValid_eq_zero, and_pteTable_eq_zero, Bool.not_eq_false]
  rcases l2Entry_cases (s.mem ⟨t, digit 512 1 a⟩) with ⟨valid, block⟩ | ⟨link, table⟩ | ⟨invalid, unlinked⟩
  · rw [if_pos ⟨valid, block⟩]
    obtain ⟨result, s', room', run, drives', keeps, good, enough⟩ := drives.split 0 bound reach valid block
    exact ⟨result, s', room', run, drives', keeps, good, fun some => (enough some).1⟩
  · rw [if_neg (not_block_of_isTable link), if_pos link]
    refine ⟨_, s, room, rfl, drives, .rfl, ?_, fun _ => ⟨_, rfl⟩⟩
    rintro found ⟨⟩
    exact tableAt_next reach table
  · rw [if_neg fun both => absurd both.1 (by rw [invalid]; simp), if_neg (by rw [unlinked]; simp)]
    obtain ⟨role, tables⟩ := drives.tables
    rcases Phys.allocPage_cases tables.heap with ⟨empty, refused⟩ | ⟨n, page, s₁, left, taken⟩
    · refine ⟨_, _, room, bind_of_eq_some _ refused, drives.refuse, .rfl, ?_, fun some => absurd empty (by omega)⟩
      rintro table ⟨⟩
    · obtain ⟨drives', reach', sees⟩ := drives.grow (fun _ => 0) bound reach tables taken
      refine ⟨_, _, n, bind_of_eq_some _ taken.result, drives', .of_eq ?_, ?_, fun _ => ⟨page, rfl⟩⟩
      · funext u b
        refine (sees u b).trans ?_
        split_ifs with hit
        · obtain ⟨rfl, same⟩ := hit
          have near : b / 512 ^ 1 = a / 512 ^ 1 := by simpa using same
          rw [tables.view_of_invalid drives.booted (page_lt_of_same (by decide) (by omega) near) (by decide) reach near
            invalid]
          rfl
        · rfl
      · rintro table ⟨⟩
        exact reach'

/-- Storing an L3 entry. -/
theorem Drives.storePage (drives : Drives root v mapper s room) (e : U64) (bound : a < 2 ^ 27)
    (reach : tableAt nextTable 512 s.mem 0 3 (root v) a = some t) :
    Drives root v mapper (s.write ⟨t, digit 512 0 a⟩ e) room ∧ HasL3 root v (s.write ⟨t, digit 512 0 a⟩ e) a ∧
      ∀ u b, view root (s.write ⟨t, digit 512 0 a⟩ e).mem u b =
        if u = v ∧ b = a then entryLeaf 0 b e else view root s.mem u b := by
  obtain ⟨role, tables⟩ := drives.tables
  have start := tables.start drives.booted (by omega : a < 2 ^ 36)
  have stop := tables.layout.overwrite_hit (e := e) (by decide) start reach (.inl rfl) start rfl
  obtain ⟨drives', -, sees⟩ := drives.store (e := e) (Nat.zero_le 1) bound reach (.inl rfl)
    fun one => absurd one (by decide)
  refine ⟨drives', ?_, fun u b => ?_⟩
  · rw [HasL3, Phys.write_mem, (tableAt_of_descend stop).1]
    exact Option.some_ne_none t
  · simpa only [pow_zero, Nat.div_one] using sees u b

/-- What storing one L3 entry under found or new tables does. -/
theorem Keeps.store {mem mem' mem'' : PhysMem} {e : U64} (keeps : Keeps root v mem mem')
    (sees : ∀ u b, view root mem'' u b = if u = v ∧ b = a then entryLeaf 0 b e else view root mem' u b) :
    (∀ u, u ≠ v → view root mem'' u = view root mem u) ∧
      (∀ b, b ≠ a → Finer (view root mem v b) (view root mem'' v b)) ∧ view root mem'' v a = entryLeaf 0 a e := by
  refine ⟨fun u other => ?_, fun b other => ?_, ?_⟩
  · rw [← keeps.others u other]
    funext b
    rw [sees u b, if_neg fun hit => other hit.1]
  · rw [sees v b, if_neg fun hit => other hit.2]
    exact keeps.pages b
  · rw [sees v a, if_pos ⟨Eq.refl v, Eq.refl a⟩]

/-- `unmap_4kb_page` removes one page, or only splits its block. -/
theorem Drives.unmap4kbPage (drives : Drives root v mapper s room) (spare : ℕ) (ipa : U64) :
    ∃ result s' room', mapper.unmap4kbPage ipa s = some (result, s') ∧ Drives root v mapper s' room' ∧
      (∀ u, u ≠ v → view root s'.mem u = view root s.mem u) ∧
      (∀ b, (result = .ok () → b ≠ unmapTarget ipa) → Finer (view root s.mem v b) (view root s'.mem v b)) ∧
      (result = .ok () → view root s'.mem v (unmapTarget ipa) = none ∧ HasL3 root v s' (unmapTarget ipa)) ∧
      (Splits root v s room spare (unmapTarget ipa) → result = .ok () ∧ spare ≤ room') := by
  have bound := unmapTarget_lt ipa
  have reach := drives.reach bound
  rw [DynamicIdentityMapper.unmap4kbPage]
  simp only [l1Idx_eq, l2Idx_eq, l3Idx_eq, ← digit_unmapTarget ipa (by decide : 2 ≤ 2),
    ← digit_unmapTarget ipa (by decide : 1 ≤ 2), ← digit_unmapTarget ipa (by decide : 0 ≤ 2)]
  rcases drives.links (digit 512 2 (unmapTarget ipa)) (digit_lt (by decide) 2 _) with zero | ⟨t, page, link⟩
  · refine ⟨_, s, room, by rw [zero]; rfl, drives, fun _ _ => rfl, fun _ _ => .rfl, ?_, ?_⟩
    · rintro ⟨⟩
    · rintro (⟨table, -⟩ | ⟨⟨b, same, mapped⟩, -⟩)
      · refine absurd ?_ table
        rw [tableAt_succ (by decide), tableAt_succ (by decide), reach, Option.bind_some, zero]
        rfl
      · obtain ⟨role, tables⟩ := drives.tables
        have near : b / 512 ^ 2 = unmapTarget ipa / 512 ^ 2 := above_mono (by decide : 1 ≤ 2) (by simpa using same)
        exact absurd (tables.view_of_invalid drives.booted (page_lt_of_same (by decide) (by omega) near) (by decide)
          reach near (by rw [zero]; rfl)) mapped
  · obtain ⟨-, -, table⟩ := (nextTable_eq_some _).mp (nextTable_tableDesc page.table)
    have next : tableAt nextTable 512 s.mem 1 3 (root v) (unmapTarget ipa) = some t := by
      refine tableAt_next reach ?_
      rw [link, nextTable_tableDesc page.table]
    obtain ⟨result, s', room', run, drives', keeps, good, enough⟩ := drives.l3TableOf spare bound next
    rw [link, isTable_tableDesc, table, Bool.not_true, if_neg Bool.false_ne_true, bind_of_eq_some _ run]
    cases result with
    | error text =>
      refine ⟨_, s', room', rfl, drives', keeps.others, fun b _ => keeps.pages b, ?_, fun ready => ?_⟩
      · rintro ⟨⟩
      · obtain ⟨⟨l3, ok⟩, -⟩ := enough ready
        cases ok
    | ok l3 =>
      obtain ⟨stored, hasL3, sees⟩ := drives'.storePage 0 bound (good l3 rfl)
      obtain ⟨others, pages, gone⟩ := keeps.store sees
      exact ⟨_, _, room', rfl, stored, others, fun b other => pages b (other rfl), fun _ => ⟨gone, hasL3⟩,
        fun ready => ⟨rfl, (enough ready).2⟩⟩

/-- `map_4kb_page` maps one page, or only splits its block. -/
theorem Drives.map4kbPage (drives : Drives root v mapper s room) (ipa : U64) (attr : MemoryAttribute) :
    ∃ result mapper' s' room', mapper.map4kbPage ipa attr s = some (result, mapper', s') ∧
      Drives root v mapper' s' room' ∧ (∀ u, u ≠ v → view root s'.mem u = view root s.mem u) ∧
      (∀ b, (result = .ok () → b ≠ unmapTarget ipa) → Finer (view root s.mem v b) (view root s'.mem v b)) ∧
      (result = .ok () → view root s'.mem v (unmapTarget ipa) =
        some ⟨0, translate 0 (unmapTarget ipa) (makePageEntry (ipa &&& ~~~pageMask4kb) attr)⟩) ∧
      (Fits mapper s room 1 → l1Idx ipa < 4 → result = .ok ()) := by
  have bound := unmapTarget_lt ipa
  rw [DynamicIdentityMapper.map4kbPage]
  simp only [l1Idx_eq, l2Idx_eq, l3Idx_eq, ← digit_unmapTarget ipa (by decide : 2 ≤ 2),
    ← digit_unmapTarget ipa (by decide : 1 ≤ 2), ← digit_unmapTarget ipa (by decide : 0 ≤ 2)]
  obtain ⟨result, mapper', s₁, room₁, run₁, drives₁, same₁, reach₁, enough₁⟩ := drives.getOrCreateL2 1 bound
  have keeps₁ : Keeps root v s.mem s₁.mem := .of_eq same₁
  rw [bind_of_eq_some _ run₁]
  cases result with
  | error text =>
    refine ⟨_, mapper', s₁, room₁, rfl, drives₁, keeps₁.others, fun b _ => keeps₁.pages b, ?_, fun fits low => ?_⟩
    · rintro ⟨⟩
    · obtain ⟨⟨l2, ok⟩, -⟩ := enough₁ fits low
      cases ok
  | ok l2 =>
    obtain ⟨result, s₂, room₂, run₂, drives₂, keeps₂, good, enough₂⟩ := drives₁.l3TableOrNew bound (reach₁ l2 rfl)
    have keeps := keeps₁.trans keeps₂
    dsimp only
    rw [bind_of_eq_some _ run₂]
    cases result with
    | error text =>
      refine ⟨_, mapper', s₂, room₂, rfl, drives₂, keeps.others, fun b _ => keeps.pages b, ?_, fun fits low => ?_⟩
      · rintro ⟨⟩
      · obtain ⟨-, -, left⟩ := enough₁ fits low
        obtain ⟨l3, ok⟩ := enough₂ (by omega)
        cases ok
    | ok l3 =>
      obtain ⟨stored, -, sees⟩ := drives₂.storePage (makePageEntry (ipa &&& ~~~pageMask4kb) attr) bound (good l3 rfl)
      obtain ⟨others, pages, here⟩ := keeps.store sees
      rw [entryLeaf, if_pos (makePageEntry_valid attr ipa)] at here
      exact ⟨_, mapper', _, room₂, rfl, stored, others, fun b other => pages b (other rfl), fun _ => here, fun _ _ => rfl⟩

end Driving

end Hypervisor
