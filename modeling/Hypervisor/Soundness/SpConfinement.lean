import Hypervisor.Proofs.Boot
import Hypervisor.Proofs.SpTables

/-! # Confinement of secure partitions

`build_sp_stage2` maps whole blocks of 2MB: as many as the size of the region takes, from the block in
which it starts, and last the block of the UART. The SP is confined to its region exactly if the
region consists of blocks other than that one.
-/

namespace Hypervisor

/-- The page of the UART. -/
def uartPage : ℕ := spUartBase.toNat / 4096

/-- What an SP sees of a page through `VSTTBR_EL2`. -/
def spLeaf (mapper : DynamicIdentityMapper) (mem : PhysMem) (a : ℕ) : Option Leaf :=
  if a < 2 ^ 36 then leafAt mem (vsttbrOf mapper.l0Table) a else none

/-- MemAttr is Normal memory, write-back. -/
def Translation.IsNormal (translation : Translation) : Prop := translation.attrs >>> 2 &&& 0xF = 0xF

/-- The SP has its region as Normal read-write memory and the UART as Device memory, each page at its own
address, and no other Normal memory. -/
structure SpConfined (base size : U64) (mapper : DynamicIdentityMapper) (mem : PhysMem) : Prop where
  region : ∀ a, InRegion (base, size) a → ∃ h, spLeaf mapper mem a = some ⟨h, mappedAs .normal a⟩
  uart : ∃ h, spLeaf mapper mem uartPage = some ⟨h, mappedAs .device uartPage⟩
  only : ∀ a leaf, spLeaf mapper mem a = some leaf → leaf.translation.IsNormal → InRegion (base, size) a

/-- The pages that `build_sp_stage2` maps. -/
def spPlan (base size : U64) : Plan := fun a =>
  if a / 512 = 72 then some .device
  else if base.toNat / 2 ^ 21 ≤ a / 512 ∧ a / 512 < base.toNat / 2 ^ 21 + blocksOf size then some .normal
  else none

/-- Regions of which every page has a number of 27 bits, in blocks of 2MB other than that of the UART. -/
structure WholeBlocks (base size : U64) : Prop where
  bound : base.toNat + size.toNat ≤ 2 ^ 39
  aligned : base.toNat % 2 ^ 21 = 0
  whole : (size.toNat + 4095) / 4096 % 512 = 0
  apart : base.toNat + size.toNat ≤ 0x09000000 ∨ 0x09200000 ≤ base.toNat

theorem isNormal_mappedAs (a : ℕ) : (mappedAs .normal a).IsNormal := by
  change (MemoryAttribute.normal.bits &&& attrMask) >>> 2 &&& 0xF = 0xF
  decide

theorem not_isNormal_device (a : ℕ) : ¬ (mappedAs .device a).IsNormal := by
  change ¬ ((MemoryAttribute.device.bits &&& attrMask) >>> 2 &&& 0xF = 0xF)
  decide

theorem spPlan_eq_some {base size : U64} {a : ℕ} {attr : MemoryAttribute} (planned : spPlan base size a = some attr) :
    attr = .normal ∨ attr = .device := by
  rw [spPlan] at planned
  split_ifs at planned with uart inside
  · exact .inr (Option.some.inj planned).symm
  · exact .inl (Option.some.inj planned).symm

theorem spPlan_eq_normal_iff {base size : U64} {a : ℕ} : spPlan base size a = some .normal ↔
    a / 512 ≠ 72 ∧ base.toNat / 2 ^ 21 ≤ a / 512 ∧ a / 512 < base.toNat / 2 ^ 21 + blocksOf size := by
  rw [spPlan]
  split_ifs with uart inside
  · exact ⟨by rintro ⟨⟩, fun h => absurd uart h.1⟩
  · exact ⟨fun _ => ⟨uart, inside⟩, fun _ => rfl⟩
  · exact ⟨by rintro ⟨⟩, fun h => absurd h.2 inside⟩

theorem WholeBlocks.plan {base size : U64} (blocks : WholeBlocks base size) (a : ℕ) :
    InRegion (base, size) a ↔ spPlan base size a = some .normal := by
  obtain ⟨bound, aligned, whole, apart⟩ := blocks
  rw [spPlan_eq_normal_iff, InRegion, blocksOf]
  dsimp only
  omega

/-- The plan fits the region only if the block of its first page starts there, that of its last page ends there,
and the block of the UART is not among them. -/
theorem wholeBlocks_of_plan {base size : U64} (page : base.toNat % 4096 = 0) (positive : 0 < size.toNat)
    (bound : base.toNat + size.toNat ≤ 2 ^ 39)
    (plan : ∀ a, InRegion (base, size) a ↔ spPlan base size a = some .normal) : WholeBlocks base size := by
  simp only [spPlan_eq_normal_iff, InRegion] at plan
  have nonempty : 0 < blocksOf size := by
    rw [blocksOf]
    omega
  have first := plan (base.toNat / 4096)
  have aligned : base.toNat % 2 ^ 21 = 0 := by
    have start := plan (512 * (base.toNat / 2 ^ 21))
    omega
  have last := plan (base.toNat / 4096 + (size.toNat - 1) / 4096)
  have whole : (size.toNat + 4095) / 4096 % 512 = 0 := by
    have stop := plan (512 * ((base.toNat / 4096 + (size.toNat - 1) / 4096) / 512) + 511)
    omega
  refine ⟨bound, aligned, whole, ?_⟩
  have uart := plan 0x9000
  omega

section Built

variable {base size : U64} {s s' : Phys} {mapper : DynamicIdentityMapper} {next : ℕ}

theorem vsttbrOf_eq {page : U64} (table : page &&& pteAddrMask = page) : vsttbrOf page = page := by
  have mask : pteAddrMask &&& 0x0000FFFFFFFFFFFE = pteAddrMask := by decide
  rw [vsttbrOf, ← table, BitVec.and_assoc, mask]

/-- The tables that are left when `build_sp_stage2` succeeds. -/
theorem spTables_of_build (heap : BumpHeap s.heap next) (bound : base.toNat + size.toNat < 2 ^ 47)
    (built : buildSpStage2 base size s = some (.ok mapper, s')) :
    ∃ next' l2, SpTables mapper s' next' l2
      (fillBlocks .device 72 1 (fillBlocks .normal (base.toNat / 2 ^ 21) (blocksOf size) fun _ => 0)) := by
  obtain ⟨⟨mapper₀, s₀⟩, fresh, built⟩ := Option.bind_eq_some_iff.mp built
  obtain ⟨⟨result, mapper₁, s₁⟩, region, built⟩ := Option.bind_eq_some_iff.mp built
  cases result with
  | error text => cases built
  | ok =>
      obtain ⟨⟨result, mapper₂, s₂⟩, uart, built⟩ := Option.bind_eq_some_iff.mp built
      cases result with
      | error text => cases built
      | ok =>
          obtain ⟨same, rfl⟩ := Prod.mk.inj (Option.some.inj built)
          obtain rfl := Except.ok.inj same
          obtain ⟨next₀, tables₀⟩ := spTables_new heap fresh
          obtain ⟨next₁, l2₁, tables₁⟩ := tables₀.mapRegion bound region
          exact tables₁.mapRegion (by decide) uart

/-- The pages that an SP sees are those of the plan. -/
theorem spLeaf_of_build (heap : BumpHeap s.heap next)
    (bound : base.toNat + size.toNat ≤ 2 ^ 39) (built : buildSpStage2 base size s = some (.ok mapper, s')) (a : ℕ) :
    spLeaf mapper s'.mem a = (spPlan base size a).map fun attr => ⟨1, mappedAs attr a⟩ := by
  obtain ⟨next', l2, tables⟩ := spTables_of_build heap (by omega) built
  have blocks : base.toNat / 2 ^ 21 + blocksOf size ≤ 2 ^ 18 := by
    rw [blocksOf]
    omega
  rw [spLeaf, vsttbrOf_eq tables.l0.table]
  by_cases high : 2 ^ 27 ≤ a
  · have unplanned : spPlan base size a = none := by rw [spPlan, if_neg (by omega), if_neg (by omega)]
    rw [unplanned]
    split_ifs with page
    · exact tables.leafAt_high high page
    · rfl
  rw [if_pos (by omega), spPlan]
  have entry {attr : MemoryAttribute} : nextTable (makeBlockEntry (pageAddr (512 * (a / 512))) attr) = none ∧
      entryLeaf 1 a (makeBlockEntry (pageAddr (512 * (a / 512))) attr) = some ⟨1, mappedAs attr a⟩ := by
    have address := pageAddr_toNat (512 * (a / 512)) (by omega)
    refine ⟨nextTable_makeBlockEntry attr _, ?_⟩
    rw [entryLeaf, if_pos (makeBlockEntry_valid attr _), translate_makeBlockEntry attr (by omega) (by omega)]
  have slot := fillBlocks_apply .device (by decide : 72 + 1 ≤ 2 ^ 18)
    (fillBlocks .normal (base.toNat / 2 ^ 21) (blocksOf size) fun _ => 0) (a / 512)
  rw [fillBlocks_apply .normal blocks] at slot
  by_cases uart : a / 512 = 72
  · rw [if_pos (by omega)] at slot
    rw [tables.leafAt_low (by omega) (by rw [slot]; exact entry.1), slot, if_pos uart]
    exact entry.2
  rw [if_neg (by omega)] at slot
  rw [if_neg uart]
  split_ifs at slot ⊢ with inside
  · rw [tables.leafAt_low (by omega) (by rw [slot]; exact entry.1), slot]
    exact entry.2
  · rw [tables.leafAt_low (by omega) (by rw [slot]; decide), slot]
    rfl

/-- A page of the region beyond 512GB is not mapped, wherever the loop puts its block. -/
theorem bound_of_confined (heap : BumpHeap s.heap next) (baseBound : base.toNat < 2 ^ 39)
    (sizeBound : size.toNat < 2 ^ 39) (built : buildSpStage2 base size s = some (.ok mapper, s'))
    (confined : SpConfined base size mapper s'.mem) :
    base.toNat + size.toNat ≤ 2 ^ 39 := by
  by_contra beyond
  obtain ⟨next', l2, tables⟩ := spTables_of_build heap (by omega) built
  have page : 2 ^ 27 < 2 ^ 36 := by decide
  obtain ⟨h, mapped⟩ := confined.region (2 ^ 27) ⟨by dsimp only; omega, by dsimp only; omega⟩
  rw [spLeaf, if_pos page, vsttbrOf_eq tables.l0.table, tables.leafAt_high le_rfl page] at mapped
  cases mapped

/-- The SP is confined exactly if the plan has the pages of the region, and no other, as Normal memory. -/
theorem spConfined_iff_plan (heap : BumpHeap s.heap next)
    (bound : base.toNat + size.toNat ≤ 2 ^ 39) (built : buildSpStage2 base size s = some (.ok mapper, s')) :
    SpConfined base size mapper s'.mem ↔ ∀ a, InRegion (base, size) a ↔ spPlan base size a = some .normal := by
  have leaf := spLeaf_of_build heap bound built
  constructor
  · intro confined a
    constructor
    · intro inside
      obtain ⟨h, mapped⟩ := confined.region a inside
      rw [leaf] at mapped
      obtain ⟨attr, planned, same⟩ := Option.map_eq_some_iff.mp mapped
      rcases spPlan_eq_some planned with rfl | rfl
      · exact planned
      · have translation : mappedAs .device a = mappedAs .normal a := congrArg Leaf.translation same
        exact absurd (translation ▸ isNormal_mappedAs a) (not_isNormal_device a)
    · intro planned
      have mapped : spLeaf mapper s'.mem a = some ⟨1, mappedAs .normal a⟩ := by rw [leaf, planned, Option.map_some]
      exact confined.only a _ mapped (isNormal_mappedAs a)
  · intro plan
    refine ⟨fun a inside => ⟨1, ?_⟩, ⟨1, ?_⟩, fun a mapping mapped normal => (plan a).mpr ?_⟩
    · rw [leaf, (plan a).mp inside, Option.map_some]
    · rw [leaf, spPlan, if_pos (by decide), Option.map_some]
    · rw [leaf] at mapped
      obtain ⟨attr, planned, rfl⟩ := Option.map_eq_some_iff.mp mapped
      rcases spPlan_eq_some planned with rfl | rfl
      · exact planned
      · exact absurd normal (not_isNormal_device a)

/-- The SP that `build_sp_stage2` serves is confined exactly if its region consists of whole blocks. -/
theorem spConfined_iff (heap : BumpHeap s.heap next) (page : base.toNat % 4096 = 0) (positive : 0 < size.toNat)
    (baseBound : base.toNat < 2 ^ 39) (sizeBound : size.toNat < 2 ^ 39)
    (built : buildSpStage2 base size s = some (.ok mapper, s')) :
    SpConfined base size mapper s'.mem ↔ WholeBlocks base size := by
  constructor
  · intro confined
    have bound := bound_of_confined heap baseBound sizeBound built confined
    exact wholeBlocks_of_plan page positive bound ((spConfined_iff_plan heap bound built).mp confined)
  · intro blocks
    exact (spConfined_iff_plan heap blocks.bound built).mpr blocks.plan

end Built

/-- After `heap::init_at` the bump pointer is at the start of the heap. -/
theorem bumpHeap_initAt {s s' : Phys} {start size : U64} (bound : start.toNat + size.toNat ≤ 2 ^ 48)
    (run : s.initAt start size = some s') : BumpHeap s'.heap start.toNat := by
  obtain ⟨alloc, fresh, rfl⟩ := Option.map_eq_some_iff.mp run
  obtain ⟨endAddr, sum, fresh⟩ := Option.bind_eq_some_iff.mp fresh
  obtain rfl := Option.some.inj fresh
  exact ⟨_, rfl, rfl, rfl, (checkedAdd_eq_some_iff.mp sum).trans_le bound⟩

/-- The SPMC when it builds the tables of its first SP. -/
def secureBoot : Phys := ⟨fun _ => 0, some ⟨secureHeapStart, 0x0f000000, 0, 0⟩, 0⟩

theorem secureBoot_heap : BumpHeap secureBoot.heap secureHeapStart.toNat :=
  @bumpHeap_initAt secureBoot _ _ secureHeapSize (by decide) rfl

/-- An SP of one block, 1MB above where SP1 is loaded. -/
theorem spConfined_of_one_block : ∃ mapper s', buildSpStage2 0x0e400000 0x200000 secureBoot = some (.ok mapper, s') ∧
    SpConfined 0x0e400000 0x200000 mapper s'.mem := by
  refine ⟨_, _, rfl, ?_⟩
  refine (spConfined_iff secureBoot_heap (by decide) (by decide) (by decide) (by decide) rfl).mpr ?_
  exact ⟨by decide, by decide, by decide, by decide⟩

/-- SP1 has the megabyte below its region too. -/
theorem sp1_reaches_below_region :
    ∃ mapper s', buildSpStage2 sp1LoadAddr sp1MemSize secureBoot = some (.ok mapper, s') ∧
      spLeaf mapper s'.mem 0xe200 = some ⟨1, mappedAs .normal 0xe200⟩ ∧ ¬ InRegion (sp1LoadAddr, sp1MemSize) 0xe200 ∧
      ¬ SpConfined sp1LoadAddr sp1MemSize mapper s'.mem := by
  refine ⟨_, _, rfl, ?_⟩
  have mapped := @spLeaf_of_build sp1LoadAddr sp1MemSize _ _ _ _ secureBoot_heap (by decide) rfl 0xe200
  have outside : ¬ InRegion (sp1LoadAddr, sp1MemSize) 0xe200 := by decide
  refine ⟨mapped, outside, ?_⟩
  intro confined
  exact outside (confined.only _ _ mapped (isNormal_mappedAs _))

end Hypervisor
