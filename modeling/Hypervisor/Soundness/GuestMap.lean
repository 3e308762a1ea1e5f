import Hypervisor.Soundness.Isolation
import Hypervisor.Soundness.Mapping

/-! # What a guest can reach after boot

`init_memory` is meant to leave exactly this: the guest region without the heap as Normal memory, and
the GIC region without the emulated frames as device memory, each page mapped to itself.
`guest_map_exact_iff` says when it does. The mapper does not reach above 512GB, so a region that goes
further is mapped elsewhere, and so are frames that a device tree places there.
-/

namespace Hypervisor

/-- The pages of the GIC region. -/
abbrev InGic (a : ℕ) : Prop := InRegion (gicRegionBase, gicRegionSize) a

/-- The addresses of the pages of the emulated frames: 16 of the distributor and 32 of the
redistributor of each CPU. -/
def FrameAddr (info : PlatformInfo) (x : ℕ) : Prop :=
  (∃ i < 16, x = info.gicdBase.toNat + 4096 * i) ∨
    ∃ cpu < info.numCpus, ∃ i < 32, x = info.gicrBase.toNat + 0x20000 * cpu + 4096 * i

def Emulated (info : PlatformInfo) (a : ℕ) : Prop := ∃ x, FrameAddr info x ∧ x / 4096 = a

/-- Guest memory around the heap and the GIC region around the emulated frames are mapped, and
nothing else is. -/
def ExactMap (info : PlatformInfo) (start size : U64) (leaf : ℕ → Option Leaf) : Prop := ∀ a,
  (leaf a ≠ none ↔ InRegion (start, size) a ∧ ¬OnHeap a ∧ ¬InGic a ∨ InGic a ∧ ¬Emulated info a) ∧
    ∀ found, leaf a = some found → found.translation = mappedAs (if InGic a then .device else .normal) a

/-- Pages of the guest or of the GIC region that are unmapped for the frames are pages of the frames, in
the GIC region. -/
def FramesInGic (info : PlatformInfo) (start size : U64) : Prop := ∀ a ∈ framePages info.frames,
  InRegion (start, size) a ∧ ¬OnHeap a ∨ InGic a → InGic a ∧ Emulated info a

/-! ## Pages above 512GB -/

section High

variable {mapper mapper' : DynamicIdentityMapper} {s s' : Phys}

theorem eq_of_expectOk {α β : Type} {outcome : Except String α × β} {value : α} {state : β}
    (ok : expectOk outcome = some (value, state)) : outcome = (.ok value, state) := by
  obtain ⟨result, state'⟩ := outcome
  cases result with
  | error text => cases ok
  | ok value' =>
    cases ok
    rfl

theorem DynamicIdentityMapper.Sound.mapRegions (sound : mapper.Sound s) {attr : MemoryAttribute}
    {regions : List (U64 × U64)} (run : Hypervisor.mapRegions attr regions mapper s = some (mapper', s')) :
    mapper'.Sound s' := by
  induction regions generalizing mapper s with
  | nil =>
    cases run
    exact sound
  | cons region rest ih =>
    obtain ⟨outcome, run₁, run⟩ := Option.bind_eq_some_iff.mp run
    obtain ⟨⟨_, mapper₁, s₁⟩, ok, run⟩ := Option.bind_eq_some_iff.mp run
    obtain rfl := eq_of_expectOk ok
    exact ih (sound.call (.map (.mapRegion region.1 region.2 attr)) run₁) run

theorem DynamicIdentityMapper.Sound.unmapFrame (sound : mapper.Sound s) {base : U64} {count page : ℕ}
    (run : Hypervisor.unmapFrame mapper base count page s = some s') : mapper.Sound s' := by
  induction count generalizing page s with
  | zero =>
    cases run
    exact sound
  | succ count ih =>
    obtain ⟨addr, -, run⟩ := Option.bind_eq_some_iff.mp run
    obtain ⟨outcome, run₁, run⟩ := Option.bind_eq_some_iff.mp run
    obtain ⟨⟨_, s₁⟩, ok, run⟩ := Option.bind_eq_some_iff.mp run
    obtain rfl := eq_of_expectOk ok
    have called : (MapperCall.unmap4kbPage addr).run mapper s = some (.ok (), mapper, s₁) := by
      rw [MapperCall.run, run₁, Option.map_some]
    exact ih (sound.call _ called) run

theorem DynamicIdentityMapper.Sound.unmapFrames (sound : mapper.Sound s) {frames : List (Option U64 × ℕ)}
    (run : Hypervisor.unmapFrames mapper frames s = some s') : mapper.Sound s' := by
  induction frames generalizing s with
  | nil =>
    cases run
    exact sound
  | cons frame rest ih =>
    obtain ⟨base, -, run⟩ := Option.bind_eq_some_iff.mp run
    obtain ⟨s₁, run₁, run⟩ := Option.bind_eq_some_iff.mp run
    exact ih (sound.unmapFrame run₁) run

/-- The tables of a VM, whatever its region and frames, map nothing above 512GB. -/
theorem sound_of_buildTables {room : ℕ} {info : PlatformInfo} {start size l0Table : U64}
    (heap : HeapSound s.heap s.mem (fun _ => False) room) (run : buildTables info start size s = some (l0Table, s')) :
    ∃ mapper : DynamicIdentityMapper, mapper.Sound s' ∧ mapper.l0Table = l0Table := by
  obtain ⟨⟨mapper₀, s₀⟩, new, run⟩ := Option.bind_eq_some_iff.mp run
  obtain ⟨regions, -, run⟩ := Option.bind_eq_some_iff.mp run
  obtain ⟨⟨mapper₁, s₁⟩, run₁, run⟩ := Option.bind_eq_some_iff.mp run
  obtain ⟨⟨mapper₂, s₂⟩, run₂, run⟩ := Option.bind_eq_some_iff.mp run
  obtain ⟨s₃, run₃, run⟩ := Option.bind_eq_some_iff.mp run
  cases run
  exact ⟨mapper₂, (((sound_of_new heap new).1.mapRegions run₁).mapRegions run₂).unmapFrames run₃, rfl⟩

theorem DynamicIdentityMapper.Sound.heapPage (sound : mapper.Sound s) : HeapPage mapper.l0Table := by
  obtain ⟨root, v, room, drives, -⟩ := sound
  obtain ⟨role, tables⟩ := drives.tables
  rw [← drives.l0]
  exact tables.page (tables.roots v drives.booted)

/-- `init_memory` leaves the pages above 512GB unmapped. -/
theorem view_high_of_initMemory {m m' : Machine} (wf : m.Wf) {vm vm' : Vm} (fresh : vm.memoryInitialized = false)
    {info : PlatformInfo} {start size : U64} (run : vm.initMemory info start size m = some (vm', m')) {a : ℕ}
    (high : 2 ^ 27 ≤ a) : m'.view vm.id a = none := by
  obtain ⟨⟨role, room, tables⟩, -⟩ := wf
  have heap : HeapSound m.phys.heap m.phys.mem (fun _ => False) room := tables.heap.mono fun _ unused => unused.elim
  rw [Vm.initMemory, fresh, if_neg Bool.false_ne_true] at run
  obtain ⟨sum, -, run⟩ := Option.bind_eq_some_iff.mp run
  obtain ⟨rounded, -, run⟩ := Option.bind_eq_some_iff.mp run
  obtain ⟨⟨l0Table, phys⟩, built, run⟩ := Option.bind_eq_some_iff.mp run
  obtain ⟨mapper, sound, rfl⟩ := sound_of_buildTables heap built
  cases run
  have page := sound.heapPage
  obtain ⟨-, -, -, -, empty⟩ := sound
  have gone := empty a high
  rw [Machine.view, view]
  simp only [Function.update_self, vttbrWithVmid_and_pteAddrMask page.table]
  split_ifs with served
  · rwa [DynamicIdentityMapper.leaf, if_pos served.2] at gone
  · rfl

end High

/-! ## Regions below 512GB -/

theorem framePage_of_lt {base : U64} {i : ℕ} (bound : base.toNat + 4096 * i < 2 ^ 39) :
    framePage base i = (base.toNat + 4096 * i) / 4096 := by
  have sum : (base + BitVec.ofNat 64 i * pageSize4kb).toNat = base.toNat + 4096 * i := by
    rw [BitVec.toNat_add, BitVec.toNat_mul, BitVec.toNat_ofNat, show pageSize4kb.toNat = 4096 by decide]
    omega
  rw [framePage, unmapTarget_of_lt (by omega), sum]

theorem gicrRdBase_of_lt {info : PlatformInfo} {cpu : ℕ} (bound : info.gicrBase.toNat + 0x20000 * cpu < 2 ^ 39) :
    ∃ base, info.gicrRdBase cpu = some base ∧ base.toNat = info.gicrBase.toNat + 0x20000 * cpu := by
  have offset : (BitVec.ofNat 64 cpu * (0x20000 : U64)).toNat = 0x20000 * cpu := by
    rw [BitVec.toNat_mul, BitVec.toNat_ofNat, show (0x20000 : U64).toNat = 0x20000 by decide]
    omega
  refine ⟨_, checkedAdd_of_lt (by omega), ?_⟩
  rw [BitVec.toNat_add, offset]
  omega

theorem mem_framePages_iff {info : PlatformInfo} {a : ℕ} : a ∈ framePages info.frames ↔
    (∃ i < 16, framePage info.gicdBase i = a) ∨
      ∃ cpu < info.numCpus, ∃ base, info.gicrRdBase cpu = some base ∧ ∃ i < 32, framePage base i = a := by
  have frame : ∀ (base : Option U64) (count : ℕ),
      a ∈ base.elim [] (fun base => (List.range count).map (framePage base)) ↔
        ∃ found, base = some found ∧ ∃ i < count, framePage found i = a := by
    intro base count
    cases base <;> simp
  simp only [framePages, PlatformInfo.frames, List.flatMap_cons, List.mem_append, List.flatMap_map, List.mem_flatMap,
    List.mem_range, frame, Option.some.injEq, exists_eq_left']

/-- The frames of the GIC region are unmapped. -/
theorem mem_framePages_of_emulated {info : PlatformInfo} {a : ℕ} (emulated : Emulated info a) (low : a < 2 ^ 27) :
    a ∈ framePages info.frames := by
  rw [mem_framePages_iff]
  obtain ⟨x, ⟨i, index, rfl⟩ | ⟨cpu, online, i, index, rfl⟩, rfl⟩ := emulated
  · exact .inl ⟨i, index, framePage_of_lt (by omega)⟩
  · obtain ⟨base, known, sum⟩ := @gicrRdBase_of_lt info cpu (by omega)
    rw [← sum] at low ⊢
    exact .inr ⟨cpu, online, base, known, i, index, framePage_of_lt (by omega)⟩

theorem InGic.low {a : ℕ} (gic : InGic a) : a < 2 ^ 27 := by
  have last := gic.2
  rw [show gicRegionBase.toNat + gicRegionSize.toNat = 0x9000000 by decide] at last
  omega

theorem inGic_of_addr {x : ℕ} (above : 0x8000000 ≤ x) (below : x < 0x9000000) : InGic (x / 4096) := by
  have first : gicRegionBase.toNat = 0x8000000 := by decide
  have last : gicRegionBase.toNat + gicRegionSize.toNat = 0x9000000 := by decide
  constructor
  · dsimp only
    omega
  · dsimp only
    omega

/-- Frames that a device tree places in the GIC region. -/
theorem framesInGic_of_inside {info : PlatformInfo} {start size : U64}
    (gicd : 0x8000000 ≤ info.gicdBase.toNat ∧ info.gicdBase.toNat + 0x10000 ≤ 0x9000000)
    (gicr : 0x8000000 ≤ info.gicrBase.toNat ∧ info.gicrBase.toNat + 0x20000 * info.numCpus ≤ 0x9000000) :
    FramesInGic info start size := by
  intro a frame _
  rcases mem_framePages_iff.mp frame with ⟨i, index, rfl⟩ | ⟨cpu, online, base, known, i, index, rfl⟩
  · rw [framePage_of_lt (by omega)]
    exact ⟨inGic_of_addr (by omega) (by omega), _, .inl ⟨i, index, rfl⟩, rfl⟩
  · obtain ⟨base', known', sum⟩ := @gicrRdBase_of_lt info cpu (by omega)
    obtain rfl := Option.some.inj (known'.symm.trans known)
    rw [framePage_of_lt (by omega), sum]
    exact ⟨inGic_of_addr (by omega) (by omega), _, .inr ⟨cpu, online, i, index, rfl⟩, rfl⟩

/-- A leaf that is planned with one attribute, or not at all. -/
theorem Planned.exact {attr : Option MemoryAttribute} {a : ℕ} {leaf : Option Leaf} {mapped : Prop} {only : MemoryAttribute}
    (planned : Planned attr a leaf) (known : attr ≠ none ↔ mapped) (same : ∀ found, attr = some found → found = only) :
    (leaf ≠ none ↔ mapped) ∧ ∀ found, leaf = some found → found.translation = mappedAs only a := by
  refine ⟨planned.eq_none_iff.not.trans known, ?_⟩
  rintro found rfl
  cases attr with
  | none => cases planned
  | some attr =>
    obtain ⟨h, -, found_eq⟩ := planned
    obtain rfl := Option.some.inj found_eq
    rw [same attr rfl]

/-- Tables that follow the boot plan are exact if the frames lie in the GIC region. -/
theorem exactMap_iff {info : PlatformInfo} {start size : U64} {leaf : ℕ → Option Leaf}
    (planned : ∀ a, Planned (bootPlan info start size a) a (leaf a)) :
    ExactMap info start size leaf ↔ FramesInGic info start size := by
  constructor
  · intro exactly a frame asked
    have gone : leaf a = none := (planned a).eq_none_iff.mpr (if_pos frame)
    have unmapped := (exactly a).1.not.mp (not_not.mpr gone)
    obtain ⟨notRam, notGic⟩ := not_or.mp unmapped
    have gic : InGic a := by
      by_contra outside
      rcases asked with ⟨ram, heap⟩ | gic
      · exact notRam ⟨ram, heap, outside⟩
      · exact outside gic
    exact ⟨gic, by_contra fun other => notGic ⟨gic, other⟩⟩
  · intro inside a
    have notFrame : InGic a → Emulated info a → a ∈ framePages info.frames :=
      fun gic emulated => mem_framePages_of_emulated emulated gic.low
    have asked := inside a
    refine (planned a).exact ?_ fun found => ?_
    · rw [bootPlan]
      split_ifs with frame gic ram <;> grind
    · rw [bootPlan]
      split_ifs with frame gic ram <;> grind

/-- An empty region is mapped nowhere, wherever it starts. -/
theorem buildTables_empty (info : PlatformInfo) (start : U64) (s : Phys) :
    buildTables info start 0 s = buildTables info 0 0 s := by
  have regions : ∀ start : U64, guestRegions start 0 = some [(start, 0)] := by
    intro start
    have last : checkedAdd heapStart heapSize = some 0x42000000 := by decide
    have same : checkedAdd start 0 = some start := by
      rw [checkedAdd_of_lt (by simp [start.isLt])]
      exact congrArg some (BitVec.add_zero start)
    rw [guestRegions, bind_of_eq_some _ last, bind_of_eq_some _ same]
    refine if_neg ?_
    simp only [BitVec.lt_def]
    split_ifs <;> omega
  rw [buildTables, buildTables, regions, regions]
  rfl

theorem alignedRegion_of_aligned {start size : U64} (aligned : start.toNat % 2 ^ 21 = 0) (whole : size.toNat % 2 ^ 21 = 0)
    (bound : start.toNat + size.toNat ≤ 2 ^ 39) :
    Addressable start size ∧ alignedRegion start size = (start, size) := by
  have addressable : Addressable start size := by
    rw [Addressable]
    omega
  refine ⟨addressable, Prod.ext (BitVec.eq_of_toNat_eq ?_) (BitVec.eq_of_toNat_eq ?_)⟩
  · rw [alignedRegion, show blockMask2mb = BitVec.mask 0 21 by decide, BitVec.toNat_and_not_mask]
    dsimp only
    omega
  · rw [alignedRegion, BitVec.toNat_mul, BitVec.toNat_udiv, (checkedSize_eq addressable).2,
      show blockSize2mb.toNat = 2 ^ 21 by decide]
    dsimp only
    omega

section Boot

variable {m m' : Machine} {vm vm' : Vm} {info : PlatformInfo} {start size : U64}

/-- A region below 512GB is mapped after the boot plan. -/
theorem planned_of_initMemory (wf : m.Wf) (fresh : vm.memoryInitialized = false)
    (aligned : start.toNat % 2 ^ 21 = 0) (whole : size.toNat % 2 ^ 21 = 0)
    (low : size = 0 ∨ start.toNat + size.toNat ≤ 2 ^ 39) (run : vm.initMemory info start size m = some (vm', m')) (a : ℕ) :
    Planned (bootPlan info start size a) a (m'.view vm.id a) := by
  have bounded : ∀ {start size : U64}, start.toNat % 2 ^ 21 = 0 → size.toNat % 2 ^ 21 = 0 →
      start.toNat + size.toNat ≤ 2 ^ 39 → vm.initMemory info start size m = some (vm', m') →
      Planned (bootPlan info start size a) a (m'.view vm.id a) := by
    intro start size aligned whole bound run
    obtain ⟨addressable, same⟩ := alignedRegion_of_aligned aligned whole bound
    have planned := (boots_of_initMemory wf fresh addressable run).pages a
    rwa [initPlan, same] at planned
  rcases low with rfl | bound
  · have plan : bootPlan info start 0 a = bootPlan info 0 0 a := by
      have nowhere : ∀ start : U64, ¬InRegion (start, 0) a := by
        rintro start ⟨above, below⟩
        dsimp only at above below
        rw [show (0 : U64).toNat = 0 by decide] at below
        omega
      simp only [bootPlan, nowhere, false_and, if_false]
    have here : start &&& ~~~blockMask2mb = start := by
      refine BitVec.eq_of_toNat_eq ?_
      rw [show blockMask2mb = BitVec.mask 0 21 by decide, BitVec.toNat_and_not_mask]
      omega
    rw [plan]
    refine bounded (by decide) (by decide) (by decide) ?_
    have added : checkedAdd (0 : U64) blockSize2mb = some blockSize2mb := by decide
    have shrunk : checkedSub blockSize2mb 1 = some (blockSize2mb - 1) := by decide
    have zero : (blockSize2mb - 1) / blockSize2mb * blockSize2mb = 0 := by decide
    have origin : (0 : U64) &&& ~~~blockMask2mb = 0 := by decide
    rw [← run]
    simp only [Vm.initMemory, here, origin, added, shrunk, Option.bind_eq_bind, Option.bind_some, zero,
      buildTables_empty info start]
  · exact bounded aligned whole bound run

/-- A VM with a region in whole 2MB blocks gets exactly the map that is meant for it, if and only if
the region lies below 512GB, or is empty, and the emulated frames lie in the GIC region. -/
theorem guest_map_exact_iff (wf : m.Wf) (fresh : vm.memoryInitialized = false) (aligned : start.toNat % 2 ^ 21 = 0)
    (whole : size.toNat % 2 ^ 21 = 0) (run : vm.initMemory info start size m = some (vm', m')) :
    ExactMap info start size (m'.view vm.id) ↔
      (size = 0 ∨ start.toNat + size.toNat ≤ 2 ^ 39) ∧ FramesInGic info start size := by
  constructor
  · intro exactly
    have low : size = 0 ∨ start.toNat + size.toNat ≤ 2 ^ 39 := by
      by_contra beyond
      obtain ⟨nonempty, far⟩ := not_or.mp beyond
      have positive : size.toNat ≠ 0 := fun zero => nonempty (BitVec.eq_of_toNat_eq zero)
      -- the last page of the region is above 512GB, so it is not mapped
      have last := (exactly ((start.toNat + size.toNat) / 4096 - 1)).1.mpr (.inl ?_)
      · exact last (view_high_of_initMemory wf fresh run (by omega))
      · have heapEnds : heapStart.toNat + heapSize.toNat = 0x42000000 := by decide
        have gicEnds : gicRegionBase.toNat + gicRegionSize.toNat = 0x9000000 := by decide
        refine ⟨⟨?_, ?_⟩, fun heap => ?_, fun gic => ?_⟩
        · dsimp only
          omega
        · dsimp only
          omega
        · have above := heap.2
          dsimp only at above
          omega
        · have above := gic.2
          dsimp only at above
          omega
    exact ⟨low, (exactMap_iff (planned_of_initMemory wf fresh aligned whole low run)).mp exactly⟩
  · rintro ⟨low, frames⟩
    exact (exactMap_iff (planned_of_initMemory wf fresh aligned whole low run)).mpr frames

end Boot

/-- A platform with one CPU. -/
def oneCpu : PlatformInfo := { PlatformInfo.default with numCpus := 1 }

theorem guest_map_exact_iff_default : ∃ vm' m', (⟨0, false⟩ : Vm).initMemory .default 0x40000000 0x10000000 bareMachine =
    some (vm', m') ∧ ExactMap .default 0x40000000 0x10000000 (m'.view 0) := by
  have wf := bareMachine_bare.wf
  rcases initMemory_cases wf ⟨0, false⟩ rfl .default 0x40000000 0x10000000 (by decide) 0 with ⟨-, short⟩ | ⟨m', run, -, -⟩
  · exact absurd ⟨bareMachine_bare.canAlloc (by decide), by decide, frames_default⟩ short
  · refine ⟨_, m', run, (guest_map_exact_iff wf rfl (by decide) (by decide) run).mpr ⟨.inr (by decide), ?_⟩⟩
    exact framesInGic_of_inside (by decide) (by decide)

/-- A guest at 512GB: the boot completes and none of its memory is mapped. -/
theorem guest_at_512gb_not_mapped : ∃ vm' m', (⟨0, false⟩ : Vm).initMemory oneCpu (1 <<< 39) 0x200000 bareMachine =
    some (vm', m') ∧ ¬ExactMap oneCpu (1 <<< 39) 0x200000 (m'.view 0) := by
  have runs : ((⟨0, false⟩ : Vm).initMemory oneCpu (1 <<< 39) 0x200000 bareMachine).isSome = true := by decide +kernel
  obtain ⟨⟨vm', m'⟩, run⟩ := Option.isSome_iff_exists.mp runs
  refine ⟨vm', m', run, fun exactly => ?_⟩
  have mapped := (exactly (2 ^ 27)).1.mpr (.inl (by decide))
  exact mapped (view_high_of_initMemory bareMachine_bare.wf rfl run le_rfl)

end Hypervisor
