import Hypervisor.Proofs.Boot
import Hypervisor.Soundness.SingleWriter
import Mathlib.Order.Interval.Finset.Nat

/-! # What the guests map after boot

The boot plans decide which physical pages a guest reaches before any call. The regions of the two
guests overlap, so VM 0 maps all RAM of VM 1. The heap is left out of the region of a guest, but the
image of the hypervisor is not.
-/

namespace Hypervisor

namespace Machine

/-- VM `v` maps physical page `p`. -/
def Maps (m : Machine) (v : VmId) (p : ℕ) : Prop :=
  ∃ a leaf, m.view v a = some leaf ∧ leaf.translation.output = pageAddr p

/-- VM `v` maps physical page `p` as Normal memory. -/
def MapsNormal (m : Machine) (v : VmId) (p : ℕ) : Prop :=
  ∃ a leaf, m.view v a = some leaf ∧ leaf.translation.output = pageAddr p ∧ leaf.translation.isNormal = true

/-- The tables of VM `v` map what a plan says. -/
def Follows (m : Machine) (v : VmId) (plan : Plan) : Prop := ∀ a, Planned (plan a) a (m.view v a)

/-- A physical page is reached from its own page number only, as planned for it. -/
theorem Follows.exists_leaf_iff {m : Machine} {v : VmId} {plan : Plan} (follows : m.Follows v plan) {p : ℕ}
    (bound : p < 2 ^ 36) (Q : Translation → Prop) :
    (∃ a leaf, m.view v a = some leaf ∧ leaf.translation.output = pageAddr p ∧ Q leaf.translation) ↔
      ∃ attr, plan p = some attr ∧ Q (mappedAs attr p) := by
  constructor
  · rintro ⟨a, leaf, mapped, output, holds⟩
    have planned := follows a
    cases plan_a : plan a with
    | none =>
      rw [plan_a] at planned
      exact nomatch mapped.symm.trans planned
    | some attr =>
      rw [plan_a] at planned
      obtain ⟨h, -, leaf_eq⟩ := planned
      obtain rfl := Option.some.inj (mapped.symm.trans leaf_eq)
      obtain rfl : a = p := pageAddr_injective a (lt_of_view mapped) bound output
      exact ⟨attr, plan_a, holds⟩
  · rintro ⟨attr, plan_p, holds⟩
    have planned := follows p
    rw [plan_p] at planned
    obtain ⟨h, -, mapped⟩ := planned
    exact ⟨p, _, mapped, rfl, holds⟩

end Machine

/-- Guest RAM after boot: the region without the heap and without the emulated frames. -/
theorem bootPlan_eq_normal_iff {info : PlatformInfo} {start size : U64} {a : ℕ} :
    bootPlan info start size a = some .normal ↔
      (InRegion (start, size) a ∧ ¬OnHeap a) ∧ ¬InRegion (gicRegionBase, gicRegionSize) a ∧
        a ∉ framePages info.frames := by
  rw [bootPlan]
  split_ifs with frame gic ram <;> simp [*]

/-- Nothing is mapped outside of the region and the GIC, and neither are the heap and the frames. -/
theorem bootPlan_eq_none_iff {info : PlatformInfo} {start size : U64} {a : ℕ} :
    bootPlan info start size a = none ↔
      ¬(InRegion (start, size) a ∧ ¬OnHeap a) ∧ ¬InRegion (gicRegionBase, gicRegionSize) a ∨
        a ∈ framePages info.frames := by
  rw [bootPlan]
  split_ifs with frame gic ram <;> simp [*]

/-- Boot maps nothing read-only. -/
theorem bootPlan_cases (info : PlatformInfo) (start size : U64) (a : ℕ) :
    bootPlan info start size a = none ∨ bootPlan info start size a = some .device ∨
      bootPlan info start size a = some .normal := by
  rw [bootPlan]
  split_ifs <;> simp

/-- Both guests follow their boot plans. -/
theorem runMultiVmGuests_follows {info : PlatformInfo} {m m' : Machine} (wf : m.Wf)
    (run : runMultiVmGuests info m = some m') :
    info.numCpus ≤ maxSmpCpus ∧
      m'.Follows 0 (initPlan info GuestConfig.linuxDefault.loadAddr GuestConfig.linuxDefault.memSize) ∧
      m'.Follows 1 (initPlan info GuestConfig.linuxVm1.loadAddr GuestConfig.linuxVm1.memSize) := by
  obtain ⟨vm0, new0, run⟩ := Option.bind_eq_some_iff.mp run
  obtain ⟨⟨_, m₁⟩, run0, run⟩ := Option.bind_eq_some_iff.mp run
  obtain ⟨vm1, new1, run⟩ := Option.bind_eq_some_iff.mp run
  obtain ⟨⟨_, m₂⟩, run1, run⟩ := Option.bind_eq_some_iff.mp run
  obtain rfl := Option.some.inj run
  rw [Vm.new] at new0 new1
  split_ifs at new0 new1 with fits
  obtain rfl := Option.some.inj new0
  obtain rfl := Option.some.inj new1
  have boots0 := boots_of_initMemory wf rfl (by decide) run0
  have boots1 := boots_of_initMemory boots0.wf rfl (by decide) run1
  refine ⟨fits, fun a => ?_, boots1.pages⟩
  change Planned _ a (m₂.view 0 a)
  rw [boots1.others 0 (by decide)]
  exact boots0.pages a

/-- The two guests boot if fourteen pages are left and the frames are in the first block of the GIC. -/
theorem exists_runMultiVmGuests {info : PlatformInfo} {m : Machine} (wf : m.Wf) (room : m.phys.canAlloc 14 = true)
    (cpus : info.numCpus ≤ maxSmpCpus) (frames : ∀ frame ∈ info.frames, FrameIn gicPage frame) :
    ∃ m', runMultiVmGuests info m = some m' := by
  have new : ∀ v, Vm.new info v = some ⟨v, false⟩ := fun _ => if_pos cpus
  rcases initMemory_cases wf ⟨0, false⟩ rfl info GuestConfig.linuxDefault.loadAddr
    GuestConfig.linuxDefault.memSize (by decide) 7 with ⟨-, short⟩ | ⟨m₁, run0, boots0, left⟩
  · exact absurd ⟨room, by decide, frames⟩ short
  rcases initMemory_cases boots0.wf ⟨1, false⟩ rfl info GuestConfig.linuxVm1.loadAddr
    GuestConfig.linuxVm1.memSize (by decide) 0 with ⟨-, short⟩ | ⟨m₂, run1, -, -⟩
  · exact absurd ⟨left room (by decide) frames, by decide, frames⟩ short
  rw [runMultiVmGuests, bind_of_eq_some _ (new 0), bind_of_eq_some _ run0]
  dsimp only
  rw [bind_of_eq_some _ (new 1), bind_of_eq_some _ run1]
  exact ⟨_, rfl⟩

/-- A guest maps the pages as Normal memory that its boot plan has as RAM. -/
theorem Machine.Follows.mapsNormal_iff {m : Machine} {v : VmId} {info : PlatformInfo} {start size : U64}
    (follows : m.Follows v (initPlan info start size)) {p : ℕ} (bound : p < 2 ^ 36) :
    m.MapsNormal v p ↔ initPlan info start size p = some .normal := by
  rw [MapsNormal, follows.exists_leaf_iff bound fun tr => tr.isNormal = true]
  have normal : ∀ attr, (mappedAs attr p).isNormal = true ↔ attr ≠ .device := by
    intro attr
    simp only [Translation.isNormal, mappedAs]
    cases attr <;> decide
  constructor
  · rintro ⟨attr, planned, memory⟩
    rw [normal] at memory
    rcases bootPlan_cases info (alignedRegion start size).1 (alignedRegion start size).2 p with none | device | ram
    · cases none.symm.trans planned
    · exact absurd (Option.some.inj (planned.symm.trans device)) memory
    · exact ram
  · intro ram
    exact ⟨.normal, ram, (normal _).mpr (by decide)⟩

theorem alignedRegion_linuxDefault :
    alignedRegion GuestConfig.linuxDefault.loadAddr GuestConfig.linuxDefault.memSize = (0x40000000, 0x48000000) := by
  decide

theorem alignedRegion_linuxVm1 :
    alignedRegion GuestConfig.linuxVm1.loadAddr GuestConfig.linuxVm1.memSize = (0x60000000, 0x18000000) := by
  decide

/-- The region of VM 1. -/
def InVm1 (p : ℕ) : Prop := InRegion (GuestConfig.linuxVm1.loadAddr, GuestConfig.linuxVm1.memSize) p

theorem inVm1_iff {p : ℕ} : InVm1 p ↔ 0x60000 ≤ p ∧ p < 0x78000 := by
  rw [InVm1, InRegion, show GuestConfig.linuxVm1.loadAddr.toNat = 0x60000000 by decide,
    show GuestConfig.linuxVm1.memSize.toNat = 0x18000000 by decide]
  omega

theorem onHeap_iff {p : ℕ} : OnHeap p ↔ 0x41000 ≤ p ∧ p < 0x42000 := by
  rw [OnHeap, InRegion, show heapStart.toNat = 0x41000000 by decide, show heapSize.toNat = 0x1000000 by decide]
  omega

theorem inGic_iff {p : ℕ} : InRegion (gicRegionBase, gicRegionSize) p ↔ 0x8000 ≤ p ∧ p < 0x9000 := by
  rw [InRegion, show gicRegionBase.toNat = 0x8000000 by decide, show gicRegionSize.toNat = 0x1000000 by decide]
  omega

theorem length_framePages_le (frames : List (Option U64 × ℕ)) :
    (framePages frames).length ≤ (frames.map Prod.snd).sum := by
  induction frames with
  | nil => exact le_rfl
  | cons frame rest ih =>
    obtain ⟨base, count⟩ := frame
    have split : framePages ((base, count) :: rest) =
        (base.elim [] fun base => (List.range count).map (framePage base)) ++ framePages rest := List.flatMap_cons
    have first : (base.elim [] fun base => (List.range count).map (framePage base)).length ≤ count := by
      cases base <;> simp
    rw [split, List.length_append, List.map_cons, List.sum_cons]
    omega

/-- The emulated frames are few pages. -/
theorem length_frames_le {info : PlatformInfo} (cpus : info.numCpus ≤ maxSmpCpus) :
    (framePages info.frames).length ≤ 272 := by
  refine (length_framePages_le _).trans ?_
  rw [maxSmpCpus] at cpus
  simp only [PlatformInfo.frames, List.map_cons, List.map_map, List.sum_cons, Function.comp_def, List.map_const',
    List.length_range, List.sum_replicate_nat]
  omega

/-- The board before boot, with memory cleared. -/
def bareMachine : Machine where
  phys := ⟨fun _ => 0, BumpAllocator.new heapStart heapSize, 0⟩
  vmVttbr _ := 0
  perVmVttbr _ := 0
  currentVmId := 0
  vttbrEl2 := 0
  spmc := .init
  mailboxes _ := .new

theorem bareMachine_bare : bareMachine.Bare := ⟨rfl, fun _ => rfl, fun _ => rfl, by decide⟩

/-- The frames of the default platform are in the first block of the GIC. -/
theorem frames_default : ∀ frame ∈ PlatformInfo.default.frames, FrameIn gicPage frame := by decide

theorem exists_guests : ∃ m', runMultiVmGuests .default bareMachine = some m' :=
  exists_runMultiVmGuests bareMachine_bare.wf (bareMachine_bare.canAlloc (by decide)) (by decide) frames_default

/-- VM 0 and VM 1 both map a page as Normal memory exactly when it is in the region of VM 1 and is not
one of the emulated GIC frames. There are such pages whatever the device tree says. -/
theorem guests_share_ram {info : PlatformInfo} {m m' : Machine} (wf : m.Wf)
    (run : runMultiVmGuests info m = some m') :
    (∀ p < 2 ^ 36, m'.MapsNormal 0 p ∧ m'.MapsNormal 1 p ↔ InVm1 p ∧ p ∉ framePages info.frames) ∧
      ¬∀ p < 2 ^ 36, ¬(m'.MapsNormal 0 p ∧ m'.MapsNormal 1 p) := by
  obtain ⟨cpus, follows0, follows1⟩ := runMultiVmGuests_follows wf run
  have both : ∀ p < 2 ^ 36, m'.MapsNormal 0 p ∧ m'.MapsNormal 1 p ↔ InVm1 p ∧ p ∉ framePages info.frames := by
    intro p bound
    rw [follows0.mapsNormal_iff bound, follows1.mapsNormal_iff bound, initPlan, initPlan, alignedRegion_linuxDefault,
      alignedRegion_linuxVm1, bootPlan_eq_normal_iff, bootPlan_eq_normal_iff]
    rw [onHeap_iff, inGic_iff, inVm1_iff, InRegion, InRegion,
      show (0x40000000 : U64).toNat = 0x40000000 by decide, show (0x48000000 : U64).toNat = 0x48000000 by decide,
      show (0x60000000 : U64).toNat = 0x60000000 by decide, show (0x18000000 : U64).toNat = 0x18000000 by decide]
    constructor
    · rintro ⟨-, ⟨region, -⟩, -, kept⟩
      exact ⟨by omega, kept⟩
    · rintro ⟨region, kept⟩
      exact ⟨⟨⟨by omega, by omega⟩, by omega, kept⟩, ⟨by omega, by omega⟩, by omega, kept⟩
  refine ⟨both, fun apart => ?_⟩
  have few : (framePages info.frames).toFinset.card < (Finset.Ico 0x60000 0x78000).card := by
    rw [Nat.card_Ico]
    have bound := length_frames_le cpus
    have card := List.toFinset_card_le (framePages info.frames)
    omega
  obtain ⟨p, ram, emulated⟩ := Finset.exists_mem_notMem_of_card_lt_card few
  rw [List.mem_toFinset] at emulated
  rw [Finset.mem_Ico] at ram
  exact apart p (by omega) ((both p (by omega)).mpr ⟨inVm1_iff.mpr ram, emulated⟩)

theorem guests_share_ram_bareMachine : ∃ m', runMultiVmGuests .default bareMachine = some m' ∧
    (m'.MapsNormal 0 0x77FFF ∧ m'.MapsNormal 1 0x77FFF) ∧ ¬(m'.MapsNormal 0 0x78000 ∧ m'.MapsNormal 1 0x78000) := by
  obtain ⟨m', run⟩ := exists_guests
  obtain ⟨both, -⟩ := guests_share_ram bareMachine_bare.wf run
  refine ⟨m', run, (both 0x77FFF (by decide)).mpr ⟨inVm1_iff.mpr (by decide), by decide⟩, fun shared => ?_⟩
  have outside := inVm1_iff.mp ((both 0x78000 (by decide)).mp shared).1
  exact absurd outside (by decide)

/-- The first page of the RAM of VM 1 is RAM of VM 0 too. -/
theorem vm0_maps_ram_of_vm1 : ∃ m', runMultiVmGuests .default bareMachine = some m' ∧
    m'.MapsNormal 0 0x60000 ∧ m'.MapsNormal 1 0x60000 := by
  obtain ⟨m', run⟩ := exists_guests
  obtain ⟨-, follows0, follows1⟩ := runMultiVmGuests_follows bareMachine_bare.wf run
  exact ⟨m', run, (follows0.mapsNormal_iff (by decide)).mpr (by decide),
    (follows1.mapsNormal_iff (by decide)).mpr (by decide)⟩

/-! ## The pages of the hypervisor -/

/-- Where `linker.ld` places the image; where it ends is known to the linker only. -/
def imageBase : U64 := 0x40200000

/-- A page of the image or of the heap. -/
def HypervisorPage (imageEnd p : ℕ) : Prop := imageBase.toNat ≤ 4096 * p ∧ 4096 * p < imageEnd ∨ OnHeap p

section Follows

variable {m : Machine} {v : VmId} {info : PlatformInfo} {start size : U64} {p : ℕ}

theorem Machine.Follows.maps_iff (follows : m.Follows v (initPlan info start size)) (bound : p < 2 ^ 36) :
    m.Maps v p ↔ initPlan info start size p ≠ none := by
  have planned := follows.exists_leaf_iff bound fun _ => True
  simp only [and_true] at planned
  rw [Maps, planned, Option.ne_none_iff_exists']

/-- What is mapped at boot can be written. -/
theorem Machine.Follows.writes_iff (follows : m.Follows v (initPlan info start size)) (bound : p < 2 ^ 36) :
    m.Writes v p ↔ initPlan info start size p ≠ none := by
  rw [Writes, follows.exists_leaf_iff bound fun tr => tr.writable = true, Option.ne_none_iff_exists']
  constructor
  · rintro ⟨attr, planned, -⟩
    exact ⟨attr, planned⟩
  · rintro ⟨attr, planned⟩
    refine ⟨attr, planned, ?_⟩
    rcases bootPlan_cases info (alignedRegion start size).1 (alignedRegion start size).2 p with none | device | ram
    · exact nomatch none.symm.trans planned
    · obtain rfl := Option.some.inj (planned.symm.trans device)
      simp only [Translation.writable, mappedAs]
      decide
    · obtain rfl := Option.some.inj (planned.symm.trans ram)
      simp only [Translation.writable, mappedAs]
      decide

end Follows

/-- The Linux guest on the default platform. -/
theorem exists_linuxGuest : ∃ m', (⟨0, false⟩ : Vm).initMemory .default GuestConfig.linuxDefault.loadAddr
    GuestConfig.linuxDefault.memSize bareMachine = some (⟨0, true⟩, m') := by
  rcases initMemory_cases bareMachine_bare.wf ⟨0, false⟩ rfl .default GuestConfig.linuxDefault.loadAddr
    GuestConfig.linuxDefault.memSize (by decide) 0 with ⟨-, short⟩ | ⟨m', run, -, -⟩
  · exact absurd ⟨bareMachine_bare.canAlloc (by decide), by decide, frames_default⟩ short
  · exact ⟨m', run⟩

/-- A page of the hypervisor is out of reach of the Linux guest exactly when it is on the heap or is
one of the emulated GIC frames; all others can be written. -/
theorem hypervisor_page_protected {info : PlatformInfo} {m m' : Machine} {vm vm' : Vm} (wf : m.Wf)
    (fresh : vm.memoryInitialized = false)
    (run : vm.initMemory info GuestConfig.linuxDefault.loadAddr GuestConfig.linuxDefault.memSize m = some (vm', m'))
    {imageEnd p : ℕ} (layout : imageEnd ≤ heapStart.toNat) (own : HypervisorPage imageEnd p) :
    (¬m'.Maps vm.id p ↔ OnHeap p ∨ p ∈ framePages info.frames) ∧
      (¬m'.Writes vm.id p ↔ OnHeap p ∨ p ∈ framePages info.frames) := by
  have follows : m'.Follows vm.id _ := (boots_of_initMemory wf fresh (by decide) run).pages
  rw [show heapStart.toNat = 0x41000000 by decide] at layout
  rw [HypervisorPage, onHeap_iff, show imageBase.toNat = 0x40200000 by decide] at own
  have bound : p < 2 ^ 36 := by omega
  have planned : initPlan info GuestConfig.linuxDefault.loadAddr GuestConfig.linuxDefault.memSize p = none ↔
      OnHeap p ∨ p ∈ framePages info.frames := by
    rw [initPlan, alignedRegion_linuxDefault, bootPlan_eq_none_iff, onHeap_iff, inGic_iff, InRegion,
      show (0x40000000 : U64).toNat = 0x40000000 by decide, show (0x48000000 : U64).toNat = 0x48000000 by decide]
    refine or_congr_left ?_
    omega
  rw [follows.maps_iff bound, follows.writes_iff bound, not_not, planned]
  exact ⟨Iff.rfl, Iff.rfl⟩

theorem hypervisor_page_protected_bareMachine : ∃ m', (⟨0, false⟩ : Vm).initMemory .default
    GuestConfig.linuxDefault.loadAddr GuestConfig.linuxDefault.memSize bareMachine = some (⟨0, true⟩, m') ∧
      ¬m'.Maps 0 0x41000 ∧ m'.Maps 0 0x40FFF := by
  obtain ⟨m', run⟩ := exists_linuxGuest
  have layout : 0x41000000 ≤ heapStart.toNat := by decide
  have heap : HypervisorPage 0x41000000 0x41000 := .inr (by decide)
  have image : HypervisorPage 0x41000000 0x40FFF := .inl (by decide)
  refine ⟨m', run, ?_, ?_⟩
  · exact (hypervisor_page_protected bareMachine_bare.wf rfl run layout heap).1.mpr (.inl (by decide))
  · by_contra unmapped
    have absent := (hypervisor_page_protected bareMachine_bare.wf rfl run layout image).1.mp unmapped
    exact absurd absent (by decide)

/-- The first page of the image, which holds the boot code, can be written by the guest. -/
theorem guest_writes_image : ∃ m', (⟨0, false⟩ : Vm).initMemory .default GuestConfig.linuxDefault.loadAddr
    GuestConfig.linuxDefault.memSize bareMachine = some (⟨0, true⟩, m') ∧
      HypervisorPage 0x40201000 0x40200 ∧ m'.Maps 0 0x40200 ∧ m'.Writes 0 0x40200 := by
  obtain ⟨m', run⟩ := exists_linuxGuest
  have follows : m'.Follows 0 _ := (boots_of_initMemory bareMachine_bare.wf rfl (by decide) run).pages
  exact ⟨m', run, .inl (by decide), (follows.maps_iff (by decide)).mpr (by decide),
    (follows.writes_iff (by decide)).mpr (by decide)⟩

end Hypervisor
