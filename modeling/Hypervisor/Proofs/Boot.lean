import Hypervisor.Model.Vm
import Hypervisor.Proofs.Handlers
import Hypervisor.Proofs.Plan

/-! # The memory of a VM after boot

`init_memory` maps the guest region without the heap as Normal memory and the GIC region as device
memory, and unmaps the emulated GIC frames. `bootPlan` says which pages that leaves, and
`initMemory_spec` that the tables of the VM are exactly that, with everything else as before.
-/

namespace Hypervisor

open Radix

/-- Page `a` lies in a region. -/
def InRegion (region : U64 × U64) (a : ℕ) : Prop :=
  region.1.toNat ≤ 4096 * a ∧ 4096 * a < region.1.toNat + region.2.toNat

instance (region : U64 × U64) (a : ℕ) : Decidable (InRegion region a) := inferInstanceAs (Decidable (_ ∧ _))

/-- The pages of the hypervisor heap. -/
def OnHeap (a : ℕ) : Prop := InRegion (heapStart, heapSize) a

instance (a : ℕ) : Decidable (OnHeap a) := inferInstanceAs (Decidable (InRegion _ a))

theorem checkedSub_of_le {x y : U64} (le : y.toNat ≤ x.toNat) : checkedSub x y = some (x - y) := if_pos le

theorem toNat_sub_of_le {x y : U64} (le : y.toNat ≤ x.toNat) : (x - y).toNat = x.toNat - y.toNat :=
  BitVec.toNat_sub_of_le (BitVec.le_def.mpr le)

theorem regionBetween_spec {x y : U64} (alignedX : x.toNat % 2 ^ 21 = 0) (alignedY : y.toNat % 2 ^ 21 = 0)
    (bound : y.toNat ≤ 2 ^ 39) :
    ∃ regions, regionBetween x y = some regions ∧
      (∀ region ∈ regions, InBlocks region.1 region.2 ∧ region.1.toNat + region.2.toNat ≤ y.toNat) ∧
      ∀ a, (∃ region ∈ regions, InRegion region a) ↔ x.toNat ≤ 4096 * a ∧ 4096 * a < y.toNat := by
  by_cases below : x < y
  · have le : x.toNat ≤ y.toNat := (BitVec.lt_def.mp below).le
    have length := toNat_sub_of_le le
    refine ⟨[(x, y - x)], by rw [regionBetween, if_pos below, checkedSub_of_le le, Option.map_some], ?_, fun a => ?_⟩
    · rw [List.forall_mem_singleton]
      dsimp only
      exact ⟨⟨alignedX, by omega, by omega⟩, by omega⟩
    · simp only [List.exists_mem_cons_iff, List.not_mem_nil, false_and, exists_false, or_false, InRegion]
      omega
  · rw [BitVec.lt_def] at below
    refine ⟨[], if_neg (BitVec.lt_def.not.mpr below), fun _ member => absurd member List.not_mem_nil, fun a => ?_⟩
    simp only [List.not_mem_nil, false_and, exists_false, false_iff]
    omega

/-- The guest regions are the region without the heap. -/
theorem guestRegions_spec {start size : U64} (blocks : InBlocks start size) :
    ∃ regions, guestRegions start size = some regions ∧
      (∀ region ∈ regions, InBlocks region.1 region.2 ∧
        region.1.toNat + region.2.toNat ≤ start.toNat + size.toNat) ∧
      ∀ a, (∃ region ∈ regions, InRegion region a) ↔ InRegion (start, size) a ∧ ¬OnHeap a := by
  obtain ⟨aligned, whole, bound⟩ := blocks
  have low : heapStart.toNat = 0x41000000 := by decide
  have length : heapSize.toNat = 0x1000000 := by decide
  have last : checkedAdd heapStart heapSize = some 0x42000000 := by decide
  have high : (0x42000000 : U64).toNat = 0x42000000 := by decide
  have sum : (start + size).toNat = start.toNat + size.toNat := by
    rw [BitVec.toNat_add]
    omega
  rw [guestRegions, bind_of_eq_some _ last, bind_of_eq_some _ (checkedAdd_of_lt (by omega))]
  -- the overlap starts at the larger of the two starts and ends at the smaller of the two ends
  have larger : ∀ x : U64, x = (if start < heapStart then heapStart else start) →
      x.toNat = max start.toNat heapStart.toNat := by
    rintro x rfl
    split_ifs with less <;> rw [BitVec.lt_def] at less <;> omega
  have smaller : ∀ y : U64, y = (if (0x42000000 : U64) < start + size then 0x42000000 else start + size) →
      y.toNat = min (start.toNat + size.toNat) 0x42000000 := by
    rintro y rfl
    split_ifs with less <;> rw [BitVec.lt_def] at less <;> omega
  generalize (if start < heapStart then heapStart else start) = x at larger ⊢
  generalize (if (0x42000000 : U64) < start + size then (0x42000000 : U64) else start + size) = y at smaller ⊢
  have first := larger x rfl
  have final := smaller y rfl
  by_cases overlap : x < y
  · obtain ⟨left, leftRun, leftBlocks, leftPages⟩ := regionBetween_spec aligned (y := x) (by omega) (by omega)
    obtain ⟨right, rightRun, rightBlocks, rightPages⟩ := regionBetween_spec (x := y) (y := start + size) (by omega)
      (by omega) (by omega)
    rw [if_pos overlap, bind_of_eq_some _ leftRun, bind_of_eq_some _ rightRun]
    rw [BitVec.lt_def] at overlap
    rw [sum] at rightBlocks
    refine ⟨left ++ right, rfl, List.forall_mem_append.mpr ⟨fun region member => ?_, rightBlocks⟩, fun a => ?_⟩
    · obtain ⟨inBlocks, bound⟩ := leftBlocks region member
      exact ⟨inBlocks, by omega⟩
    · simp only [List.mem_append, or_and_right, exists_or, leftPages, rightPages]
      simp only [InRegion, OnHeap]
      omega
  · rw [if_neg overlap]
    refine ⟨[(start, size)], rfl, List.forall_mem_singleton.mpr ⟨⟨aligned, whole, bound⟩, le_rfl⟩, fun a => ?_⟩
    simp only [List.exists_mem_cons_iff, List.not_mem_nil, false_and, exists_false, or_false, InRegion, OnHeap]
    rw [BitVec.lt_def] at overlap
    omega

/-- The pages of regions get an attribute. -/
def Plan.regions (plan : Plan) (attr : MemoryAttribute) (regions : List (U64 × U64)) : Plan :=
  fun a => if ∃ region ∈ regions, InRegion region a then some attr else plan a

theorem Plan.regions_nil (plan : Plan) (attr : MemoryAttribute) : plan.regions attr [] = plan := by
  funext a
  exact if_neg (by simp)

theorem Plan.regions_cons (plan : Plan) (attr : MemoryAttribute) {ipa size : U64} (rest : List (U64 × U64))
    (blocks : InBlocks ipa size) : plan.regions attr ((ipa, size) :: rest) =
      (plan.fill (ipa.toNat / 4096) (size.toNat / 4096) attr).regions attr rest := by
  obtain ⟨aligned, whole, -⟩ := blocks
  funext a
  have here : InRegion (ipa, size) a ↔
      ipa.toNat / 4096 ≤ a ∧ a < ipa.toNat / 4096 + size.toNat / 4096 := by
    simp only [InRegion]
    omega
  simp only [Plan.regions, Plan.fill, List.exists_mem_cons_iff, here]
  by_cases first : ipa.toNat / 4096 ≤ a ∧ a < ipa.toNat / 4096 + size.toNat / 4096
  · simp only [first, true_or, if_true, and_self, ite_self]
  · simp only [first, false_or, if_false]

section Build

variable {root : VmId → U64} {v : VmId} {W : View} {mapper mapper' : DynamicIdentityMapper} {s s' : Phys} {plan : Plan}
  {room : ℕ}

/-- Mapping regions panics, or maps their pages. It does not panic in the first 4GB if the tables fit. -/
theorem Builds.mapRegions (builds : Builds root v W mapper s plan room) (spare : ℕ) (attr : MemoryAttribute)
    {regions : List (U64 × U64)} (blocks : ∀ region ∈ regions, InBlocks region.1 region.2) :
    Hypervisor.mapRegions attr regions mapper s = none ∧
        ¬(Fits mapper s room spare ∧ ∀ region ∈ regions, region.1.toNat + region.2.toNat ≤ 2 ^ 32) ∨
      ∃ mapper' s' room', Hypervisor.mapRegions attr regions mapper s = some (mapper', s') ∧
        Builds root v W mapper' s' (plan.regions attr regions) room' ∧
        (Fits mapper s room spare → (∀ region ∈ regions, region.1.toNat + region.2.toNat ≤ 2 ^ 32) →
          Fits mapper' s' room' spare) := by
  induction regions generalizing mapper s plan room with
  | nil =>
    rw [Plan.regions_nil]
    exact .inr ⟨mapper, s, room, rfl, builds, fun fits _ => fits⟩
  | cons region rest ih =>
    obtain ⟨ipa, size⟩ := region
    obtain ⟨here, blocks⟩ := List.forall_mem_cons.mp blocks
    obtain ⟨result, mapper₁, s₁, room₁, mapped, good, enough⟩ := builds.mapRegion spare attr here
    rw [Hypervisor.mapRegions, bind_of_eq_some _ mapped, Plan.regions_cons plan attr rest here, List.forall_mem_cons]
    cases result with
    | error text =>
      refine .inl ⟨rfl, fun ready => ?_⟩
      exact nomatch (enough ready.1 ready.2.1).1
    | ok =>
      have fits : Fits mapper s room spare → ipa.toNat + size.toNat ≤ 2 ^ 32 → Fits mapper₁ s₁ room₁ spare :=
        fun fits low => (enough fits low).2
      rcases ih (good rfl) blocks with ⟨panics, short⟩ | ⟨mapper', s', room', run, built, kept⟩
      · exact .inl ⟨panics, fun ready => short ⟨fits ready.1 ready.2.1, ready.2.2⟩⟩
      · exact .inr ⟨mapper', s', room', run, built, fun ready low => kept (fits ready low.1) low.2⟩

/-- The page that `unmap_4kb_page` removes for page `i` of a frame. -/
def framePage (base : U64) (i : ℕ) : ℕ := unmapTarget (base + BitVec.ofNat 64 i * pageSize4kb)

theorem Plan.without_nil (plan : Plan) : plan.without [] = plan := by
  funext a
  exact if_neg List.not_mem_nil

theorem Plan.without_append (plan : Plan) (front back : List ℕ) :
    plan.without (front ++ back) = (plan.without front).without back := by
  funext a
  simp only [Plan.without, List.mem_append]
  by_cases last : a ∈ back
  · simp only [last, or_true, if_true]
  · simp only [last, or_false, if_false]

/-- Readiness is a matter of the block. -/
theorem ready_congr {spare a b : ℕ} (same : a / 512 = b / 512) :
    Ready root v s plan room spare a ↔ Ready root v s plan room spare b := by
  have tables : HasL3 root v s a ↔ HasL3 root v s b := by
    rw [HasL3, HasL3, tableAt_congr (by simpa using same)]
  rw [Ready, Ready, tables, same]

/-- Unmapping a frame panics, or removes its pages. It does not panic if they lie in a block that is
ready. -/
theorem Builds.unmapFrame (builds : Builds root v W mapper s plan room) (spare : ℕ) (base : U64) (count page c : ℕ) :
    Hypervisor.unmapFrame mapper base count page s = none ∧
        ¬(Ready root v s plan room spare c ∧ base.toNat + 4096 * (page + count) < 2 ^ 64 ∧
          ∀ i ∈ List.range' page count, framePage base i / 512 = c / 512) ∨
      ∃ s' room', Hypervisor.unmapFrame mapper base count page s = some s' ∧
        Builds root v W mapper s' (plan.without ((List.range' page count).map (framePage base))) room' ∧
        (Ready root v s plan room spare c → (∀ i ∈ List.range' page count, framePage base i / 512 = c / 512) →
          Ready root v s' (plan.without ((List.range' page count).map (framePage base))) room' spare c) := by
  induction count generalizing page s plan room with
  | zero =>
    rw [List.range'_zero, List.map_nil, Plan.without_nil]
    exact .inr ⟨s, room, rfl, builds, fun ready _ => ready⟩
  | succ count ih =>
    rw [Hypervisor.unmapFrame, List.range'_succ, List.map_cons, List.forall_mem_cons,
      ← List.singleton_append, Plan.without_append]
    by_cases inRange : base.toNat + (BitVec.ofNat 64 page * pageSize4kb).toNat < 2 ^ 64
    · obtain ⟨result, s₁, room₁, run, good, enough⟩ :=
        builds.unmap4kbPage spare (base + BitVec.ofNat 64 page * pageSize4kb)
      rw [bind_of_eq_some _ (checkedAdd_of_lt inRange), bind_of_eq_some _ run]
      cases result with
      | error text =>
        refine .inl ⟨rfl, ?_⟩
        rintro ⟨ready, -, here, -⟩
        exact nomatch (enough ((ready_congr here).mpr ready)).1
      | ok =>
        obtain ⟨builds₁, table⟩ := good rfl
        have ready₁ : Ready root v s plan room spare c → framePage base page / 512 = c / 512 →
            Ready root v s₁ (plan.without [framePage base page]) room₁ spare c :=
          fun ready here => (ready_congr here).mp (.inl ⟨table, (enough ((ready_congr here).mpr ready)).2⟩)
        rcases ih builds₁ (page + 1) with ⟨panics, unready⟩ | ⟨s', room', run', built, kept⟩
        · refine .inl ⟨panics, ?_⟩
          rintro ⟨ready, bound, here, rest⟩
          exact unready ⟨ready₁ ready here, by omega, rest⟩
        · exact .inr ⟨s', room', run', built, fun ready inside => kept (ready₁ ready inside.1) inside.2⟩
    · refine .inl ⟨?_, fun ready => inRange ?_⟩
      · rw [checkedAdd, if_neg inRange]
        rfl
      · obtain ⟨-, bound, -⟩ := ready
        rw [BitVec.toNat_mul, BitVec.toNat_ofNat, show pageSize4kb.toNat = 4096 by decide]
        omega

/-- The pages removed for a list of frames. -/
def framePages (frames : List (Option U64 × ℕ)) : List ℕ :=
  frames.flatMap fun (base, count) => base.elim [] fun base => (List.range count).map (framePage base)

/-- A frame in the block of page `c`. -/
def FrameIn (c : ℕ) (frame : Option U64 × ℕ) : Prop :=
  ∃ base, frame.1 = some base ∧ base.toNat + 4096 * frame.2 < 2 ^ 64 ∧
    ∀ i ∈ List.range frame.2, framePage base i / 512 = c / 512

instance (c : ℕ) : DecidablePred (FrameIn c)
  | (none, _) => isFalse fun ⟨_, known, _⟩ => nomatch known
  | (some base, count) =>
    decidable_of_iff (base.toNat + 4096 * count < 2 ^ 64 ∧ ∀ i ∈ List.range count, framePage base i / 512 = c / 512)
      (by simp only [FrameIn, Option.some.injEq, exists_eq_left'])

/-- Unmapping frames panics, or removes their pages. It does not panic if they lie in a block that
is ready. -/
theorem Builds.unmapFrames (builds : Builds root v W mapper s plan room) (spare : ℕ) (frames : List (Option U64 × ℕ))
    (c : ℕ) :
    Hypervisor.unmapFrames mapper frames s = none ∧
        ¬(Ready root v s plan room spare c ∧ ∀ frame ∈ frames, FrameIn c frame) ∨
      ∃ s' room', Hypervisor.unmapFrames mapper frames s = some s' ∧
        Builds root v W mapper s' (plan.without (framePages frames)) room' ∧
        (Ready root v s plan room spare c → (∀ frame ∈ frames, FrameIn c frame) → spare ≤ room') := by
  induction frames generalizing s plan room with
  | nil =>
    rw [show framePages [] = [] from rfl, Plan.without_nil]
    exact .inr ⟨s, room, rfl, builds, fun ready _ => ready.elim And.right fun ready => ready.2.le⟩
  | cons frame rest ih =>
    obtain ⟨base, count⟩ := frame
    rw [Hypervisor.unmapFrames, List.forall_mem_cons]
    cases base with
    | none =>
      refine .inl ⟨rfl, ?_⟩
      rintro ⟨-, ⟨base, known, -⟩, -⟩
      exact nomatch known
    | some base =>
      have split : framePages ((some base, count) :: rest) = (List.range count).map (framePage base) ++ framePages rest :=
        List.flatMap_cons
      have first : FrameIn c (some base, count) → base.toNat + 4096 * count < 2 ^ 64 ∧
          ∀ i ∈ List.range count, framePage base i / 512 = c / 512 := by
        rintro ⟨found, known, inside⟩
        obtain rfl := Option.some.inj known
        exact inside
      rw [split, Plan.without_append, bind_of_eq_some _ rfl]
      rcases builds.unmapFrame spare base count 0 c with ⟨panics, unready⟩ | ⟨s₁, room₁, run, builds₁, kept⟩
      · refine .inl ⟨by rw [panics]; rfl, ?_⟩
        rintro ⟨ready, inside, -⟩
        rw [← List.range_eq_range', Nat.zero_add] at unready
        exact unready ⟨ready, first inside⟩
      · rw [← List.range_eq_range'] at builds₁ kept
        rw [bind_of_eq_some _ run]
        rcases ih builds₁ with ⟨panics, unready⟩ | ⟨s', room', run', built, left⟩
        · refine .inl ⟨panics, ?_⟩
          rintro ⟨ready, inside, others⟩
          exact unready ⟨kept ready (first inside).2, others⟩
        · exact .inr ⟨s', room', run', built, fun ready inside => left (kept ready (first inside.1).2) inside.2⟩

end Build

/-- The pages that the tables of a VM map after boot. -/
def bootPlan (info : PlatformInfo) (start size : U64) : Plan := fun a =>
  if a ∈ framePages info.frames then none
  else if InRegion (gicRegionBase, gicRegionSize) a then some .device
  else if InRegion (start, size) a ∧ ¬OnHeap a then some .normal
  else none

/-- The first page of the GIC region. -/
def gicPage : ℕ := gicRegionBase.toNat / 4096

section BuildTables

variable {root : VmId → U64} {s : Phys} {role : U64 → Option (Role VmId)} {room : ℕ} {start size : U64}

/-- Building the tables of a VM panics, or makes tables for the boot plan. It does not panic for a
region in the first 4GB and frames in the first block of the GIC region if seven pages are left. -/
theorem Tables.buildTables (tables : Tables root s role room) (v : VmId) (info : PlatformInfo)
    (blocks : InBlocks start size) (spare : ℕ) :
    Hypervisor.buildTables info start size s = none ∧
        ¬(spare + 7 ≤ room ∧ start.toNat + size.toNat ≤ 2 ^ 32 ∧ ∀ frame ∈ info.frames, FrameIn gicPage frame) ∨
      ∃ mapper s' room', Hypervisor.buildTables info start size s = some (mapper.l0Table, s') ∧
        HeapPage mapper.l0Table ∧
        Builds (Function.update root v mapper.l0Table) v (view root s.mem) mapper s' (bootPlan info start size) room' ∧
        (spare + 7 ≤ room → start.toNat + size.toNat ≤ 2 ^ 32 → (∀ frame ∈ info.frames, FrameIn gicPage frame) →
          spare ≤ room') := by
  obtain ⟨regions, known, shape, pages⟩ := guestRegions_spec blocks
  rw [Hypervisor.buildTables]
  rcases Builds.new tables v with ⟨few, panics⟩ | ⟨n, mapper, s₁, left, run, page, count, builds⟩
  · refine .inl ⟨by rw [panics]; rfl, ?_⟩
    rintro ⟨enough, -⟩
    omega
  rw [bind_of_eq_some _ run]
  dsimp only
  rw [bind_of_eq_some _ known]
  have fits : spare + 7 ≤ room → Fits mapper s₁ n (spare + 1) := by
    intro enough
    have most : unlinked s₁.mem mapper.l1Table ≤ 4 := by
      refine (Finset.card_filter_le _ _).trans ?_
      rw [Finset.card_range]
    exact ⟨by omega, by omega⟩
  have low : start.toNat + size.toNat ≤ 2 ^ 32 → ∀ region ∈ regions, region.1.toNat + region.2.toNat ≤ 2 ^ 32 :=
    fun low region member => ((shape region member).2).trans low
  rcases builds.mapRegions (spare + 1) .normal (fun region member => (shape region member).1) with
    ⟨panics, short⟩ | ⟨mapper₂, s₂, room₂, run₂, builds₂, fits₂⟩
  · refine .inl ⟨by rw [panics]; rfl, ?_⟩
    rintro ⟨enough, first, -⟩
    exact short ⟨fits enough, low first⟩
  have gic : ∀ region ∈ [(gicRegionBase, gicRegionSize)], InBlocks region.1 region.2 := by
    rw [List.forall_mem_singleton]
    exact ⟨by decide, by decide, by decide⟩
  have gicLow : ∀ region ∈ [(gicRegionBase, gicRegionSize)], region.1.toNat + region.2.toNat ≤ 2 ^ 32 := by
    rw [List.forall_mem_singleton]
    decide
  rw [bind_of_eq_some _ run₂]
  dsimp only
  rcases builds₂.mapRegions (spare + 1) .device gic with ⟨panics, short⟩ | ⟨mapper₃, s₃, room₃, run₃, builds₃, fits₃⟩
  · refine .inl ⟨by rw [panics]; rfl, ?_⟩
    rintro ⟨enough, first, -⟩
    exact short ⟨fits₂ (fits enough) (low first), gicLow⟩
  rw [bind_of_eq_some _ run₃]
  dsimp only
  have ready : spare + 7 ≤ room → start.toNat + size.toNat ≤ 2 ^ 32 →
      Ready (Function.update root v mapper.l0Table) v s₃
        ((Plan.regions (fun _ => none) .normal regions).regions .device [(gicRegionBase, gicRegionSize)]) room₃ spare
        gicPage := by
    intro enough first
    have left := (fits₃ (fits₂ (fits enough) (low first)) gicLow).2
    refine .inr ⟨⟨gicPage, rfl, ?_⟩, by omega⟩
    rw [Plan.regions, if_pos ⟨_, List.mem_singleton_self _, by decide⟩]
    exact Option.some_ne_none _
  rcases builds₃.unmapFrames spare info.frames gicPage with ⟨panics, unready⟩ | ⟨s₄, room₄, run₄, builds₄, kept⟩
  · refine .inl ⟨by rw [panics]; rfl, ?_⟩
    rintro ⟨enough, first, frames⟩
    exact unready ⟨ready enough first, frames⟩
  · have plan : ((Plan.regions (fun _ => none) .normal regions).regions .device
        [(gicRegionBase, gicRegionSize)]).without (framePages info.frames) = bootPlan info start size := by
      funext a
      simp only [Plan.without, Plan.regions, bootPlan, pages, List.mem_singleton, exists_eq_left]
    have same : mapper₃.l0Table = mapper.l0Table := by
      rw [← builds₄.l0, Function.update_self]
    refine .inr ⟨mapper₃, s₄, room₄, bind_of_eq_some _ run₄, ?_, ?_, fun enough first => kept (ready enough first)⟩
    · rw [same]
      exact page
    · rw [same, ← plan]
      exact builds₄

end BuildTables

/-- The region that `init_memory` maps: the start rounded down to 2MB and the size rounded up. -/
def alignedRegion (start size : U64) : U64 × U64 :=
  (start &&& ~~~blockMask2mb, (size + blockSize2mb - 1) / blockSize2mb * blockSize2mb)

/-- The region lies in the first 512GB, which is what the L1 table of a VM serves. -/
def Addressable (start size : U64) : Prop :=
  start.toNat / 2 ^ 21 * 2 ^ 21 + (size.toNat + 2 ^ 21 - 1) / 2 ^ 21 * 2 ^ 21 ≤ 2 ^ 39

instance (start size : U64) : Decidable (Addressable start size) := inferInstanceAs (Decidable (_ ≤ _))

theorem checkedSize_eq {start size : U64} (addressable : Addressable start size) :
    ((checkedAdd size blockSize2mb).bind fun sum => checkedSub sum 1) = some (size + blockSize2mb - 1) ∧
      (size + blockSize2mb - 1).toNat = size.toNat + 2 ^ 21 - 1 := by
  rw [Addressable] at addressable
  have block : blockSize2mb.toNat = 2 ^ 21 := by decide
  have one : (1 : U64).toNat = 1 := by decide
  have sum : (size + blockSize2mb).toNat = size.toNat + 2 ^ 21 := by
    rw [BitVec.toNat_add, block]
    omega
  rw [checkedAdd_of_lt (by omega), Option.bind_some, checkedSub_of_le (by omega), toNat_sub_of_le (by omega), sum, one]
  exact ⟨rfl, rfl⟩

theorem inBlocks_alignedRegion {start size : U64} (addressable : Addressable start size) :
    InBlocks (alignedRegion start size).1 (alignedRegion start size).2 := by
  have first : (alignedRegion start size).1.toNat = start.toNat / 2 ^ 21 * 2 ^ 21 := by
    rw [alignedRegion, show blockMask2mb = BitVec.mask 0 21 by decide]
    exact BitVec.toNat_and_not_mask ..
  have length : (alignedRegion start size).2.toNat = (size.toNat + 2 ^ 21 - 1) / 2 ^ 21 * 2 ^ 21 := by
    rw [Addressable] at addressable
    rw [alignedRegion, BitVec.toNat_mul, BitVec.toNat_udiv, (checkedSize_eq addressable).2,
      show blockSize2mb.toNat = 2 ^ 21 by decide]
    exact Nat.mod_eq_of_lt (by omega)
  rw [Addressable] at addressable
  exact ⟨by omega, by omega, by omega⟩

/-- The saved register still points to the L0 table. -/
theorem vttbrWithVmid_and_pteAddrMask {table : U64} (aligned : table &&& pteAddrMask = table) (vmid : ℕ) :
    vttbrWithVmid table vmid &&& pteAddrMask = table := by
  rw [vttbrWithVmid, show (0x0000FFFFFFFFFFFE : U64) = BitVec.mask 1 47 by decide]
  apply BitVec.eq_of_getLsbD_eq
  intro i _
  have bit := congrArg (BitVec.getLsbD · i) aligned
  simp only [show pteAddrMask = BitVec.mask 12 36 by decide, BitVec.getLsbD_and, BitVec.getLsbD_or,
    BitVec.getLsbD_shiftLeft, BitVec.getLsbD_mask] at bit ⊢
  grind

/-- The tables of VM `v` were built for a plan; the other VMs and the share records are as before. -/
structure Machine.Boots (m : Machine) (v : VmId) (plan : Plan) (m' : Machine) : Prop where
  wf : m'.Wf
  booted : m'.perVmVttbr v ≠ 0
  pages : ∀ a, Planned (plan a) a (m'.view v a)
  others : ∀ u, u ≠ v → m'.view u = m.view u
  spmc : m'.spmc = m.spmc

/-- The boot plan of a VM that is given a region. -/
def initPlan (info : PlatformInfo) (start size : U64) : Plan :=
  bootPlan info (alignedRegion start size).1 (alignedRegion start size).2

/-- `init_memory` panics, or makes tables for the boot plan. -/
theorem initMemory_cases {m : Machine} (wf : m.Wf) (vm : Vm) (fresh : vm.memoryInitialized = false)
    (info : PlatformInfo) (start size : U64) (addressable : Addressable start size) (spare : ℕ) :
    vm.initMemory info start size m = none ∧
        ¬(m.phys.canAlloc (spare + 7) = true ∧
          (alignedRegion start size).1.toNat + (alignedRegion start size).2.toNat ≤ 2 ^ 32 ∧
          ∀ frame ∈ info.frames, FrameIn gicPage frame) ∨
      ∃ m', vm.initMemory info start size m = some ({ vm with memoryInitialized := true }, m') ∧
        m.Boots vm.id (initPlan info start size) m' ∧
        (m.phys.canAlloc (spare + 7) = true →
          (alignedRegion start size).1.toNat + (alignedRegion start size).2.toNat ≤ 2 ^ 32 →
          (∀ frame ∈ info.frames, FrameIn gicPage frame) → m'.phys.canAlloc spare = true) := by
  obtain ⟨⟨role, room, tables⟩, vttbr⟩ := wf
  obtain ⟨grown, -⟩ := checkedSize_eq addressable
  obtain ⟨sum, added, shrunk⟩ := Option.bind_eq_some_iff.mp grown
  rw [Vm.initMemory, fresh, if_neg Bool.false_ne_true, bind_of_eq_some _ added, bind_of_eq_some _ shrunk,
    Phys.canAlloc_iff tables.heap]
  rcases tables.buildTables vm.id info (inBlocks_alignedRegion addressable) spare with
    ⟨panics, short⟩ | ⟨mapper, phys, room', run, page, builds, kept⟩
  · refine .inl ⟨?_, short⟩
    dsimp only [alignedRegion] at panics ⊢
    rw [panics]
    rfl
  · dsimp only [alignedRegion] at run
    obtain ⟨role', tables'⟩ := builds.tables
    have root := vttbrWithVmid_and_pteAddrMask page.table vm.id
    refine .inr ⟨{ m with
      phys
      vmVttbr := Function.update m.vmVttbr vm.id (vttbrWithVmid mapper.l0Table vm.id)
      perVmVttbr := Function.update m.perVmVttbr vm.id mapper.l0Table
      vttbrEl2 := vttbrWithVmid mapper.l0Table vm.id }, ?_, ⟨⟨⟨role', room', tables'⟩, fun u => ?_⟩, builds.booted,
        builds.pages, builds.others, rfl⟩, fun enough low frames => ?_⟩
    · refine (bind_of_eq_some _ run).trans ?_
      dsimp only
      rw [root]
      rfl
    · by_cases same : u = vm.id
      · subst same
        simp only [Function.update_self, root]
      · simp only [Function.update_of_ne same, vttbr u]
    · exact (Phys.canAlloc_iff tables'.heap).mpr (kept enough low frames)

/-- A VM whose memory was initialised follows the boot plan. -/
theorem boots_of_initMemory {m m' : Machine} (wf : m.Wf) {vm vm' : Vm} (fresh : vm.memoryInitialized = false)
    {info : PlatformInfo} {start size : U64} (addressable : Addressable start size)
    (run : vm.initMemory info start size m = some (vm', m')) : m.Boots vm.id (initPlan info start size) m' := by
  rcases initMemory_cases wf vm fresh info start size addressable 0 with ⟨panics, -⟩ | ⟨found, run', boots, -⟩
  · exact nomatch panics.symm.trans run
  · obtain ⟨-, rfl⟩ := Prod.mk.inj (Option.some.inj (run'.symm.trans run))
    exact boots

/-- A second call does nothing. -/
theorem eq_or_boots_of_initMemory {m m' : Machine} (wf : m.Wf) {vm vm' : Vm} {info : PlatformInfo} {start size : U64}
    (addressable : Addressable start size) (run : vm.initMemory info start size m = some (vm', m')) :
    m' = m ∨ m.Boots vm.id (initPlan info start size) m' := by
  cases fresh : vm.memoryInitialized with
  | true =>
    rw [Vm.initMemory, fresh, if_pos rfl] at run
    obtain ⟨-, rfl⟩ := Prod.mk.inj (Option.some.inj run)
    exact .inl rfl
  | false => exact .inr (boots_of_initMemory wf fresh addressable run)

/-! ## The state before boot -/

/-- A heap as `heap::init` leaves it, no tables and no shares. -/
structure Machine.Bare (m : Machine) : Prop where
  heap : m.phys.heap = BumpAllocator.new heapStart heapSize
  roots : ∀ v, m.perVmVttbr v = 0
  vttbr : ∀ v, m.vmVttbr v = 0
  unshared : ∀ record ∈ m.spmc.records, record.active = false

namespace Machine.Bare

variable {m : Machine} (bare : m.Bare)
include bare

theorem tables : Tables m.perVmVttbr m.phys (fun _ => none) 4096 := by
  have heap : HeapSound m.phys.heap m.phys.mem (fun _ => False) 4096 := bare.heap ▸ heapSound_new m.phys.mem
  exact heap.tables bare.roots

theorem wf : m.Wf := by
  refine ⟨⟨_, _, bare.tables⟩, fun v => ?_⟩
  rw [bare.vttbr v, bare.roots v]
  exact BitVec.zero_and

theorem view_eq_none (v : VmId) (a : ℕ) : m.view v a = none := if_neg fun served => served.1 (bare.roots v)

theorem canAlloc {k : ℕ} (enough : k ≤ 4096) : m.phys.canAlloc k = true := (Phys.canAlloc_iff bare.tables.heap).mpr enough

end Machine.Bare

end Hypervisor
