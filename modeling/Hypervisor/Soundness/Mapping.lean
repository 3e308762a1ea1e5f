import Hypervisor.Model.Vm
import Hypervisor.Proofs.Plan

/-! # The mapper as a map from pages to attributes

Calls on a `DynamicIdentityMapper`, one after the other. In the first 512GB the tables denote the map
that the calls describe when the last one on a page wins: `mapper_refines`. Beyond, and for regions
that do not start at a block, a call can succeed without having mapped what it was asked to:
`maps_asked_iff` says exactly when it has.
-/

namespace Hypervisor

open Radix

/-! ## Calls -/

/-- A call that maps memory. -/
inductive MapRequest where
  | mapRegion (ipa size : U64) (attr : MemoryAttribute)
  | map4kbPage (ipa : U64) (attr : MemoryAttribute)
deriving DecidableEq, Repr

inductive MapperCall where
  | map (request : MapRequest)
  | unmap4kbPage (ipa : U64)
deriving DecidableEq, Repr

def MapRequest.run (mapper : DynamicIdentityMapper) (s : Phys) :
    MapRequest → Option (Except String Unit × DynamicIdentityMapper × Phys)
  | mapRegion ipa size attr => mapper.mapRegion ipa size attr s
  | map4kbPage ipa attr => mapper.map4kbPage ipa attr s

def MapperCall.run (mapper : DynamicIdentityMapper) (s : Phys) :
    MapperCall → Option (Except String Unit × DynamicIdentityMapper × Phys)
  | map request => request.run mapper s
  | unmap4kbPage ipa => (mapper.unmap4kbPage ipa s).map fun (result, s) => (result, mapper, s)

/-- Calls that all succeed. -/
def runCalls : List MapperCall → DynamicIdentityMapper → Phys → Option (DynamicIdentityMapper × Phys)
  | [], mapper, s => some (mapper, s)
  | call :: rest, mapper, s => do
      let (_, mapper, s) ← expectOk (← call.run mapper s)
      runCalls rest mapper s

/-- The leaf of page `a` under the L0 table of the mapper. An IPA has 48 bits. -/
def DynamicIdentityMapper.leaf (mapper : DynamicIdentityMapper) (mem : PhysMem) (a : ℕ) : Option Leaf :=
  if a < 2 ^ 36 then leafAt mem mapper.l0Table a else none

/-- The walk of the source finds a descriptor where there is a leaf. -/
theorem walkToLeaf_eq_none_iff (mapper : DynamicIdentityMapper) (mem : PhysMem) (ipa : U64) :
    mapper.walkToLeaf mem ipa = none ↔ mapper.leaf mem (pageOf ipa) = none := by
  rw [DynamicIdentityMapper.walkToLeaf, DynamicIdentityMapper.walkToLeafPtr, Option.map_eq_none_iff,
    Stage2Walker.walkToLeafPtr_eq, DynamicIdentityMapper.leaf, if_pos (pageOf_lt ipa), leafAt, entryLeaf]
  dsimp only
  split_ifs with both height valid height valid <;> simp_all

theorem Drives.view_eq {root : VmId → U64} {v : VmId} {mapper : DynamicIdentityMapper} {s : Phys} {room : ℕ}
    (drives : Drives root v mapper s room) : view root s.mem v = mapper.leaf s.mem := by
  funext a
  rw [view, DynamicIdentityMapper.leaf, ← drives.l0]
  simp only [ne_eq, drives.booted, not_false_eq_true, true_and]

/-! ## Calls in the first 512GB -/

/-- The addresses of a call are below 512GB, and a region is made of whole blocks. -/
def MapperCall.Low : MapperCall → Prop
  | map (.mapRegion ipa size _) => InBlocks ipa size
  | map (.map4kbPage ipa _) => ipa.toNat < 2 ^ 39
  | unmap4kbPage ipa => ipa.toNat < 2 ^ 39

/-- What a call does to the map from pages to attributes. -/
def MapperCall.apply (plan : Plan) : MapperCall → Plan
  | map (.mapRegion ipa size attr) => fun a =>
      if ipa.toNat ≤ 4096 * a ∧ 4096 * a < ipa.toNat + size.toNat then some attr else plan a
  | map (.map4kbPage ipa attr) => Function.update plan (ipa.toNat / 4096) (some attr)
  | unmap4kbPage ipa => Function.update plan (ipa.toNat / 4096) none

section Refinement

variable {root : VmId → U64} {v : VmId} {W : View} {mapper mapper' : DynamicIdentityMapper} {s s' : Phys} {plan : Plan}
  {room : ℕ}

/-- A call that succeeds follows the map. -/
theorem Builds.call (builds : Builds root v W mapper s plan room) {call : MapperCall} (low : call.Low)
    (run : call.run mapper s = some (.ok (), mapper', s')) :
    ∃ room', Builds root v W mapper' s' (call.apply plan) room' := by
  cases call with
  | map request =>
    cases request with
    | mapRegion ipa size attr =>
      obtain ⟨result, mapper₁, s₁, room₁, run₁, good, -⟩ := builds.mapRegion 0 attr low
      cases run₁.symm.trans run
      refine ⟨room₁, ?_⟩
      have same : plan.fill (ipa.toNat / 4096) (size.toNat / 4096) attr =
          (MapperCall.map (.mapRegion ipa size attr)).apply plan := by
        obtain ⟨aligned, whole, -⟩ := low
        funext a
        have inside : ipa.toNat / 4096 ≤ a ∧ a < ipa.toNat / 4096 + size.toNat / 4096 ↔
            ipa.toNat ≤ 4096 * a ∧ 4096 * a < ipa.toNat + size.toNat := by omega
        simp only [Plan.fill, MapperCall.apply, inside]
      rw [← same]
      exact good rfl
    | map4kbPage ipa attr =>
      obtain ⟨result, mapper₁, s₁, room₁, run₁, good⟩ := builds.map4kbPage attr low
      cases run₁.symm.trans run
      refine ⟨room₁, ?_⟩
      have same : plan.fill (ipa.toNat / 4096) 1 attr = (MapperCall.map (.map4kbPage ipa attr)).apply plan := by
        funext a
        have inside : ipa.toNat / 4096 ≤ a ∧ a < ipa.toNat / 4096 + 1 ↔ a = ipa.toNat / 4096 := by omega
        simp only [Plan.fill, MapperCall.apply, inside, Function.update_apply]
      rw [← same]
      exact good rfl
  | unmap4kbPage ipa =>
    obtain ⟨result, s₁, room₁, run₁, good, -⟩ := builds.unmap4kbPage 0 ipa
    rw [MapperCall.run, run₁] at run
    cases run
    refine ⟨room₁, ?_⟩
    have same : plan.without [unmapTarget ipa] = (MapperCall.unmap4kbPage ipa).apply plan := by
      funext a
      simp only [Plan.without, MapperCall.apply, unmapTarget_of_lt low, List.mem_singleton, Function.update_apply]
    rw [← same]
    exact (good rfl).1

/-- Calls that succeed follow the map, one after the other. -/
theorem Builds.runCalls (builds : Builds root v W mapper s plan room) {calls : List MapperCall}
    (low : ∀ call ∈ calls, call.Low) (run : Hypervisor.runCalls calls mapper s = some (mapper', s')) :
    ∃ room', Builds root v W mapper' s' (calls.foldl MapperCall.apply plan) room' := by
  induction calls generalizing mapper s plan room with
  | nil =>
    cases run
    exact ⟨room, builds⟩
  | cons call rest ih =>
    obtain ⟨here, later⟩ := List.forall_mem_cons.mp low
    obtain ⟨⟨result, mapper₁, s₁⟩, run₁, run⟩ := Option.bind_eq_some_iff.mp run
    cases result with
    | error text => cases run
    | ok =>
      obtain ⟨room₁, builds₁⟩ := builds.call here run₁
      exact ih builds₁ later run

end Refinement

/-- `new` gives empty tables. -/
theorem builds_of_new {s s₀ : Phys} {room : ℕ} {mapper : DynamicIdentityMapper}
    (heap : HeapSound s.heap s.mem (fun _ => False) room) (new : DynamicIdentityMapper.new s = some (mapper, s₀)) :
    ∃ root W n, Builds root 0 W mapper s₀ (fun _ => none) n := by
  have tables : Tables (fun _ => 0) s (fun _ => none) room := heap.tables fun _ => rfl
  rcases Builds.new tables 0 with ⟨-, panics⟩ | ⟨n, mapper₀, s₁, -, new', -, -, builds⟩
  · rw [panics] at new
    cases new
  · cases new'.symm.trans new
    exact ⟨_, _, n, builds⟩

/-- The tables of a mapper after calls that all succeeded, in the first 512GB, denote the map that the
calls describe: the last one on a page wins. A page in the map has a leaf that maps it to itself with
its attribute, and a page that is not has none. -/
theorem mapper_refines {s s₀ s' : Phys} {room : ℕ} {mapper mapper' : DynamicIdentityMapper}
    (heap : HeapSound s.heap s.mem (fun _ => False) room) (new : DynamicIdentityMapper.new s = some (mapper, s₀))
    {calls : List MapperCall} (low : ∀ call ∈ calls, call.Low)
    (run : runCalls calls mapper s₀ = some (mapper', s')) (a : ℕ) :
    Planned (calls.foldl MapperCall.apply (fun _ => none) a) a (mapper'.leaf s'.mem a) ∧
      (a < 2 ^ 36 → (mapper'.walkToLeaf s'.mem (pageAddr a) = none ↔
        calls.foldl MapperCall.apply (fun _ => none) a = none)) := by
  obtain ⟨root, W, n, builds⟩ := builds_of_new heap new
  obtain ⟨room', builds'⟩ := builds.runCalls low run
  have planned := builds'.pages a
  rw [builds'.drives.view_eq] at planned
  refine ⟨planned, fun bound => ?_⟩
  have page : pageOf (pageAddr a) = a := by
    rw [pageOf, pageAddr_toNat a bound]
    omega
  rw [walkToLeaf_eq_none_iff, page]
  exact planned.eq_none_iff

/-- The heap after `heap::init`, in memory that is zero. -/
def initialPhys : Phys := ⟨fun _ => 0, BumpAllocator.new heapStart heapSize, 0⟩

/-- A page in the middle of a block, removed and mapped again as device memory. -/
def remapCalls : List MapperCall :=
  [.map (.mapRegion 0x40000000 0x400000 .normal), .unmap4kbPage 0x40001000, .map (.map4kbPage 0x40001000 .device)]

theorem mapper_refines_remapCalls : ∃ mapper s₀ mapper' s', DynamicIdentityMapper.new initialPhys = some (mapper, s₀) ∧
    runCalls remapCalls mapper s₀ = some (mapper', s') ∧
    Planned (some .device) 0x40001 (mapper'.leaf s'.mem 0x40001) ∧
    Planned (some .normal) 0x40002 (mapper'.leaf s'.mem 0x40002) ∧ Planned none 0x3FFFF (mapper'.leaf s'.mem 0x3FFFF) := by
  have runs : ((DynamicIdentityMapper.new initialPhys).bind fun start =>
      runCalls remapCalls start.1 start.2).isSome = true := by decide
  obtain ⟨⟨mapper', s'⟩, run⟩ := Option.isSome_iff_exists.mp runs
  obtain ⟨⟨mapper, s₀⟩, new, run⟩ := Option.bind_eq_some_iff.mp run
  have low : ∀ call ∈ remapCalls, call.Low := by
    simp only [remapCalls, List.forall_mem_cons, List.not_mem_nil, false_implies, implies_true, and_true, MapperCall.Low]
    exact ⟨⟨by decide, by decide, by decide⟩, by decide, by decide⟩
  have leaves := fun a => (mapper_refines (heapSound_new _) new low run a).1
  exact ⟨mapper, s₀, mapper', s', new, run, leaves 0x40001, leaves 0x40002, leaves 0x3FFFF⟩

/-! ## Calls with any address -/

/-- The mapper works on sound tables, and maps nothing above 512GB. -/
def DynamicIdentityMapper.Sound (mapper : DynamicIdentityMapper) (s : Phys) : Prop :=
  ∃ root v room, Drives root v mapper s room ∧ ∀ a, 2 ^ 27 ≤ a → mapper.leaf s.mem a = none

/-- A new mapper is sound and maps nothing. -/
theorem sound_of_new {s s₀ : Phys} {room : ℕ} {mapper : DynamicIdentityMapper}
    (heap : HeapSound s.heap s.mem (fun _ => False) room) (new : DynamicIdentityMapper.new s = some (mapper, s₀)) :
    mapper.Sound s₀ ∧ ∀ a, mapper.leaf s₀.mem a = none := by
  obtain ⟨root, W, n, builds⟩ := builds_of_new heap new
  have empty : ∀ a, mapper.leaf s₀.mem a = none := by
    rw [← builds.drives.view_eq]
    exact builds.pages
  exact ⟨⟨_, 0, n, builds.drives, fun a _ => empty a⟩, empty⟩

section Calls

variable {root : VmId → U64} {v : VmId} {mapper mapper' : DynamicIdentityMapper} {s s' : Phys} {room : ℕ}
  {result : Except String Unit}

/-- Whatever its result, a call keeps the tables sound and does not reach above 512GB. -/
theorem Drives.call (drives : Drives root v mapper s room) (call : MapperCall)
    (run : call.run mapper s = some (result, mapper', s')) :
    ∃ room', Drives root v mapper' s' room' ∧
      ∀ a, 2 ^ 27 ≤ a → mapper.leaf s.mem a = none → mapper'.leaf s'.mem a = none := by
  cases call with
  | map request =>
    cases request with
    | mapRegion ipa size attr =>
      rcases drives.mapRegion 0 ipa size attr with ⟨panics, -⟩ | ⟨_, _, _, room₁, run₁, drives₁, high, -, -⟩
      · cases panics.symm.trans run
      cases run₁.symm.trans run
      refine ⟨room₁, drives₁, fun a above empty => ?_⟩
      rw [← drives₁.view_eq, high v a fun _ => above, drives.view_eq, empty]
    | map4kbPage ipa attr =>
      obtain ⟨_, _, _, room₁, run₁, drives₁, -, pages, -⟩ := drives.map4kbPage ipa attr
      cases run₁.symm.trans run
      refine ⟨room₁, drives₁, fun a above empty => ?_⟩
      have finer := pages a fun _ => (lt_of_lt_of_le (unmapTarget_lt ipa) above).ne'
      rw [drives.view_eq, drives₁.view_eq] at finer
      exact finer.eq_none_iff.mpr empty
  | unmap4kbPage ipa =>
    obtain ⟨_, _, room₁, run₁, drives₁, -, pages, -⟩ := drives.unmap4kbPage 0 ipa
    rw [MapperCall.run, run₁] at run
    cases run
    refine ⟨room₁, drives₁, fun a above empty => ?_⟩
    have finer := pages a fun _ => (lt_of_lt_of_le (unmapTarget_lt ipa) above).ne'
    rw [drives.view_eq, drives₁.view_eq] at finer
    exact finer.eq_none_iff.mpr empty

/-- Every call keeps a mapper sound, with any address and any result. -/
theorem DynamicIdentityMapper.Sound.call (sound : mapper.Sound s) (call : MapperCall)
    (run : call.run mapper s = some (result, mapper', s')) : mapper'.Sound s' := by
  obtain ⟨root, v, room, drives, empty⟩ := sound
  obtain ⟨room', drives', high⟩ := drives.call call run
  exact ⟨root, v, room', drives', fun a above => high a above (empty a above)⟩

end Calls

/-- The pages that a call is asked to map. -/
def MapRequest.Asks : MapRequest → ℕ → Prop
  | mapRegion ipa size _, a => ∃ x, ipa.toNat ≤ x ∧ x < ipa.toNat + size.toNat ∧ x / 4096 = a
  | map4kbPage ipa _, a => ipa.toNat / 4096 = a

/-- The pages that a call may change: the 2MB blocks around a region, or one page. -/
def MapRequest.Around : MapRequest → ℕ → Prop
  | mapRegion ipa size attr, a => ∃ b, (mapRegion ipa size attr).Asks b ∧ b / 512 = a / 512
  | map4kbPage ipa _, a => ipa.toNat / 4096 = a

/-- Page `a` has a leaf that maps it to itself. -/
def DynamicIdentityMapper.Identity (mapper : DynamicIdentityMapper) (mem : PhysMem) (a : ℕ) : Prop :=
  ∃ leaf, mapper.leaf mem a = some leaf ∧ leaf.translation.output = pageAddr a

/-- What was asked for is mapped, and nothing else has changed. -/
structure MapsAsked (mapper : DynamicIdentityMapper) (s : Phys) (request : MapRequest)
    (mapper' : DynamicIdentityMapper) (s' : Phys) : Prop where
  mapped : ∀ a, request.Asks a → mapper'.Identity s'.mem a
  frame : ∀ a, ¬request.Around a →
    (mapper'.leaf s'.mem a).map Leaf.translation = (mapper.leaf s.mem a).map Leaf.translation

/-- The call asks only for pages below 512GB, and for none behind the blocks that are counted from its
first address, unless it is mapped already. -/
def MapRequest.Served (mapper : DynamicIdentityMapper) (s : Phys) : MapRequest → Prop
  | mapRegion ipa size attr => ∀ a, (mapRegion ipa size attr).Asks a →
      a < 2 ^ 27 ∧ (a / 512 < ipa.toNat / 2 ^ 21 + blocksOf size ∨ mapper.Identity s.mem a)
  | map4kbPage ipa _ => ipa.toNat < 2 ^ 39

section Asked

variable {mapper mapper' : DynamicIdentityMapper} {s s' : Phys} {ipa size : U64} {attr : MemoryAttribute}

/-- A region whose pages all lie below 512GB has its blocks there too. -/
theorem blocks_of_asked (nonempty : size.toNat ≠ 0)
    (low : ∀ a, (MapRequest.mapRegion ipa size attr).Asks a → a < 2 ^ 27) :
    ipa.toNat / 2 ^ 21 + blocksOf size ≤ 2 ^ 18 := by
  have last := low ((ipa.toNat + size.toNat - 1) / 4096) ⟨ipa.toNat + size.toNat - 1, by omega, by omega, rfl⟩
  rw [blocksOf]
  omega

/-- Each block that is stored contains a page that was asked for. -/
theorem around_of_block {a : ℕ} (first : ipa.toNat / 2 ^ 21 ≤ a / 512)
    (last : a / 512 < ipa.toNat / 2 ^ 21 + blocksOf size) : (MapRequest.mapRegion ipa size attr).Around a := by
  rw [blocksOf] at last
  refine ⟨max ipa.toNat (a / 512 * 2 ^ 21) / 4096, ⟨_, le_max_left .., ?_, rfl⟩, ?_⟩
  · rw [max_lt_iff]
    omega
  · rcases le_total ipa.toNat (a / 512 * 2 ^ 21) with le | le
    · rw [max_eq_right le]
      omega
    · rw [max_eq_left le]
      omega

/-- A region is mapped as asked exactly if it is served. -/
theorem mapRegion_maps_iff (sound : mapper.Sound s) (run : mapper.mapRegion ipa size attr s = some (.ok (), mapper', s')) :
    MapsAsked mapper s (.mapRegion ipa size attr) mapper' s' ↔ (MapRequest.mapRegion ipa size attr).Served mapper s := by
  by_cases nonempty : size.toNat ≠ 0
  · obtain ⟨root, v, room, drives, empty⟩ := sound
    rcases drives.mapRegion 0 ipa size attr with ⟨panics, -⟩ | ⟨_, _, _, room₁, run₁, drives₁, high, exact', -⟩
    · cases panics.symm.trans run
    cases run₁.symm.trans run
    rw [drives₁.view_eq, drives.view_eq] at exact'
    constructor
    · intro maps
      have low : ∀ a, (MapRequest.mapRegion ipa size attr).Asks a → a < 2 ^ 27 := by
        intro a asked
        by_contra above
        obtain ⟨leaf, mapped, -⟩ := maps.mapped a asked
        rw [← drives₁.view_eq, high v a fun _ => by omega, drives.view_eq, empty a (by omega)] at mapped
        cases mapped
      intro a asked
      refine ⟨low a asked, ?_⟩
      by_contra outside
      obtain ⟨behind, unmapped⟩ := not_or.mp outside
      obtain ⟨leaf, mapped, same⟩ := maps.mapped a asked
      rw [exact' (blocks_of_asked nonempty low) rfl a, if_neg fun inside => behind inside.2] at mapped
      exact unmapped ⟨leaf, mapped, same⟩
    · intro served
      have bound := blocks_of_asked nonempty fun a asked => (served a asked).1
      refine ⟨fun a asked => ?_, fun a apart => ?_⟩
      · rcases (served a asked).2 with inside | mapped
        · obtain ⟨x, le, -, rfl⟩ := asked
          refine ⟨⟨1, mappedAs attr (x / 4096)⟩, ?_, rfl⟩
          rw [exact' bound rfl, if_pos ⟨by omega, inside⟩]
        · rw [DynamicIdentityMapper.Identity, exact' bound rfl a]
          split_ifs
          · exact ⟨_, rfl, rfl⟩
          · exact mapped
      · rw [exact' bound rfl a, if_neg]
        rintro ⟨first, last⟩
        exact apart (around_of_block first last)
  · -- nothing is asked for and the loop has no iteration
    have zero : size = 0 := BitVec.eq_of_toNat_eq (not_not.mp nonempty)
    subst zero
    have nothing : ∀ a, ¬(MapRequest.mapRegion ipa 0 attr).Asks a := by
      rintro a ⟨x, le, lt, -⟩
      rw [show (0 : U64).toNat = 0 by decide] at lt
      omega
    cases run
    exact ⟨fun _ a asked => absurd asked (nothing a), fun _ => ⟨fun a asked => absurd asked (nothing a), fun _ _ => rfl⟩⟩

/-- A page is mapped as asked exactly if it lies below 512GB. -/
theorem map4kbPage_maps_iff (sound : mapper.Sound s) (run : mapper.map4kbPage ipa attr s = some (.ok (), mapper', s')) :
    MapsAsked mapper s (.map4kbPage ipa attr) mapper' s' ↔ ipa.toNat < 2 ^ 39 := by
  obtain ⟨root, v, room, drives, empty⟩ := sound
  obtain ⟨_, _, _, room₁, run₁, drives₁, -, pages, here, -⟩ := drives.map4kbPage ipa attr
  cases run₁.symm.trans run
  rw [drives.view_eq, drives₁.view_eq] at pages
  constructor
  · intro maps
    by_contra above
    obtain ⟨leaf, mapped, -⟩ := maps.mapped (ipa.toNat / 4096) rfl
    have target := unmapTarget_lt ipa
    rw [(pages (ipa.toNat / 4096) fun _ => by omega).eq_none_iff.mpr (empty _ (by omega))] at mapped
    cases mapped
  · intro low
    have found := here rfl
    rw [drives₁.view_eq, unmapTarget_of_lt low, translate_makePageEntry attr (by omega) rfl] at found
    refine ⟨?_, fun a apart => ?_⟩
    · rintro a rfl
      exact ⟨_, found, rfl⟩
    · refine (pages a fun _ => ?_).translation
      rw [unmapTarget_of_lt low]
      exact Ne.symm apart

end Asked

/-- A call that succeeds has mapped what it was asked for, and changed nothing else, exactly if it is
served. -/
theorem maps_asked_iff {mapper mapper' : DynamicIdentityMapper} {s s' : Phys} (sound : mapper.Sound s)
    (request : MapRequest) (run : request.run mapper s = some (.ok (), mapper', s')) :
    MapsAsked mapper s request mapper' s' ↔ request.Served mapper s := by
  cases request with
  | mapRegion ipa size attr => exact mapRegion_maps_iff sound run
  | map4kbPage ipa attr => exact map4kbPage_maps_iff sound run

/-- A call on a new mapper that succeeds. -/
theorem exists_run_of_new (request : MapRequest) (runs : ((DynamicIdentityMapper.new initialPhys).bind fun (mapper, s) =>
    (request.run mapper s).bind expectOk).isSome = true) :
    ∃ mapper s mapper' s', mapper.Sound s ∧ (∀ a, mapper.leaf s.mem a = none) ∧
      request.run mapper s = some (.ok (), mapper', s') := by
  obtain ⟨⟨_, mapper', s'⟩, run⟩ := Option.isSome_iff_exists.mp runs
  obtain ⟨⟨mapper, s⟩, new, run⟩ := Option.bind_eq_some_iff.mp run
  obtain ⟨⟨result, mapper₁, s₁⟩, called, run⟩ := Option.bind_eq_some_iff.mp run
  obtain ⟨sound, empty⟩ := sound_of_new (heapSound_new _) new
  cases result with
  | error text => cases run
  | ok =>
    cases run
    exact ⟨mapper, s, mapper', s', sound, empty, called⟩

theorem maps_asked_iff_half_block : ∃ mapper s mapper' s', mapper.Sound s ∧
    (MapRequest.mapRegion 0x40100000 0x100000 .normal).run mapper s = some (.ok (), mapper', s') ∧
    MapsAsked mapper s (.mapRegion 0x40100000 0x100000 .normal) mapper' s' := by
  obtain ⟨mapper, s, mapper', s', sound, -, run⟩ := exists_run_of_new (.mapRegion 0x40100000 0x100000 .normal) (by decide)
  refine ⟨mapper, s, mapper', s', sound, run, (maps_asked_iff sound _ run).mpr ?_⟩
  rintro a ⟨x, le, lt, rfl⟩
  rw [show blocksOf 0x100000 = 1 by decide, show (0x40100000 : U64).toNat = 0x40100000 by decide]
  rw [show (0x40100000 : U64).toNat + (0x100000 : U64).toNat = 0x40200000 by decide] at lt
  exact ⟨by omega, .inl (by omega)⟩

/-- Two calls that succeed and do not map what they were asked for: the first page behind 512GB, and
2MB from the middle of a block. -/
theorem mapped_elsewhere :
    (∃ mapper s mapper' s', mapper.Sound s ∧
      (MapRequest.map4kbPage (1 <<< 39) .normal).run mapper s = some (.ok (), mapper', s') ∧
      ¬MapsAsked mapper s (.map4kbPage (1 <<< 39) .normal) mapper' s') ∧
    ∃ mapper s mapper' s', mapper.Sound s ∧
      (MapRequest.mapRegion 0x40100000 0x200000 .normal).run mapper s = some (.ok (), mapper', s') ∧
      ¬MapsAsked mapper s (.mapRegion 0x40100000 0x200000 .normal) mapper' s' := by
  constructor
  · obtain ⟨mapper, s, mapper', s', sound, -, run⟩ := exists_run_of_new (.map4kbPage (1 <<< 39) .normal) (by decide)
    exact ⟨mapper, s, mapper', s', sound, run, (map4kbPage_maps_iff sound run).not.mpr (by decide)⟩
  · obtain ⟨mapper, s, mapper', s', sound, empty, run⟩ :=
      exists_run_of_new (.mapRegion 0x40100000 0x200000 .normal) (by decide)
    refine ⟨mapper, s, mapper', s', sound, run, fun maps => ?_⟩
    have served := (mapRegion_maps_iff sound run).mp maps 0x40200 ⟨0x40200000, by decide, by decide, rfl⟩
    rcases served.2 with inside | ⟨leaf, mapped, -⟩
    · exact absurd inside (by decide)
    · rw [empty] at mapped
      cases mapped

end Hypervisor
