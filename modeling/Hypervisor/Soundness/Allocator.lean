import Hypervisor.Proofs.HeapUse
import Mathlib.Data.List.TakeWhile

/-! # Soundness of the allocator

As long as only pages are requested, the callers and the free list hold every page below the bump pointer, so
pages are refused only when the callers hold all of them. Requests of any size and alignment return regions of the
heap that are apart, as long as the two sums that are formed before the end is compared fit a word.
-/

namespace Hypervisor

namespace HeapUse

variable {use use' : HeapUse} {start extent : U64} {op : HeapOp}

/-! ## Whole pages -/

/-- The callers and the free list hold every page below the bump pointer. -/
structure Paged (start : U64) (use : HeapUse) : Prop where
  count : use.alloc.allocated.toNat = 4096 * use.pages.length
  next_mod : use.alloc.next.toNat % 4096 = 0
  covers : ∀ page, PageIn start.toNat use.alloc.next.toNat page → page ∈ use.freed ++ use.pages

theorem Paged.page (paged : use.Paged start) {addr : U64} {alloc : BumpAllocator}
    (bumped : use.alloc.Bumped 4096 4096 addr alloc) :
    { use with alloc, pages := addr :: use.pages, regions := ⟨addr, 4096⟩ :: use.regions }.Paged start := by
  have size := toNat_4096
  have nextMod := paged.next_mod
  have addrEq : addr.toNat = use.alloc.next.toNat := by
    rw [bumped.addr_eq, size, Nat.alignUp_of_mod_eq_zero (by decide) nextMod]
  have next := bumped.next_eq
  constructor
  · have count := paged.count
    have allocated := bumped.allocated_eq
    rw [List.length_cons]
    dsimp only
    omega
  · dsimp only
    omega
  · intro page inside
    apply List.perm_middle.mem_iff.mpr
    by_cases same : page = addr
    · exact same ▸ List.mem_cons_self
    · have apart : page.toNat ≠ addr.toNat := fun eq => same (BitVec.eq_of_toNat_eq eq)
      obtain ⟨aligned, low, high⟩ := inside
      dsimp only at high
      exact List.mem_cons_of_mem _ (paged.covers page ⟨aligned, low, by omega⟩)

theorem Paged.effect (sound : use.Sound start extent) (paged : use.Paged start) (call : op.PageCall)
    (effect : use.Effect op use') : use'.Paged start := by
  cases effect with
  | refused => exact paged
  | region other => exact absurd call other
  | page _ bumped => exact paged.page bumped
  | recycled nonzero counts =>
    obtain ⟨rest, freed, -⟩ := freeList_uncons sound.chain nonzero
    have member : use.alloc.freeHead ∈ use.freed := freed ▸ List.mem_cons_self
    refine ⟨?_, paged.next_mod, fun page inside => (perm_take member).mem_iff.mpr (paged.covers page inside)⟩
    have count := paged.count
    rw [List.length_cons]
    dsimp only
    omega
  | returned held counted =>
    refine ⟨?_, paged.next_mod, fun page inside => (perm_return held).mem_iff.mpr (paged.covers page inside)⟩
    have count := paged.count
    have length := List.length_erase_of_mem held
    have positive := List.length_pos_of_mem held
    have le : (4096 : U64) ≤ use.alloc.allocated := counted
    dsimp only
    rw [BitVec.toNat_sub_of_le le, length, toNat_4096]
    omega
  | written _ => exact { paged with }

theorem Reached.paged (aligned : start.toNat % 4096 = 0) (reached : Reached HeapOp.PageCall start extent use) :
    use.Paged start := by
  induction reached with
  | boot mem boot =>
    obtain ⟨endAddr, -, same⟩ := Option.bind_eq_some_iff.mp boot
    cases same
    refine ⟨rfl, aligned, fun page inside => ?_⟩
    have low := inside.low
    have high := inside.high
    dsimp only at high
    omega
  | step op reached call permits step ih => exact ih.effect reached.sound call (effect_of_step permits step)

/-- Every page of the range is held. -/
def Full (start extent : U64) (use : HeapUse) : Prop :=
  ∀ page, PageIn start.toNat (start.toNat + extent.toNat) page → page ∈ use.pages

structure PagesSound (start extent : U64) (use : HeapUse) : Prop where
  distinct : use.pages.Nodup
  inside : ∀ page ∈ use.pages, PageIn start.toNat (start.toNat + extent.toNat) page
  /-- The links lead through the pages that were returned and end. -/
  chain : FreeList use.mem use.alloc.freeHead use.freed
  acyclic : use.freed.Nodup
  disjoint : ∀ page ∈ use.freed, page ∉ use.pages
  counted : use.alloc.allocated.toNat = 4096 * use.pages.length
  recycled : ∀ page alloc mem, use.alloc.allocPage use.mem = some (some page, alloc, mem) → page ∈ use.freed →
    ∀ i < 512, mem ⟨page, i⟩ = 0
  refused : ∀ alloc mem, use.alloc.allocPage use.mem = some (none, alloc, mem) → use.Full start extent
  /-- The sum of the end and a page is formed first. -/
  aborts : use.alloc.allocPage use.mem = none ↔
    use.Full start extent ∧ start.toNat + extent.toNat + 4096 = 2 ^ 64
  returns : ∀ page ∈ use.pages, (use.alloc.freePage use.mem page).isSome

section Pages

variable (nonzero : start ≠ 0) (aligned : start.toNat % 4096 = 0) (multiple : extent.toNat % 4096 = 0)
  (sound : use.Sound start extent) (paged : use.Paged start)

include nonzero sound in
theorem Sound.listed_eq : use.listed = use.freed := by
  have positive : 0 < start.toNat := Nat.pos_of_ne_zero fun zero => nonzero (BitVec.eq_of_toNat_eq zero)
  refine List.takeWhile_eq_self_iff.mpr fun page member => ?_
  have low := (sound.inside page (List.mem_append_left _ member)).low
  rw [decide_eq_true_iff]
  rintro rfl
  exact absurd low (Nat.not_le_of_lt positive)

include sound in
theorem Sound.not_held {page : U64} (member : page ∈ use.freed) : page ∉ use.pages :=
  fun held => (List.disjoint_of_nodup_append sound.distinct) member held

include aligned multiple sound paged in
theorem full_iff : use.Full start extent ↔ use.freed = [] ∧ use.alloc.next = use.alloc.endAddr := by
  have last := sound.end_eq
  have low := sound.low
  have nextLe := sound.next_le
  have nextMod := paged.next_mod
  constructor
  · intro full
    constructor
    · refine List.eq_nil_iff_forall_not_mem.mpr fun page member => sound.not_held member (full page ?_)
      obtain ⟨pageAligned, pageLow, pageHigh⟩ := sound.inside page (List.mem_append_left _ member)
      exact ⟨pageAligned, pageLow, by omega⟩
    · by_contra differ
      have apart : use.alloc.next.toNat ≠ use.alloc.endAddr.toNat := fun eq => differ (BitVec.eq_of_toNat_eq eq)
      have held := full use.alloc.next ⟨nextMod, low, by omega⟩
      have high := (sound.inside _ (List.mem_append_right _ held)).high
      omega
  · rintro ⟨empty, atEnd⟩ page inside
    have held := paged.covers page (by rwa [atEnd, last])
    rwa [empty, List.nil_append] at held

include sound in
/-- A page that was returned comes off the free list. -/
theorem Sound.zeroed {page : U64} {alloc : BumpAllocator} {mem : PhysMem}
    (given : use.alloc.allocPage use.mem = some (some page, alloc, mem)) (member : page ∈ use.freed) {i : ℕ}
    (bound : i < 512) : mem ⟨page, i⟩ = 0 := by
  rcases BumpAllocator.allocPage_cases given with ⟨-, same, rfl, -⟩ | ⟨-, -, bump⟩
  · cases same
    exact if_pos ⟨rfl, bound⟩
  · obtain ⟨-, ⟨refusal, -⟩ | ⟨addr, same, bumped⟩⟩ := BumpAllocator.allocAligned_cases isPowerOfTwo_4096 bump
    · cases refusal
    · cases same
      have high := (sound.inside page (List.mem_append_left _ member)).high
      have above := bumped.le_addr isPowerOfTwo_4096
      omega

include nonzero aligned multiple sound paged in
/-- Beyond the last page there is nothing, and nothing is left on the free list. -/
theorem full_of_past (empty : use.alloc.freeHead = 0)
    (past : use.alloc.endAddr.toNat < use.alloc.next.toNat + 4096) : use.Full start extent := by
  have chain := sound.chain
  rw [sound.listed_eq nonzero] at chain
  refine (full_iff aligned multiple sound paged).mpr ⟨chain.head_eq_zero_iff.mp empty, ?_⟩
  apply BitVec.eq_of_toNat_eq
  have last := sound.end_eq
  have nextLe := sound.next_le
  have nextMod := paged.next_mod
  omega

include nonzero aligned multiple sound paged in
theorem full_of_refused {alloc : BumpAllocator} {mem : PhysMem}
    (refused : use.alloc.allocPage use.mem = some (none, alloc, mem)) : use.Full start extent := by
  rcases BumpAllocator.allocPage_cases refused with ⟨-, given, -⟩ | ⟨empty, -, bump⟩
  · cases given
  · obtain ⟨-, ⟨-, -, past⟩ | ⟨addr, given, -⟩⟩ := BumpAllocator.allocAligned_cases isPowerOfTwo_4096 bump
    · rw [toNat_4096, Nat.alignUp_of_mod_eq_zero (by decide) paged.next_mod] at past
      exact full_of_past nonzero aligned multiple sound paged empty past
    · cases given

include nonzero aligned multiple sound paged in
theorem aborts_iff (below : start.toNat + extent.toNat + 4096 ≤ 2 ^ 64) : use.alloc.allocPage use.mem = none ↔
    use.Full start extent ∧ start.toNat + extent.toNat + 4096 = 2 ^ 64 := by
  have last := sound.end_eq
  have nextLe := sound.next_le
  have budget := sound.budget
  have upNext := Nat.alignUp_of_mod_eq_zero (by decide) paged.next_mod
  rw [BumpAllocator.allocPage_eq_none_iff, BumpAllocator.allocAligned_eq_none_iff isPowerOfTwo_4096, toNat_4096, upNext]
  constructor
  · rintro (⟨nonempty, exceeds⟩ | ⟨empty, overflow | ⟨inside, exceeds⟩⟩)
    · obtain ⟨rest, freed, -⟩ := freeList_uncons sound.chain nonempty
      rw [freed, List.length_cons] at budget
      omega
    · have reaches : 2 ^ 64 ≤ use.alloc.next.toNat + 4096 := by
        by_contra within
        exact overflow ⟨by rw [toNat_4096]; omega, by rw [toNat_4096, upNext]; omega⟩
      exact ⟨full_of_past nonzero aligned multiple sound paged empty (by omega), by omega⟩
    · omega
  · rintro ⟨full, edge⟩
    obtain ⟨freed, atEnd⟩ := (full_iff aligned multiple sound paged).mp full
    have chain := sound.chain
    rw [listed, freed] at chain
    refine .inr ⟨chain.head_eq_zero_iff.mpr rfl, .inl fun fits => ?_⟩
    have rounding := fits.rounding
    rw [atEnd, toNat_4096] at rounding
    omega

end Pages

theorem pages_sound (nonzero : start ≠ 0) (aligned : start.toNat % 4096 = 0) (multiple : extent.toNat % 4096 = 0)
    (below : start.toNat + extent.toNat + 4096 ≤ 2 ^ 64) (reached : Reached HeapOp.PageCall start extent use) :
    use.PagesSound start extent := by
  have sound := reached.sound
  have paged := reached.paged aligned
  have inside {page : U64} (held : page ∈ use.pages) := sound.inside page (List.mem_append_right _ held)
  constructor
  · exact sound.distinct.of_append_right
  · intro page held
    have last := sound.end_eq
    have nextLe := sound.next_le
    exact ⟨(inside held).aligned, (inside held).low, by have high := (inside held).high; omega⟩
  · rw [← sound.listed_eq nonzero]
    exact sound.chain
  · exact sound.distinct.of_append_left
  · intro page member
    exact sound.not_held member
  · exact paged.count
  · intro page alloc mem given member i bound
    exact sound.zeroed given member bound
  · intro alloc mem refused
    exact full_of_refused nonzero aligned multiple sound paged refused
  · exact aborts_iff nonzero aligned multiple sound paged below
  · intro page held
    have counted := sound.counted
    have positive := List.length_pos_of_mem held
    refine Option.isSome_iff_exists.mpr ⟨_, BumpAllocator.freePage_eq_some_iff.mpr ⟨?_, by omega, rfl⟩⟩
    apply BitVec.eq_of_toNat_eq
    rw [show (0xFFF : U64) = BitVec.mask 0 12 by decide, BitVec.toNat_and_mask]
    exact (inside held).aligned

/-- Two pages are taken, the first one is returned, and it is the next one that is given out. -/
theorem pages_sound_recycling : ∃ use : HeapUse,
    use.pages = [heapStart, heapStart + 4096] ∧ use.freed = [] ∧ use.PagesSound heapStart 0x2000 := by
  have boot : Reached HeapOp.PageCall heapStart 0x2000
      ⟨⟨heapStart, heapStart + 0x2000, 0, 0⟩, fun _ => 7, [], [], []⟩ := .boot _ (by decide)
  have first := boot.step .allocPage True.intro True.intro rfl
  have second : Reached HeapOp.PageCall heapStart 0x2000
      ⟨⟨heapStart + 0x2000, heapStart + 0x2000, 0x2000, 0⟩, fun _ => 7, [heapStart + 4096, heapStart], [],
        [⟨heapStart + 4096, 4096⟩, ⟨heapStart, 4096⟩]⟩ :=
    first.step .allocPage True.intro True.intro rfl
  have held : heapStart ∈ [heapStart + 4096, heapStart] := by decide
  have freed := second.step (.freePage heapStart) True.intro held rfl
  have again := freed.step .allocPage True.intro True.intro rfl
  exact ⟨_, rfl, rfl, pages_sound (by decide) (by decide) (by decide) (by decide) again⟩

/-! ## Bounds of aligned requests -/

/-- The call returns and leaves the allocator as it was, or returns a region of the heap that is aligned and apart
from the earlier ones. -/
def Serves (start extent : U64) (use : HeapUse) (size align : U64) : Prop :=
  ∃ result alloc, use.alloc.allocAligned size align = some (result, alloc) ∧
    (result = none ∧ alloc = use.alloc ∨
      ∃ addr, result = some addr ∧ addr.toNat % align.toNat = 0 ∧ start.toNat ≤ addr.toNat ∧
        addr.toNat + size.toNat ≤ start.toNat + extent.toNat) ∧
    (use.grant size alloc result).regions.Pairwise Region.Apart

theorem aligned_request_iff {size align : U64} (reached : Reached (fun _ => True) start extent use)
    (power : align.toNat.isPowerOfTwo) : use.Serves start extent size align ↔ use.alloc.Fits size align := by
  have sound := reached.sound
  constructor
  · rintro ⟨result, alloc, returns, -⟩
    exact (BumpAllocator.allocAligned_cases power returns).1
  · intro fits
    cases returns : use.alloc.allocAligned size align with
    | none =>
      rcases (BumpAllocator.allocAligned_eq_none_iff power).mp returns with exceeds | ⟨inside, exceeds⟩
      · exact absurd fits exceeds
      · -- the bytes that are counted lie below the bump pointer
        have budget := sound.budget
        have above : use.alloc.next.toNat ≤ use.alloc.next.toNat.alignUp align.toNat :=
          Nat.le_alignUp (Nat.pos_of_isPowerOfTwo power)
        have word := use.alloc.endAddr.isLt
        omega
    | some out =>
      obtain ⟨result, alloc⟩ := out
      obtain ⟨-, ⟨rfl, rfl, -⟩ | ⟨addr, rfl, bumped⟩⟩ := BumpAllocator.allocAligned_cases power returns
      · exact ⟨none, use.alloc, returns, .inl ⟨rfl, rfl⟩, sound.apart⟩
      · have after := sound.region power bumped
        have low := sound.low
        have last := sound.end_eq
        have next := bumped.next_eq
        have nextLe := bumped.next_le
        have above := bumped.le_addr power
        refine ⟨some addr, alloc, returns, .inr ⟨addr, rfl, ?_, by omega, by omega⟩, after.apart⟩
        rw [bumped.addr_eq]
        exact Nat.alignUp_mod _ _

theorem aligned_request_new_heap : ∃ use, Reached (fun _ => True) heapStart heapSize use ∧
    use.Serves heapStart heapSize 256 2048 := by
  have boot : Reached (fun _ => True) heapStart heapSize
      ⟨⟨heapStart, heapStart + heapSize, 0, 0⟩, fun _ => 0, [], [], []⟩ := .boot _ (by decide)
  exact ⟨_, boot, (aligned_request_iff boot ⟨11, by decide⟩).mpr ⟨by decide, by decide⟩⟩

/-- A request for almost all addresses aborts on the new heap, although it is only too large. -/
theorem aligned_request_aborts : ∃ use, Reached (fun _ => True) heapStart heapSize use ∧
    use.alloc.allocAligned 0xFFFFFFFFFFFFFFF8 8 = none ∧ ¬use.Serves heapStart heapSize 0xFFFFFFFFFFFFFFF8 8 := by
  have boot : Reached (fun _ => True) heapStart heapSize
      ⟨⟨heapStart, heapStart + heapSize, 0, 0⟩, fun _ => 0, [], [], []⟩ := .boot _ (by decide)
  have aborts :
      (⟨heapStart, heapStart + heapSize, 0, 0⟩ : BumpAllocator).allocAligned 0xFFFFFFFFFFFFFFF8 8 = none := by decide
  refine ⟨_, boot, aborts, ?_⟩
  rintro ⟨result, alloc, returns, -⟩
  cases aborts.symm.trans returns

end HeapUse

end Hypervisor
