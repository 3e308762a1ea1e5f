import Hypervisor.Proofs.Heap

/-! # The allocator and its callers

A heap range is shared by calls of `alloc_aligned` and `alloc`, whose regions stay taken, and of `alloc_page` and
`free_page`, whose pages come and go. The free list is threaded through the pages that were returned, so the
callers may store anywhere but there. `HeapUse` adds to the allocator what its callers hold, and every call keeps
the two apart.
-/

namespace Hypervisor

/-- A call of the allocator, or a store of one of its callers. -/
inductive HeapOp
  | allocAligned (size align : U64)
  | alloc (size : U64)
  | allocPage
  | freePage (page : U64)
  | write (slot : PtePtr) (value : U64)

/-- Only whole pages are requested. -/
def HeapOp.PageCall : HeapOp → Prop
  | .allocAligned _ _ => False
  | .alloc _ => False
  | .allocPage => True
  | .freePage _ => True
  | .write _ _ => True

/-- What a call of `alloc_aligned` returned. -/
structure Region where
  addr : U64
  size : U64

def Region.Apart (r s : Region) : Prop :=
  r.addr.toNat + r.size.toNat ≤ s.addr.toNat ∨ s.addr.toNat + s.size.toNat ≤ r.addr.toNat

structure HeapUse where
  alloc : BumpAllocator
  mem : PhysMem
  /-- Ghost: the pages that `alloc_page` gave out and that were not returned. -/
  pages : List U64
  /-- Ghost: the pages that were returned and not given out again. -/
  freed : List U64
  /-- Ghost: what the bump pointer gave out, newest first. -/
  regions : List Region

namespace HeapUse

def grant (use : HeapUse) (size : U64) (alloc : BumpAllocator) : Option U64 → HeapUse
  | none => { use with alloc }
  | some addr => { use with alloc, regions := ⟨addr, size⟩ :: use.regions }

/-- A page comes off the free list unless the list is empty. -/
def grantPage (use : HeapUse) (alloc : BumpAllocator) (mem : PhysMem) : Option U64 → HeapUse
  | none => { use with alloc, mem }
  | some page =>
      if use.alloc.freeHead = 0 then
        { use with alloc, mem, pages := page :: use.pages, regions := ⟨page, 4096⟩ :: use.regions }
      else { use with alloc, mem, pages := page :: use.pages, freed := use.freed.erase page }

def step (use : HeapUse) : HeapOp → Option HeapUse
  | .allocAligned size align => (use.alloc.allocAligned size align).map fun out => use.grant size out.2 out.1
  | .alloc size => (use.alloc.alloc size).map fun out => use.grant size out.2 out.1
  | .allocPage => (use.alloc.allocPage use.mem).map fun out => use.grantPage out.2.1 out.2.2 out.1
  | .freePage page => (use.alloc.freePage use.mem page).map fun out =>
      { use with alloc := out.1, mem := out.2, pages := use.pages.erase page, freed := page :: use.freed }
  | .write slot value => some { use with mem := Function.update use.mem slot value }

/-- Alignments are powers of two, a page is returned by who holds it, and stores stay off the pages that were
returned. -/
def Permits (use : HeapUse) : HeapOp → Prop
  | .allocAligned _ align => align.toNat.isPowerOfTwo
  | .alloc _ => True
  | .allocPage => True
  | .freePage page => page ∈ use.pages
  | .write slot _ => slot.table ∉ use.freed

/-- The states of a heap that is used through the given calls. -/
inductive Reached (calls : HeapOp → Prop) (start extent : U64) : HeapUse → Prop
  | boot {alloc : BumpAllocator} (mem : PhysMem) :
      BumpAllocator.new start extent = some alloc → Reached calls start extent ⟨alloc, mem, [], [], []⟩
  | step {use use' : HeapUse} (op : HeapOp) : Reached calls start extent use → calls op → use.Permits op →
      use.step op = some use' → Reached calls start extent use'

end HeapUse

/-- A 4KB-aligned page between two addresses. -/
structure PageIn (low high : ℕ) (page : U64) : Prop where
  aligned : page.toNat % 4096 = 0
  low : low ≤ page.toNat
  high : page.toNat + 4096 ≤ high

namespace HeapUse

variable {use use' : HeapUse} {start extent : U64} {op : HeapOp}

/-- The free list, as far as links can tell: a page at address 0 ends it. -/
abbrev listed (use : HeapUse) : List U64 := use.freed.takeWhile (· ≠ 0)

structure Sound (start extent : U64) (use : HeapUse) : Prop where
  end_eq : use.alloc.endAddr.toNat = start.toNat + extent.toNat
  low : start.toNat ≤ use.alloc.next.toNat
  next_le : use.alloc.next.toNat ≤ use.alloc.endAddr.toNat
  chain : FreeList use.mem use.alloc.freeHead use.listed
  distinct : (use.freed ++ use.pages).Nodup
  inside : ∀ page ∈ use.freed ++ use.pages, PageIn start.toNat use.alloc.next.toNat page
  counted : 4096 * use.pages.length ≤ use.alloc.allocated.toNat
  budget : start.toNat + use.alloc.allocated.toNat + 4096 * use.freed.length ≤ use.alloc.next.toNat
  below : ∀ region ∈ use.regions, region.addr.toNat + region.size.toNat ≤ use.alloc.next.toNat
  apart : use.regions.Pairwise Region.Apart

/-! ## Steps -/

/-- What a step can do. -/
inductive Effect (use : HeapUse) : HeapOp → HeapUse → Prop
  | refused {op : HeapOp} : Effect use op use
  | region {op : HeapOp} {size align addr : U64} {alloc : BumpAllocator} : ¬op.PageCall →
      align.toNat.isPowerOfTwo → use.alloc.Bumped size align addr alloc →
      Effect use op { use with alloc, regions := ⟨addr, size⟩ :: use.regions }
  | page {addr : U64} {alloc : BumpAllocator} : use.alloc.freeHead = 0 → use.alloc.Bumped 4096 4096 addr alloc →
      Effect use .allocPage { use with alloc, pages := addr :: use.pages, regions := ⟨addr, 4096⟩ :: use.regions }
  | recycled {allocated : U64} : use.alloc.freeHead ≠ 0 → allocated.toNat = use.alloc.allocated.toNat + 4096 →
      Effect use .allocPage { use with
        alloc := { use.alloc with freeHead := use.mem ⟨use.alloc.freeHead, 0⟩, allocated }
        mem := zeroPage use.mem use.alloc.freeHead
        pages := use.alloc.freeHead :: use.pages
        freed := use.freed.erase use.alloc.freeHead }
  | returned {page : U64} : page ∈ use.pages → 4096 ≤ use.alloc.allocated.toNat →
      Effect use (.freePage page) { use with
        alloc := { use.alloc with freeHead := page, allocated := use.alloc.allocated - 4096 }
        mem := Function.update use.mem ⟨page, 0⟩ use.alloc.freeHead
        pages := use.pages.erase page
        freed := page :: use.freed }
  | written {slot : PtePtr} {value : U64} : slot.table ∉ use.freed →
      Effect use (.write slot value) { use with mem := Function.update use.mem slot value }

theorem effect_of_allocAligned {size align : U64} {out : Option U64 × BumpAllocator} (other : ¬op.PageCall)
    (power : align.toNat.isPowerOfTwo) (returns : use.alloc.allocAligned size align = some out) :
    use.Effect op (use.grant size out.2 out.1) := by
  obtain ⟨result, alloc⟩ := out
  obtain ⟨-, ⟨rfl, rfl, -⟩ | ⟨addr, rfl, bumped⟩⟩ := BumpAllocator.allocAligned_cases power returns
  · exact .refused
  · exact .region other power bumped

theorem effect_of_step (permits : use.Permits op) (step : use.step op = some use') : use.Effect op use' := by
  cases op with
  | allocAligned size align =>
    obtain ⟨out, returns, rfl⟩ := Option.map_eq_some_iff.mp step
    exact effect_of_allocAligned id permits returns
  | alloc size =>
    obtain ⟨out, returns, rfl⟩ := Option.map_eq_some_iff.mp step
    exact effect_of_allocAligned id isPowerOfTwo_8 returns
  | allocPage =>
    obtain ⟨⟨result, alloc, mem⟩, returns, rfl⟩ := Option.map_eq_some_iff.mp step
    rcases BumpAllocator.allocPage_cases returns with
      ⟨listed, rfl, rfl, allocated, counts, rfl⟩ | ⟨empty, rfl, bump⟩
    · rw [grantPage, if_neg listed]
      exact .recycled listed counts
    · obtain ⟨-, ⟨rfl, rfl, -⟩ | ⟨addr, rfl, bumped⟩⟩ := BumpAllocator.allocAligned_cases isPowerOfTwo_4096 bump
      · exact .refused
      · rw [grantPage, if_pos empty]
        exact .page empty bumped
  | freePage page =>
    obtain ⟨out, returns, rfl⟩ := Option.map_eq_some_iff.mp step
    obtain ⟨-, counted, rfl⟩ := BumpAllocator.freePage_eq_some_iff.mp returns
    exact .returned permits counted
  | write slot value =>
    cases step
    exact .written permits

/-! ## Callers and free list stay apart -/

/-- The link of a page that is listed leads to the pages returned before it. -/
theorem freeList_uncons {mem : PhysMem} {head : U64} {freed : List U64}
    (chain : FreeList mem head (freed.takeWhile (· ≠ 0))) (nonzero : head ≠ 0) :
    ∃ rest, freed = head :: rest ∧ FreeList mem (mem ⟨head, 0⟩) (rest.takeWhile (· ≠ 0)) := by
  cases freed with
  | nil => exact absurd (chain.head_eq_zero_iff.mpr rfl) nonzero
  | cons page rest =>
    by_cases zero : page = 0
    · rw [zero, List.takeWhile_cons_of_neg (by simp)] at chain
      exact absurd (chain.head_eq_zero_iff.mpr rfl) nonzero
    · rw [List.takeWhile_cons_of_pos (by simpa using zero)] at chain
      obtain ⟨rfl, -, tail⟩ := chain.of_cons
      exact ⟨rest, rfl, tail⟩

/-- A page that moves to the callers. -/
theorem perm_take {freed pages : List U64} {page : U64} (member : page ∈ freed) :
    (freed.erase page ++ page :: pages).Perm (freed ++ pages) :=
  List.perm_middle.trans ((List.perm_cons_erase member).symm.append_right pages)

/-- A page that moves to the free list. -/
theorem perm_return {freed pages : List U64} {page : U64} (member : page ∈ pages) :
    (page :: freed ++ pages.erase page).Perm (freed ++ pages) :=
  List.perm_middle.symm.trans ((List.perm_cons_erase member).symm.append_left freed)

/-- A page whose link is the head becomes the head. -/
theorem freeList_push {mem : PhysMem} {head page : U64} {freed : List U64}
    (chain : FreeList mem head (freed.takeWhile (· ≠ 0))) (unlisted : page ∉ freed) :
    FreeList (Function.update mem ⟨page, 0⟩ head) page ((page :: freed).takeWhile (· ≠ 0)) := by
  by_cases zero : page = 0
  · rw [List.takeWhile_cons_of_neg (by simpa using zero), zero]
    exact .nil
  · rw [List.takeWhile_cons_of_pos (by simpa using zero)]
    refine .cons zero ?_
    rw [Function.update_self]
    refine chain.frame fun q member => Function.update_of_ne ?_ _ _
    intro same
    cases same
    exact unlisted ((List.takeWhile_prefix _).subset member)

theorem Sound.frame (sound : use.Sound start extent) {mem : PhysMem}
    (agree : ∀ page ∈ use.freed, mem ⟨page, 0⟩ = use.mem ⟨page, 0⟩) : { use with mem }.Sound start extent :=
  { sound with chain := sound.chain.frame fun page member => agree page ((List.takeWhile_prefix _).subset member) }

theorem Sound.region (sound : use.Sound start extent) {size align addr : U64} {alloc : BumpAllocator}
    (power : align.toNat.isPowerOfTwo) (bumped : use.alloc.Bumped size align addr alloc) :
    { use with alloc, regions := ⟨addr, size⟩ :: use.regions }.Sound start extent := by
  have above := bumped.le_addr power
  have next := bumped.next_eq
  have last := bumped.next_le
  have allocated := bumped.allocated_eq
  constructor
  · rw [bumped.endAddr_eq]
    exact sound.end_eq
  · have low := sound.low
    dsimp only
    omega
  · rw [bumped.endAddr_eq]
    exact last
  · rw [bumped.freeHead_eq]
    exact sound.chain
  · exact sound.distinct
  · intro page member
    obtain ⟨aligned, low, high⟩ := sound.inside page member
    exact ⟨aligned, low, by dsimp only; omega⟩
  · have counted := sound.counted
    dsimp only
    omega
  · have budget := sound.budget
    dsimp only
    omega
  · intro region member
    rcases List.mem_cons.mp member with rfl | old
    · exact next.ge
    · have below := sound.below region old
      dsimp only
      omega
  · refine List.pairwise_cons.mpr ⟨fun region old => .inr ?_, sound.apart⟩
    have below := sound.below region old
    dsimp only
    omega

/-- A new page, once it is counted. -/
theorem Sound.hold (sound : use.Sound start extent) {page : U64}
    (inside : PageIn start.toNat use.alloc.next.toNat page) (fresh : page ∉ use.freed ++ use.pages)
    (counted : 4096 * use.pages.length + 4096 ≤ use.alloc.allocated.toNat) :
    { use with pages := page :: use.pages }.Sound start extent := by
  have more : (use.freed ++ page :: use.pages).Perm (page :: (use.freed ++ use.pages)) := List.perm_middle
  refine { sound with distinct := ?_, inside := ?_, counted := ?_ }
  · exact more.nodup_iff.mpr (List.nodup_cons.mpr ⟨fresh, sound.distinct⟩)
  · intro q member
    rcases List.mem_cons.mp (more.mem_iff.mp member) with rfl | old
    · exact inside
    · exact sound.inside q old
  · rw [List.length_cons]
    omega

theorem Sound.page (sound : use.Sound start extent) {addr : U64} {alloc : BumpAllocator}
    (bumped : use.alloc.Bumped 4096 4096 addr alloc) :
    { use with alloc, pages := addr :: use.pages, regions := ⟨addr, 4096⟩ :: use.regions }.Sound start extent := by
  have size := toNat_4096
  have above := bumped.le_addr isPowerOfTwo_4096
  have next := bumped.next_eq
  have aligned : addr.toNat % 4096 = 0 := by
    rw [bumped.addr_eq, size]
    exact Nat.alignUp_mod _ _
  have low := sound.low
  refine (sound.region isPowerOfTwo_4096 bumped).hold ⟨aligned, by omega, by dsimp only; omega⟩ ?_ ?_
  · intro member
    have high := (sound.inside addr member).high
    omega
  · have counted := sound.counted
    have allocated := bumped.allocated_eq
    dsimp only
    omega

theorem Sound.recycled (sound : use.Sound start extent) {allocated : U64} (nonzero : use.alloc.freeHead ≠ 0)
    (counts : allocated.toNat = use.alloc.allocated.toNat + 4096) :
    { use with
      alloc := { use.alloc with freeHead := use.mem ⟨use.alloc.freeHead, 0⟩, allocated }
      mem := zeroPage use.mem use.alloc.freeHead
      pages := use.alloc.freeHead :: use.pages
      freed := use.freed.erase use.alloc.freeHead : HeapUse }.Sound start extent := by
  obtain ⟨rest, freed, chain⟩ := freeList_uncons sound.chain nonzero
  have moved : (use.freed.erase use.alloc.freeHead ++ use.alloc.freeHead :: use.pages).Perm
      (use.freed ++ use.pages) := perm_take (freed ▸ List.mem_cons_self)
  rw [show use.freed.erase use.alloc.freeHead = rest by rw [freed, List.erase_cons_head]] at moved ⊢
  have distinct := moved.nodup_iff.mpr sound.distinct
  refine { sound with chain := ?_, distinct, inside := ?_, counted := ?_, budget := ?_ }
  · refine chain.frame fun page member => if_neg ?_
    rintro ⟨rfl, -⟩
    exact (List.nodup_middle.mp distinct).notMem
      (List.mem_append_left _ ((List.takeWhile_prefix _).subset member))
  · intro page member
    exact sound.inside page (moved.mem_iff.mp member)
  · have counted := sound.counted
    rw [List.length_cons]
    dsimp only
    omega
  · have budget := sound.budget
    rw [freed, List.length_cons] at budget
    dsimp only
    omega

theorem Sound.returned (sound : use.Sound start extent) {page : U64} (held : page ∈ use.pages)
    (counted : 4096 ≤ use.alloc.allocated.toNat) :
    { use with
      alloc := { use.alloc with freeHead := page, allocated := use.alloc.allocated - 4096 }
      mem := Function.update use.mem ⟨page, 0⟩ use.alloc.freeHead
      pages := use.pages.erase page
      freed := page :: use.freed : HeapUse }.Sound start extent := by
  have moved : (page :: use.freed ++ use.pages.erase page).Perm (use.freed ++ use.pages) := perm_return held
  have distinct := moved.nodup_iff.mpr sound.distinct
  have unlisted : page ∉ use.freed := fun member =>
    (List.nodup_cons.mp distinct).1 (List.mem_append_left _ member)
  have allocated : (use.alloc.allocated - 4096).toNat + 4096 = use.alloc.allocated.toNat := by
    have le : (4096 : U64) ≤ use.alloc.allocated := counted
    rw [BitVec.toNat_sub_of_le le]
    exact Nat.sub_add_cancel counted
  have length := List.length_erase_of_mem held
  refine { sound with chain := ?_, distinct, inside := ?_, counted := ?_, budget := ?_ }
  · exact freeList_push sound.chain unlisted
  · intro q member
    exact sound.inside q (moved.mem_iff.mp member)
  · have total := sound.counted
    have positive := List.length_pos_of_mem held
    dsimp only
    omega
  · have budget := sound.budget
    dsimp only
    rw [List.length_cons, Nat.mul_succ]
    linarith

theorem Sound.effect (sound : use.Sound start extent) (effect : use.Effect op use') : use'.Sound start extent := by
  cases effect with
  | refused => exact sound
  | region _ power bumped => exact sound.region power bumped
  | page _ bumped => exact sound.page bumped
  | recycled nonzero counts => exact sound.recycled nonzero counts
  | returned held counted => exact sound.returned held counted
  | written unlisted =>
    refine sound.frame fun page member => Function.update_of_ne ?_ _ _
    rintro rfl
    exact unlisted member

theorem sound_boot {alloc : BumpAllocator} (mem : PhysMem) (boot : BumpAllocator.new start extent = some alloc) :
    Sound start extent ⟨alloc, mem, [], [], []⟩ := by
  obtain ⟨endAddr, sum, same⟩ := Option.bind_eq_some_iff.mp boot
  cases same
  have last := checkedAdd_eq_some_iff.mp sum
  refine ⟨last, Nat.le_refl _, ?_, .nil, .nil, ?_, Nat.zero_le _, Nat.le_refl _, ?_, .nil⟩
  · dsimp only
    omega
  · exact fun _ member => absurd member List.not_mem_nil
  · exact fun _ member => absurd member List.not_mem_nil

theorem Reached.sound {calls : HeapOp → Prop} (reached : Reached calls start extent use) :
    use.Sound start extent := by
  induction reached with
  | boot mem boot => exact sound_boot mem boot
  | step op _ _ permits step sound => exact sound.effect (effect_of_step permits step)

end HeapUse

end Hypervisor
