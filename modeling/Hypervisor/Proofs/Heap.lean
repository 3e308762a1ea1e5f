import Hypervisor.Proofs.Allocator
import Mathlib.Tactic.Linarith

/-! # Soundness of the heap

A sound heap hands out pages that nobody uses. `HeapSound` fixes the pages on the free list and
the pages above the bump pointer as unused; `room` counts them, so it is the exact number of
requests that will succeed. One specification of `alloc_page` follows, and the fact that stores to
used pages do not disturb the heap.
-/

namespace Hypervisor

/-- One past the last byte of the heap. -/
def heapEnd : ℕ := heapStart.toNat + heapSize.toNat

/-- A 4KB-aligned page of the heap. -/
structure HeapPage (page : U64) : Prop where
  aligned : page.toNat % 4096 = 0
  low : heapStart.toNat ≤ page.toNat
  high : page.toNat + 4096 ≤ heapEnd

theorem and_pteAddrMask_of_aligned {page : U64} (aligned : page.toNat % 4096 = 0) (bound : page.toNat < 2 ^ 48) :
    page &&& pteAddrMask = page := by
  have low : page = page &&& ~~~(BitVec.mask 0 12) := by
    apply BitVec.eq_of_toNat_eq
    rw [BitVec.toNat_and_not_mask]
    omega
  apply BitVec.eq_of_getLsbD_eq
  intro i _
  have bit := congrArg (BitVec.getLsbD · i) low
  have upper : 48 ≤ i → page.getLsbD i = false := fun le =>
    Nat.testBit_lt_two_pow (lt_of_lt_of_le bound (Nat.pow_le_pow_right (by decide : 0 < 2) le))
  simp only [BitVec.getLsbD_and, BitVec.getLsbD_not, BitVec.getLsbD_mask,
    show pteAddrMask = BitVec.mask 12 36 by decide] at bit ⊢
  grind

theorem HeapPage.table {page : U64} (heap : HeapPage page) : page &&& pteAddrMask = page := by
  obtain ⟨aligned, -, high⟩ := heap
  exact and_pteAddrMask_of_aligned aligned (lt_of_le_of_lt (by omega : page.toNat ≤ heapEnd) (by decide))

theorem HeapPage.ne_zero {page : U64} (heap : HeapPage page) : page ≠ 0 := by
  rintro rfl
  have low := heap.low
  simp [heapStart] at low

/-- The pages on the free list that starts at a head. -/
inductive FreeList (mem : PhysMem) : U64 → List U64 → Prop
  | nil : FreeList mem 0 []
  | cons {page : U64} {free : List U64} :
      page ≠ 0 → FreeList mem (mem ⟨page, 0⟩) free → FreeList mem page (page :: free)

/-- The next page above the bump pointer. -/
def BumpAllocator.top (alloc : BumpAllocator) : ℕ := (alloc.next.toNat + 4095) / 4096 * 4096

/-- How many pages are left above the bump pointer. -/
def BumpAllocator.bumpRoom (alloc : BumpAllocator) : ℕ := (alloc.endAddr.toNat - alloc.top) / 4096

/-- The free list and the pages above the bump pointer are unused. -/
structure BumpAllocator.Sound (alloc : BumpAllocator) (mem : PhysMem) (used : U64 → Prop)
    (free : List U64) : Prop where
  chain : FreeList mem alloc.freeHead free
  nodup : free.Nodup
  freePage : ∀ page ∈ free, HeapPage page ∧ ¬used page ∧ page.toNat < alloc.next.toNat
  above : ∀ page : U64, alloc.next.toNat ≤ page.toNat → ¬used page
  low : heapStart.toNat ≤ alloc.next.toNat
  next_le : alloc.next.toNat ≤ heapEnd
  end_le : alloc.endAddr.toNat ≤ heapEnd
  budget : alloc.allocated.toNat + 4096 * (free.length + alloc.bumpRoom) < 2 ^ 64

/-- A heap that can serve `room` more pages. Before it is initialised it serves none. -/
def HeapSound (heap : Option BumpAllocator) (mem : PhysMem) (used : U64 → Prop) (room : ℕ) : Prop :=
  match heap with
  | none => room = 0
  | some alloc => ∃ free, alloc.Sound mem used free ∧ room = free.length + alloc.bumpRoom

section Frame

variable {mem mem' : PhysMem} {used used' : U64 → Prop} {free : List U64} {head : U64}

theorem FreeList.head_eq_zero_iff (chain : FreeList mem head free) : head = 0 ↔ free = [] := by
  cases chain with
  | nil => simp
  | cons nonzero rest => simpa using nonzero

theorem FreeList.of_cons {page : U64} (chain : FreeList mem head (page :: free)) :
    head = page ∧ page ≠ 0 ∧ FreeList mem (mem ⟨page, 0⟩) free := by
  cases chain with
  | cons nonzero rest => exact ⟨rfl, nonzero, rest⟩

theorem FreeList.frame (chain : FreeList mem head free)
    (agree : ∀ page ∈ free, mem' ⟨page, 0⟩ = mem ⟨page, 0⟩) : FreeList mem' head free := by
  induction chain with
  | nil => exact .nil
  | @cons page free nonzero rest ih =>
    refine .cons nonzero ?_
    rw [agree page List.mem_cons_self]
    exact ih fun q member => agree q (List.mem_cons_of_mem page member)

theorem BumpAllocator.Sound.frame {alloc : BumpAllocator} (sound : alloc.Sound mem used free)
    (agree : ∀ page, ¬used page → mem' ⟨page, 0⟩ = mem ⟨page, 0⟩) : alloc.Sound mem' used free :=
  { sound with chain := sound.chain.frame fun page member => agree page (sound.freePage page member).2.1 }

/-- Stores to pages in use do not disturb the heap. -/
theorem HeapSound.frame {heap : Option BumpAllocator} {room : ℕ}
    (sound : HeapSound heap mem used room)
    (agree : ∀ page, ¬used page → mem' ⟨page, 0⟩ = mem ⟨page, 0⟩) : HeapSound heap mem' used room := by
  cases heap with
  | none => exact sound
  | some alloc =>
    obtain ⟨free, inner, count⟩ := sound
    exact ⟨free, inner.frame agree, count⟩

end Frame

section Allocation

variable {mem : PhysMem} {used : U64 → Prop} {free : List U64} {alloc : BumpAllocator}

theorem checkedAdd_of_lt {x y : U64} (bound : x.toNat + y.toNat < 2 ^ 64) :
    checkedAdd x y = some (x + y) := if_pos bound

theorem bind_of_eq_some {α β : Type} {x : Option α} {y : α} (f : α → Option β) (eq : x = some y) :
    (x >>= f) = f y := by
  rw [eq]
  rfl

/-- What remains of the bump region after one page. -/
def BumpAllocator.bumped (alloc : BumpAllocator) : BumpAllocator :=
  { alloc with next := BitVec.ofNat 64 (alloc.top + 4096), allocated := alloc.allocated + 4096 }

theorem BumpAllocator.Sound.top_lt (sound : alloc.Sound mem used free) : alloc.top < 2 ^ 32 := by
  have next := sound.next_le
  have last : heapEnd = 0x42000000 := by decide
  unfold top
  omega

theorem BumpAllocator.alignUp_next : alloc.next.toNat.alignUp (4096 : U64).toNat = alloc.top := by
  rw [toNat_4096, Nat.alignUp, Nat.add_sub_assoc (by decide), top]

theorem BumpAllocator.Sound.fits (sound : alloc.Sound mem used free) : alloc.Fits 4096 4096 := by
  have next := sound.next_le
  have last : heapEnd = 0x42000000 := by decide
  have topLt := sound.top_lt
  refine ⟨?_, ?_⟩
  · rw [toNat_4096]
    omega
  · rw [alignUp_next, toNat_4096]
    omega

/-- The bump pointer serves the next aligned page as long as it ends inside the heap. -/
theorem BumpAllocator.Sound.allocAligned (sound : alloc.Sound mem used free) :
    alloc.allocAligned 4096 4096 =
      if alloc.bumpRoom = 0 then some (none, alloc)
      else some (some (BitVec.ofNat 64 alloc.top), alloc.bumped) := by
  have topLt := sound.top_lt
  have budget := sound.budget
  have addr : alloc.alignedNext 4096 = BitVec.ofNat 64 alloc.top := by
    apply BitVec.eq_of_toNat_eq
    rw [toNat_alignedNext isPowerOfTwo_4096 sound.fits.rounding, alignUp_next, BitVec.toNat_ofNat]
    omega
  have past : BitVec.ofNat 64 alloc.top + 4096 = BitVec.ofNat 64 (alloc.top + 4096) :=
    (BitVec.ofNat_add alloc.top 4096).symm
  have full : alloc.endAddr.toNat < alloc.top + 4096 ↔ alloc.bumpRoom = 0 := by
    rw [bumpRoom]
    omega
  rw [allocAligned_of_fits isPowerOfTwo_4096 sound.fits, alignUp_next, toNat_4096, addr, past]
  simp only [full]
  split_ifs with none
  · rfl
  · rw [checkedAdd_of_lt (by rw [toNat_4096]; omega)]
    rfl

@[simp] theorem BumpAllocator.bumped_endAddr : alloc.bumped.endAddr = alloc.endAddr := by
  cases alloc
  rfl

@[simp] theorem BumpAllocator.bumped_freeHead : alloc.bumped.freeHead = alloc.freeHead := by
  cases alloc
  rfl

@[simp] theorem BumpAllocator.bumped_allocated : alloc.bumped.allocated = alloc.allocated + 4096 := by
  cases alloc
  rfl

theorem BumpAllocator.Sound.topPage (sound : alloc.Sound mem used free) (room : alloc.bumpRoom ≠ 0) :
    HeapPage (BitVec.ofNat 64 alloc.top) ∧ ¬used (BitVec.ofNat 64 alloc.top) := by
  have topLt := sound.top_lt
  have low := sound.low
  have last := sound.end_le
  have topNat : (BitVec.ofNat 64 alloc.top).toNat = alloc.top := by
    rw [BitVec.toNat_ofNat]
    omega
  have nextTop : alloc.next.toNat ≤ alloc.top := by unfold top; omega
  refine ⟨⟨?_, by omega, ?_⟩, sound.above _ (by omega)⟩
  · rw [topNat, top]
    omega
  · unfold bumpRoom at room
    omega

/-- A page taken from the bump region leaves a sound heap, whoever uses the page. -/
theorem BumpAllocator.Sound.bumped (sound : alloc.Sound mem used free) (room : alloc.bumpRoom ≠ 0)
    {used' : U64 → Prop} (uses : ∀ q, used' q → q = BitVec.ofNat 64 alloc.top ∨ used q) :
    alloc.bumped.Sound mem used' free ∧ alloc.bumpRoom = alloc.bumped.bumpRoom + 1 := by
  have topLt := sound.top_lt
  have last := sound.end_le
  have budget := sound.budget
  have nextTop : alloc.next.toNat ≤ alloc.top := by unfold top; omega
  have nextNat : alloc.bumped.next.toNat = alloc.top + 4096 := by
    rw [BumpAllocator.bumped, BitVec.toNat_ofNat]
    omega
  have topNat : (BitVec.ofNat 64 alloc.top).toNat = alloc.top := by
    rw [BitVec.toNat_ofNat]
    omega
  have topNext : alloc.bumped.top = alloc.top + 4096 := by
    rw [top, nextNat]
    unfold top
    omega
  have less : alloc.bumpRoom = alloc.bumped.bumpRoom + 1 := by
    unfold bumpRoom at room ⊢
    rw [topNext, bumped_endAddr]
    omega
  have within : alloc.top + 4096 ≤ heapEnd := by
    unfold bumpRoom at room
    omega
  refine ⟨⟨?_, sound.nodup, ?_, ?_, ?_, ?_, ?_, ?_⟩, less⟩
  · rw [bumped_freeHead]
    exact sound.chain
  · intro page member
    obtain ⟨heap, unused, below⟩ := sound.freePage page member
    refine ⟨heap, fun inUse => ?_, by omega⟩
    rcases uses page inUse with rfl | old
    · omega
    · exact unused old
  · intro page le inUse
    rcases uses page inUse with rfl | old
    · omega
    · exact sound.above page (by omega) old
  · have low := sound.low
    omega
  · rw [nextNat]
    exact within
  · rw [bumped_endAddr]
    exact last
  · rw [bumped_allocated, BitVec.toNat_add, toNat_4096]
    omega

/-- What remains after the head of the free list is taken. -/
def BumpAllocator.popped (alloc : BumpAllocator) (head : U64) : BumpAllocator :=
  { alloc with freeHead := head, allocated := alloc.allocated + 4096 }

@[simp] theorem BumpAllocator.popped_next (head : U64) : (alloc.popped head).next = alloc.next := by
  cases alloc
  rfl

@[simp] theorem BumpAllocator.popped_endAddr (head : U64) :
    (alloc.popped head).endAddr = alloc.endAddr := by
  cases alloc
  rfl

@[simp] theorem BumpAllocator.popped_bumpRoom (head : U64) :
    (alloc.popped head).bumpRoom = alloc.bumpRoom := by
  rw [bumpRoom, bumpRoom, top, top, popped_next, popped_endAddr]

/-- A page taken from the free list leaves a sound heap, whoever uses the page. -/
theorem BumpAllocator.Sound.popped {page : U64} (sound : alloc.Sound mem used (page :: free))
    {used' : U64 → Prop} (uses : ∀ q, used' q → q = page ∨ used q) :
    (alloc.popped (mem ⟨page, 0⟩)).Sound (zeroPage mem page) used' free := by
  obtain ⟨-, -, below⟩ := sound.freePage page List.mem_cons_self
  obtain ⟨absent, distinct⟩ := List.nodup_cons.mp sound.nodup
  obtain ⟨-, -, chain⟩ := sound.chain.of_cons
  refine ⟨?_, distinct, ?_, ?_, ?_, ?_, ?_, ?_⟩
  · refine chain.frame fun q member => if_neg ?_
    rintro ⟨rfl, -⟩
    exact absent member
  · intro q member
    obtain ⟨heap, unused, lt⟩ := sound.freePage q (List.mem_cons_of_mem page member)
    refine ⟨heap, fun inUse => ?_, by rwa [popped_next]⟩
    rcases uses q inUse with rfl | old
    · exact absent member
    · exact unused old
  · intro q le inUse
    rw [popped_next] at le
    rcases uses q inUse with rfl | old
    · exact absurd le (Nat.not_le_of_lt below)
    · exact sound.above q le old
  · simpa only [popped_next] using sound.low
  · simpa only [popped_next] using sound.next_le
  · simpa only [popped_endAddr] using sound.end_le
  · have budget := sound.budget
    rw [popped_bumpRoom]
    simp only [BumpAllocator.popped, BitVec.toNat_add, List.length_cons] at budget ⊢
    rw [toNat_4096]
    omega

/-- One page was taken from the heap and `room` are left. -/
structure Phys.Allocated (s : Phys) (used : U64 → Prop) (room : ℕ) (page : U64) (s' : Phys) : Prop where
  result : s.allocPage = some (some page, s')
  heapPage : HeapPage page
  unused : ¬used page
  refused : s'.refused = s.refused
  frame : ∀ slot : PtePtr, slot.table ≠ page → s'.mem slot = s.mem slot
  heap : ∀ used' : U64 → Prop, (∀ q, used' q → q = page ∨ used q) → HeapSound s'.heap s'.mem used' room

/-- A sound heap refuses exactly when it has no page left, and then changes nothing. -/
theorem Phys.allocPage_cases {s : Phys} {room : ℕ} (sound : HeapSound s.heap s.mem used room) :
    room = 0 ∧ s.allocPage = some (none, { s with refused := s.refused + 1 }) ∨
      ∃ n page s', room = n + 1 ∧ s.Allocated used n page s' := by
  obtain ⟨mem, heap, refused⟩ := s
  cases heap with
  | none => exact .inl ⟨sound, rfl⟩
  | some alloc =>
    obtain ⟨free, inner, rfl⟩ := sound
    cases free with
    | nil =>
      have empty : alloc.freeHead = 0 := inner.chain.head_eq_zero_iff.mpr rfl
      by_cases full : alloc.bumpRoom = 0
      · refine .inl ⟨by simp [full], ?_⟩
        simp only [Phys.allocPage, BumpAllocator.allocPage, empty, ne_eq, not_true_eq_false, if_false,
          inner.allocAligned, full, if_true]
        rfl
      · refine .inr ⟨alloc.bumped.bumpRoom, BitVec.ofNat 64 alloc.top,
          ⟨mem, some alloc.bumped, refused⟩, ?_, ?_⟩
        · simpa using (inner.bumped full fun _ => Or.inr).2
        · refine ⟨?_, ?_, ?_, rfl, fun _ _ => rfl, ?_⟩
          · simp only [Phys.allocPage, BumpAllocator.allocPage, empty, ne_eq, not_true_eq_false,
              if_false, inner.allocAligned, full]
            rfl
          · exact (inner.topPage full).1
          · exact (inner.topPage full).2
          · intro used' uses
            exact ⟨[], (inner.bumped full uses).1, by simp⟩
    | cons page rest =>
      obtain ⟨heapPage, unused, -⟩ := inner.freePage page List.mem_cons_self
      obtain ⟨head, nonzero, -⟩ := inner.chain.of_cons
      have fits : alloc.allocated.toNat + (4096 : U64).toNat < 2 ^ 64 := by
        have budget := inner.budget
        simp only [List.length_cons] at budget
        rw [toNat_4096]
        omega
      refine .inr ⟨rest.length + alloc.bumpRoom, page,
        ⟨zeroPage mem page, some (alloc.popped (mem ⟨page, 0⟩)), refused⟩, ?_, ?_⟩
      · simp only [List.length_cons]
        omega
      · refine ⟨?_, heapPage, unused, rfl, ?_, ?_⟩
        · simp only [Phys.allocPage, BumpAllocator.allocPage, head, ne_eq, nonzero, not_false_eq_true,
            if_true, checkedAdd_of_lt fits]
          rfl
        · intro slot other
          exact if_neg fun same => other same.1
        · intro used' uses
          exact ⟨rest, inner.popped uses, by rw [BumpAllocator.popped_bumpRoom]⟩

/-- Would `k` successive page requests succeed? -/
def Phys.canAlloc : ℕ → Phys → Bool
  | 0, _ => true
  | k + 1, s =>
      match s.allocPage with
      | some (some _, s') => s'.canAlloc k
      | _ => false

/-- `room` is the exact number of requests that succeed. -/
theorem Phys.canAlloc_iff {s : Phys} {room k : ℕ} (sound : HeapSound s.heap s.mem used room) :
    s.canAlloc k = true ↔ k ≤ room := by
  induction k generalizing s room with
  | zero => simp [Phys.canAlloc]
  | succ k ih =>
    rcases Phys.allocPage_cases sound with ⟨rfl, refusal⟩ | ⟨n, page, s', rfl, taken⟩
    · simp [Phys.canAlloc, refusal]
    · simp only [Phys.canAlloc, taken.result]
      rw [ih (taken.heap used fun q inUse => .inr inUse), Nat.succ_le_succ_iff]

end Allocation

/-- Pages that are no longer in use do no harm. -/
theorem HeapSound.mono {heap : Option BumpAllocator} {mem : PhysMem} {used used' : U64 → Prop} {room : ℕ}
    (sound : HeapSound heap mem used room) (fewer : ∀ page, used' page → used page) : HeapSound heap mem used' room := by
  cases heap with
  | none => exact sound
  | some alloc =>
    obtain ⟨free, inner, count⟩ := sound
    refine ⟨free, { inner with freePage := fun page member => ?_, above := fun page high => ?_ }, count⟩
    · obtain ⟨heapPage, unused, low⟩ := inner.freePage page member
      exact ⟨heapPage, fun inUse => unused (fewer page inUse), low⟩
    · exact fun inUse => inner.above page high (fewer page inUse)

/-- The heap that `heap::init` leaves. -/
theorem heapSound_new (mem : PhysMem) : HeapSound (BumpAllocator.new heapStart heapSize) mem (fun _ => False) 4096 := by
  refine ⟨[], ⟨.nil, List.nodup_nil, fun _ member => absurd member List.not_mem_nil, fun _ _ used => used,
    ?_, ?_, ?_, ?_⟩, ?_⟩
  all_goals decide

end Hypervisor
