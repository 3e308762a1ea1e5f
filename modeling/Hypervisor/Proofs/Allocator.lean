import Hypervisor.ToMathlib.Align
import Hypervisor.Model.Allocator

/-! # What the allocator's calls do

`alloc_aligned` rounds the bump pointer up, adds the size and only then compares with the end of the heap. Both
sums are checked, so they have to fit a word whatever the end is. One specification per call follows.
-/

namespace Hypervisor

theorem checkedAdd_eq_none_iff {x y : U64} : checkedAdd x y = none ↔ 2 ^ 64 ≤ x.toNat + y.toNat := by
  rw [checkedAdd]
  split_ifs with bound
  · exact iff_of_false (by simp) (Nat.not_le_of_lt bound)
  · exact iff_of_true rfl (Nat.le_of_not_lt bound)

theorem toNat_4096 : (4096 : U64).toNat = 4096 := by decide

theorem isPowerOfTwo_8 : (8 : U64).toNat.isPowerOfTwo := ⟨3, by decide⟩
theorem isPowerOfTwo_4096 : (4096 : U64).toNat.isPowerOfTwo := ⟨12, by decide⟩

namespace BumpAllocator

variable {alloc alloc' : BumpAllocator} {mem mem' : PhysMem} {size align addr : U64} {result : Option U64}

/-- The sums that `alloc_aligned` forms before it compares with the end. -/
structure Fits (alloc : BumpAllocator) (size align : U64) : Prop where
  rounding : alloc.next.toNat + align.toNat < 2 ^ 64
  adding : alloc.next.toNat.alignUp align.toNat + size.toNat < 2 ^ 64

/-- A region was taken from above the bump pointer. -/
structure Bumped (alloc : BumpAllocator) (size align addr : U64) (alloc' : BumpAllocator) : Prop where
  addr_eq : addr.toNat = alloc.next.toNat.alignUp align.toNat
  next_eq : alloc'.next.toNat = addr.toNat + size.toNat
  next_le : alloc'.next.toNat ≤ alloc.endAddr.toNat
  allocated_eq : alloc'.allocated.toNat = alloc.allocated.toNat + size.toNat
  endAddr_eq : alloc'.endAddr = alloc.endAddr
  freeHead_eq : alloc'.freeHead = alloc.freeHead

theorem Bumped.le_addr (bumped : alloc.Bumped size align addr alloc') (power : align.toNat.isPowerOfTwo) :
    alloc.next.toNat ≤ addr.toNat := by
  rw [bumped.addr_eq]
  exact Nat.le_alignUp (Nat.pos_of_isPowerOfTwo power)

/-- The bump pointer, rounded up as `alloc_aligned` does it. -/
def alignedNext (alloc : BumpAllocator) (align : U64) : U64 := (alloc.next + align - 1) &&& ~~~(align - 1)

section Aligned

variable (power : align.toNat.isPowerOfTwo) (rounding : alloc.next.toNat + align.toNat < 2 ^ 64)
include power rounding

theorem toNat_next_add :
    (alloc.next + align).toNat = alloc.next.toNat + align.toNat ∧ (1 : U64) ≤ alloc.next + align := by
  have positive := Nat.pos_of_isPowerOfTwo power
  rw [BitVec.le_def, BitVec.toNat_add, Nat.mod_eq_of_lt rounding]
  exact ⟨rfl, Nat.le_add_left_of_le positive⟩

theorem toNat_alignedNext : (alloc.alignedNext align).toNat = alloc.next.toNat.alignUp align.toNat := by
  obtain ⟨sum, positive⟩ := toNat_next_add power rounding
  rw [alignedNext, BitVec.toNat_and_not_sub_one power, BitVec.toNat_sub_of_le positive, sum]
  rfl

theorem allocAligned_of_rounding :
    alloc.allocAligned size align = (checkedAdd (alloc.alignedNext align) size).bind fun newNext =>
      if alloc.endAddr < newNext then some (none, alloc)
      else (checkedAdd alloc.allocated size).map fun allocated =>
        (some (alloc.alignedNext align), { alloc with next := newNext, allocated }) := by
  obtain ⟨-, positive⟩ := toNat_next_add power rounding
  have sum : checkedAdd alloc.next align = some (alloc.next + align) := if_pos rounding
  have top : checkedSub (alloc.next + align) 1 = some (alloc.next + align - 1) := if_pos positive
  have low : checkedSub align 1 = some (align - 1) := if_pos (Nat.pos_of_isPowerOfTwo power)
  simp only [allocAligned, sum, top, low, Option.bind_eq_bind, Option.bind_some]
  congr 1
  funext newNext
  split_ifs
  · rfl
  · cases checkedAdd alloc.allocated size <;> rfl

end Aligned

/-- A request whose sums do not fit aborts. -/
theorem allocAligned_of_not_fits (power : align.toNat.isPowerOfTwo) (exceeds : ¬alloc.Fits size align) :
    alloc.allocAligned size align = none := by
  by_cases rounding : alloc.next.toNat + align.toNat < 2 ^ 64
  · have adding : checkedAdd (alloc.alignedNext align) size = none := by
      refine if_neg fun adding => exceeds ⟨rounding, ?_⟩
      rwa [toNat_alignedNext power rounding] at adding
    rw [allocAligned_of_rounding power rounding, adding]
    rfl
  · rw [allocAligned, show checkedAdd alloc.next align = none from if_neg rounding]
    rfl

/-- A request whose sums fit is refused if it ends beyond the heap. -/
theorem allocAligned_of_fits (power : align.toNat.isPowerOfTwo) (fits : alloc.Fits size align) :
    alloc.allocAligned size align =
      if alloc.endAddr.toNat < alloc.next.toNat.alignUp align.toNat + size.toNat then some (none, alloc)
      else (checkedAdd alloc.allocated size).map fun allocated =>
        (some (alloc.alignedNext align), { alloc with next := alloc.alignedNext align + size, allocated }) := by
  have addr := toNat_alignedNext power fits.rounding
  have adding : checkedAdd (alloc.alignedNext align) size = some (alloc.alignedNext align + size) := by
    apply if_pos
    rw [addr]
    exact fits.adding
  have past : alloc.endAddr < alloc.alignedNext align + size ↔
      alloc.endAddr.toNat < alloc.next.toNat.alignUp align.toNat + size.toNat := by
    rw [BitVec.lt_def, BitVec.toNat_add, addr, Nat.mod_eq_of_lt fits.adding]
  rw [allocAligned_of_rounding power fits.rounding, adding]
  simp only [Option.bind_some, past]

/-- What a call that returns has done. -/
theorem allocAligned_cases (power : align.toNat.isPowerOfTwo)
    (returns : alloc.allocAligned size align = some (result, alloc')) :
    alloc.Fits size align ∧
      (result = none ∧ alloc' = alloc ∧
          alloc.endAddr.toNat < alloc.next.toNat.alignUp align.toNat + size.toNat ∨
        ∃ addr, result = some addr ∧ alloc.Bumped size align addr alloc') := by
  have fits : alloc.Fits size align := by
    by_contra exceeds
    rw [allocAligned_of_not_fits power exceeds] at returns
    cases returns
  refine ⟨fits, ?_⟩
  rw [allocAligned_of_fits power fits] at returns
  split_ifs at returns with past
  · cases returns
    exact .inl ⟨rfl, rfl, past⟩
  · obtain ⟨allocated, counts, same⟩ := Option.map_eq_some_iff.mp returns
    cases same
    have addr := toNat_alignedNext power fits.rounding
    have next : (alloc.alignedNext align + size).toNat = (alloc.alignedNext align).toNat + size.toNat := by
      rw [BitVec.toNat_add, addr, Nat.mod_eq_of_lt fits.adding]
    refine .inr ⟨_, rfl, addr, next, ?_, checkedAdd_eq_some_iff.mp counts, rfl, rfl⟩
    rw [next, addr]
    exact Nat.le_of_not_lt past

/-- The call aborts if a sum does not fit, or the count of bytes. -/
theorem allocAligned_eq_none_iff (power : align.toNat.isPowerOfTwo) :
    alloc.allocAligned size align = none ↔ ¬alloc.Fits size align ∨
      alloc.next.toNat.alignUp align.toNat + size.toNat ≤ alloc.endAddr.toNat ∧
        2 ^ 64 ≤ alloc.allocated.toNat + size.toNat := by
  by_cases fits : alloc.Fits size align
  · rw [allocAligned_of_fits power fits]
    split_ifs with past
    · refine iff_of_false (by simp) ?_
      rintro (exceeds | ⟨inside, -⟩)
      · exact exceeds fits
      · exact Nat.not_le_of_lt past inside
    · rw [Option.map_eq_none_iff, checkedAdd_eq_none_iff]
      refine ⟨fun counts => .inr ⟨Nat.le_of_not_lt past, counts⟩, ?_⟩
      rintro (exceeds | ⟨-, counts⟩)
      · exact absurd fits exceeds
      · exact counts
  · exact iff_of_true (allocAligned_of_not_fits power fits) (.inl fits)

/-- A page comes off the free list and is zeroed, or from above the bump pointer. -/
theorem allocPage_cases (returns : alloc.allocPage mem = some (result, alloc', mem')) :
    alloc.freeHead ≠ 0 ∧ result = some alloc.freeHead ∧ mem' = zeroPage mem alloc.freeHead ∧
        (∃ allocated, allocated.toNat = alloc.allocated.toNat + 4096 ∧
          alloc' = { alloc with freeHead := mem ⟨alloc.freeHead, 0⟩, allocated }) ∨
      alloc.freeHead = 0 ∧ mem' = mem ∧ alloc.allocAligned 4096 4096 = some (result, alloc') := by
  rw [allocPage] at returns
  split_ifs at returns with listed
  · obtain ⟨allocated, counts, same⟩ := Option.bind_eq_some_iff.mp returns
    cases same
    exact .inl ⟨listed, rfl, rfl, allocated, checkedAdd_eq_some_iff.mp counts, rfl⟩
  · obtain ⟨⟨page, bumped⟩, bump, same⟩ := Option.bind_eq_some_iff.mp returns
    cases same
    exact .inr ⟨not_not.mp listed, rfl, bump⟩

theorem allocPage_eq_none_iff :
    alloc.allocPage mem = none ↔ alloc.freeHead ≠ 0 ∧ 2 ^ 64 ≤ alloc.allocated.toNat + 4096 ∨
      alloc.freeHead = 0 ∧ alloc.allocAligned 4096 4096 = none := by
  rw [allocPage]
  split_ifs with listed
  · have counts : checkedAdd alloc.allocated 4096 = none ↔ 2 ^ 64 ≤ alloc.allocated.toNat + 4096 :=
      checkedAdd_eq_none_iff
    rw [← counts]
    cases checkedAdd alloc.allocated 4096 <;> simp [show ¬alloc.freeHead = 0#64 from listed]
  · cases alloc.allocAligned 4096 4096 <;> simp [not_not.mp listed]

/-- An aligned page goes back if a page is counted. -/
theorem freePage_eq_some_iff {alloc' : BumpAllocator × PhysMem} :
    alloc.freePage mem addr = some alloc' ↔ addr &&& 0xFFF = 0 ∧ 4096 ≤ alloc.allocated.toNat ∧
      alloc' = ({ alloc with freeHead := addr, allocated := alloc.allocated - 4096 },
        Function.update mem ⟨addr, 0⟩ alloc.freeHead) := by
  rw [freePage, checkedSub, toNat_4096]
  by_cases aligned : addr &&& 0xFFF = 0
  · rw [aligned]
    by_cases counted : 4096 ≤ alloc.allocated.toNat
    · simp [counted, eq_comm]
    · simp [counted]
  · simp [show ¬addr &&& 0xFFF#64 = 0#64 from aligned]

end BumpAllocator

end Hypervisor
