import Hypervisor.Model.Defs

/-! # The hypervisor heap

`mm/allocator.rs` and `mm/heap.rs`: a bump allocator with a free list threaded through the first
word of each free page. Every page table is a page taken from it. `none` in the outer `Option` is a
panic; `none` in the inner one is the allocator's own refusal.
-/

namespace Hypervisor

/-- `write_bytes(page, 0, 4096)`. -/
def zeroPage (mem : PhysMem) (page : U64) : PhysMem :=
  fun ptr => if ptr.table = page ∧ ptr.index < 512 then 0 else mem ptr

structure BumpAllocator where
  next : U64
  endAddr : U64
  allocated : U64
  /-- Head of the free list; 0 when it is empty. -/
  freeHead : U64
deriving DecidableEq, Repr

namespace BumpAllocator

def new (start size : U64) : Option BumpAllocator := do
  let endAddr ← checkedAdd start size
  return ⟨start, endAddr, 0, 0⟩

def allocAligned (alloc : BumpAllocator) (size align : U64) :
    Option (Option U64 × BumpAllocator) := do
  let top ← checkedSub (← checkedAdd alloc.next align) 1
  let aligned := top &&& ~~~(← checkedSub align 1)
  let newNext ← checkedAdd aligned size
  if alloc.endAddr < newNext then
    return (none, alloc)
  let allocated ← checkedAdd alloc.allocated size
  return (some aligned, { alloc with next := newNext, allocated })

/-- Eight bytes is the default alignment. -/
def alloc (alloc : BumpAllocator) (size : U64) : Option (Option U64 × BumpAllocator) := alloc.allocAligned size 8

/-- Pops the free list first and falls back to the bump pointer. -/
def allocPage (alloc : BumpAllocator) (mem : PhysMem) :
    Option (Option U64 × BumpAllocator × PhysMem) := do
  if alloc.freeHead ≠ 0 then
    let page := alloc.freeHead
    let allocated ← checkedAdd alloc.allocated 4096
    return (some page, { alloc with freeHead := mem ⟨page, 0⟩, allocated }, zeroPage mem page)
  let (page, alloc) ← alloc.allocAligned 4096 4096
  return (page, alloc, mem)

/-- Pushes a page onto the free list. The address is only checked for its alignment. -/
def freePage (alloc : BumpAllocator) (mem : PhysMem) (addr : U64) : Option (BumpAllocator × PhysMem) := do
  if addr &&& 0xFFF ≠ 0 then
    none
  let allocated ← checkedSub alloc.allocated 4096
  return ({ alloc with freeHead := addr, allocated }, Function.update mem ⟨addr, 0⟩ alloc.freeHead)

end BumpAllocator

/-- The memory that holds page tables and the global heap they come from. -/
structure Phys where
  mem : PhysMem
  /-- `HEAP.allocator`, `none` before `heap::init`. -/
  heap : Option BumpAllocator
  /-- Ghost: how many page requests were refused so far. No modelled function reads it. -/
  refused : ℕ

namespace Phys

/-- `heap::alloc_page`. -/
def allocPage (s : Phys) : Option (Option U64 × Phys) :=
  match s.heap with
  | none => some (none, { s with refused := s.refused + 1 })
  | some alloc => do
      let (page, alloc, mem) ← alloc.allocPage s.mem
      match page with
      | none => return (none, { s with mem, heap := some alloc, refused := s.refused + 1 })
      | some page => return (some page, { s with mem, heap := some alloc })

/-- A volatile store of one entry. -/
def write (s : Phys) (ptr : PtePtr) (value : U64) : Phys :=
  { s with mem := Function.update s.mem ptr value }

variable (s : Phys) (ptr : PtePtr) (value : U64)

@[simp] theorem write_mem : (s.write ptr value).mem = Function.update s.mem ptr value := rfl

end Phys

end Hypervisor
