import Hypervisor.Model.Stage2Walker

/-! # The mapper that builds stage-2 tables

`DynamicIdentityMapper` of `arch/aarch64/mm/mmu.rs`: it maps regions with 2MB blocks when a VM
boots and takes single pages out of them again. Its tables come from the heap. An L0 table has one
entry in use, so the mapper reaches the first 512GB only, and it makes at most four L2 tables. The
array that remembers the L2 tables is never read and is left out; its length is `l2Count`.
-/

namespace Hypervisor

inductive MemoryAttribute where
  | normal
  | device
  | readOnly
deriving DecidableEq, Repr

/-- MemAttr, S2AP, SH and the access flag of a descriptor. -/
def MemoryAttribute.bits : MemoryAttribute → U64
  | normal => (0b1111 <<< 2) ||| (0b11 <<< 6) ||| (0b11 <<< 8) ||| (1 <<< 10)
  | device => (0b0000 <<< 2) ||| (0b11 <<< 6) ||| (0b00 <<< 8) ||| (1 <<< 10)
  | readOnly => (0b1111 <<< 2) ||| (0b01 <<< 6) ||| (0b11 <<< 8) ||| (1 <<< 10)

def makeBlockEntry (pa : U64) (attr : MemoryAttribute) : U64 :=
  (pa &&& ~~~blockMask2mb) ||| attr.bits ||| pteValid

def makePageEntry (pa : U64) (attr : MemoryAttribute) : U64 :=
  (pa &&& ~~~pageMask4kb) ||| attr.bits ||| pteTable ||| pteValid

structure DynamicIdentityMapper where
  l0Table : U64
  l1Table : U64
  l2Count : ℕ
deriving DecidableEq, Repr

namespace DynamicIdentityMapper

/-- Two zeroed pages, the first linked to the second. A refused page is a panic. -/
def new (s : Phys) : Option (DynamicIdentityMapper × Phys) := do
  let (l0, s) ← s.allocPage
  let l0 ← l0
  let (l1, s) ← s.allocPage
  let l1 ← l1
  let s := { s with mem := zeroPage (zeroPage s.mem l0) l1 }
  return (⟨l0, l1, 0⟩, s.write ⟨l0, 0⟩ (l1 ||| (pteValid ||| pteTable)))

/-- The L2 table under an L1 entry, made if the entry is not a table. -/
def getOrCreateL2 (mapper : DynamicIdentityMapper) (l1Idx : ℕ) (s : Phys) :
    Option (Except String U64 × DynamicIdentityMapper × Phys) := do
  let l1Entry := s.mem ⟨mapper.l1Table, l1Idx⟩
  if isTable l1Entry then return (.ok (l1Entry &&& ~~~pageOffsetMask), mapper, s)
  if 4 ≤ mapper.l2Count then return (.error "Too many L2 tables", mapper, s)
  let (l2, s) ← s.allocPage
  match l2 with
  | none => return (.error "Failed to allocate L2 table", mapper, s)
  | some l2 =>
      let s := { s with mem := zeroPage s.mem l2 }
      return (.ok l2, { mapper with l2Count := mapper.l2Count + 1 },
        s.write ⟨mapper.l1Table, l1Idx⟩ (l2 ||| (pteValid ||| pteTable)))

/-- `count` iterations of the loop of `map_region`, from an offset on. -/
def mapBlocks (ipa : U64) (attr : MemoryAttribute) :
    ℕ → U64 → DynamicIdentityMapper → Phys → Option (Except String Unit × DynamicIdentityMapper × Phys)
  | 0, _, mapper, s => some (.ok (), mapper, s)
  | count + 1, offset, mapper, s => do
      let currentIpa ← checkedAdd ipa offset
      let (l2Table, mapper, s) ← mapper.getOrCreateL2 (l1Idx currentIpa) s
      match l2Table with
      | .error text => return (.error text, mapper, s)
      | .ok l2Table =>
          let s := s.write ⟨l2Table, l2Idx currentIpa⟩ (makeBlockEntry currentIpa attr)
          let offset ← checkedAdd offset blockSize2mb
          mapBlocks ipa attr count offset mapper s

/-- Map a region with 2MB blocks: `while offset < size`, in steps of a block. -/
def mapRegion (mapper : DynamicIdentityMapper) (ipa size : U64) (attr : MemoryAttribute) (s : Phys) :
    Option (Except String Unit × DynamicIdentityMapper × Phys) :=
  mapBlocks ipa attr ((size.toNat + blockMask2mb.toNat) / blockSize2mb.toNat) 0 mapper s

/-- The L3 entry that replaces page `i` of a 2MB block. The SW field is part of `blockPa` here. -/
def pageOfBlock (blockEntry : U64) (i : ℕ) : U64 :=
  let blockPa := blockEntry &&& ~~~blockMask2mb
  let blockAttrBits := blockEntry &&& blockMask2mb &&& ~~~0x3
  let pa := blockPa + BitVec.ofNat 64 i * pageSize4kb
  pa ||| blockAttrBits ||| pteTable ||| pteValid

/-- Replace a 2MB block by a table of 512 pages, break before make. -/
def split2mbBlock (l2Ptr : PtePtr) (blockEntry : U64) (s : Phys) : Option (Except String U64 × Phys) := do
  let (l3, s) ← s.allocPage
  match l3 with
  | none => return (.error "Failed to allocate L3 table for split", s)
  | some l3 =>
      let s := { s with mem := fillPage s.mem l3 (pageOfBlock blockEntry) }
      let s := s.write l2Ptr 0
      return (.ok l3, s.write l2Ptr (tableDesc l3))

/-- The L3 table of a page, after a split if a block maps it. -/
def l3TableOf (l2Ptr : PtePtr) (s : Phys) : Option (Except String U64 × Phys) :=
  let l2Entry := s.mem l2Ptr
  if l2Entry &&& pteValid ≠ 0 ∧ l2Entry &&& pteTable = 0 then split2mbBlock l2Ptr l2Entry s
  else if isTable l2Entry then some (.ok (l2Entry &&& pteAddrMask), s)
  else some (.error "L2 entry not valid", s)

/-- The L3 table of a page, after a split if a block maps it, or a new one if nothing maps it. -/
def l3TableOrNew (l2Ptr : PtePtr) (s : Phys) : Option (Except String U64 × Phys) := do
  let l2Entry := s.mem l2Ptr
  if l2Entry &&& pteValid ≠ 0 ∧ l2Entry &&& pteTable = 0 then split2mbBlock l2Ptr l2Entry s
  else if isTable l2Entry then return (.ok (l2Entry &&& pteAddrMask), s)
  else
    let (l3, s) ← s.allocPage
    match l3 with
    | none => return (.error "Failed to allocate L3 table", s)
    | some l3 =>
        let s := { s with mem := zeroPage s.mem l3 }
        return (.ok l3, s.write l2Ptr (tableDesc l3))

/-- Map one page to itself. -/
def map4kbPage (mapper : DynamicIdentityMapper) (ipa : U64) (attr : MemoryAttribute) (s : Phys) :
    Option (Except String Unit × DynamicIdentityMapper × Phys) := do
  let (l2Table, mapper, s) ← mapper.getOrCreateL2 (l1Idx ipa) s
  match l2Table with
  | .error text => return (.error text, mapper, s)
  | .ok l2Table =>
      let (l3Table, s) ← l3TableOrNew ⟨l2Table, l2Idx ipa⟩ s
      match l3Table with
      | .error text => return (.error text, mapper, s)
      | .ok l3Table =>
          let pageEntry := makePageEntry (ipa &&& ~~~pageMask4kb) attr
          return (.ok (), mapper, s.write ⟨l3Table, l3Idx ipa⟩ pageEntry)

/-- Remove one page from the mapping. -/
def unmap4kbPage (mapper : DynamicIdentityMapper) (ipa : U64) (s : Phys) :
    Option (Except String Unit × Phys) := do
  let l1Entry := s.mem ⟨mapper.l1Table, l1Idx ipa⟩
  if !isTable l1Entry then return (.error "L1 entry not valid", s)
  let (l3Table, s) ← l3TableOf ⟨l1Entry &&& pteAddrMask, l2Idx ipa⟩ s
  match l3Table with
  | .error text => return (.error text, s)
  | .ok l3Table => return (.ok (), s.write ⟨l3Table, l3Idx ipa⟩ 0)

/-- The walk of the mapper, which is that of `Stage2Walker` from the mapper's own L0 table. -/
def walkToLeafPtr (mapper : DynamicIdentityMapper) (mem : PhysMem) (ipa : U64) : Option PtePtr :=
  (⟨mapper.l0Table⟩ : Stage2Walker).walkToLeafPtr mem ipa

def walkToLeaf (mapper : DynamicIdentityMapper) (mem : PhysMem) (ipa : U64) : Option U64 :=
  (mapper.walkToLeafPtr mem ipa).map mem

end DynamicIdentityMapper

end Hypervisor
