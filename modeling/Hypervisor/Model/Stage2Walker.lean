import Hypervisor.Model.Allocator

/-! # The stage-2 walker of the FF-A proxy

`ffa/stage2_walker.rs`: a walker rebuilt from the L0 table address in `VTTBR_EL2`. Reads, edits,
mappings and block splits act on the tables of one VM; new tables come from the heap. A fallible
operation returns the source's error text, and the state it leaves behind, in either case.
TLB maintenance has no effect on the tables; `Model.Tlb` adds it.
-/

namespace Hypervisor

/-- Indices of an IPA in the tables of the four levels. -/
def l0Idx (ipa : U64) : ℕ := ((ipa >>> 39) &&& ptIndexMask).toNat
def l1Idx (ipa : U64) : ℕ := ((ipa >>> 30) &&& ptIndexMask).toNat
def l2Idx (ipa : U64) : ℕ := ((ipa >>> 21) &&& ptIndexMask).toNat
def l3Idx (ipa : U64) : ℕ := ((ipa >>> 12) &&& ptIndexMask).toNat

/-- A valid descriptor that points to a table: bits [1:0] are both set. -/
def isTable (entry : U64) : Bool := entry &&& (pteValid ||| pteTable) == pteValid ||| pteTable

/-- Bit 0 of a descriptor. -/
def isValid (entry : U64) : Bool := entry &&& pteValid != 0

/-- The link to a table one level down. -/
def tableDesc (table : U64) : U64 := table ||| pteValid ||| pteTable

/-- Replace the SW field of a descriptor. -/
def withSwBits (pte : U64) (bits : U8) : U64 :=
  (pte &&& ~~~pteSwMask) ||| ((bits.setWidth 64 &&& 0x3) <<< pteSwShift)

/-- Replace the S2AP field of a descriptor. -/
def withS2ap (pte : U64) (s2ap : U8) : U64 :=
  (pte &&& ~~~s2apMask) ||| ((s2ap.setWidth 64 &&& 0x3) <<< s2apShift)

/-- The SW and S2AP fields of a descriptor. -/
def swBits (pte : U64) : U8 := ((pte >>> pteSwShift) &&& 0x3).setWidth 8
def s2apBits (pte : U64) : U8 := ((pte >>> s2apShift) &&& 0x3).setWidth 8

/-- The L3 entry that replaces page `i` of a 2MB block. -/
def splitEntry (blockEntry : U64) (i : ℕ) : U64 :=
  let blockPa := blockEntry &&& ~~~blockMask2mb
  let blockAttrBits := blockEntry &&& blockMask2mb &&& ~~~0x3
  let blockSwBits := blockEntry &&& pteSwMask
  let pa := blockPa + BitVec.ofNat 64 i * pageSize4kb
  pa ||| blockSwBits ||| blockAttrBits ||| pteTable ||| pteValid

/-- The L3 entry of a page mapped for another VM. The upper bits of `ipa` reach the descriptor. -/
def borrowEntry (ipa : U64) (s2ap sw : U8) : U64 :=
  let normalAttrs : U64 := (0b1111 <<< 2) ||| (0b11 <<< 8) ||| (1 <<< 10)
  let s2apField := (s2ap.setWidth 64 &&& 0x3) <<< s2apShift
  let swField := (sw.setWidth 64 &&& 0x3) <<< pteSwShift
  let pa := ipa &&& ~~~pageMask4kb
  pa ||| normalAttrs ||| s2apField ||| swField ||| pteTable ||| pteValid

/-- Store one entry in each of the 512 slots of a page. -/
def fillPage (mem : PhysMem) (page : U64) (entry : ℕ → U64) : PhysMem :=
  fun ptr => if ptr.table = page ∧ ptr.index < 512 then entry ptr.index else mem ptr

structure Stage2Walker where
  l0Table : U64
deriving DecidableEq, Repr

namespace Stage2Walker

/-- Reconstruct the walker from `VTTBR_EL2`. -/
def fromVttbr (vttbr : U64) : Stage2Walker := ⟨vttbr &&& pteAddrMask⟩

def hasStage2 (walker : Stage2Walker) : Bool := walker.l0Table != 0

/-- Walk to the leaf descriptor of `ipa`, at any level. -/
def walkToLeafPtr (walker : Stage2Walker) (mem : PhysMem) (ipa : U64) : Option PtePtr :=
  let l0Entry := mem ⟨walker.l0Table, l0Idx ipa⟩
  if !isTable l0Entry then none
  else
    let l1Ptr : PtePtr := ⟨l0Entry &&& pteAddrMask, l1Idx ipa⟩
    let l1Entry := mem l1Ptr
    if l1Entry &&& pteValid = 0 then none
    else if l1Entry &&& pteTable = 0 then some l1Ptr
    else
      let l2Ptr : PtePtr := ⟨l1Entry &&& pteAddrMask, l2Idx ipa⟩
      let l2Entry := mem l2Ptr
      if l2Entry &&& pteValid = 0 then none
      else if l2Entry &&& pteTable = 0 then some l2Ptr
      else
        let l3Ptr : PtePtr := ⟨l2Entry &&& pteAddrMask, l3Idx ipa⟩
        if mem l3Ptr &&& pteValid = 0 then none else some l3Ptr

def walkToLeaf (walker : Stage2Walker) (mem : PhysMem) (ipa : U64) : Option U64 :=
  (walker.walkToLeafPtr mem ipa).map mem

def readSwBits (walker : Stage2Walker) (mem : PhysMem) (ipa : U64) : Option U8 :=
  (walker.walkToLeaf mem ipa).map swBits

def readS2ap (walker : Stage2Walker) (mem : PhysMem) (ipa : U64) : Option U8 :=
  (walker.walkToLeaf mem ipa).map s2apBits

/-- Walk to a valid 4KB page descriptor; blocks and unmapped addresses have none. -/
def walkToL3Ptr (walker : Stage2Walker) (mem : PhysMem) (ipa : U64) : Option PtePtr :=
  let l0Entry := mem ⟨walker.l0Table, l0Idx ipa⟩
  if !isTable l0Entry then none
  else
    let l1Entry := mem ⟨l0Entry &&& pteAddrMask, l1Idx ipa⟩
    if !isTable l1Entry then none
    else
      let l2Entry := mem ⟨l1Entry &&& pteAddrMask, l2Idx ipa⟩
      if !isTable l2Entry then none
      else
        let l3Ptr : PtePtr := ⟨l2Entry &&& pteAddrMask, l3Idx ipa⟩
        if mem l3Ptr &&& pteValid = 0 then none else some l3Ptr

/-- Replace a 2MB block by a table of 512 pages, break before make. -/
def split2mbBlockAtL2 (l2Ptr : PtePtr) (blockEntry : U64) (s : Phys) :
    Option (Except String Unit × Phys) := do
  let (page, s) ← s.allocPage
  match page with
  | none => return (.error "Failed to allocate L3 table for block split", s)
  | some l3 =>
      let s := { s with mem := zeroPage s.mem l3 }
      let s := { s with mem := fillPage s.mem l3 (splitEntry blockEntry) }
      let s := s.write l2Ptr 0
      return (.ok (), s.write l2Ptr (tableDesc l3))

/-- Split the 2MB block that maps `ipa`, if one does. -/
def splitBlockIfNeeded (walker : Stage2Walker) (ipa : U64) (s : Phys) :
    Option (Except String Unit × Phys) :=
  let l0Entry := s.mem ⟨walker.l0Table, l0Idx ipa⟩
  if !isTable l0Entry then some (.ok (), s)
  else
    let l1Entry := s.mem ⟨l0Entry &&& pteAddrMask, l1Idx ipa⟩
    if l1Entry &&& pteValid = 0 ∨ l1Entry &&& pteTable = 0 then some (.ok (), s)
    else
      let l2Ptr : PtePtr := ⟨l1Entry &&& pteAddrMask, l2Idx ipa⟩
      let l2Entry := s.mem l2Ptr
      if l2Entry &&& pteValid ≠ 0 ∧ l2Entry &&& pteTable = 0 then split2mbBlockAtL2 l2Ptr l2Entry s
      else some (.ok (), s)

/-- The common part of `write_sw_bits` and `set_s2ap`: split, walk, and edit the leaf. -/
def editLeaf (walker : Stage2Walker) (ipa : U64) (edit : U64 → U64) (s : Phys) :
    Option (Except String Unit × Phys) := do
  let (split, s) ← walker.splitBlockIfNeeded ipa s
  match split with
  | .error text => return (.error text, s)
  | .ok _ =>
      match walker.walkToLeafPtr s.mem ipa with
      | none => return (.error "IPA not mapped", s)
      | some leafPtr => return (.ok (), s.write leafPtr (edit (s.mem leafPtr)))

def writeSwBits (walker : Stage2Walker) (ipa : U64) (bits : U8) (s : Phys) :
    Option (Except String Unit × Phys) :=
  walker.editLeaf ipa (withSwBits · bits) s

def setS2ap (walker : Stage2Walker) (ipa : U64) (s2ap : U8) (s : Phys) :
    Option (Except String Unit × Phys) :=
  walker.editLeaf ipa (withS2ap · s2ap) s

/-- The table an entry points to, linking a zeroed page from the heap where there is none. -/
def tableOrAlloc (ptr : PtePtr) (failed block : String) (s : Phys) :
    Option (Except String U64 × Phys) := do
  let entry := s.mem ptr
  if entry &&& pteValid = 0 then
    let (page, s) ← s.allocPage
    match page with
    | none => return (.error failed, s)
    | some table =>
        let s := { s with mem := zeroPage s.mem table }
        return (.ok table, s.write ptr (tableDesc table))
  else if entry &&& pteTable ≠ 0 then return (.ok (entry &&& pteAddrMask), s)
  else return (.error block, s)

/-- Create a 4KB identity mapping. Blocks are never split and mapped pages never replaced. -/
def mapPage (walker : Stage2Walker) (ipa : U64) (s2ap swBits : U8) (s : Phys) :
    Option (Except String Unit × Phys) := do
  let l0Entry := s.mem ⟨walker.l0Table, l0Idx ipa⟩
  if !isTable l0Entry then return (.error "L0 entry not a valid table", s)
  let l1Table := l0Entry &&& pteAddrMask
  let (l2Table, s) ← tableOrAlloc ⟨l1Table, l1Idx ipa⟩ "Failed to allocate L2 table"
    "L1 entry is a 1GB block" s
  match l2Table with
  | .error text => return (.error text, s)
  | .ok l2Table =>
      let (l3Table, s) ← tableOrAlloc ⟨l2Table, l2Idx ipa⟩ "Failed to allocate L3 table"
        "L2 entry is a 2MB block" s
      match l3Table with
      | .error text => return (.error text, s)
      | .ok l3Table =>
          let l3Ptr : PtePtr := ⟨l3Table, l3Idx ipa⟩
          if s.mem l3Ptr &&& pteValid ≠ 0 then return (.error "L3 entry already mapped", s)
          return (.ok (), s.write l3Ptr (borrowEntry ipa s2ap swBits))

/-- Remove a 4KB mapping. Intermediate tables are left in place. -/
def unmapPage (walker : Stage2Walker) (ipa : U64) (s : Phys) : Except String Unit × Phys :=
  match walker.walkToL3Ptr s.mem ipa with
  | none => (.error "IPA not mapped as 4KB page", s)
  | some l3Ptr => (.ok (), s.write l3Ptr 0)

end Stage2Walker

end Hypervisor
