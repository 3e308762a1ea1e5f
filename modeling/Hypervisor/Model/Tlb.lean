import Hypervisor.Model.Stage2Walker

/-! # TLB maintenance of the stage-2 walker

The operations of `ffa/stage2_walker.rs` once more, with the translations that the TLBs hold. The
architecture caches the two stages of a translation apart or combined. `TLBI VMALLS12E1IS` removes
everything of the current VMID. `TLBI IPAS2E1IS` removes the stage-2 translations of one IPA; combined
ones are found by virtual address only, and stay. The barriers around both make the removal complete
when the operation returns. What the tables become is defined once, in `Model.Stage2Walker`.
-/

namespace Hypervisor

/-- A stage-2 translation, or one of a virtual address by both stages. -/
inductive TlbKind where
  | stage2
  | combined (va : U64)
deriving DecidableEq, Repr

/-- A cached translation of `count` pages from IPA page `first` on, with the accesses it permits. -/
structure TlbEntry where
  vmid : U16
  kind : TlbKind
  first : ℕ
  count : ℕ
  output : U64
  read : Bool
  write : Bool
  fetch : Bool
deriving DecidableEq, Repr

namespace TlbEntry

def covers (entry : TlbEntry) (a : ℕ) : Bool := entry.first ≤ a && a < entry.first + entry.count

/-- The output address of one of the pages. -/
def outputAt (entry : TlbEntry) (a : ℕ) : U64 := entry.output + BitVec.ofNat 64 (a - entry.first) * pageSize4kb

end TlbEntry

/-- `tlbi_all`. -/
def tlbiAll (vmid : U16) (tlb : List TlbEntry) : List TlbEntry := tlb.filter fun entry => entry.vmid != vmid

/-- `tlbi_ipa`; the operand has IPA bits 51:12. -/
def tlbiIpa (vmid : U16) (ipa : U64) (tlb : List TlbEntry) : List TlbEntry :=
  let ipaShifted := ((ipa >>> 12) &&& 0x000000FFFFFFFFFF).toNat
  tlb.filter fun entry => !(entry.vmid == vmid && entry.kind == .stage2 && entry.covers ipaShifted)

namespace Stage2Walker

/-- `split_2mb_block_at_l2`: a flush after the break and one after the make. -/
def split2mbBlockAtL2Cached (vmid : U16) (l2Ptr : PtePtr) (blockEntry : U64) (s : Phys) (tlb : List TlbEntry) :
    Option (Except String Unit × Phys × List TlbEntry) := do
  let (split, s) ← split2mbBlockAtL2 l2Ptr blockEntry s
  match split with
  | .error text => return (.error text, s, tlb)
  | .ok _ => return (.ok (), s, tlbiAll vmid (tlbiAll vmid tlb))

def splitBlockIfNeededCached (walker : Stage2Walker) (vmid : U16) (ipa : U64) (s : Phys) (tlb : List TlbEntry) :
    Option (Except String Unit × Phys × List TlbEntry) :=
  let l0Entry := s.mem ⟨walker.l0Table, l0Idx ipa⟩
  if !isTable l0Entry then some (.ok (), s, tlb)
  else
    let l1Entry := s.mem ⟨l0Entry &&& pteAddrMask, l1Idx ipa⟩
    if l1Entry &&& pteValid = 0 ∨ l1Entry &&& pteTable = 0 then some (.ok (), s, tlb)
    else
      let l2Ptr : PtePtr := ⟨l1Entry &&& pteAddrMask, l2Idx ipa⟩
      let l2Entry := s.mem l2Ptr
      if l2Entry &&& pteValid ≠ 0 ∧ l2Entry &&& pteTable = 0 then split2mbBlockAtL2Cached vmid l2Ptr l2Entry s tlb
      else some (.ok (), s, tlb)

def setS2apCached (walker : Stage2Walker) (vmid : U16) (ipa : U64) (s2ap : U8) (s : Phys) (tlb : List TlbEntry) :
    Option (Except String Unit × Phys × List TlbEntry) := do
  let (split, s, tlb) ← walker.splitBlockIfNeededCached vmid ipa s tlb
  match split with
  | .error text => return (.error text, s, tlb)
  | .ok _ =>
      match walker.walkToLeafPtr s.mem ipa with
      | none => return (.error "IPA not mapped", s, tlb)
      | some leafPtr => return (.ok (), s.write leafPtr (withS2ap (s.mem leafPtr) s2ap), tlbiIpa vmid ipa tlb)

def unmapPageCached (walker : Stage2Walker) (vmid : U16) (ipa : U64) (s : Phys) (tlb : List TlbEntry) :
    Except String Unit × Phys × List TlbEntry :=
  match walker.walkToL3Ptr s.mem ipa with
  | none => (.error "IPA not mapped as 4KB page", s, tlb)
  | some l3Ptr => (.ok (), s.write l3Ptr 0, tlbiIpa vmid ipa tlb)

end Stage2Walker

end Hypervisor
