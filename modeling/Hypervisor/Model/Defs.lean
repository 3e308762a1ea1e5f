import Mathlib.Data.BitVec
import Hypervisor.Radix.Walk

/-! # Architecture and platform constants

Words, page-table bits and the board's memory layout, under the names of `arch/aarch64/defs.rs`
and `platform.rs`. Physical memory is seen through the 4KB pages that hold page tables: every base
address the hypervisor dereferences as a table is 4KB-aligned, so a pointer into a table is the
pair of the table's base address and the entry's index, and two such pointers alias only when
they are equal.
-/

namespace Hypervisor

abbrev U8 := BitVec 8
abbrev U16 := BitVec 16
abbrev U32 := BitVec 32
abbrev U64 := BitVec 64
abbrev I32 := BitVec 32

/-- A pointer to one 64-bit entry of a 4KB page. -/
abbrev PtePtr := Radix.Slot U64

/-- The 64-bit words of memory, by page and index. -/
abbrev PhysMem := PtePtr → U64

/-! ## Stage-2 descriptors -/

def pteValid : U64 := 1 <<< 0
def pteTable : U64 := 1 <<< 1
def pteAddrMask : U64 := 0x0000FFFFFFFFF000
def pageOffsetMask : U64 := 0xFFF
def ptIndexMask : U64 := 0x1FF
def blockSize2mb : U64 := 2 * 1024 * 1024
def blockMask2mb : U64 := blockSize2mb - 1
def pageSize4kb : U64 := 4096
def pageMask4kb : U64 := pageSize4kb - 1

/-- SW bits [56:55] track page ownership. -/
def pteSwShift : ℕ := 55
def pteSwMask : U64 := 0x3 <<< pteSwShift

/-- S2AP bits [7:6] are the stage-2 access permissions. -/
def s2apShift : ℕ := 6
def s2apMask : U64 := 0x3 <<< s2apShift
def s2apNone : U64 := 0b00 <<< s2apShift
def s2apRo : U64 := 0b01 <<< s2apShift
def s2apRw : U64 := 0b11 <<< s2apShift

/-! ## Board layout -/

def gicRegionBase : U64 := 0x08000000
def gicRegionSize : U64 := 8 * blockSize2mb
def guestRamBase : U64 := 0x40000000
def guestLoadAddr : U64 := 0x48000000
def linuxDtbAddr : U64 := 0x47000000
def linuxMemSize : U64 := 1024 * 1024 * 1024
def vm1GuestLoadAddr : U64 := 0x68000000
def vm1LinuxDtbAddr : U64 := 0x67000000
def vm1LinuxMemSize : U64 := 256 * 1024 * 1024
def heapStart : U64 := 0x41000000
def heapSize : U64 := 0x1000000

/-- `global::MAX_VMS`: VMs that can be booted. -/
abbrev maxVms : ℕ := 2

instance : NeZero maxVms := ⟨by decide⟩

/-- A VM that can be booted. -/
abbrev VmId := Fin maxVms

/-! ## Checked arithmetic

The development profile the Makefile builds aborts on overflow; `none` is that abort. -/

def checkedAdd (x y : U64) : Option U64 :=
  if x.toNat + y.toNat < 2 ^ 64 then some (x + y) else none

def checkedAddU32 (x y : U32) : Option U32 :=
  if x.toNat + y.toNat < 2 ^ 32 then some (x + y) else none

def checkedSub (x y : U64) : Option U64 :=
  if y.toNat ≤ x.toNat then some (x - y) else none

section Checked

variable {w n : ℕ} {x y z : U64} {a b c : U32}

theorem exists_toNat_eq (bound : n < 2 ^ w) : ∃ value : BitVec w, value.toNat = n :=
  ⟨BitVec.ofNat w n, by rw [BitVec.toNat_ofNat, Nat.mod_eq_of_lt bound]⟩

/-- A result that is checked against its width is the number itself. -/
theorem checked_eq_some_iff {value out : BitVec w} (wraps : value.toNat = n % 2 ^ w) :
    (if n < 2 ^ w then some value else none) = some out ↔ out.toNat = n := by
  split_ifs with bound
  · rw [Option.some.injEq, ← BitVec.toNat_inj, wraps, Nat.mod_eq_of_lt bound, eq_comm]
  · exact iff_of_false nofun fun same => bound (same ▸ out.isLt)

theorem checkedAdd_eq_some_iff : checkedAdd x y = some z ↔ z.toNat = x.toNat + y.toNat :=
  checked_eq_some_iff (BitVec.toNat_add x y)

theorem checkedAddU32_eq_some_iff : checkedAddU32 a b = some c ↔ c.toNat = a.toNat + b.toNat :=
  checked_eq_some_iff (BitVec.toNat_add a b)

theorem exists_checkedAdd_iff : (∃ sum, checkedAdd x y = some sum) ↔ x.toNat + y.toNat < 2 ^ 64 := by
  simp only [checkedAdd_eq_some_iff]
  exact ⟨fun ⟨sum, same⟩ => same ▸ sum.isLt, exists_toNat_eq⟩

end Checked

end Hypervisor
