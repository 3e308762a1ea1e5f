import Hypervisor.Model.Defs

/-! # Flat memory

EL2 reads and writes guest memory through the identity map: an address is a number and memory holds
one byte at each. Words are little-endian and may stand at any address, as `read_unaligned` and the
volatile accesses of the source read them.
-/

namespace Hypervisor

/-- Guest memory by byte address, as EL2 reads it through the identity map. -/
abbrev GuestRam := ℕ → U8

def readU16 (buf : GuestRam) (off : ℕ) : U16 := buf (off + 1) ++ buf off

def readU32 (buf : GuestRam) (off : ℕ) : U32 := readU16 buf (off + 2) ++ readU16 buf off

def readU64 (buf : GuestRam) (off : ℕ) : U64 := readU32 buf (off + 4) ++ readU32 buf off

/-- Store `n` bytes little-endian. -/
def writeLe (n : ℕ) (buf : GuestRam) (off : ℕ) (x : BitVec (8 * n)) : GuestRam := fun i =>
  if off ≤ i ∧ i < off + n then x.extractLsb' (8 * (i - off)) 8 else buf i

def writeU8 (buf : GuestRam) (off : ℕ) (x : U8) : GuestRam := writeLe 1 buf off x

def writeU16 (buf : GuestRam) (off : ℕ) (x : U16) : GuestRam := writeLe 2 buf off x

def writeU32 (buf : GuestRam) (off : ℕ) (x : U32) : GuestRam := writeLe 4 buf off x

def writeU64 (buf : GuestRam) (off : ℕ) (x : U64) : GuestRam := writeLe 8 buf off x

/-- Store `len` bytes that a function gives by their offset. -/
def storeBytes (ram : GuestRam) (dst len : ℕ) (bytes : ℕ → U8) : GuestRam := fun a =>
  if dst ≤ a ∧ a < dst + len then bytes (a - dst) else ram a

/-- The two ranges of a copy share no byte. -/
def RangesApart (src dst len : ℕ) : Prop := len = 0 ∨ src + len ≤ dst ∨ dst + len ≤ src

instance (src dst len : ℕ) : Decidable (RangesApart src dst len) :=
  inferInstanceAs (Decidable (_ ∨ _ ∨ _))

/-- `ptr::copy_nonoverlapping` of bytes. Ranges that overlap violate its precondition, which the
development profile checks with a panic. -/
def copyNonoverlapping (ram : GuestRam) (src dst len : ℕ) : Option GuestRam :=
  if RangesApart src dst len then some (storeBytes ram dst len fun i => ram (src + i)) else none

section Bytes

variable {ram : GuestRam} {src dst len a : ℕ} {bytes : ℕ → U8}

theorem storeBytes_inside {i : ℕ} (inside : i < len) : storeBytes ram dst len bytes (dst + i) = bytes i := by
  rw [storeBytes, if_pos (by omega), Nat.add_sub_cancel_left]

theorem storeBytes_outside (outside : a < dst ∨ dst + len ≤ a) : storeBytes ram dst len bytes a = ram a :=
  if_neg (by omega)

theorem copyNonoverlapping_isSome : (copyNonoverlapping ram src dst len).isSome = true ↔ RangesApart src dst len := by
  rw [copyNonoverlapping]
  split_ifs with apart
  · exact iff_of_true rfl apart
  · exact iff_of_false nofun apart

end Bytes

end Hypervisor
