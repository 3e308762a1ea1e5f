import Mathlib.Data.Set.Function
import Mathlib.Data.Set.Lattice
import Mathlib.Order.CompletePartialOrder
import Mathlib.Order.Interval.Set.Basic
import Hypervisor.Model.Virtqueue

/-! # What a write to guest memory leaves alone

A write changes the bytes of one range, and a value that is read depends on the bytes of one range.
Two memories are compared on sets of addresses with `Set.EqOn`.
-/

namespace Hypervisor

/-- The addresses of `len` bytes from `addr` on. -/
def bytesAt (addr len : ℕ) : Set ℕ := Set.Ico addr (addr + len)

section Bytes

variable {ram ram' : GuestRam} {addr len off a : ℕ}

theorem mem_bytesAt : a ∈ bytesAt addr len ↔ addr ≤ a ∧ a < addr + len := Iff.rfl

theorem bytesAt_subset {addr' len' : ℕ} (low : addr' ≤ addr) (high : addr + len ≤ addr' + len') :
    bytesAt addr len ⊆ bytesAt addr' len' := Set.Ico_subset_Ico low high

theorem disjoint_bytesAt {addr' len' : ℕ} (apart : addr + len ≤ addr' ∨ addr' + len' ≤ addr) :
    Disjoint (bytesAt addr len) (bytesAt addr' len') := by
  refine Set.disjoint_left.mpr fun a first second => ?_
  rw [mem_bytesAt] at first second
  omega

/-! ## Writes -/

theorem eqOn_storeBytes (ram : GuestRam) (dst len : ℕ) (bytes : ℕ → U8) :
    Set.EqOn (storeBytes ram dst len bytes) ram (bytesAt dst len)ᶜ := by
  intro a outside
  exact if_neg outside

theorem eqOn_writeLe {n : ℕ} (ram : GuestRam) (off : ℕ) (x : BitVec (8 * n)) :
    Set.EqOn (writeLe n ram off x) ram (bytesAt off n)ᶜ := by
  intro a outside
  exact if_neg outside

theorem eqOn_writeU8 (ram : GuestRam) (off : ℕ) (x : U8) : Set.EqOn (writeU8 ram off x) ram (bytesAt off 1)ᶜ :=
  @eqOn_writeLe 1 ram off x

theorem eqOn_writeU16 (ram : GuestRam) (off : ℕ) (x : U16) : Set.EqOn (writeU16 ram off x) ram (bytesAt off 2)ᶜ :=
  @eqOn_writeLe 2 ram off x

theorem eqOn_writeU32 (ram : GuestRam) (off : ℕ) (x : U32) : Set.EqOn (writeU32 ram off x) ram (bytesAt off 4)ᶜ :=
  @eqOn_writeLe 4 ram off x

theorem eqOn_writeU64 (ram : GuestRam) (off : ℕ) (x : U64) : Set.EqOn (writeU64 ram off x) ram (bytesAt off 8)ᶜ :=
  @eqOn_writeLe 8 ram off x

theorem writeLe_at {n i : ℕ} (ram : GuestRam) (off : ℕ) (x : BitVec (8 * n)) (inside : i < n) :
    writeLe n ram off x (off + i) = x.extractLsb' (8 * i) 8 := by
  rw [writeLe, if_pos (by omega), Nat.add_sub_cancel_left]

/-! ## Reads -/

theorem readU16_congr (same : Set.EqOn ram' ram (bytesAt off 2)) : readU16 ram' off = readU16 ram off := by
  rw [readU16, readU16, same (mem_bytesAt.mpr ⟨by omega, by omega⟩), same (mem_bytesAt.mpr ⟨by omega, by omega⟩)]

theorem readU32_congr (same : Set.EqOn ram' ram (bytesAt off 4)) : readU32 ram' off = readU32 ram off := by
  rw [readU32, readU32, readU16_congr (same.mono (bytesAt_subset (by omega) (by omega))),
    readU16_congr (same.mono (bytesAt_subset (by omega) (by omega)))]

theorem readU64_congr (same : Set.EqOn ram' ram (bytesAt off 8)) : readU64 ram' off = readU64 ram off := by
  rw [readU64, readU64, readU32_congr (same.mono (bytesAt_subset (by omega) (by omega))),
    readU32_congr (same.mono (bytesAt_subset (by omega) (by omega)))]

theorem readVirtqDesc_congr {idx : U16} (same : Set.EqOn ram' ram (bytesAt (addr + 16 * idx.toNat) 16)) :
    readVirtqDesc ram' addr idx = readVirtqDesc ram addr idx := by
  rw [readVirtqDesc, readVirtqDesc, readU64_congr (same.mono (bytesAt_subset (by omega) (by omega))),
    readU32_congr (same.mono (bytesAt_subset (by omega) (by omega))),
    readU16_congr (same.mono (bytesAt_subset (by omega) (by omega))),
    readU16_congr (same.mono (bytesAt_subset (by omega) (by omega)))]

theorem extract_readU16_low (ram : GuestRam) (off : ℕ) : (readU16 ram off).extractLsb' 0 8 = ram off := by
  rw [readU16, BitVec.extractLsb'_append_eq_right]

theorem extract_readU16_high (ram : GuestRam) (off : ℕ) : (readU16 ram off).extractLsb' 8 8 = ram (off + 1) := by
  rw [readU16, BitVec.extractLsb'_append_eq_left]

/-- A half-word shows both of its bytes. -/
theorem eqOn_of_readU16 (same : readU16 ram' off = readU16 ram off) : Set.EqOn ram' ram (bytesAt off 2) := by
  intro a inside
  rw [mem_bytesAt] at inside
  obtain rfl | rfl : a = off ∨ a = off + 1 := by omega
  · rw [← extract_readU16_low ram', same, extract_readU16_low]
  · rw [← extract_readU16_high ram', same, extract_readU16_high]

/-- Memories that differ in one range only agree on every range apart from it. -/
theorem eqOn_of_apart {addr' len' : ℕ} (same : Set.EqOn ram' ram (bytesAt addr' len')ᶜ)
    (apart : addr + len ≤ addr' ∨ addr' + len' ≤ addr) : Set.EqOn ram' ram (bytesAt addr len) :=
  same.mono (disjoint_bytesAt apart).subset_compl_right

/-- What changes in a range changes in every range around it. -/
theorem eqOn_around {addr' len' : ℕ} (same : Set.EqOn ram' ram (bytesAt addr len)ᶜ) (low : addr' ≤ addr)
    (high : addr + len ≤ addr' + len') : Set.EqOn ram' ram (bytesAt addr' len')ᶜ :=
  same.mono (Set.compl_subset_compl.mpr (bytesAt_subset low high))

/-! ## Reading back -/

theorem readU16_writeLe {n i : ℕ} (ram : GuestRam) (off : ℕ) (x : BitVec (8 * n)) (inside : i + 2 ≤ n) :
    readU16 (writeLe n ram off x) (off + i) = x.extractLsb' (8 * i) 16 := by
  rw [readU16, Nat.add_assoc, writeLe_at ram off x (by omega), writeLe_at ram off x (by omega)]
  exact BitVec.extractLsb'_append_extractLsb'_eq_extractLsb' (by omega)

theorem readU32_writeLe {n i : ℕ} (ram : GuestRam) (off : ℕ) (x : BitVec (8 * n)) (inside : i + 4 ≤ n) :
    readU32 (writeLe n ram off x) (off + i) = x.extractLsb' (8 * i) 32 := by
  rw [readU32, Nat.add_assoc, readU16_writeLe ram off x (by omega), readU16_writeLe ram off x (by omega)]
  exact BitVec.extractLsb'_append_extractLsb'_eq_extractLsb' (by omega)

theorem readU64_writeLe {n i : ℕ} (ram : GuestRam) (off : ℕ) (x : BitVec (8 * n)) (inside : i + 8 ≤ n) :
    readU64 (writeLe n ram off x) (off + i) = x.extractLsb' (8 * i) 64 := by
  rw [readU64, Nat.add_assoc, readU32_writeLe ram off x (by omega), readU32_writeLe ram off x (by omega)]
  exact BitVec.extractLsb'_append_extractLsb'_eq_extractLsb' (by omega)

theorem readU16_writeU16 (ram : GuestRam) (off : ℕ) (x : U16) : readU16 (writeU16 ram off x) off = x :=
  (@readU16_writeLe 2 0 ram off x le_rfl).trans BitVec.extractLsb'_eq_self

theorem readU32_writeU32 (ram : GuestRam) (off : ℕ) (x : U32) : readU32 (writeU32 ram off x) off = x :=
  (@readU32_writeLe 4 0 ram off x le_rfl).trans BitVec.extractLsb'_eq_self

theorem readU64_writeU64 (ram : GuestRam) (off : ℕ) (x : U64) : readU64 (writeU64 ram off x) off = x :=
  (@readU64_writeLe 8 0 ram off x le_rfl).trans BitVec.extractLsb'_eq_self

end Bytes

end Hypervisor
