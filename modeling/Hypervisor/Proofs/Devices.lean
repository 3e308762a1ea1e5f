import Hypervisor.Model.Devices
import Hypervisor.ToMathlib.Mask

/-! # Trapped accesses, step by step

Which access a data abort is decoded to, which device serves it, and what the handler does with the answer.
-/

namespace Hypervisor

/-! ## The access -/

/-- The instruction specific part of a syndrome. -/
def abortIss (esr : U64) : U32 := (esr &&& esrIssMask).setWidth 32

/-- An abort that is decoded to an access; the instruction is zero if the syndrome is valid. -/
structure Traps (fetch : U64 → U32) (context : VcpuContext) (esr : U64) (insn : U32) (access : MmioAccess) : Prop where
  fetched : abortInsn fetch context.pc (abortIss esr) = some insn
  decoded : MmioAccess.decode insn (abortIss esr) = some access

/-- The access as the handler computes it. -/
theorem Traps.access_eq {fetch : U64 → U32} {context : VcpuContext} {esr : U64} {insn : U32} {access : MmioAccess}
    (traps : Traps fetch context esr insn access) :
    ((abortInsn fetch context.pc ((esr &&& esrIssMask).setWidth 32)).bind fun insn =>
      MmioAccess.decode insn ((esr &&& esrIssMask).setWidth 32)) = some access := by
  rw [← abortIss, traps.fetched, Option.bind_some, traps.decoded]

/-- The sizes of trapped accesses, in bytes. -/
inductive AccessSize : U8 → Prop where
  | byte : AccessSize 1
  | half : AccessSize 2
  | word : AccessSize 4
  | double : AccessSize 8

theorem accessSize_shift (bits : BitVec 2) : AccessSize ((1 : U8) <<< bits.toNat) := by
  have four : bits = 0 ∨ bits = 1 ∨ bits = 2 ∨ bits = 3 := by
    revert bits
    decide
  rcases four with rfl | rfl | rfl | rfl
  · exact .byte
  · exact .half
  · exact .word
  · exact .double

theorem accessSize_sizeOf (sas : U32) : AccessSize (MmioAccess.sizeOf sas) := by
  rw [MmioAccess.sizeOf]
  split_ifs
  · exact .byte
  · exact .half
  · exact .word
  · exact .double

theorem MmioAccess.accessSize {insn iss : U32} {access : MmioAccess} (decoded : decode insn iss = some access) :
    AccessSize access.size := by
  have field : ((insn >>> 30) &&& 0x3).toNat = (insn.extractLsb' 30 2).toNat := by
    rw [show (0x3 : U32) = BitVec.mask 0 2 from rfl, BitVec.ushiftRight_and_mask,
      BitVec.toNat_setWidth_of_le (by decide)]
  simp only [decode, decodeInstruction, field] at decoded
  split_ifs at decoded
  · obtain rfl := Option.some.inj decoded
    exact accessSize_shift _
  · obtain rfl := Option.some.inj decoded
    exact accessSize_shift _
  · obtain rfl := Option.some.inj decoded
    exact accessSize_sizeOf _
  · obtain rfl := Option.some.inj decoded
    exact accessSize_sizeOf _

/-! ## The device -/

section Manager

variable {host : MmioHost} {m : DeviceManager} {world : MmioWorld} {addr : U64} {slot : Fin maxDevices} {dev : Device}

theorem DeviceManager.contains_of_firstSlot (found : m.firstSlot (·.contains host addr) = some (slot, dev)) :
    dev.contains host addr = true := by
  obtain ⟨i, -, here⟩ := List.exists_of_findSome?_eq_some found
  obtain ⟨d, -, picked⟩ := Option.bind_eq_some_iff.mp here
  split_ifs at picked with inside
  obtain ⟨-, rfl⟩ := Prod.mk.inj (Option.some.inj picked)
  exact inside

/-- The offset that the device gets lies in its window. -/
theorem Device.offset_lt (inside : dev.contains host addr = true) :
    (addr - dev.baseAddress host).toNat < dev.size := by
  simp only [contains, Bool.and_eq_true, decide_eq_true_eq] at inside
  rw [BitVec.toNat_sub_of_le inside.1]
  omega

theorem VirtualGicr.exists_decodeOffset {gicr : VirtualGicr} {offset : U64}
    (inside : offset.toNat < 0x20000 * gicr.numVcpus) : ∃ place, gicr.decodeOffset offset = some place := by
  have frame : (offset / gicrPerCpu).toNat < gicr.numVcpus := by
    rw [BitVec.toNat_udiv, show gicrPerCpu.toNat = 0x20000 by decide]
    exact Nat.div_lt_of_lt_mul inside
  rw [decodeOffset, dif_pos frame]
  simp only
  split_ifs
  · exact ⟨_, rfl⟩
  · exact ⟨_, rfl⟩

end Manager

/-! ## The clock -/

theorem toNat_low_lt (x : U64) : (x &&& 0xFFFFFFFF).toNat < 2 ^ 32 := by
  rw [BitVec.toNat_and]
  exact Nat.lt_of_le_of_lt Nat.and_le_right (by decide)

namespace VirtualPl031

/-- The time in seconds, as a number. -/
def seconds (rtc : VirtualPl031) (cntfrq cntvct : U64) : ℕ :=
  if rtc.control &&& 1 = 0 ∨ cntfrq = 0 then rtc.loadValue.toNat
  else rtc.loadValue.toNat + ((cntvct - rtc.loadCounter) / cntfrq).toNat

theorem currentTime_eq_some_iff (rtc : VirtualPl031) (cntfrq cntvct value : U64) :
    rtc.currentTime cntfrq cntvct = some value ↔ value.toNat = rtc.seconds cntfrq cntvct := by
  rw [currentTime, seconds]
  by_cases stopped : rtc.control &&& 1 = 0
  · rw [if_pos stopped, if_pos (Or.inl stopped), Option.some_inj, BitVec.toNat_inj, eq_comm]
  · by_cases unknown : cntfrq = 0
    · rw [if_neg stopped, if_pos unknown, if_pos (Or.inr unknown), Option.some_inj, BitVec.toNat_inj, eq_comm]
    · rw [if_neg stopped, if_neg unknown, if_neg (not_or.mpr ⟨stopped, unknown⟩), checkedAdd_eq_some_iff]

end VirtualPl031

/-! ## The handler -/

section Handler

variable {host : MmioHost} {fetch : U64 → U32} {context : VcpuContext} {esr addr : U64} {m : DeviceManager}
  {world : MmioWorld} {insn : U32} {reg size : U8} {flag : Bool}

theorem VcpuContext.getReg_setReg (context : VcpuContext) (value : U64) (general : reg.toNat < 31) :
    (context.setReg reg value).getReg reg = value := by
  simp only [setReg, getReg, dif_pos general, Function.update_self]

theorem handleMmioAbort_load_ok {value : U64} {m' : DeviceManager} {world' : MmioWorld}
    (traps : Traps fetch context esr insn (.load reg size flag))
    (served : m.handleMmio host world addr 0 size false = .ok (some value, m', world')) :
    handleMmioAbort host fetch context esr addr m world = .ok (true, context.setReg reg value, m', world') := by
  simp only [handleMmioAbort, traps.access_eq, MmioAccess.isStore, MmioAccess.size, MmioAccess.reg,
    served]
  rfl

theorem handleMmioAbort_store (traps : Traps fetch context esr insn (.store reg size)) :
    handleMmioAbort host fetch context esr addr m world =
      (m.handleMmio host world addr (context.getReg reg) size true).map
        fun served => (true, context, served.2.1, served.2.2) := by
  simp only [handleMmioAbort, traps.access_eq, MmioAccess.isStore, MmioAccess.size, MmioAccess.reg,
    if_pos]
  cases m.handleMmio host world addr (context.getReg reg) size true <;> rfl

end Handler

end Hypervisor
