import Hypervisor.Model.Decode
import Hypervisor.ToMathlib.Mask
import Mathlib.Tactic.IntervalCases

/-! # Two decoders for one access

A trapped load or store is decoded from the syndrome, or from the instruction where the syndrome is not
valid. For the instructions of the class "load/store register (unsigned immediate)" the two should agree, and
other instructions should be refused. The syndrome decoder takes the upper bit of the size for the one
that says whether the load extends the sign, and the instruction decoder looks at neither the upper bit of
`opc` nor the bit that tells vector registers from integer ones.
-/

namespace Hypervisor

/-! ## Encodings -/

namespace A64

def size (insn : U32) : BitVec 2 := insn.extractLsb' 30 2
def opc (insn : U32) : BitVec 2 := insn.extractLsb' 22 2
def rt (insn : U32) : BitVec 5 := insn.extractLsb' 0 5

/-- Load/store register (unsigned immediate), with vector registers, prefetch and unallocated encodings. -/
def UnsignedImmediate (insn : U32) : Prop := insn.extractLsb' 27 3 = 7 ∧ insn.extractLsb' 24 2 = 1

/-- The loads and stores of integer registers: `opc` 0 stores, 1 loads, 2 extends the sign to 64 bits and 3 to
32 bits. A double word has nothing to extend (`opc` 2 is a prefetch there), nor has a word to 32 bits. -/
def IntegerAccess (insn : U32) : Prop :=
  UnsignedImmediate insn ∧ insn.getLsbD 26 = false ∧ (opc insn = 2 → size insn ≠ 3) ∧
    (opc insn = 3 → size insn = 0 ∨ size insn = 1)

/-- The syndrome of a data abort that the instruction takes; its other bits depend on the fault. -/
structure Describes (iss insn : U32) : Prop where
  isv : iss.getLsbD 24 = true
  sas : iss.extractLsb' 22 2 = size insn
  sse : iss.getLsbD 21 = (opc insn).getLsbD 1
  srt : iss.extractLsb' 16 5 = rt insn
  wnr : iss.getLsbD 6 = decide (opc insn = 0)

end A64

open A64 in
/-- The decoders agree on the instruction if it is an integer access, and refuse it if not. -/
structure DecodersAgree (insn : U32) : Prop where
  inside : IntegerAccess insn → ∀ iss, Describes iss insn →
    MmioAccess.decodeInstruction insn = MmioAccess.decode 0 iss
  outside : ¬IntegerAccess insn → MmioAccess.decodeInstruction insn = none

open A64 in
/-- Among the encodings of the class: stores, and loads of bytes and half-words other than those that extend the
sign to 64 bits, of integer registers. -/
def DecodesRight (insn : U32) : Prop :=
  UnsignedImmediate insn → insn.getLsbD 26 = false ∧
    (opc insn = 0 ∨ (opc insn = 1 ∨ opc insn = 3) ∧ (size insn = 0 ∨ size insn = 1))

/-! ## Fields -/

section Fields

variable {insn iss : U32}

open A64

theorem shift_and_one (x : U32) (i : ℕ) : (x >>> i) &&& 1 = if x.getLsbD i then 1 else 0 :=
  BitVec.ushiftRight_and_one x i

/-- The bits that the instruction decoder tests. -/
theorem unsignedImmediate_iff : UnsignedImmediate insn ↔ insn &&& 0x3B000000 = 0x39000000 := by
  constructor
  · rintro ⟨upper, lower⟩
    have bits (i : ℕ) := congrArg (BitVec.getLsbD · i) upper
    have low (i : ℕ) := congrArg (BitVec.getLsbD · i) lower
    have b27 := bits 0
    have b28 := bits 1
    have b29 := bits 2
    have b24 := low 0
    have b25 := low 1
    simp at b24 b25 b27 b28 b29
    apply BitVec.eq_of_getLsbD_eq
    intro i bound
    interval_cases i <;> simp_all
  · intro same
    have bit (i : ℕ) := congrArg (BitVec.getLsbD · i) same
    have b24 := bit 24
    have b25 := bit 25
    have b27 := bit 27
    have b28 := bit 28
    have b29 := bit 29
    simp at b24 b25 b27 b28 b29
    constructor
    · apply BitVec.eq_of_getLsbD_eq
      intro i bound
      interval_cases i <;> simp_all
    · apply BitVec.eq_of_getLsbD_eq
      intro i bound
      interval_cases i <;> simp_all

theorem decodeInstruction_eq_none (outside : ¬UnsignedImmediate insn) : MmioAccess.decodeInstruction insn = none :=
  if_neg (mt unsignedImmediate_iff.mpr outside)

/-- A decoded instruction in terms of its fields. -/
theorem decodeInstruction_eq_some (inside : UnsignedImmediate insn) :
    MmioAccess.decodeInstruction insn = some (if (opc insn).getLsbD 0 then
        .load ((rt insn).setWidth 8) ((1 : U8) <<< (size insn).toNat) false
      else .store ((rt insn).setWidth 8) ((1 : U8) <<< (size insn).toNat)) := by
  have load : (opc insn).getLsbD 0 = insn.getLsbD 22 := by simp [opc]
  have width : ((insn >>> 30) &&& 0x3).toNat = (size insn).toNat := by
    rw [show (0x3 : U32) = BitVec.mask 0 2 from rfl, BitVec.ushiftRight_and_mask, BitVec.toNat_setWidth, size]
    exact Nat.mod_eq_of_lt (Nat.lt_of_lt_of_le (BitVec.isLt _) (by decide))
  have register : ((insn &&& 0x1F).setWidth 8 : U8) = (rt insn).setWidth 8 := by
    have field := BitVec.ushiftRight_and_mask insn 0 5
    rw [BitVec.ushiftRight_zero] at field
    rw [show (0x1F : U32) = BitVec.mask 0 5 from rfl, field, BitVec.setWidth_setWidth_of_le _ (by decide)]
    rfl
  simp only [MmioAccess.decodeInstruction, if_pos (unsignedImmediate_iff.mp inside), width, register, shift_and_one,
    load]
  cases insn.getLsbD 22 <;> simp

/-- A syndrome that is valid, in terms of the fields of the instruction. -/
theorem decode_eq (describes : Describes iss insn) :
    MmioAccess.decode 0 iss = some (if opc insn = 0 then
        .store ((rt insn).setWidth 8) ((1 : U8) <<< (size insn).toNat)
      else .load ((rt insn).setWidth 8) ((1 : U8) <<< (size insn).toNat) ((size insn).getLsbD 1)) := by
  have sas : (iss >>> 22) &&& 0x3 = (size insn).setWidth 32 := by
    rw [show (0x3 : U32) = BitVec.mask 0 2 from rfl, BitVec.ushiftRight_and_mask, describes.sas]
  have bytes : MmioAccess.sizeOf ((size insn).setWidth 32) = (1 : U8) <<< (size insn).toNat := by
    generalize size insn = bits
    revert bits
    decide
  have srt : ((iss >>> 16) &&& 0x1F).setWidth 8 = (rt insn).setWidth 8 := by
    rw [show (0x1F : U32) = BitVec.mask 0 5 from rfl, BitVec.ushiftRight_and_mask, describes.srt,
      BitVec.setWidth_setWidth_of_le _ (by decide)]
  have upper : (size insn).getLsbD 1 = iss.getLsbD 23 := by
    rw [← describes.sas]
    simp
  simp only [MmioAccess.decode, shift_and_one, describes.isv, describes.wnr, sas, bytes, srt, upper]
  by_cases store : opc insn = 0 <;> cases iss.getLsbD 23 <;> simp [store]

/-- The syndrome that describes the instruction, with the bits of the fault left zero. -/
theorem exists_describes (insn : U32) : ∃ iss, Describes iss insn := by
  refine ⟨1 <<< 24 ||| (size insn).setWidth 32 <<< 22 ||| (BitVec.ofBool ((opc insn).getLsbD 1)).setWidth 32 <<< 21 |||
    (rt insn).setWidth 32 <<< 16 ||| (BitVec.ofBool (opc insn = 0)).setWidth 32 <<< 6, ?_, ?_, ?_, ?_, ?_⟩
  · simp
  · apply BitVec.eq_of_getLsbD_eq
    intro i bound
    interval_cases i <;> simp
  · simp
  · apply BitVec.eq_of_getLsbD_eq
    intro i bound
    interval_cases i <;> simp
  · simp

/-- What the decoders make of the same fields. -/
theorem fields_agree_iff (reg bytes : U8) (opc size : BitVec 2) :
    (if opc.getLsbD 0 then MmioAccess.load reg bytes false else .store reg bytes) =
        (if opc = 0 then .store reg bytes else .load reg bytes (size.getLsbD 1)) ↔
      opc = 0 ∨ (opc = 1 ∨ opc = 3) ∧ (size = 0 ∨ size = 1) := by
  have four (bits : BitVec 2) : bits = 0 ∨ bits = 1 ∨ bits = 2 ∨ bits = 3 := by
    revert bits
    decide
  rcases four opc with rfl | rfl | rfl | rfl <;> rcases four size with rfl | rfl | rfl | rfl <;> simp

/-- An instruction for which both decoders can be right is an integer access. -/
theorem DecodesRight.integerAccess (right : DecodesRight insn) (inside : UnsignedImmediate insn) :
    IntegerAccess insn := by
  obtain ⟨integer, fields⟩ := right inside
  refine ⟨inside, integer, ?_, ?_⟩
  · rintro extends64
    rw [extends64] at fields
    simp at fields
  · rintro extends32
    rw [extends32] at fields
    simpa using fields

end Fields

/-! ## Agreement -/

open A64 in
theorem decoders_agree_iff (insn : U32) : DecodersAgree insn ↔ DecodesRight insn := by
  constructor
  · intro agree inside
    by_cases access : IntegerAccess insn
    · obtain ⟨iss, describes⟩ := exists_describes insn
      have same := agree.inside access iss describes
      rw [decodeInstruction_eq_some inside, decode_eq describes, Option.some_inj, fields_agree_iff] at same
      exact ⟨access.2.1, same⟩
    · have refused := agree.outside access
      rw [decodeInstruction_eq_some inside] at refused
      cases refused
  · intro right
    constructor
    · intro access iss describes
      rw [decodeInstruction_eq_some access.1, decode_eq describes, Option.some_inj, fields_agree_iff]
      exact (right access.1).2
    · intro other
      exact decodeInstruction_eq_none fun inside => other (right.integerAccess inside)

open A64 in
/-- `ldr w0, [x0]`: the syndrome decoder takes the access for one that extends the sign. `ldrsb x0, [x0]`: the
instruction decoder takes the load for a store. `ldr b0, [x0]` has a vector register, and is accepted. -/
theorem decoders_disagree :
    (Describes 0x01800000 0xB9400000 ∧ IntegerAccess 0xB9400000 ∧
      MmioAccess.decodeInstruction 0xB9400000 ≠ MmioAccess.decode 0 0x01800000) ∧
    (Describes 0x01200000 0x39800000 ∧ IntegerAccess 0x39800000 ∧
      MmioAccess.decodeInstruction 0x39800000 = some (.store 0 1) ∧
      MmioAccess.decode 0 0x01200000 = some (.load 0 1 false)) ∧
    ¬IntegerAccess 0x3D400000 ∧ MmioAccess.decodeInstruction 0x3D400000 = some (.load 0 1 false) := by
  refine ⟨⟨⟨by decide, by decide, by decide, by decide, by decide⟩, ?_, by decide⟩,
    ⟨⟨by decide, by decide, by decide, by decide, by decide⟩, ?_, by decide, by decide⟩, ?_, by decide⟩
  · exact ⟨⟨by decide, by decide⟩, by decide, by decide, by decide⟩
  · exact ⟨⟨by decide, by decide⟩, by decide, by decide, by decide⟩
  · intro access
    exact absurd access.2.1 (by decide)

end Hypervisor
