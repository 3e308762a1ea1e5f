import Hypervisor.Emulation.Basic
import Hypervisor.Model.Distributor
import Hypervisor.Model.Redistributor
import Hypervisor.Proofs.GuestMemory

/-! # Priorities as bytes

The priority registers pack four interrupts into a word, and a guest may write words or single bytes. The
distributor forwards a byte to the hardware and drops it from its shadow registers; a redistributor stores
the whole source register in place of the byte, or nothing if the byte is one of the last three. Words are
emulated where they are aligned.
-/

namespace Hypervisor

/-! ## Banks of words as bytes -/

/-- The bytes of a bank of little-endian words. -/
def bankBytes {n : ℕ} (bank : Fin n → U32) : GuestRam := fun off =>
  if bound : off / 4 < n then (bank ⟨off / 4, bound⟩).extractLsb' (8 * (off % 4)) 8 else 0

section Banks

variable {n : ℕ} (bank : Fin n → U32)

theorem bankBytes_word (i : Fin n) {k : ℕ} (inside : k < 4) :
    bankBytes bank (4 * i.val + k) = (bank i).extractLsb' (8 * k) 8 := by
  have word : (4 * i.val + k) / 4 = i.val := by omega
  have byte : (4 * i.val + k) % 4 = k := by omega
  simp only [bankBytes, word, byte, i.isLt, dif_pos]

theorem readU32_bankBytes (i : Fin n) : readU32 (bankBytes bank) (4 * i.val) = bank i := by
  have low : readU16 (bankBytes bank) (4 * i.val) = (bank i).extractLsb' 0 16 := by
    have first := bankBytes_word bank i (show 0 < 4 by decide)
    rw [Nat.add_zero] at first
    rw [readU16, bankBytes_word bank i (show 1 < 4 by decide), first]
    exact BitVec.extractLsb'_append_extractLsb'_eq_extractLsb' rfl
  have high : readU16 (bankBytes bank) (4 * i.val + 2) = (bank i).extractLsb' 16 16 := by
    rw [readU16, Nat.add_assoc, bankBytes_word bank i (show 3 < 4 by decide),
      bankBytes_word bank i (show 2 < 4 by decide)]
    exact BitVec.extractLsb'_append_extractLsb'_eq_extractLsb' rfl
  rw [readU32, low, high]
  exact (BitVec.extractLsb'_append_extractLsb'_eq_extractLsb' rfl).trans BitVec.extractLsb'_eq_self

theorem bankBytes_update (i : Fin n) (value : U32) :
    bankBytes (Function.update bank i value) = writeU32 (bankBytes bank) (4 * i.val) value := by
  funext off
  rw [writeU32, writeLe]
  split_ifs with inside
  · obtain ⟨k, below, rfl⟩ : ∃ k < 4, off = 4 * i.val + k := ⟨off - 4 * i.val, by omega, by omega⟩
    rw [bankBytes_word _ i below, Function.update_self, Nat.add_sub_cancel_left]
  · rw [bankBytes, bankBytes]
    split_ifs with bound
    · rw [Function.update_of_ne]
      rintro same
      have := congrArg Fin.val same
      simp only at this
      omega
    · rfl

end Banks

/-! ## Accesses -/

/-- Accesses to the `len` bytes of the priorities of a frame. -/
inductive PriorityAccess (len : ℕ) where
  | read (off : Fin (len - 3))
  | writeWord (off : Fin (len - 3)) (value : U64)
  | writeByte (off : Fin len) (value : U64)
deriving DecidableEq, Repr

namespace PriorityAccess

variable {len : ℕ}

/-- What an access does to an array of bytes. -/
def store (bytes : GuestRam) : PriorityAccess len → GuestRam
  | read _ => bytes
  | writeWord off value => writeU32 bytes off.val (value.setWidth 32)
  | writeByte off value => writeU8 bytes off.val (value.setWidth 8)

def load (bytes : GuestRam) : PriorityAccess len → Option U64
  | read off => some ((readU32 bytes off.val).setWidth 64)
  | _ => none

/-- The access on a device, by its functions. -/
def step {S : Type} (write : S → U64 → U64 → U8 → S) (base : ℕ) (s : S) : PriorityAccess len → S
  | read _ => s
  | writeWord off value => write s (BitVec.ofNat 64 (base + off.val)) value 4
  | writeByte off value => write s (BitVec.ofNat 64 (base + off.val)) value 1

def answer {S : Type} (read : S → U64 → U8 → Option U64) (base : ℕ) (s : S) : PriorityAccess len → Option U64
  | .read off => read s (BitVec.ofNat 64 (base + off.val)) 4
  | _ => none

/-- Words are read and written where they are aligned, and bytes under a condition of their own. -/
def Served (byteServed : GuestRam → Fin len → U64 → Prop) (bytes : GuestRam) : PriorityAccess len → Prop
  | .read off => readU32 bytes (4 * (off.val / 4)) = readU32 bytes off.val
  | writeWord off value =>
      writeU32 bytes (4 * (off.val / 4)) (value.setWidth 32) = writeU32 bytes off.val (value.setWidth 32)
  | writeByte off value => byteServed bytes off value

end PriorityAccess

theorem writeU8_eq_self_iff {bytes : GuestRam} {off : ℕ} {byte : U8} :
    bytes = writeU8 bytes off byte ↔ bytes off = byte := by
  have here : writeU8 bytes off byte off = byte := by
    rw [writeU8, writeLe, if_pos (by omega), Nat.sub_self]
    exact BitVec.extractLsb'_eq_self
  constructor
  · intro same
    rw [same, here]
  · rintro rfl
    funext a
    by_cases same : a = off
    · rw [same, here]
    · rw [writeU8, writeLe, if_neg (by omega)]

/-- A word that a bank returns is the one at the offset. -/
theorem read_bank_iff {n : ℕ} (bank : Fin n → U32) {off : ℕ} (inside : off / 4 < n) :
    (some ((bank ⟨off / 4, inside⟩).setWidth 64) : Option U64) = some ((readU32 (bankBytes bank) off).setWidth 64) ↔
      readU32 (bankBytes bank) (4 * (off / 4)) = readU32 (bankBytes bank) off := by
  rw [readU32_bankBytes bank ⟨off / 4, inside⟩, Option.some_inj]
  refine ⟨fun same => ?_, fun same => congrArg _ same⟩
  have narrow := congrArg (BitVec.setWidth 32) same
  rwa [BitVec.setWidth_setWidth_of_le _ (by decide), BitVec.setWidth_setWidth_of_le _ (by decide),
    BitVec.setWidth_eq, BitVec.setWidth_eq] at narrow

/-! ## The distributor -/

def gicdPriorities : Emulation VirtualGicd GuestRam (PriorityAccess 1024) (Option U64) where
  step := PriorityAccess.step VirtualGicd.write 0x400
  answer := PriorityAccess.answer (fun gicd offset size => some (gicd.read offset size)) 0x400
  store := PriorityAccess.store
  load := PriorityAccess.load
  view gicd := bankBytes gicd.ipriorityr

/-- The bytes that were last stored to the physical distributor, after one more write. -/
def forwardBytes (fwd : ℕ → Option U8) (off : ℕ) (value : U64) (size : U8) : ℕ → Option U8 :=
  match VirtualGicd.forward (BitVec.ofNat 64 (0x400 + off)) value size with
  | some word => fun a => if off ≤ a ∧ a < off + size.toNat then some (word.extractLsb' (8 * (a - off)) 8) else fwd a
  | none => fwd

def PriorityAccess.forward (fwd : ℕ → Option U8) : PriorityAccess 1024 → ℕ → Option U8
  | read _ => fwd
  | writeWord off value => forwardBytes fwd off.val value 4
  | writeByte off value => forwardBytes fwd off.val value 1

/-- The bytes that a run has stored to the physical distributor. -/
def forwardedBytes (accesses : List (PriorityAccess 1024)) : ℕ → Option U8 :=
  accesses.foldl PriorityAccess.forward fun _ => none

/-- The shadow registers show an array of bytes, and agree with what was forwarded. -/
structure VirtualGicd.ActsAsBytes (gicd : VirtualGicd) (accesses : List (PriorityAccess 1024)) : Prop where
  refines : gicdPriorities.Refines gicd accesses
  forwarded : ∀ off byte, forwardedBytes accesses off = some byte →
    bankBytes (Emulation.run gicdPriorities.step gicdPriorities.answer gicd accesses).1.ipriorityr off = byte

/-- A byte that is written is there already. -/
def PriorityAccess.GicdServed (bytes : GuestRam) (access : PriorityAccess 1024) : Prop :=
  access.Served (fun bytes off value => bytes off.val = value.setWidth 8) bytes

namespace VirtualGicd

variable {gicd : VirtualGicd} {off : ℕ}

theorem inRange_iff {base last offset : U64} :
    inRange base last offset = true ↔ base.toNat ≤ offset.toNat ∧ offset.toNat ≤ last.toNat := by
  rw [inRange, Bool.and_eq_true, decide_eq_true_iff, decide_eq_true_iff, BitVec.le_def, BitVec.le_def]

theorem toNat_priorityOffset (inside : off < 1024) : (BitVec.ofNat 64 (0x400 + off)).toNat = 0x400 + off := by
  rw [BitVec.toNat_ofNat]
  omega

theorem priorityOffset_ne (inside : off < 1024) {x : U64} (far : x.toNat < 0x400 ∨ 0x800 ≤ x.toNat) :
    BitVec.ofNat 64 (0x400 + off) ≠ x := by
  rintro rfl
  rw [toNat_priorityOffset inside] at far
  omega

theorem inRange_priorityOffset (inside : off < 1024) (base last : U64)
    (far : last.toNat < 0x400 ∨ 0x800 ≤ base.toNat) :
    inRange base last (BitVec.ofNat 64 (0x400 + off)) = false := by
  rw [Bool.eq_false_iff, Ne, inRange_iff, toNat_priorityOffset inside]
  omega

/-- Priorities are not routing registers. -/
theorem not_irouter (inside : off < 1024) :
    inRange gicdIrouterBase gicdIrouterEnd (BitVec.ofNat 64 (0x400 + off)) = false :=
  inRange_priorityOffset inside _ _ (.inr (by decide))

theorem inRange_ipriorityr (inside : off < 1021) :
    inRange gicdIpriorityrBase gicdIpriorityrEnd (BitVec.ofNat 64 (0x400 + off)) = true := by
  rw [inRange_iff, toNat_priorityOffset (by omega), show gicdIpriorityrBase.toNat = 0x400 from rfl,
    show gicdIpriorityrEnd.toNat = 0x7FC from rfl]
  omega

theorem priorityIndex (inside : off < 1024) :
    ((BitVec.ofNat 64 (0x400 + off) - gicdIpriorityrBase) / 4).toNat = off / 4 := by
  rw [BitVec.toNat_udiv, BitVec.toNat_sub, toNat_priorityOffset inside,
    show gicdIpriorityrBase.toNat = 0x400 from rfl, show (4 : U64).toNat = 4 from rfl]
  omega

/-- The banks in front of the priorities. -/
theorem not_lower_bank (inside : off < 1024) :
    inRange gicdIgrouprBase gicdIgrouprEnd (BitVec.ofNat 64 (0x400 + off)) = false ∧
    inRange gicdIsenablerBase gicdIsenablerEnd (BitVec.ofNat 64 (0x400 + off)) = false ∧
    inRange gicdIcenablerBase gicdIcenablerEnd (BitVec.ofNat 64 (0x400 + off)) = false ∧
    inRange gicdIspendrBase gicdIspendrEnd (BitVec.ofNat 64 (0x400 + off)) = false ∧
    inRange gicdIcpendrBase gicdIcpendrEnd (BitVec.ofNat 64 (0x400 + off)) = false ∧
    inRange gicdIsactiverBase gicdIsactiverEnd (BitVec.ofNat 64 (0x400 + off)) = false ∧
    inRange gicdIcactiverBase gicdIcactiverEnd (BitVec.ofNat 64 (0x400 + off)) = false := by
  refine ⟨?_, ?_, ?_, ?_, ?_, ?_, ?_⟩ <;> exact inRange_priorityOffset inside _ _ (.inl (by decide))

theorem read_priority (gicd : VirtualGicd) (inside : off < 1021) :
    gicd.read (BitVec.ofNat 64 (0x400 + off)) 4 = (gicd.ipriorityr ⟨off / 4, by omega⟩).setWidth 64 := by
  have low : off < 1024 := by omega
  have index : off / 4 < 256 := by omega
  have other {x : U64} (far : x.toNat < 0x400) := priorityOffset_ne low (.inl far)
  rw [read, not_irouter low, if_neg (by simp), if_neg (by simp), if_neg (by decide), read32,
    if_neg (other (by decide)), if_neg (other (by decide)), if_neg (other (by decide))]
  simp only [not_lower_bank low, inRange_ipriorityr inside, if_true, if_false, Bool.false_eq_true, readBank,
    priorityIndex low, index, dif_pos]

theorem write_priority (gicd : VirtualGicd) (inside : off < 1021) (value : U64) :
    gicd.write (BitVec.ofNat 64 (0x400 + off)) value 4 =
      { gicd with ipriorityr := Function.update gicd.ipriorityr ⟨off / 4, by omega⟩ (value.setWidth 32) } := by
  have low : off < 1024 := by omega
  have index : off / 4 < 256 := by omega
  rw [write, not_irouter low, if_neg (by simp), if_neg (by simp), if_neg (by decide), write32,
    if_neg (priorityOffset_ne low (.inl (by decide)))]
  simp only [not_lower_bank low, inRange_ipriorityr inside, if_true, if_false, Bool.false_eq_true, writeBank,
    priorityIndex low, index, dif_pos]

theorem write_priority_byte (gicd : VirtualGicd) (offset value : U64) : gicd.write offset value 1 = gicd := by
  rw [write, if_neg (by simp), if_neg (by simp), if_pos (by decide)]

end VirtualGicd

/-- What an access does to the priorities of a bank, word by word. -/
theorem serves_gicd_iff (gicd : VirtualGicd) (access : PriorityAccess 1024) :
    gicdPriorities.Serves gicd access ↔ access.GicdServed (bankBytes gicd.ipriorityr) := by
  cases access with
  | read off =>
      have inside : off.val < 1021 := off.isLt
      change (some (gicd.read _ 4) = some _ ∧ bankBytes gicd.ipriorityr = bankBytes gicd.ipriorityr) ↔ _ = _
      rw [VirtualGicd.read_priority gicd inside, and_iff_left rfl]
      exact read_bank_iff gicd.ipriorityr (by omega)
  | writeWord off value =>
      have inside : off.val < 1021 := off.isLt
      change (none = none ∧ bankBytes (gicd.write _ value 4).ipriorityr = _) ↔ _ = _
      rw [VirtualGicd.write_priority gicd inside, bankBytes_update, and_iff_right rfl]
      rfl
  | writeByte off value =>
      change (none = none ∧ bankBytes (gicd.write _ value 1).ipriorityr = _) ↔ _
      rw [VirtualGicd.write_priority_byte, and_iff_right rfl]
      exact writeU8_eq_self_iff

/-- Priorities are forwarded as they are, by the size of the access. -/
theorem forward_priority {off : ℕ} (inside : off < 1024) (value : U64) (size : U8) :
    VirtualGicd.forward (BitVec.ofNat 64 (0x400 + off)) value size =
      if size = 1 then some ((value.setWidth 8).setWidth 64)
      else if size = 2 then some ((value.setWidth 16).setWidth 64)
      else if size = 4 then some ((value.setWidth 32).setWidth 64)
      else if size = 8 then some value
      else none := by
  have other {x : U64} (far : x.toNat < 0x400 ∨ 0x800 ≤ x.toNat) := VirtualGicd.priorityOffset_ne inside far
  simp only [VirtualGicd.forward, other (x := gicdCtlr) (.inl (by decide)), other (x := gicdTyper) (.inl (by decide)),
    other (x := gicdIidr) (.inl (by decide)), other (x := gicdPidr2) (.inr (by decide)), or_self, if_false]

/-- A store of some bytes, seen through the ones that were forwarded. -/
theorem writeLe_of_forwarded {n off a : ℕ} {fwd : ℕ → Option U8} {bytes : GuestRam} {x : BitVec (8 * n)} {byte : U8}
    (small : n ≤ 8) (agree : fwd a = some byte → bytes a = byte)
    (stored : (if off ≤ a ∧ a < off + n then some ((x.setWidth 64).extractLsb' (8 * (a - off)) 8) else fwd a) =
      some byte) : writeLe n bytes off x a = byte := by
  rw [writeLe]
  split_ifs at stored ⊢ with inside
  · rw [← Option.some_inj.mp stored]
    apply BitVec.eq_of_getLsbD_eq
    intro i bound
    rw [BitVec.getLsbD_extractLsb', BitVec.getLsbD_extractLsb', BitVec.getLsbD_setWidth]
    have short : 8 * (a - off) + i < 64 := by omega
    simp [short]
  · exact agree stored

theorem forward_agrees {fwd : ℕ → Option U8} {bytes : GuestRam} (access : PriorityAccess 1024)
    (agree : ∀ off byte, fwd off = some byte → bytes off = byte) :
    ∀ off byte, access.forward fwd off = some byte → access.store bytes off = byte := by
  intro a byte stored
  cases access with
  | read off => exact agree a byte stored
  | writeWord off value =>
      have inside : off.val < 1021 := off.isLt
      rw [PriorityAccess.forward, forwardBytes, forward_priority (by omega)] at stored
      exact @writeLe_of_forwarded 4 off.val a fwd bytes (value.setWidth 32) byte (by decide) (agree a byte) stored
  | writeByte off value =>
      rw [PriorityAccess.forward, forwardBytes, forward_priority off.isLt] at stored
      exact @writeLe_of_forwarded 1 off.val a fwd bytes (value.setWidth 8) byte (by decide) (agree a byte) stored

/-- What was forwarded is in the array of bytes. -/
theorem forwardedBytes_agree (bytes : GuestRam) (accesses : List (PriorityAccess 1024)) :
    ∀ off byte, forwardedBytes accesses off = some byte →
      (Emulation.run gicdPriorities.store gicdPriorities.load bytes accesses).1 off = byte := by
  induction accesses using List.reverseRecOn with
  | nil => rintro off byte ⟨⟩
  | append_singleton past access ih =>
      rw [forwardedBytes, List.foldl_append, Emulation.run_concat]
      exact forward_agrees access ih

theorem VirtualGicd.actsAsBytes_iff {gicd : VirtualGicd} {accesses : List (PriorityAccess 1024)} :
    gicd.ActsAsBytes accesses ↔ gicdPriorities.Refines gicd accesses := by
  refine ⟨fun acts => acts.refines, fun refines => ⟨refines, ?_⟩⟩
  intro off byte stored
  have agree := forwardedBytes_agree (bankBytes gicd.ipriorityr) accesses off byte stored
  exact (congrFun refines.registers off).trans agree

/-! ## The redistributors -/

/-- The first priority of a redistributor. -/
def gicrPriorityBase (frame : ℕ) : ℕ := 0x20000 * frame + 0x10000 + 0x400

/-- The priorities of all redistributors, for accesses to `n` of them. -/
def gicrPriorities (n : ℕ) (le : n ≤ maxSmpCpus) :
    Emulation VirtualGicr (Fin maxSmpCpus → GuestRam) (Fin n × PriorityAccess 32) (Option U64) where
  step gicr access := access.2.step VirtualGicr.write (gicrPriorityBase access.1.val) gicr
  answer gicr access := access.2.answer VirtualGicr.read (gicrPriorityBase access.1.val) gicr
  store frames access :=
    Function.update frames (access.1.castLE le) (access.2.store (frames (access.1.castLE le)))
  load frames access := access.2.load (frames (access.1.castLE le))
  view gicr frame := bankBytes (gicr.state frame).ipriorityr

/-- A byte that is written stands for the whole word, or is there already if it is one of the last three. -/
def PriorityAccess.GicrServed (bytes : GuestRam) (access : PriorityAccess 32) : Prop :=
  access.Served (fun bytes off value =>
    if off.val < 29 then
      writeU32 bytes (4 * (off.val / 4)) (value.setWidth 32) = writeU8 bytes off.val (value.setWidth 8)
    else bytes off.val = value.setWidth 8) bytes

namespace VirtualGicr

variable {gicr : VirtualGicr} {n off : ℕ}

theorem decodeOffset_priority (gicr : VirtualGicr) (frame : Fin gicr.numVcpus) (inside : off < 32) :
    gicr.decodeOffset (BitVec.ofNat 64 (gicrPriorityBase frame.val + off)) =
      some (frame.castLE gicr.le, true, BitVec.ofNat 64 (0x400 + off)) := by
  have few : frame.val < 8 := Nat.lt_of_lt_of_le frame.isLt gicr.le
  have place : (BitVec.ofNat 64 (gicrPriorityBase frame.val + off)).toNat =
      0x20000 * frame.val + 0x10000 + 0x400 + off := by
    rw [BitVec.toNat_ofNat, gicrPriorityBase]
    omega
  have index : (BitVec.ofNat 64 (gicrPriorityBase frame.val + off) / gicrPerCpu).toNat = frame.val := by
    rw [BitVec.toNat_udiv, place, show gicrPerCpu.toNat = 0x20000 from rfl]
    omega
  have within : (BitVec.ofNat 64 (gicrPriorityBase frame.val + off) % gicrPerCpu).toNat = 0x10000 + 0x400 + off := by
    rw [BitVec.toNat_umod, place, show gicrPerCpu.toNat = 0x20000 from rfl]
    omega
  have high : ¬(BitVec.ofNat 64 (gicrPriorityBase frame.val + off) % gicrPerCpu) < 0x10000 := by
    rw [BitVec.lt_def, within, show (0x10000 : U64).toNat = 0x10000 from rfl]
    omega
  have rest : BitVec.ofNat 64 (gicrPriorityBase frame.val + off) % gicrPerCpu - 0x10000 =
      BitVec.ofNat 64 (0x400 + off) := by
    apply BitVec.eq_of_toNat_eq
    rw [BitVec.toNat_sub, within, BitVec.toNat_ofNat, show (0x10000 : U64).toNat = 0x10000 from rfl]
    omega
  rw [decodeOffset]
  simp only [index, frame.isLt, dif_pos, high, if_false, rest]
  rfl

theorem ofOffset_priority (inside : off < 29) :
    SgiReg.ofOffset (BitVec.ofNat 64 (0x400 + off)) = some (.ipriorityr ⟨off / 4, by omega⟩) := by
  have place : (BitVec.ofNat 64 (0x400 + off)).toNat = 0x400 + off := by
    rw [BitVec.toNat_ofNat]
    omega
  have range : gicrIpriorityrBase ≤ BitVec.ofNat 64 (0x400 + off) ∧
      BitVec.ofNat 64 (0x400 + off) ≤ gicrIpriorityrEnd := by
    rw [BitVec.le_def, BitVec.le_def, place, show gicrIpriorityrBase.toNat = 0x400 from rfl,
      show gicrIpriorityrEnd.toNat = 0x41C from rfl]
    omega
  have index : ((BitVec.ofNat 64 (0x400 + off) - gicrIpriorityrBase) / 4).toNat = off / 4 := by
    rw [BitVec.toNat_udiv, BitVec.toNat_sub, place, show gicrIpriorityrBase.toNat = 0x400 from rfl,
      show (4 : U64).toNat = 4 from rfl]
    omega
  have bound : off / 4 < 8 := by omega
  simp only [SgiReg.ofOffset, range, and_self, if_true, index, bound, dif_pos]

/-- The last three bytes are no offset of the last register. -/
theorem ofOffset_last_bytes (last : 29 ≤ off) (inside : off < 32) :
    SgiReg.ofOffset (BitVec.ofNat 64 (0x400 + off)) = none := by
  obtain rfl | rfl | rfl : off = 29 ∨ off = 30 ∨ off = 31 := by omega
  · decide
  · decide
  · decide

theorem read_priority (gicr : VirtualGicr) (frame : Fin gicr.numVcpus) (inside : off < 29) :
    gicr.read (BitVec.ofNat 64 (gicrPriorityBase frame.val + off)) 4 =
      some (((gicr.state (frame.castLE gicr.le)).ipriorityr ⟨off / 4, by omega⟩).setWidth 64) := by
  rw [read, decodeOffset_priority gicr frame (by omega), Option.map_some, if_pos rfl, readSgi,
    ofOffset_priority inside]

/-- The state of one frame after a write to its priorities, of any size. -/
def writePriority (st : GicrState) (off : ℕ) (value : U64) : GicrState :=
  if inside : off < 29 then
    { st with ipriorityr := Function.update st.ipriorityr ⟨off / 4, by omega⟩ (value.setWidth 32) }
  else st

theorem write_priority (gicr : VirtualGicr) (frame : Fin gicr.numVcpus) (inside : off < 32) (value : U64)
    (size : U8) : gicr.write (BitVec.ofNat 64 (gicrPriorityBase frame.val + off)) value size =
      gicr.setState (frame.castLE gicr.le) (writePriority (gicr.state (frame.castLE gicr.le)) off value) := by
  rw [write, decodeOffset_priority gicr frame inside]
  simp only [if_true, writeSgi, writePriority]
  by_cases low : off < 29
  · rw [ofOffset_priority low, dif_pos low]
  · rw [ofOffset_last_bytes (by omega) inside, dif_neg low]

theorem bankBytes_writePriority (st : GicrState) (off : ℕ) (value : U64) :
    bankBytes (writePriority st off value).ipriorityr =
      if off < 29 then writeU32 (bankBytes st.ipriorityr) (4 * (off / 4)) (value.setWidth 32)
      else bankBytes st.ipriorityr := by
  rw [writePriority]
  split_ifs with low
  · exact bankBytes_update st.ipriorityr ⟨off / 4, by omega⟩ (value.setWidth 32)
  · rfl

theorem numVcpus_write (gicr : VirtualGicr) (offset value : U64) (size : U8) :
    (gicr.write offset value size).numVcpus = gicr.numVcpus := by
  rw [write]
  split
  · split_ifs <;> rfl
  · rfl

theorem numVcpus_step (gicr : VirtualGicr) (base : ℕ) (access : PriorityAccess 32) :
    (access.step VirtualGicr.write base gicr).numVcpus = gicr.numVcpus := by
  cases access with
  | read off => rfl
  | writeWord off value => rw [PriorityAccess.step, numVcpus_write]
  | writeByte off value => rw [PriorityAccess.step, numVcpus_write]

/-- A write to the priorities of a frame is emulated exactly if its bytes are the ones that were stored. -/
theorem serves_write_iff (gicr : VirtualGicr) (frame : Fin gicr.numVcpus) (inside : off < 32) (value : U64)
    (size : U8) (bytes : GuestRam) :
    (gicrPriorities gicr.numVcpus gicr.le).view
        (gicr.write (BitVec.ofNat 64 (gicrPriorityBase frame.val + off)) value size) =
      Function.update ((gicrPriorities gicr.numVcpus gicr.le).view gicr) (frame.castLE gicr.le) bytes ↔
    (if off < 29 then
      writeU32 (bankBytes (gicr.state (frame.castLE gicr.le)).ipriorityr) (4 * (off / 4)) (value.setWidth 32)
    else bankBytes (gicr.state (frame.castLE gicr.le)).ipriorityr) = bytes := by
  have view : (gicrPriorities gicr.numVcpus gicr.le).view
      (gicr.write (BitVec.ofNat 64 (gicrPriorityBase frame.val + off)) value size) =
      Function.update ((gicrPriorities gicr.numVcpus gicr.le).view gicr) (frame.castLE gicr.le)
        (bankBytes (writePriority (gicr.state (frame.castLE gicr.le)) off value).ipriorityr) := by
    rw [write_priority gicr frame inside value size]
    funext other
    by_cases same : other = frame.castLE gicr.le
    · rw [same, Function.update_self]
      exact congrArg (fun st : GicrState => bankBytes st.ipriorityr) (Function.update_self ..)
    · rw [Function.update_of_ne same]
      exact congrArg (fun st : GicrState => bankBytes st.ipriorityr) (Function.update_of_ne same ..)
  rw [view, (Function.update_injective _ _).eq_iff, bankBytes_writePriority]

/-- What an access does to the frame and to the bytes. -/
theorem serves_frame_iff (gicr : VirtualGicr) (frame : Fin gicr.numVcpus) (access : PriorityAccess 32) :
    (gicrPriorities gicr.numVcpus gicr.le).Serves gicr (frame, access) ↔
      access.answer VirtualGicr.read (gicrPriorityBase frame.val) gicr =
          access.load ((gicrPriorities gicr.numVcpus gicr.le).view gicr (frame.castLE gicr.le)) ∧
        (gicrPriorities gicr.numVcpus gicr.le).view (access.step VirtualGicr.write (gicrPriorityBase frame.val) gicr) =
          Function.update ((gicrPriorities gicr.numVcpus gicr.le).view gicr) (frame.castLE gicr.le)
            (access.store ((gicrPriorities gicr.numVcpus gicr.le).view gicr (frame.castLE gicr.le))) := Iff.rfl

theorem serves_gicr_iff (gicr : VirtualGicr) (frame : Fin gicr.numVcpus) (access : PriorityAccess 32) :
    (gicrPriorities gicr.numVcpus gicr.le).Serves gicr (frame, access) ↔
      access.GicrServed (bankBytes (gicr.state (frame.castLE gicr.le)).ipriorityr) := by
  rw [serves_frame_iff]
  cases access with
  | read off =>
      have inside : off.val < 29 := off.isLt
      rw [PriorityAccess.step, PriorityAccess.store, Function.update_eq_self, and_iff_left rfl, PriorityAccess.answer,
        read_priority gicr frame inside]
      exact read_bank_iff (gicr.state (frame.castLE gicr.le)).ipriorityr (by omega)
  | writeWord off value =>
      have inside : off.val < 29 := off.isLt
      refine (and_iff_right rfl).trans ?_
      rw [PriorityAccess.step, serves_write_iff gicr frame (by omega) value 4, if_pos inside]
      rfl
  | writeByte off value =>
      refine (and_iff_right rfl).trans ?_
      rw [PriorityAccess.step, serves_write_iff gicr frame off.isLt value 1, PriorityAccess.GicrServed,
        PriorityAccess.Served]
      split_ifs with low
      · rfl
      · exact writeU8_eq_self_iff

/-- The redistributors in the middle of a run. -/
theorem serves_gicr_run_iff (gicr : VirtualGicr) (past : List (Fin gicr.numVcpus × PriorityAccess 32))
    (frame : Fin gicr.numVcpus) (access : PriorityAccess 32) {now : VirtualGicr}
    (run : now = (Emulation.run (gicrPriorities gicr.numVcpus gicr.le).step
      (gicrPriorities gicr.numVcpus gicr.le).answer gicr past).1) :
    (gicrPriorities gicr.numVcpus gicr.le).Serves now (frame, access) ↔
      access.GicrServed (bankBytes (now.state (frame.castLE gicr.le)).ipriorityr) := by
  have count : now.numVcpus = gicr.numVcpus := by
    rw [run]
    refine Emulation.run_induction (P := fun s : VirtualGicr => s.numVcpus = gicr.numVcpus) past rfl ?_
    rintro s ⟨other, access⟩ - same
    exact (numVcpus_step s (gicrPriorityBase other.val) access).trans same
  clear run past
  obtain ⟨state, numVcpus, le⟩ := gicr
  subst count
  exact serves_gicr_iff now frame access

end VirtualGicr

end Hypervisor
