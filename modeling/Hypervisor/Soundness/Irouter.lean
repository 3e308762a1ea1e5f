import Hypervisor.Emulation.Basic
import Hypervisor.Model.Distributor
import Hypervisor.ToMathlib.Mask

/-! # Routing registers in halves

Each `GICD_IROUTER` has 64 bits, and a guest may access it as a whole or in halves. The distributor should
then be a file of 64-bit registers. It is, but for the last one: the high half of the register of INTID 1019
lies behind `GICD_IROUTER_END`, where writes are ignored and reads return zero.
-/

namespace Hypervisor

/-! ## Register files -/

/-- What an access to a register covers. -/
inductive IrouterPart where
  | whole | low | high
deriving DecidableEq, Repr

namespace IrouterPart

/-- A part of a register. -/
def get (register : U64) : IrouterPart → U64
  | whole => register
  | low => (register.extractLsb' 0 32).setWidth 64
  | high => (register.extractLsb' 32 32).setWidth 64

/-- A register after a write to a part of it. -/
def set (register value : U64) : IrouterPart → U64
  | whole => value
  | low => register.extractLsb' 32 32 ++ value.extractLsb' 0 32
  | high => value.extractLsb' 0 32 ++ register.extractLsb' 0 32

def size : IrouterPart → U8
  | whole => 8
  | low => 4
  | high => 4

/-- The distance of the part from the start of its register. -/
def start : IrouterPart → ℕ
  | whole => 0
  | low => 0
  | high => 4

/-- The offset of a part of the register with this index. -/
def offset (n : Fin 988) (part : IrouterPart) : U64 := gicdIrouterBase + BitVec.ofNat 64 (8 * n.val + part.start)

end IrouterPart

/-- The accesses to the routing register of INTID `32 + n`. -/
inductive IrouterAccess where
  | read (n : Fin 988) (part : IrouterPart)
  | write (n : Fin 988) (part : IrouterPart) (value : U64)
deriving DecidableEq, Repr

namespace IrouterAccess

/-- The registers after an access. -/
def store (registers : Fin 988 → U64) : IrouterAccess → Fin 988 → U64
  | read _ _ => registers
  | write n part value => Function.update registers n (part.set (registers n) value)

/-- What a read returns. -/
def load (registers : Fin 988 → U64) : IrouterAccess → Option U64
  | read n part => some (part.get (registers n))
  | write _ _ _ => none

/-- The access on the distributor. -/
def step (gicd : VirtualGicd) : IrouterAccess → VirtualGicd
  | read _ _ => gicd
  | write n part value => gicd.write (part.offset n) value part.size

def answer (gicd : VirtualGicd) : IrouterAccess → Option U64
  | read n part => some (gicd.read (part.offset n) part.size)
  | write _ _ _ => none

end IrouterAccess

/-- The file of registers after a run, and what the accesses returned. -/
def irouterFile (registers : Fin 988 → U64) (accesses : List IrouterAccess) : (Fin 988 → U64) × List (Option U64) :=
  accesses.foldl (fun s access => (access.store s.1, s.2 ++ [access.load s.1])) (registers, [])

/-- The distributor after a run, and what the accesses returned. -/
def VirtualGicd.run (gicd : VirtualGicd) (accesses : List IrouterAccess) : VirtualGicd × List (Option U64) :=
  accesses.foldl (fun s access => (access.step s.1, s.2 ++ [access.answer s.1])) (gicd, [])

/-- The run is that of a file of registers, from which the SPIs are routed. -/
structure VirtualGicd.ActsAsFile (gicd : VirtualGicd) (accesses : List IrouterAccess) : Prop where
  answers : (gicd.run accesses).2 = (irouterFile gicd.irouter accesses).2
  registers : (gicd.run accesses).1.irouter = (irouterFile gicd.irouter accesses).1
  routes : ∀ n : Fin 988, (gicd.run accesses).1.routeSpi (32 + n.val) =
    ((irouterFile gicd.irouter accesses).1 n).toNat % 2 ^ 8

/-- What makes the file one of 64-bit registers. -/
structure IrouterLaws : Prop where
  low_high : ∀ (registers : Fin 988 → U64) (n : Fin 988) (low high : U64),
    (irouterFile registers [.write n .low low, .write n .high high]).1 =
      (irouterFile registers [.write n .whole (high.extractLsb' 0 32 ++ low.extractLsb' 0 32)]).1
  high_low : ∀ (registers : Fin 988 → U64) (n : Fin 988) (low high : U64),
    (irouterFile registers [.write n .high high, .write n .low low]).1 =
      (irouterFile registers [.write n .whole (high.extractLsb' 0 32 ++ low.extractLsb' 0 32)]).1
  /-- A read returns its part of the value that was written. -/
  read_written : ∀ (registers : Fin 988 → U64) (n : Fin 988) (part : IrouterPart) (value : U64),
    (irouterFile registers [.write n .whole value, .read n part]).2 = [none, some (part.get value)]
  others : ∀ (registers : Fin 988 → U64) (n m : Fin 988) (part : IrouterPart) (value : U64), m ≠ n →
    (irouterFile registers [.write n part value]).1 m = registers m

/-- The access is served, or makes no difference: a read of the high half of the last register returns zero,
and a write to it is ignored. -/
def IrouterAccess.Served (registers : Fin 988 → U64) : IrouterAccess → Prop
  | read n part => n = Fin.last 987 → part = .high → (registers n).extractLsb' 32 32 = 0
  | write n part value =>
      n = Fin.last 987 → part = .high → value.extractLsb' 0 32 = (registers n).extractLsb' 32 32

/-! ## Offsets -/

namespace IrouterPart

theorem toNat_offset (n : Fin 988) (part : IrouterPart) :
    (part.offset n).toNat = 0x6100 + 8 * n.val + part.start := by
  have bound := n.isLt
  have near : part.start ≤ 4 := by cases part <;> decide
  rw [offset, BitVec.toNat_add, BitVec.toNat_ofNat, show gicdIrouterBase.toNat = 0x6100 from rfl]
  omega

theorem inRange_offset (n : Fin 988) (part : IrouterPart) :
    VirtualGicd.inRange gicdIrouterBase gicdIrouterEnd (part.offset n) = true ↔
      ¬(n = Fin.last 987 ∧ part = .high) := by
  have bound := n.isLt
  rw [VirtualGicd.inRange, Bool.and_eq_true, decide_eq_true_iff, decide_eq_true_iff, BitVec.le_def, BitVec.le_def,
    toNat_offset, show gicdIrouterBase.toNat = 0x6100 from rfl, show gicdIrouterEnd.toNat = 0x7FD8 from rfl,
    Fin.ext_iff, Fin.val_last]
  cases part with
  | whole | low => simp only [start, reduceCtorEq, and_false, not_false_iff, iff_true]; omega
  | high => simp only [start, and_true]; omega

theorem irouterIndex_offset (n : Fin 988) {part : IrouterPart} (first : part.start = 0) :
    VirtualGicd.irouterIndex (part.offset n) = some n := by
  have bound := n.isLt
  have distance : (part.offset n - gicdIrouterBase).toNat = 8 * n.val := by
    rw [BitVec.toNat_sub, toNat_offset, first, show gicdIrouterBase.toNat = 0x6100 from rfl]
    omega
  have aligned : (part.offset n - gicdIrouterBase) &&& 0x7 = 0 := by
    apply BitVec.eq_of_toNat_eq
    rw [show (0x7 : U64) = BitVec.mask 0 3 from rfl, BitVec.toNat_and_mask, distance]
    exact Nat.mul_mod_right 8 n.val
  have index : ((part.offset n - gicdIrouterBase) / 8).toNat = n.val := by
    rw [BitVec.toNat_udiv, distance, show (8 : U64).toNat = 8 from rfl]
    omega
  simp only [VirtualGicd.irouterIndex, aligned, index, ne_eq, not_true_eq_false, if_false, bound, dif_pos]

theorem offset_and_not (n : Fin 988) (part : IrouterPart) : part.offset n &&& ~~~0x7 = low.offset n := by
  have near : part.start ≤ 4 := by cases part <;> decide
  apply BitVec.eq_of_toNat_eq
  rw [show (0x7 : U64) = BitVec.mask 0 3 from rfl, BitVec.toNat_and_not_mask, toNat_offset, toNat_offset, start]
  omega

theorem offset_and_four (n : Fin 988) (part : IrouterPart) : part.offset n &&& 0x4 = 0 ↔ part ≠ .high := by
  rw [show (0x4 : U64) = (1 : U64) <<< 2 from rfl, BitVec.and_one_shiftLeft_eq_zero_iff _ (by decide),
    ← BitVec.testBit_toNat, toNat_offset, Nat.testBit_eq_decide_div_mod_eq, decide_eq_false_iff_not]
  cases part with
  | whole | low => simp only [start, ne_eq, reduceCtorEq, not_false_iff, iff_true]; omega
  | high => simp only [start, ne_eq, not_true_eq_false, iff_false]; omega

/-! ## Halves of words -/

theorem set_low (register value : U64) :
    (register &&& 0xFFFFFFFF00000000) ||| (value &&& 0xFFFFFFFF) = low.set register value := by
  have fields : (0xFFFFFFFF00000000 : U64) = BitVec.mask 32 32 ∧ (0xFFFFFFFF : U64) = BitVec.mask 0 32 := by decide
  apply BitVec.eq_of_getLsbD_eq
  intro i bound
  rw [fields.1, fields.2, set]
  simp only [BitVec.getLsbD_or, BitVec.getLsbD_and, BitVec.getLsbD_mask, BitVec.getLsbD_append,
    BitVec.getLsbD_extractLsb']
  grind

theorem set_high (register value : U64) :
    (register &&& 0x00000000FFFFFFFF) ||| ((value &&& 0xFFFFFFFF) <<< 32) = high.set register value := by
  change register &&& BitVec.mask 0 32 ||| (value &&& BitVec.mask 0 32) <<< 32 = _
  apply BitVec.eq_of_getLsbD_eq
  intro i bound
  rw [set]
  simp only [BitVec.getLsbD_or, BitVec.getLsbD_and, BitVec.getLsbD_shiftLeft, BitVec.getLsbD_mask,
    BitVec.getLsbD_append, BitVec.getLsbD_extractLsb']
  grind

theorem get_low (register : U64) : register &&& 0xFFFFFFFF = low.get register := by
  have field : (0xFFFFFFFF : U64) = BitVec.mask 0 32 := by decide
  apply BitVec.eq_of_getLsbD_eq
  intro i bound
  rw [field, get]
  simp only [BitVec.getLsbD_and, BitVec.getLsbD_mask, BitVec.getLsbD_setWidth, BitVec.getLsbD_extractLsb']
  grind

theorem get_high (register : U64) : register >>> 32 = high.get register := by
  apply BitVec.eq_of_getLsbD_eq
  intro i bound
  rw [get]
  simp only [BitVec.getLsbD_ushiftRight, BitVec.getLsbD_setWidth, BitVec.getLsbD_extractLsb']
  grind

/-- Writing a half again leaves the register as it is. -/
theorem set_high_eq_self_iff {register value : U64} :
    high.set register value = register ↔ value.extractLsb' 0 32 = register.extractLsb' 32 32 := by
  have whole : register.extractLsb' 32 32 ++ register.extractLsb' 0 32 = register :=
    (BitVec.extractLsb'_append_extractLsb'_eq_extractLsb' rfl).trans BitVec.extractLsb'_eq_self
  constructor
  · intro same
    have upper := congrArg (BitVec.extractLsb' 32 32) same
    rwa [set, BitVec.extractLsb'_append_eq_left] at upper
  · intro same
    rw [set, same, whole]

end IrouterPart

/-! ## One access -/

namespace VirtualGicd

variable {gicd : VirtualGicd} {n : Fin 988} {part : IrouterPart}

theorem routeSpi_eq (gicd : VirtualGicd) (n : Fin 988) :
    gicd.routeSpi (32 + n.val) = (gicd.irouter n).toNat % 2 ^ 8 := by
  have bound := n.isLt
  have index : (⟨32 + n.val - 32, by omega⟩ : Fin 988) = n := Fin.ext (Nat.add_sub_cancel_left 32 n.val)
  rw [routeSpi, dif_neg (by omega), index, show (0xFF : U64) = BitVec.mask 0 8 from rfl, BitVec.toNat_and_mask]

theorem readIrouter_offset (first : part.start = 0) : gicd.readIrouter (part.offset n) = gicd.irouter n := by
  rw [readIrouter, IrouterPart.irouterIndex_offset n first, Option.elim_some]

theorem writeIrouter_offset (first : part.start = 0) (value : U64) :
    gicd.writeIrouter (part.offset n) value = { gicd with irouter := Function.update gicd.irouter n value } := by
  rw [writeIrouter, IrouterPart.irouterIndex_offset n first]

/-- Reads of parts that the range of the registers covers. -/
theorem read_part (covered : ¬(n = Fin.last 987 ∧ part = .high)) :
    gicd.read (part.offset n) part.size = part.get (gicd.irouter n) := by
  have inside := (IrouterPart.inRange_offset n part).mpr covered
  have half := IrouterPart.offset_and_four n part
  rw [read]
  cases part with
  | whole => rw [if_pos ⟨inside, rfl⟩, readIrouter_offset rfl, IrouterPart.get]
  | low =>
      rw [if_neg (by simp [IrouterPart.size]), if_pos ⟨inside, rfl⟩]
      simp only [half.mpr (by decide), if_true, IrouterPart.offset_and_not]
      rw [readIrouter_offset rfl, IrouterPart.get_low]
  | high =>
      rw [if_neg (by simp [IrouterPart.size]), if_pos ⟨inside, rfl⟩]
      simp only [mt half.mp (by decide), if_false, IrouterPart.offset_and_not]
      rw [readIrouter_offset rfl, IrouterPart.get_high]

theorem write_part (covered : ¬(n = Fin.last 987 ∧ part = .high)) (value : U64) :
    gicd.write (part.offset n) value part.size =
      { gicd with irouter := Function.update gicd.irouter n (part.set (gicd.irouter n) value) } := by
  have inside := (IrouterPart.inRange_offset n part).mpr covered
  have half := IrouterPart.offset_and_four n part
  rw [write]
  cases part with
  | whole => rw [if_pos ⟨inside, rfl⟩, writeIrouter_offset rfl, IrouterPart.set]
  | low =>
      rw [if_neg (by simp [IrouterPart.size]), if_pos ⟨inside, rfl⟩]
      simp only [half.mpr (by decide), if_true, IrouterPart.offset_and_not]
      rw [writeIrouter_offset rfl, readIrouter_offset rfl, IrouterPart.set_low]
  | high =>
      rw [if_neg (by simp [IrouterPart.size]), if_pos ⟨inside, rfl⟩]
      simp only [mt half.mp (by decide), if_false, IrouterPart.offset_and_not]
      rw [writeIrouter_offset rfl, readIrouter_offset rfl, IrouterPart.set_high]

/-- The high half of the last register is at no known offset. -/
theorem read_last_high (gicd : VirtualGicd) :
    gicd.read (IrouterPart.high.offset (Fin.last 987)) IrouterPart.high.size = 0 := rfl

theorem write_last_high (gicd : VirtualGicd) (value : U64) :
    gicd.write (IrouterPart.high.offset (Fin.last 987)) value IrouterPart.high.size = gicd := rfl

end VirtualGicd

namespace IrouterAccess

variable {gicd : VirtualGicd}

/-- The routing registers of the distributor. -/
def emulation : Emulation VirtualGicd (Fin 988 → U64) IrouterAccess (Option U64) where
  step := step
  answer := answer
  store := store
  load := load
  view := VirtualGicd.irouter

/-- An access does what it does to a file of registers exactly if it is served. -/
theorem served_iff (access : IrouterAccess) : emulation.Serves gicd access ↔ access.Served gicd.irouter := by
  change access.answer gicd = access.load gicd.irouter ∧ (access.step gicd).irouter = access.store gicd.irouter ↔ _
  cases access with
  | read n part =>
      by_cases outside : n = Fin.last 987 ∧ part = .high
      · obtain ⟨rfl, rfl⟩ := outside
        simp only [answer, load, step, store, Served, VirtualGicd.read_last_high, IrouterPart.get, and_true,
          Option.some_inj, forall_const]
        generalize (gicd.irouter (Fin.last 987)).extractLsb' 32 32 = upper
        constructor
        · intro zero
          have narrow := congrArg (BitVec.setWidth 32) zero.symm
          rwa [BitVec.setWidth_setWidth_of_le _ (by decide), BitVec.setWidth_eq] at narrow
        · rintro rfl
          rfl
      · have served : (read n part).Served gicd.irouter := fun last high => absurd ⟨last, high⟩ outside
        simp only [answer, load, step, store, VirtualGicd.read_part outside, true_and, served]
  | write n part value =>
      by_cases outside : n = Fin.last 987 ∧ part = .high
      · obtain ⟨rfl, rfl⟩ := outside
        simp only [answer, load, step, store, Served, VirtualGicd.write_last_high, true_and, forall_const]
        rw [Function.eq_update_self_iff, eq_comm, IrouterPart.set_high_eq_self_iff]
      · have served : (write n part value).Served gicd.irouter := fun last high => absurd ⟨last, high⟩ outside
        simp only [answer, load, step, store, VirtualGicd.write_part outside, true_and, served]

end IrouterAccess

/-! ## Runs -/

theorem irouterLaws : IrouterLaws where
  low_high registers n low high := by
    simp only [irouterFile, List.foldl_cons, List.foldl_nil, IrouterAccess.store, Function.update_self,
      Function.update_idem, IrouterPart.set, BitVec.extractLsb'_append_eq_right]
  high_low registers n low high := by
    simp only [irouterFile, List.foldl_cons, List.foldl_nil, IrouterAccess.store, Function.update_self,
      Function.update_idem, IrouterPart.set, BitVec.extractLsb'_append_eq_left]
  read_written registers n part value := by
    simp only [irouterFile, List.foldl_cons, List.foldl_nil, IrouterAccess.store, IrouterAccess.load,
      Function.update_self, IrouterPart.set, List.nil_append, List.cons_append]
  others registers n m part value other := Function.update_of_ne other _ _

variable {gicd : VirtualGicd}

/-- The routes follow from the registers. -/
theorem VirtualGicd.actsAsFile_iff {accesses : List IrouterAccess} :
    gicd.ActsAsFile accesses ↔ IrouterAccess.emulation.Refines gicd accesses := by
  refine ⟨fun acts => ⟨acts.answers, acts.registers⟩, fun same => ⟨same.answers, same.registers, ?_⟩⟩
  intro n
  rw [VirtualGicd.routeSpi_eq]
  exact congrArg (fun registers : Fin 988 → U64 => (registers n).toNat % 2 ^ 8) same.registers

/-- The distributor acts as a file of 64-bit registers all along a run exactly if every access is served. -/
theorem irouter_file_iff (gicd : VirtualGicd) (accesses : List IrouterAccess) : IrouterLaws ∧
    ((∀ k ≤ accesses.length, gicd.ActsAsFile (accesses.take k)) ↔
      ∀ (k : ℕ) (access : IrouterAccess), accesses[k]? = some access →
        access.Served (gicd.run (accesses.take k)).1.irouter) := by
  refine ⟨irouterLaws, ?_⟩
  have emulated := IrouterAccess.emulation.forall_refines_iff gicd accesses
  simp only [IrouterAccess.served_iff] at emulated
  simp only [VirtualGicd.actsAsFile_iff]
  exact emulated

/-- The high half of the register of INTID 1019 is written, and the whole register read. -/
theorem last_high_half_lost :
    (((VirtualGicd.new 4).run [.write (Fin.last 987) .high 1, .read (Fin.last 987) .whole]).2 =
      [none, some 0]) ∧
    ¬(VirtualGicd.new 4).ActsAsFile [.write (Fin.last 987) .high 1, .read (Fin.last 987) .whole] := by
  refine ⟨by decide, fun acts => ?_⟩
  exact absurd acts.answers (by decide)

end Hypervisor
