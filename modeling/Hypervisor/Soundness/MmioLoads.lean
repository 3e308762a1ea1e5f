import Hypervisor.Proofs.Devices

/-! # Widths of trapped loads

A load of a byte, a half-word or a word should leave the rest of its register zero, or fill it with copies
of the sign. The handler puts the answer of the device into the register as it is, so a load is right where
the device answers with a value that the access can hold. The UART and the redistributors answer with whole
registers, and the clock with a time of 64 bits.
-/

namespace Hypervisor

namespace A64

/-- SSE, or the upper bit of `opc` for a load of an integer register. -/
def signExtends (insn iss : U32) : Bool :=
  if iss.getLsbD 24 then iss.getLsbD 21 else insn.getLsbD 23 && !insn.getLsbD 26

/-- Bits of the register that a sign is extended to: SF, or the lower bit of `opc`. -/
def registerWidth (insn iss : U32) : ℕ :=
  if (if iss.getLsbD 24 then iss.getLsbD 15 else !insn.getLsbD 22) then 64 else 32

/-- What a load of `bits` bits puts into a register. -/
def loaded (signed : Bool) (width bits : ℕ) (value : U64) : U64 :=
  if signed ∧ bits < width then ((value.setWidth bits).signExtend width).setWidth 64
  else (value.setWidth bits).setWidth 64

/-- Numbers that have `bits` bits: natural ones, or two's complements in a register of `width` bits. -/
def Holds (signed : Bool) (width bits content : ℕ) : Prop :=
  if signed ∧ bits < width then content < 2 ^ (bits - 1) ∨ 2 ^ width - 2 ^ (bits - 1) ≤ content ∧ content < 2 ^ width
  else content < 2 ^ bits

theorem loaded_zero (signed : Bool) (width bits : ℕ) : loaded signed width bits 0 = 0 := by
  simp only [loaded, BitVec.ofNat_eq_ofNat, BitVec.setWidth_zero,
    BitVec.signExtend_eq_setWidth_of_msb_false BitVec.msb_zero, ite_self]

/-- The values that a load leaves as they are. -/
theorem loaded_eq_self_iff (signed : Bool) (insn iss : U32) {size : U8} (access : AccessSize size) (value : U64) :
    loaded signed (registerWidth insn iss) (8 * size.toNat) value = value ↔
      Holds signed (registerWidth insn iss) (8 * size.toNat) value.toNat := by
  have wide : registerWidth insn iss = 64 ∨ registerWidth insn iss = 32 := ite_eq_or_eq _ _ _
  have bound := value.isLt
  rw [loaded, Holds, ← BitVec.toNat_inj]
  split_ifs with extended
  · rw [BitVec.toNat_setWidth, BitVec.toNat_signExtend, BitVec.msb_eq_decide, BitVec.toNat_setWidth,
      BitVec.toNat_setWidth]
    rcases wide with wide | wide <;> rw [wide] at extended ⊢ <;> cases access <;> simp at extended ⊢ <;> split <;> omega
  · rw [BitVec.toNat_setWidth, BitVec.toNat_setWidth]
    cases access <;> simp <;> omega

theorem Holds.lt {signed : Bool} {insn iss : U32} {size : U8} {content : ℕ} (access : AccessSize size)
    (holds : Holds signed (registerWidth insn iss) (8 * size.toNat) content) : content < 2 ^ 64 := by
  have wide : registerWidth insn iss = 64 ∨ registerWidth insn iss = 32 := ite_eq_or_eq _ _ _
  rw [Holds] at holds
  split_ifs at holds
  · rcases wide with wide | wide <;> rw [wide] at holds <;> cases access <;> simp at holds <;> omega
  · cases access <;> simp at holds <;> omega

end A64

/-! ## Answers of the devices -/

section Answers

variable {host : MmioHost} {offset value : U64} {size : U8}

/-- What the clock has for a read, as a number. -/
def VirtualPl031.content (rtc : VirtualPl031) (cntfrq cntvct offset : U64) (size : U8) : ℕ :=
  if size = 4 ∧ RtcReg.ofOffset offset = some .dr then rtc.seconds cntfrq cntvct
  else ((rtc.read cntfrq cntvct offset size).getD 0).toNat

theorem VirtualPl031.read_eq_some_iff (rtc : VirtualPl031) (cntfrq cntvct : U64) :
    rtc.read cntfrq cntvct offset size = some value ↔ value.toNat = rtc.content cntfrq cntvct offset size := by
  rw [content]
  split_ifs with time
  · rw [read, if_neg (not_not.mpr time.1), time.2]
    exact rtc.currentTime_eq_some_iff cntfrq cntvct value
  · obtain ⟨answer, read⟩ : ∃ answer, rtc.read cntfrq cntvct offset size = some answer := by
      rw [read]
      split_ifs with word
      · exact ⟨_, rfl⟩
      · split
        · exact absurd ⟨not_not.mp word, by assumption⟩ time
        · exact ⟨_, rfl⟩
        · exact ⟨_, rfl⟩
    rw [read, Option.some_inj, Option.getD_some, BitVec.toNat_inj, eq_comm]

/-- What a device has for a read, as a number. -/
def Device.content (host : MmioHost) (offset : U64) (size : U8) : Device → ℕ
  | uart d => (d.read offset size).1.toNat
  | gicd d => (d.read offset size).toNat
  | gicr d => ((d.read offset size).getD 0).toNat
  | virtioBlk d => (d.read offset size).toNat
  | virtioNet d => (d.read offset size).toNat
  | pl031 d => d.content host.cntfrq host.cntvct offset size

theorem answers_iff (answer : U64) (dev : Device) :
    (∃ dev', (.ok (some answer, dev) : Except VirtioStop (Option U64 × Device)) = .ok (some value, dev')) ↔
      value.toNat = answer.toNat := by
  simp [BitVec.toNat_inj, eq_comm]

/-- A device in its window answers with its content, unless that is too large. -/
theorem Device.read_eq_ok_iff {dev : Device} (inside : offset.toNat < dev.size) :
    (∃ dev', dev.read host offset size = .ok (some value, dev')) ↔ value.toNat = dev.content host offset size := by
  cases dev with
  | uart d => exact answers_iff _ _
  | gicd d => exact answers_iff _ _
  | gicr d =>
      obtain ⟨place, found⟩ := VirtualGicr.exists_decodeOffset inside
      have answered : d.read offset size = some ((d.read offset size).getD 0) := by
        rw [VirtualGicr.read, found, Option.map_some, Option.getD_some]
      rw [read, content, answered]
      exact answers_iff _ _
  | virtioBlk d => exact answers_iff _ _
  | virtioNet d => exact answers_iff _ _
  | pl031 d =>
      rw [content, ← d.read_eq_some_iff, read]
      cases d.read host.cntfrq host.cntvct offset size with
      | none => simp [orStop]
      | some seconds => simp [orStop]

end Answers

/-! ## Answers that an access can hold -/

section Fits

variable {offset : U64} {size : U8}

theorem toNat_setWidth_lt {w : ℕ} (x : BitVec w) (narrow : w ≤ 64) : (x.setWidth 64).toNat < 2 ^ w := by
  rw [BitVec.toNat_setWidth_of_le narrow]
  exact x.isLt

theorem ite_toNat_lt {c : Prop} [Decidable c] {x y : U64} {n : ℕ} (here : x.toNat < n) (there : y.toNat < n) :
    (if c then x else y).toNat < n := by
  split_ifs
  · exact here
  · exact there

theorem toNat_shiftLeft_lt {w : ℕ} (x : BitVec w) (k : ℕ) (narrow : w + k ≤ 32) :
    (x.setWidth 64 <<< k).toNat < 2 ^ 32 := by
  rw [BitVec.toNat_shiftLeft, BitVec.toNat_setWidth_of_le (by omega), Nat.shiftLeft_eq]
  calc x.toNat * 2 ^ k % 2 ^ 64 ≤ x.toNat * 2 ^ k := Nat.mod_le _ _
    _ < 2 ^ w * 2 ^ k := Nat.mul_lt_mul_of_pos_right x.isLt (Nat.two_pow_pos k)
    _ = 2 ^ (w + k) := (Nat.pow_add 2 w k).symm
    _ ≤ 2 ^ 32 := Nat.pow_le_pow_right (by decide) narrow

theorem toNat_high_lt (x : U64) : (x >>> 32).toNat < 2 ^ 32 := by
  rw [BitVec.toNat_ushiftRight, Nat.shiftRight_eq_div_pow]
  have := x.isLt
  omega

namespace VirtualGicd

theorem readBank_lt {n : ℕ} (bank : Fin n → U32) (base offset : U64) : (readBank bank base offset).toNat < 2 ^ 32 := by
  rw [readBank]
  split_ifs
  · exact toNat_setWidth_lt _ (by decide)
  · decide

theorem read32_lt (gicd : VirtualGicd) (offset : U64) : (gicd.read32 offset).toNat < 2 ^ 32 := by
  rw [read32]
  repeat' apply ite_toNat_lt
  all_goals first
    | exact readBank_lt _ _ _
    | exact toNat_setWidth_lt _ (by decide)
    | decide

/-- The distributor looks at the size. -/
theorem read_lt (gicd : VirtualGicd) (access : AccessSize size) :
    (gicd.read offset size).toNat < 2 ^ (8 * size.toNat) := by
  cases access with
  | byte => simp [read]
  | half => simp [read]
  | word =>
      simp only [read, show ¬(4 : U8) = 8 by decide, and_false, if_false, and_true, ne_eq, not_true_eq_false]
      split_ifs
      · exact toNat_low_lt _
      · exact toNat_high_lt _
      · exact gicd.read32_lt offset
  | double => exact BitVec.isLt _

end VirtualGicd

namespace VirtioMmioTransport

/-- So do the virtio devices, if their configuration spaces do. -/
theorem read_lt {D : Type} [VirtioDevice D] (t : VirtioMmioTransport D) (access : AccessSize size)
    (config : ∀ off, (VirtioDevice.configRead t.device off size).toNat < 2 ^ (8 * size.toNat)) :
    (t.read offset size).toNat < 2 ^ (8 * size.toNat) := by
  rw [read]
  split_ifs with space other
  · exact config _
  · exact Nat.two_pow_pos _
  · obtain rfl : size = 4 := not_not.mp other
    split
    · exact toNat_setWidth_lt _ (by decide)
    · decide

end VirtioMmioTransport

theorem VirtioBlk.configRead_lt (blk : VirtioBlk) (off : U64) :
    (blk.configRead off size).toNat < 2 ^ (8 * size.toNat) := by
  rw [configRead]
  split_ifs with capacityLow capacityHigh capacity sizeMax segMax blkSize
  · rw [capacityLow.2]
    exact toNat_setWidth_lt _ (by decide)
  · rw [capacityHigh.2]
    exact toNat_setWidth_lt _ (by decide)
  · rw [capacity.2]
    exact BitVec.isLt _
  · rw [sizeMax.2]
    decide
  · rw [segMax.2]
    decide
  · rw [blkSize.2]
    decide
  · exact Nat.two_pow_pos _

theorem VirtioNet.configRead_lt (net : VirtioNet) (off : U64) :
    (net.configRead off size).toNat < 2 ^ (8 * size.toNat) := by
  rw [configRead]
  split_ifs with byte status low high
  · obtain ⟨below, rfl⟩ := byte
    exact toNat_setWidth_lt _ (by decide)
  · rw [status.2]
    exact toNat_setWidth_lt _ (by decide)
  · rw [low.2, BitVec.toNat_or, BitVec.toNat_or, BitVec.toNat_or]
    refine Nat.or_lt_two_pow (Nat.or_lt_two_pow (Nat.or_lt_two_pow ?_ ?_) ?_) ?_
    · exact Nat.lt_of_lt_of_le (toNat_setWidth_lt _ (by decide)) (by decide)
    · exact toNat_shiftLeft_lt _ 8 (by decide)
    · exact toNat_shiftLeft_lt _ 16 (by decide)
    · exact toNat_shiftLeft_lt _ 24 (by decide)
  · rw [high.2, BitVec.toNat_or, BitVec.toNat_or]
    refine Nat.or_lt_two_pow (Nat.or_lt_two_pow ?_ ?_) ?_
    · exact Nat.lt_of_lt_of_le (toNat_setWidth_lt _ (by decide)) (by decide)
    · exact toNat_shiftLeft_lt _ 8 (by decide)
    · exact toNat_shiftLeft_lt _ 16 (by decide)
  · exact Nat.two_pow_pos _

/-- Of an RD frame, the identification register does not fit a byte. -/
def VirtualGicr.RdFits (gicr : VirtualGicr) (vcpuId : Fin maxSmpCpus) (size : U8) : Option RdReg → Prop
  | some .ctlr => (gicr.state vcpuId).ctlr.toNat < 2 ^ (8 * size.toNat)
  | some .waker => (gicr.state vcpuId).waker.toNat < 2 ^ (8 * size.toNat)
  | some .iidr => size ≠ 1
  | _ => True

/-- The register that is read is not wider than the access. -/
def Device.Fits (host : MmioHost) (offset : U64) (size : U8) : Device → Prop
  | uart d => size = 1 ∨ size = 2 → ∀ reg, UartReg.ofOffset offset = some reg →
      (d.readReg reg).toNat < 2 ^ (8 * size.toNat)
  | gicr d => size = 1 ∨ size = 2 → ∀ place, d.decodeOffset offset = some place →
      if place.2.1 then (VirtualGicr.readSgi (d.state place.1) place.2.2).toNat < 2 ^ (8 * size.toNat)
      else d.RdFits place.1 size (RdReg.ofOffset place.2.2)
  | pl031 d => size = 4 → RtcReg.ofOffset offset = some .dr → d.seconds host.cntfrq host.cntvct < 2 ^ 32
  | gicd _ | virtioBlk _ | virtioNet _ => True

theorem VirtualUart.toNat_read (uart : VirtualUart) {reg : UartReg} (found : UartReg.ofOffset offset = some reg)
    (other : reg ≠ .dr) :
    (uart.read offset size).1.toNat = if !accepts size then 0 else (uart.readReg reg).toNat := by
  have answer : (uart.read offset size).1 = if !accepts size then 0 else (uart.readReg reg).setWidth 64 := by
    rw [read, found]
    split_ifs
    · rfl
    · split
      · simp_all
      · simp_all
      · simp_all
  rw [answer]
  split_ifs
  · rfl
  · exact BitVec.toNat_setWidth_of_le (by decide)

theorem VirtualUart.read_lt_iff (uart : VirtualUart) (access : AccessSize size) :
    (uart.read offset size).1.toNat < 2 ^ (8 * size.toNat) ↔
      (size = 1 ∨ size = 2 → ∀ reg, UartReg.ofOffset offset = some reg →
        (uart.readReg reg).toNat < 2 ^ (8 * size.toNat)) := by
  cases found : UartReg.ofOffset offset with
  | none =>
      simp only [read, found, ite_self, reduceCtorEq, false_implies, implies_true, iff_true]
      exact Nat.two_pow_pos _
  | some reg =>
      simp only [Option.some_inj, forall_eq']
      by_cases data : reg = .dr
      · subst data
        have zero : (uart.readReg .dr).toNat < 2 ^ (8 * size.toNat) := Nat.two_pow_pos _
        simp only [read, found, zero, implies_true, iff_true]
        split_ifs
        · exact Nat.two_pow_pos _
        · refine Nat.lt_of_lt_of_le (toNat_setWidth_lt _ (by decide)) (Nat.pow_le_pow_right (by decide) ?_)
          cases access <;> decide
      · rw [uart.toNat_read found data]
        cases access with
        | byte => simp [accepts]
        | half => simp [accepts]
        | word => simpa [accepts] using (uart.readReg reg).isLt
        | double => simp [accepts]

theorem VirtualGicr.readRd_lt_iff (gicr : VirtualGicr) (vcpuId : Fin maxSmpCpus) (access : AccessSize size) :
    (gicr.readRd vcpuId offset size).toNat < 2 ^ (8 * size.toNat) ↔
      (size = 1 ∨ size = 2 → gicr.RdFits vcpuId size (RdReg.ofOffset offset)) := by
  have wide (x : U32) : x.toNat % 18446744073709551616 = x.toNat :=
    Nat.mod_eq_of_lt (Nat.lt_trans x.isLt (by decide))
  rw [readRd]
  cases access with
  | byte => split <;> simp [RdFits, *]
  | half => split <;> simp [RdFits, *]
  | word =>
      simp only [show ¬((4 : U8) = 1 ∨ (4 : U8) = 2) by decide, false_implies, iff_true]
      split
      · exact toNat_setWidth_lt _ (by decide)
      · decide
      · exact toNat_low_lt _
      · exact toNat_high_lt _
      · decide
      · exact toNat_setWidth_lt _ (by decide)
      · decide
      · decide
  | double =>
      simp only [show ¬((8 : U8) = 1 ∨ (8 : U8) = 2) by decide, false_implies, iff_true]
      exact BitVec.isLt _

/-- The devices whose answers are wider than the access. -/
theorem Device.content_lt_iff {host : MmioHost} {dev : Device} (access : AccessSize size)
    (inside : offset.toNat < dev.size) :
    dev.content host offset size < 2 ^ (8 * size.toNat) ↔ dev.Fits host offset size := by
  cases dev with
  | uart d => exact d.read_lt_iff access
  | gicd d => exact iff_of_true (d.read_lt access) True.intro
  | gicr d =>
      obtain ⟨place, found⟩ := VirtualGicr.exists_decodeOffset inside
      simp only [content, Fits, VirtualGicr.read, found, Option.map_some, Option.getD_some, Option.some_inj, forall_eq']
      cases place.2.1 with
      | false => exact d.readRd_lt_iff place.1 access
      | true =>
          simp only [if_true, BitVec.toNat_setWidth_of_le (show 32 ≤ 64 by decide)]
          refine ⟨fun narrow _ => narrow, fun narrow => ?_⟩
          cases access with
          | byte => exact narrow (Or.inl rfl)
          | half => exact narrow (Or.inr rfl)
          | word => exact BitVec.isLt _
          | double => exact Nat.lt_of_lt_of_le (BitVec.isLt _) (by decide)
  | virtioBlk d => exact iff_of_true (d.read_lt access d.device.configRead_lt) True.intro
  | virtioNet d => exact iff_of_true (d.read_lt access d.device.configRead_lt) True.intro
  | pl031 d =>
      rw [content, VirtualPl031.content, Fits]
      split_ifs with time
      · obtain ⟨rfl, data⟩ := time
        exact ⟨fun narrow _ _ => narrow, fun narrow => narrow rfl data⟩
      · refine iff_of_true ?_ fun word data => absurd ⟨word, data⟩ time
        rw [VirtualPl031.read]
        split_ifs with other
        · exact Nat.two_pow_pos _
        · obtain rfl : size = 4 := not_not.mp other
          split
          · exact absurd ⟨rfl, by assumption⟩ time
          · exact toNat_setWidth_lt _ (by decide)
          · decide

end Fits

/-! ## Loads -/

section Loads

variable (host : MmioHost) (fetch : U64 → U32) (context : VcpuContext) (esr addr : U64) (m : DeviceManager)
  (world : MmioWorld)

/-- A trapped load of a general register is answered, and the register gets the answer in the width of the load. -/
def LoadsRight : Prop :=
  ∀ insn reg size flag, Traps fetch context esr insn (.load reg size flag) → reg.toNat < 31 →
    ∃ value context' m', m.handleMmio host world addr 0 size false = .ok (some value, m', world) ∧
      handleMmioAbort host fetch context esr addr m world = .ok (true, context', m', world) ∧
      context'.getReg reg = A64.loaded (A64.signExtends insn (abortIss esr)) (A64.registerWidth insn (abortIss esr))
        (8 * size.toNat) value ∧
      (¬A64.signExtends insn (abortIss esr) → (context'.getReg reg).toNat < 2 ^ (8 * size.toNat))

/-- A load that extends the sign finds the two's complement of a number that its size can hold; any other load
finds a register that is not wider than the access. -/
def Device.LoadFits (host : MmioHost) (offset : U64) (size : U8) (signed : Bool) (width : ℕ) (dev : Device) : Prop :=
  if signed ∧ 8 * size.toNat < width then A64.Holds signed width (8 * size.toNat) (dev.content host offset size)
  else dev.Fits host offset size

def LoadsFit : Prop :=
  ∀ insn reg size flag, Traps fetch context esr insn (.load reg size flag) → reg.toNat < 31 →
    ∀ slot dev, m.firstSlot (·.contains host addr) = some (slot, dev) →
      dev.LoadFits host (addr - dev.baseAddress host) size (A64.signExtends insn (abortIss esr))
        (A64.registerWidth insn (abortIss esr))

variable {host fetch context esr addr m world} {insn : U32} {reg size : U8} {flag : Bool} {slot : Fin maxDevices}
  {dev : Device} {value : U64}

theorem Device.loadFits_iff {offset : U64} (access : AccessSize size) (inside : offset.toNat < dev.size)
    (signed : Bool) (width : ℕ) :
    dev.LoadFits host offset size signed width ↔
      A64.Holds signed width (8 * size.toNat) (dev.content host offset size) := by
  rw [LoadFits, A64.Holds]
  split_ifs
  · exact Iff.rfl
  · exact (dev.content_lt_iff access inside).symm

theorem handleMmio_load_iff (found : m.firstSlot (·.contains host addr) = some (slot, dev)) :
    (∃ m', m.handleMmio host world addr 0 size false = .ok (some value, m', world)) ↔
      value.toNat = dev.content host (addr - dev.baseAddress host) size := by
  rw [← Device.read_eq_ok_iff (Device.offset_lt (m.contains_of_firstSlot found)), DeviceManager.handleMmio, found]
  simp only [Bool.false_eq_true, if_false]
  cases answered : dev.read host (addr - dev.baseAddress host) size with
  | error stop => simp
  | ok answer => simp [Prod.ext_iff]

/-- The register gets the answer as it is. -/
theorem load_right_iff (traps : Traps fetch context esr insn (.load reg size flag)) (general : reg.toNat < 31) :
    (∃ value context' m', m.handleMmio host world addr 0 size false = .ok (some value, m', world) ∧
      handleMmioAbort host fetch context esr addr m world = .ok (true, context', m', world) ∧
      context'.getReg reg = A64.loaded (A64.signExtends insn (abortIss esr)) (A64.registerWidth insn (abortIss esr))
        (8 * size.toNat) value ∧
      (¬A64.signExtends insn (abortIss esr) → (context'.getReg reg).toNat < 2 ^ (8 * size.toNat))) ↔
    ∃ value, (∃ m', m.handleMmio host world addr 0 size false = .ok (some value, m', world)) ∧
      A64.Holds (A64.signExtends insn (abortIss esr)) (A64.registerWidth insn (abortIss esr)) (8 * size.toNat)
        value.toNat := by
  have access : AccessSize size := MmioAccess.accessSize traps.decoded
  constructor
  · rintro ⟨value, context', m', served, handled, right, -⟩
    rw [handleMmioAbort_load_ok traps served] at handled
    obtain rfl : context.setReg reg value = context' := by simpa using handled
    rw [VcpuContext.getReg_setReg _ _ general] at right
    exact ⟨value, ⟨m', served⟩, (A64.loaded_eq_self_iff _ insn _ access value).mp right.symm⟩
  · rintro ⟨value, ⟨m', served⟩, holds⟩
    refine ⟨value, context.setReg reg value, m', served, handleMmioAbort_load_ok traps served, ?_, fun unsigned => ?_⟩
    · rw [VcpuContext.getReg_setReg _ _ general, (A64.loaded_eq_self_iff _ insn _ access value).mpr holds]
    · rw [VcpuContext.getReg_setReg _ _ general]
      rwa [A64.Holds, if_neg fun extended => unsigned extended.1] at holds

theorem load_fits_iff (access : AccessSize size) (signed : Bool) (iss : U32) :
    (∃ value, (∃ m', m.handleMmio host world addr 0 size false = .ok (some value, m', world)) ∧
      A64.Holds signed (A64.registerWidth insn iss) (8 * size.toNat) value.toNat) ↔
    ∀ slot dev, m.firstSlot (·.contains host addr) = some (slot, dev) →
      dev.LoadFits host (addr - dev.baseAddress host) size signed (A64.registerWidth insn iss) := by
  cases found : m.firstSlot (·.contains host addr) with
  | none =>
      have zero := (A64.loaded_eq_self_iff signed insn iss access 0).mp (A64.loaded_zero _ _ _)
      refine iff_of_true ⟨0, ⟨m, ?_⟩, zero⟩ fun slot dev absent => ?_
      · rw [DeviceManager.handleMmio, found]
        rfl
      · cases absent
  | some place =>
      obtain ⟨slot, dev⟩ := place
      have inside := Device.offset_lt (m.contains_of_firstSlot found)
      constructor
      · rintro ⟨value, served, holds⟩ slot' dev' same
        obtain ⟨rfl, rfl⟩ := Prod.mk.inj (Option.some.inj same)
        rwa [Device.loadFits_iff access inside, ← (handleMmio_load_iff found).mp served]
      · intro fits
        have holds := (Device.loadFits_iff access inside _ _).mp (fits slot dev rfl)
        obtain ⟨value, same⟩ := exists_toNat_eq (holds.lt access)
        exact ⟨value, (handleMmio_load_iff found).mpr same, same ▸ holds⟩

variable (host fetch context esr addr m world)

theorem load_width_iff :
    LoadsRight host fetch context esr addr m world ↔ LoadsFit host fetch context esr addr m := by
  constructor
  · intro right insn reg size flag traps general
    have access : AccessSize size := MmioAccess.accessSize traps.decoded
    exact (load_fits_iff access _ _).mp ((load_right_iff traps general).mp (right insn reg size flag traps general))
  · intro fits insn reg size flag traps general
    have access : AccessSize size := MmioAccess.accessSize traps.decoded
    exact (load_right_iff traps general).mpr ((load_fits_iff access _ _).mpr (fits insn reg size flag traps general))

end Loads

/-- `ldrb w0` of the control register of a new UART leaves 0x301 in the register. -/
theorem byte_load_exceeds_byte :
    Traps (fun _ => 0) default 0x01000000 0 (.load 0 1 false) ∧ ¬A64.signExtends 0 (abortIss 0x01000000) ∧
      (handleMmioAbort ⟨.default, 0x09000000, 62500000, 0, 0⟩ (fun _ => 0) default 0x01000000 0x09000030
          ⟨fun _ => some (.uart .new)⟩ ⟨⟨fun _ => 0, [], []⟩, []⟩).toOption.map
        (fun handled => (handled.1, handled.2.1.getReg 0)) = some (true, 0x301) := by
  refine ⟨⟨by decide, by decide⟩, by decide, ?_⟩
  rfl

end Hypervisor
