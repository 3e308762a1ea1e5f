import Hypervisor.Proofs.Devices
import Hypervisor.ToMathlib.Observed

/-! # Widths of trapped stores

A store of a byte, a half-word or a word takes the low bits of its source register, so the others should
not matter to the device. The handler passes the whole register on. Distributor, virtio devices and clock
take as many bits as the access has; the UART and the redistributors take as many as the register that is
written has.
-/

namespace Hypervisor

/-! ## Bits of the source register -/

/-- The bits that a write to a register of the UART depends on. -/
def VirtualUart.Uses (uart : VirtualUart) : UartReg → ℕ → Prop
  | .dr | .lcrH => (· < 8)
  | .ibrd | .cr => (· < 16)
  | .fbrd | .ifls => (· < 6)
  | .imsc => (· < 11)
  | .dmacr => (· < 3)
  | .icr => fun i => uart.ris.getLsbD i = true
  | _ => fun _ => False

/-- The same for an RD frame. -/
def GicrState.RdUses : Option RdReg → ℕ → Prop
  | some .ctlr => (· < 32)
  | some .waker => (· = 1)
  | _ => fun _ => False

/-- The same for an SGI frame: a bit that is set already cannot be set, and one that is clear not be cleared. -/
def GicrState.SgiUses (st : GicrState) : Option SgiReg → ℕ → Prop
  | some .igroupr0 | some (.ipriorityr _) | some .icfgr1 => (· < 32)
  | some .isenabler0 => fun i => i < 32 ∧ st.isenabler0.getLsbD i = false
  | some .icenabler0 => fun i => st.isenabler0.getLsbD i = true
  | some .ispendr0 => fun i => i < 32 ∧ st.ispendr0.getLsbD i = false
  | some .icpendr0 => fun i => st.ispendr0.getLsbD i = true
  | some .isactiver0 => fun i => i < 32 ∧ st.isactiver0.getLsbD i = false
  | some .icactiver0 => fun i => st.isactiver0.getLsbD i = true
  | some .icfgr0 | none => fun _ => False

/-- No bit above the access is used. -/
def Device.StoreFits (offset : U64) (size : U8) : Device → Prop
  | uart d => VirtualUart.accepts size → ∀ reg, UartReg.ofOffset offset = some reg →
      ∀ i < 64, d.Uses reg i → i < 8 * size.toNat
  | gicr d => ∀ place, d.decodeOffset offset = some place →
      ∀ i < 64, (if place.2.1 then (d.state place.1).SgiUses (SgiReg.ofOffset place.2.2) i
        else GicrState.RdUses (RdReg.ofOffset place.2.2) i) → i < 8 * size.toNat
  | gicd _ | virtioBlk _ | virtioNet _ | pl031 _ => True

open BitVec

theorem VirtualUart.observes_writeReg (uart : VirtualUart) (reg : UartReg) :
    Observes (fun value => uart.writeReg value reg) (uart.Uses reg) := by
  intro x y
  cases reg <;> simp only [writeReg, Uses, Prod.mk.injEq, mk.injEq, Option.some_inj, true_and, and_true,
    false_implies, implies_true]
  case dr => exact observes_and_mask 8 (by decide) x y
  case ibrd => exact observes_and_mask 16 (by decide) x y
  case fbrd => exact observes_and_mask 6 (by decide) x y
  case lcrH => exact observes_and_mask 8 (by decide) x y
  case cr => exact observes_and_mask 16 (by decide) x y
  case ifls => exact observes_and_mask 6 (by decide) x y
  case imsc => exact observes_and_mask 11 (by decide) x y
  case icr => exact observes_and_not uart.ris x y
  case dmacr => exact observes_and_mask 3 (by decide) x y

theorem GicrState.observes_writeRd (st : GicrState) (offset : U64) :
    Observes (fun value => VirtualGicr.writeRd st offset value) (RdUses (RdReg.ofOffset offset)) := by
  intro x y
  simp only [VirtualGicr.writeRd]
  cases RdReg.ofOffset offset with
  | none => simp only [RdUses, false_implies, implies_true]
  | some reg =>
      cases reg <;> simp only [RdUses, mk.injEq, and_true, false_implies, implies_true]
      case ctlr => exact observes_setWidth 32 x y
      case waker =>
        have bit (value : U64) : value.setWidth 32 &&& (1 : U32) <<< 1 = 0 ↔ value.getLsbD 1 = false := by
          rw [and_one_shiftLeft_eq_zero_iff _ (by decide), getLsbD_setWidth]
          rfl
        simp only [bit, forall_eq]
        cases x.getLsbD 1 <;> cases y.getLsbD 1 <;> simp [mk.injEq]

theorem GicrState.observes_writeSgi (st : GicrState) (offset : U64) :
    Observes (fun value => VirtualGicr.writeSgi st offset value) (st.SgiUses (SgiReg.ofOffset offset)) := by
  intro x y
  simp only [VirtualGicr.writeSgi]
  cases SgiReg.ofOffset offset with
  | none => simp only [SgiUses, false_implies, implies_true]
  | some reg =>
      cases reg <;> simp only [SgiUses, mk.injEq, true_and, and_true, false_implies, implies_true]
      case igroupr0 => exact observes_setWidth 32 x y
      case isenabler0 => exact observes_or st.isenabler0 x y
      case icenabler0 => exact observes_and_not st.isenabler0 x y
      case ispendr0 => exact observes_or st.ispendr0 x y
      case icpendr0 => exact observes_and_not st.ispendr0 x y
      case isactiver0 => exact observes_or st.isactiver0 x y
      case icactiver0 => exact observes_and_not st.isactiver0 x y
      case ipriorityr idx =>
        rw [← observes_setWidth 32 x y]
        exact (Function.update_injective st.ipriorityr idx).eq_iff
      case icfgr1 => exact observes_setWidth 32 x y

/-! ## Devices -/

section Devices

variable {host : MmioHost} {world : MmioWorld} {offset x y : U64} {size : U8}

theorem MmioWorld.physWrite_injective (world : MmioWorld) : Function.Injective world.physWrite := by
  intro first second same
  simp only [physWrite, mk.injEq, true_and, List.append_cancel_left_eq] at same
  cases first <;> cases second <;> simp_all

theorem VirtualUart.write_narrow_iff (uart : VirtualUart) (x : U64) :
    (∀ y : U64, y.setWidth (8 * size.toNat) = x.setWidth (8 * size.toNat) →
      (Device.uart uart).write host offset y size world = (Device.uart uart).write host offset x size world) ↔
    (Device.uart uart).StoreFits offset size := by
  have injective : Function.Injective fun written : Option U8 × VirtualUart =>
      (.ok (.uart written.2, world.physWrite (written.1.map fun ch => ⟨host.uartBase, 4, ch.setWidth 64⟩)) :
        Except VirtioStop (Device × MmioWorld)) := by
    intro first second same
    obtain ⟨devices, worlds⟩ := Prod.mk.inj (Except.ok.inj same)
    refine Prod.ext (Option.map_injective ?_ (world.physWrite_injective worlds)) (Device.uart.inj devices)
    intro ch ch' chars
    have low := congrArg (BitVec.setWidth 8) (PhysWrite.mk.inj chars).2.2
    simpa using low
  by_cases accepted : accepts size = true
  · cases found : UartReg.ofOffset offset with
    | none => simp [Device.write, write, Device.StoreFits, found]
    | some reg =>
        have observes := (uart.observes_writeReg reg).comp_injective injective
        have same (value : U64) : uart.write offset value size = uart.writeReg value reg := by
          rw [write, found, accepted]
          rfl
        simp only [Device.StoreFits, accepted, found, Option.some_inj, forall_eq', true_implies, Device.write, same]
        exact observes.forall_agree_iff x
  · simp [Device.write, write, Device.StoreFits, accepted]

theorem VirtualGicr.setState_injective (gicr : VirtualGicr) (vcpuId : Fin maxSmpCpus) :
    Function.Injective (gicr.setState vcpuId) := by
  intro first second same
  simp only [setState, mk.injEq, and_true] at same
  exact Function.update_injective _ _ same

theorem VirtualGicr.write_narrow_iff (gicr : VirtualGicr) (x : U64) :
    (∀ y : U64, y.setWidth (8 * size.toNat) = x.setWidth (8 * size.toNat) →
      (Device.gicr gicr).write host offset y size world = (Device.gicr gicr).write host offset x size world) ↔
    (Device.gicr gicr).StoreFits offset size := by
  simp only [Device.write, write, Device.StoreFits, Except.ok.injEq, Prod.mk.injEq, Device.gicr.injEq, and_true]
  cases gicr.decodeOffset offset with
  | none => simp
  | some place =>
      simp only [Option.some_inj, forall_eq']
      cases place.2.1 with
      | true =>
          exact (((gicr.state place.1).observes_writeSgi place.2.2).comp_injective
            (gicr.setState_injective place.1)).forall_agree_iff x
      | false =>
          exact (((gicr.state place.1).observes_writeRd place.2.2).comp_injective
            (gicr.setState_injective place.1)).forall_agree_iff x

theorem and_low_word (value : U64) : value &&& 0xFFFFFFFF = (value.setWidth 32).setWidth 64 := by
  rw [← toNat_inj, show (0xFFFFFFFF : U64) = mask 0 32 from rfl, toNat_and_mask, toNat_setWidth_of_le (by decide),
    toNat_setWidth]

/-- The distributor takes as many bits as the access has. -/
theorem VirtualGicd.write_narrow (gicd : VirtualGicd) (access : AccessSize size)
    (same : y.setWidth (8 * size.toNat) = x.setWidth (8 * size.toNat)) :
    gicd.write offset y size = gicd.write offset x size := by
  cases access with
  | byte => simp [write]
  | half => simp [write]
  | word =>
      have low : y.setWidth 32 = x.setWidth 32 := same
      simp only [write, and_low_word, low, show ¬(4 : U8) = 8 by decide, and_false, if_false]
  | double =>
      obtain rfl : y = x := by simpa using same
      rfl

theorem VirtualGicd.forward_eq (access : AccessSize size) (value : U64) :
    forward offset value size = if offset = gicdTyper ∨ offset = gicdIidr ∨ offset = gicdPidr2 then none
      else some (((if offset = gicdCtlr then value ||| gicdCtlrAreNs.setWidth 64 else value).setWidth
        (8 * size.toNat)).setWidth 64) := by
  cases access with
  | byte => rfl
  | half => rfl
  | word => rfl
  | double => simp [forward]

theorem VirtualGicd.forward_narrow (access : AccessSize size)
    (same : y.setWidth (8 * size.toNat) = x.setWidth (8 * size.toNat)) :
    forward offset y size = forward offset x size := by
  have low (bits : U64) : (if offset = gicdCtlr then y ||| bits else y).setWidth (8 * size.toNat) =
      (if offset = gicdCtlr then x ||| bits else x).setWidth (8 * size.toNat) := by
    split_ifs
    · rw [setWidth_or, setWidth_or, same]
    · exact same
  rw [forward_eq access, forward_eq access, low]

/-- The transports take words only, and configuration spaces cannot be written. -/
theorem VirtioMmioTransport.write_narrow {D : Type} [VirtioDevice D] (t : VirtioMmioTransport D) (fuel : ℕ)
    (env : VirtioEnv) (same : y.setWidth (8 * size.toNat) = x.setWidth (8 * size.toNat))
    (config : ∀ off, VirtioDevice.configWrite t.device off y size = VirtioDevice.configWrite t.device off x size) :
    t.write fuel env offset y size = t.write fuel env offset x size := by
  rw [write, write]
  split_ifs with space other
  · rw [config]
  · rfl
  · obtain rfl : size = 4 := not_not.mp other
    have low : y.setWidth 32 = x.setWidth 32 := same
    rw [low]

theorem VirtualPl031.write_narrow (rtc : VirtualPl031) (cntvct : U64)
    (same : y.setWidth (8 * size.toNat) = x.setWidth (8 * size.toNat)) :
    rtc.write cntvct offset y size = rtc.write cntvct offset x size := by
  rw [write, write]
  split_ifs with other
  · rfl
  · obtain rfl : size = 4 := not_not.mp other
    have low : y.setWidth 32 = x.setWidth 32 := same
    have bit : (y &&& 1).setWidth 32 = (x &&& 1).setWidth 32 := by rw [setWidth_and, setWidth_and, low]
    cases RtcReg.ofOffset offset with
    | none => rfl
    | some reg => cases reg <;> simp only [writeReg, and_low_word, low, bit]

/-- The devices that use bits above the access. -/
theorem Device.write_narrow_iff (host : MmioHost) (world : MmioWorld) (dev : Device) (access : AccessSize size)
    (x : U64) :
    (∀ y : U64, y.setWidth (8 * size.toNat) = x.setWidth (8 * size.toNat) →
      dev.write host offset y size world = dev.write host offset x size world) ↔ dev.StoreFits offset size := by
  cases dev with
  | uart d => exact d.write_narrow_iff x
  | gicr d => exact d.write_narrow_iff x
  | gicd d =>
      refine iff_of_true (fun y same => ?_) True.intro
      rw [write, write, d.write_narrow access same, VirtualGicd.forward_narrow access same]
  | virtioBlk d =>
      refine iff_of_true (fun y same => ?_) True.intro
      rw [write, write, d.write_narrow host.fuel world.env same fun _ => rfl]
  | virtioNet d =>
      refine iff_of_true (fun y same => ?_) True.intro
      rw [write, write, d.write_narrow host.fuel world.env same fun _ => rfl]
  | pl031 d =>
      refine iff_of_true (fun y same => ?_) True.intro
      rw [write, write, d.write_narrow host.cntvct same]

end Devices

/-! ## Stores -/

section Stores

variable (host : MmioHost) (fetch : U64 → U32) (context : VcpuContext) (esr addr : U64) (m : DeviceManager)
  (world : MmioWorld)

/-- Two executions of a trapped store, whose source registers agree on the bits of the access, leave the same
devices and have written the same. -/
def StoresNarrow : Prop :=
  ∀ insn reg size, Traps fetch context esr insn (.store reg size) → ∀ value : U64,
    value.setWidth (8 * size.toNat) = (context.getReg reg).setWidth (8 * size.toNat) →
    (handleMmioAbort host fetch (context.setReg reg value) esr addr m world).map (·.2.2) =
      (handleMmioAbort host fetch context esr addr m world).map (·.2.2)

/-- The device uses no bit above the access; register 31 has none. -/
def StoresFit : Prop :=
  ∀ insn reg size, Traps fetch context esr insn (.store reg size) → reg.toNat < 31 →
    ∀ slot dev, m.firstSlot (·.contains host addr) = some (slot, dev) →
      dev.StoreFits (addr - dev.baseAddress host) size

variable {host fetch context esr addr m world} {reg size : U8} {slot : Fin maxDevices} {dev : Device} {x y : U64}

theorem DeviceManager.setDevice_injective (m : DeviceManager) (slot : Fin maxDevices) :
    Function.Injective (m.setDevice slot) := by
  intro first second same
  simp only [setDevice, mk.injEq] at same
  have here := congrFun same slot
  rwa [Function.update_self, Function.update_self, Option.some_inj] at here

theorem handleMmio_store_eq_iff (found : m.firstSlot (·.contains host addr) = some (slot, dev)) :
    (m.handleMmio host world addr y size true).map (·.2) = (m.handleMmio host world addr x size true).map (·.2) ↔
      dev.write host (addr - dev.baseAddress host) y size world =
        dev.write host (addr - dev.baseAddress host) x size world := by
  have handled (value : U64) : (m.handleMmio host world addr value size true).map (·.2) =
      (dev.write host (addr - dev.baseAddress host) value size world).map
        fun written => (m.setDevice slot written.1, written.2) := by
    rw [DeviceManager.handleMmio, found]
    simp only [if_true]
    cases dev.write host (addr - dev.baseAddress host) value size world <;> rfl
  have injective : Function.Injective fun written : Device × MmioWorld => (m.setDevice slot written.1, written.2) := by
    intro first second same
    obtain ⟨devices, worlds⟩ := Prod.mk.inj same
    exact Prod.ext (m.setDevice_injective slot devices) worlds
  rw [handled, handled]
  cases dev.write host (addr - dev.baseAddress host) y size world with
  | error stop => cases dev.write host (addr - dev.baseAddress host) x size world <;> simp [Except.map]
  | ok written =>
      cases dev.write host (addr - dev.baseAddress host) x size world with
      | error stop => simp [Except.map]
      | ok written' =>
          simp only [Except.map, Except.ok.injEq]
          exact injective.eq_iff

/-- Both executions trap alike, and differ in the value that is stored. -/
theorem store_eq_iff {insn : U32} (traps : Traps fetch context esr insn (.store reg size)) (value : U64) :
    (handleMmioAbort host fetch (context.setReg reg value) esr addr m world).map (·.2.2) =
        (handleMmioAbort host fetch context esr addr m world).map (·.2.2) ↔
      (m.handleMmio host world addr ((context.setReg reg value).getReg reg) size true).map (·.2) =
        (m.handleMmio host world addr (context.getReg reg) size true).map (·.2) := by
  have pc : (context.setReg reg value).pc = context.pc := by
    rw [VcpuContext.setReg]
    split_ifs <;> rfl
  have again : Traps fetch (context.setReg reg value) esr insn (.store reg size) :=
    ⟨by rw [pc, traps.fetched], traps.decoded⟩
  rw [handleMmioAbort_store traps, handleMmioAbort_store again]
  cases m.handleMmio host world addr ((context.setReg reg value).getReg reg) size true <;>
    cases m.handleMmio host world addr (context.getReg reg) size true <;> simp [Except.map]

variable (host fetch context esr addr m world)

theorem store_width_iff :
    StoresNarrow host fetch context esr addr m world ↔ StoresFit host fetch context esr addr m := by
  constructor
  · intro narrow insn reg size traps general slot dev found
    have access : AccessSize size := MmioAccess.accessSize traps.decoded
    refine (dev.write_narrow_iff host world access (context.getReg reg)).mp fun y same => ?_
    have stored := (store_eq_iff traps y).mp (narrow insn reg size traps y same)
    rwa [VcpuContext.getReg_setReg _ _ general, handleMmio_store_eq_iff found] at stored
  · intro fits insn reg size traps value same
    rw [store_eq_iff traps]
    by_cases general : reg.toNat < 31
    · have access : AccessSize size := MmioAccess.accessSize traps.decoded
      rw [VcpuContext.getReg_setReg _ _ general]
      cases found : m.firstSlot (·.contains host addr) with
      | none => simp only [DeviceManager.handleMmio, found]
      | some place =>
          rw [handleMmio_store_eq_iff found]
          exact (place.2.write_narrow_iff host world access (context.getReg reg)).mpr
            (fits insn reg size traps general place.1 place.2 found) value same
    · rw [VcpuContext.setReg, dif_neg general]

end Stores

/-- The control register of a UART in a slot. -/
def DeviceManager.uartCr (m : DeviceManager) (slot : Fin maxDevices) : Option U32 :=
  match m.devices slot with
  | some (.uart d) => some d.cr
  | _ => none

/-- `strb w0` to the control register of a new UART, with 0x001 and with 0x101 in the register. -/
theorem byte_store_uses_more :
    Traps (fun _ => 0) default 0x01000040 0 (.store 0 1) ∧ (0x101 : U64).setWidth 8 = (0x001 : U64).setWidth 8 ∧
      ([0x001, 0x101].map fun value =>
        (handleMmioAbort ⟨.default, 0x09000000, 62500000, 0, 0⟩ (fun _ => 0) ((default : VcpuContext).setReg 0 value)
            0x01000040 0x09000030 ⟨fun _ => some (.uart .new)⟩ ⟨⟨fun _ => 0, [], []⟩, []⟩).toOption.bind
          (·.2.2.1.uartCr ⟨0, Nat.succ_pos 7⟩)) = [some 0x001, some 0x101] := by
  refine ⟨⟨by decide, by decide⟩, by decide, ?_⟩
  rfl

end Hypervisor
