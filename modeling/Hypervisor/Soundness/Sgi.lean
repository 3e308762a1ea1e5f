import Hypervisor.Soundness.InjectionResults

/-! # Software-generated interrupts

A guest sends an SGI with a write to `ICC_SGI1R_EL1`, which `handle_sgi_trap` routes to the vCPUs of the VM;
vCPU `v` has the affinity 0.0.0.`v`. The handler reads the target list, the INTID and the mode, but not the
affinity fields nor the range selector. The SGI of another vCPU waits in its mask, while that of the running
one goes to a list register or nowhere.
-/

namespace Hypervisor

/-! ## The register -/

namespace Sgi1r

variable (value : U64)

def intid : U64 := (value >>> 24) &&& 0xF
def irm : U64 := (value >>> 40) &&& 1
def targetList : U64 := value &&& 0xFFFF
def aff1 : U64 := (value >>> 16) &&& 0xFF
def aff2 : U64 := (value >>> 32) &&& 0xFF
def aff3 : U64 := (value >>> 48) &&& 0xFF
def rs : U64 := (value >>> 44) &&& 0xF

/-- The vCPUs that the architecture names for a write by the running vCPU. -/
def Targets (vs : VmGlobalState) (id : VcpuId) : Prop :=
  (irm value = 1 → vs.isOnline id = true ∧ id ≠ vs.currentVcpuId) ∧
  (irm value ≠ 1 → aff3 value = 0 ∧ aff2 value = 0 ∧ aff1 value = 0 ∧
    ∃ n : ℕ, (targetList value).getLsbD n = true ∧ id.val = (rs value).toNat * 16 + n)

end Sgi1r

variable {Other : Type} [DecidableEq Other]

/-- The bit of an SGI in a mask. -/
def sgiBit (value : U64) : U32 := (1 : U32) <<< (Sgi1r.intid value).toNat

/-- The SGI is made pending for the vCPUs that the architecture names, and for no others. -/
structure RoutesSgi (value : U64) (cpu : Cpu Other) (e : El2) : Prop where
  queued : ∀ id, id ≠ e.currentVmState.currentVcpuId → Sgi1r.Targets value e.currentVmState id →
    (handleSgiTrap value cpu e).2.currentVmState.pendingSgis id = e.currentVmState.pendingSgis id ||| sgiBit value
  untouched : ∀ id, id = e.currentVmState.currentVcpuId ∨ ¬Sgi1r.Targets value e.currentVmState id →
    (handleSgiTrap value cpu e).2.currentVmState.pendingSgis id = e.currentVmState.pendingSgis id
  injected : Sgi1r.Targets value e.currentVmState e.currentVmState.currentVcpuId →
    ∃ n, getLrState (lrs cpu n) = 0 ∧ HoldsPending (lrs (handleSgiTrap value cpu e).1 n) (Sgi1r.intid value).toNat
  alone : ¬Sgi1r.Targets value e.currentVmState e.currentVmState.currentVcpuId →
    lrs (handleSgiTrap value cpu e).1 = lrs cpu

/-- The write names all others, or its affinity is that of the VM, or it names nobody in the VM. -/
def Sgi1r.Local (value : U64) : Prop :=
  irm value = 1 ∨ (aff3 value = 0 ∧ aff2 value = 0 ∧ aff1 value = 0 ∧ rs value = 0) ∨ value &&& 0xFF = 0

/-! ## The handler -/

/-- The vCPUs that the handler selects. -/
def Sgi1r.Selects (value : U64) (vs : VmGlobalState) (id : VcpuId) : Prop :=
  sgiTargets value vs id = true ∧ (irm value = 1 → id ≠ vs.currentVcpuId)

section Handler

variable {value : U64} {cpu : Cpu Other} {e : El2} {vs : VmGlobalState} {id : VcpuId}

theorem toNat_intid_lt (value : U64) : (Sgi1r.intid value).toNat < 16 := by
  have field : (0xF : U64) = BitVec.mask 0 4 := by decide
  rw [Sgi1r.intid, field, BitVec.toNat_and_mask]
  exact Nat.mod_lt _ (by decide)

theorem getLsbD_targetList (value : U64) (n : ℕ) :
    (Sgi1r.targetList value).getLsbD n = (decide (n < 16) && value.getLsbD n) := by
  have field : (0xFFFF : U64) = BitVec.mask 0 16 := by decide
  rw [Sgi1r.targetList, field, BitVec.getLsbD_and, BitVec.getLsbD_mask]
  grind

theorem sgiTargets_eq (value : U64) (vs : VmGlobalState) (id : VcpuId) : sgiTargets value vs id =
    if Sgi1r.irm value = 1 then vs.isOnline id else Sgi1r.targetList value &&& ((1 : U64) <<< id.val) != 0 := rfl

/-- Without the mode bit, the bits of the list are vCPUs. -/
theorem selects_iff_of_list (list : Sgi1r.irm value ≠ 1) :
    Sgi1r.Selects value vs id ↔ value.getLsbD id.val = true := by
  have bound : id.val < 16 := Nat.lt_trans id.isLt (by decide)
  have bit := BitVec.and_one_shiftLeft_eq_zero_iff (Sgi1r.targetList value) (Nat.lt_trans bound (by decide : 16 < 64))
  rw [getLsbD_targetList, decide_eq_true bound, Bool.true_and] at bit
  rw [Sgi1r.Selects, sgiTargets_eq, if_neg list, and_iff_left fun all => absurd all list, bne_iff_ne, Ne, bit,
    Bool.not_eq_false]

theorem selects_iff_of_all (all : Sgi1r.irm value = 1) :
    Sgi1r.Selects value vs id ↔ vs.isOnline id = true ∧ id ≠ vs.currentVcpuId := by
  rw [Sgi1r.Selects, sgiTargets_eq, if_pos all]
  exact and_congr_right fun _ => forall_prop_of_true all

/-- What the handler does to the masks. -/
theorem pendingSgis_handleSgiTrap (value : U64) (cpu : Cpu Other) (e : El2) (id : VcpuId) :
    (handleSgiTrap value cpu e).2.currentVmState.pendingSgis id =
      if id ≠ e.currentVmState.currentVcpuId ∧ sgiTargets value e.currentVmState id then
        e.currentVmState.pendingSgis id ||| sgiBit value
      else e.currentVmState.pendingSgis id := by
  rw [handleSgiTrap, El2.currentVmState_setCurrent]
  rfl

/-- What it does to the registers. -/
theorem cpu_handleSgiTrap (value : U64) (cpu : Cpu Other) (e : El2) :
    (Sgi1r.Selects value e.currentVmState e.currentVmState.currentVcpuId → (handleSgiTrap value cpu e).1 =
      (writeFreeLr e.ichVtrEl2 (buildLr ((Sgi1r.intid value).setWidth 32) irqDefaultPriority) cpu).2) ∧
    (¬Sgi1r.Selects value e.currentVmState e.currentVmState.currentVcpuId → (handleSgiTrap value cpu e).1 = cpu) := by
  have self : Sgi1r.Selects value e.currentVmState e.currentVmState.currentVcpuId ↔
      (value >>> 40) &&& 1 ≠ 1 ∧ sgiTargets value e.currentVmState e.currentVmState.currentVcpuId = true := by
    rw [Sgi1r.Selects, and_comm]
    refine and_congr_left fun _ => ?_
    exact ⟨fun all same => all same rfl, fun list all => absurd all list⟩
  rw [self]
  exact ⟨fun selected => if_pos selected, fun selected => if_neg selected⟩

theorem getLsbD_sgiBit (value : U64) : (sgiBit value).getLsbD (Sgi1r.intid value).toNat = true := by
  rw [sgiBit, getLsbD_one_shiftLeft, decide_eq_true (Nat.lt_trans (toNat_intid_lt value) (by decide)), decide_eq_true rfl]
  rfl

theorem holdsPending_sgi (value : U64) :
    HoldsPending (buildLr ((Sgi1r.intid value).setWidth 32) irqDefaultPriority) (Sgi1r.intid value).toNat := by
  have holds := holdsPending_buildLr ((Sgi1r.intid value).setWidth 32) irqDefaultPriority
  rwa [BitVec.toNat_setWidth, Nat.mod_eq_of_lt (Nat.lt_trans (toNat_intid_lt value) (by decide))] at holds

/-! ## The targets -/

/-- Writes with a foreign affinity or range name no vCPU of the VM. -/
theorem not_targets_of_foreign (list : Sgi1r.irm value ≠ 1)
    (foreign : ¬(Sgi1r.aff3 value = 0 ∧ Sgi1r.aff2 value = 0 ∧ Sgi1r.aff1 value = 0 ∧ Sgi1r.rs value = 0)) :
    ¬Sgi1r.Targets value vs id := by
  rintro ⟨-, named⟩
  obtain ⟨aff3, aff2, aff1, n, -, place⟩ := named list
  have range : (Sgi1r.rs value).toNat = 0 := by
    have : id.val < 8 := id.isLt
    omega
  exact foreign ⟨aff3, aff2, aff1, BitVec.eq_of_toNat_eq range⟩

theorem and_ff_eq_zero_iff : value &&& 0xFF = 0 ↔ ∀ id : VcpuId, value.getLsbD id.val = false := by
  have field : (0xFF : U64) = BitVec.mask 0 8 := by decide
  rw [field, BitVec.and_mask_eq_zero_iff]
  exact ⟨fun clear id => clear id.val (Nat.zero_le _) id.isLt, fun clear i _ bound => clear ⟨i, by simpa using bound⟩⟩

/-- The handler selects the right vCPUs. -/
theorem targets_iff_selects (right : Sgi1r.Local value) : Sgi1r.Targets value vs id ↔ Sgi1r.Selects value vs id := by
  by_cases all : Sgi1r.irm value = 1
  · rw [selects_iff_of_all all, Sgi1r.Targets, forall_prop_of_true all]
    exact and_iff_left fun list => absurd all list
  · have bound : id.val < 16 := Nat.lt_trans id.isLt (by decide)
    rw [selects_iff_of_list all]
    by_cases here : Sgi1r.aff3 value = 0 ∧ Sgi1r.aff2 value = 0 ∧ Sgi1r.aff1 value = 0 ∧ Sgi1r.rs value = 0
    · have range : (Sgi1r.rs value).toNat = 0 := by rw [here.2.2.2]; rfl
      constructor
      · rintro ⟨-, named⟩
        obtain ⟨-, -, -, n, listed, place⟩ := named all
        rw [range, Nat.zero_mul, Nat.zero_add] at place
        rw [getLsbD_targetList, Bool.and_eq_true] at listed
        exact place ▸ listed.2
      · intro listed
        refine ⟨fun same => absurd same all, fun _ => ⟨here.1, here.2.1, here.2.2.1, id.val, ?_, ?_⟩⟩
        · rw [getLsbD_targetList, decide_eq_true bound, listed]
          rfl
        · rw [range, Nat.zero_mul, Nat.zero_add]
    · have nobody := and_ff_eq_zero_iff.mp ((right.resolve_left all).resolve_left here) id
      rw [nobody]
      exact iff_of_false (not_targets_of_foreign all here) Bool.false_ne_true

/-- The selected vCPUs are those that get the SGI. -/
theorem routesSgi_of_local (right : Sgi1r.Local value)
    (free : ∃ n, IsImplemented e.ichVtrEl2 n ∧ getLrState (lrs cpu n) = 0) : RoutesSgi value cpu e := by
  obtain ⟨own, other⟩ := cpu_handleSgiTrap value cpu e
  constructor
  · intro id apart target
    rw [pendingSgis_handleSgiTrap, if_pos ⟨apart, ((targets_iff_selects right).mp target).1⟩]
  · intro id unselected
    rw [pendingSgis_handleSgiTrap, if_neg]
    rintro ⟨apart, selected⟩
    exact (unselected.resolve_left apart) ((targets_iff_selects right).mpr ⟨selected, fun _ => apart⟩)
  · intro target
    rw [own ((targets_iff_selects right).mp target)]
    obtain ⟨n, -, invalid, written⟩ := exists_writeFreeLr
      (buildLr ((Sgi1r.intid value).setWidth 32) irqDefaultPriority) free
    exact ⟨n, invalid, by rw [written]; exact holdsPending_sgi value⟩
  · intro target
    rw [other (mt (targets_iff_selects right).mpr target)]

/-- A vCPU that the handler selects and the architecture does not name gets the SGI all the same. -/
theorem not_routesSgi (selected : Sgi1r.Selects value vs id) (foreign : ¬Sgi1r.Targets value vs id)
    (here : e.currentVmState = vs) (clear : vs.pendingSgis id = 0)
    (free : ∃ n, IsImplemented e.ichVtrEl2 n ∧ getLrState (lrs cpu n) = 0) : ¬RoutesSgi value cpu e := by
  subst here
  intro routes
  by_cases own : id = e.currentVmState.currentVcpuId
  · subst own
    obtain ⟨n, -, invalid, written⟩ := exists_writeFreeLr
      (buildLr ((Sgi1r.intid value).setWidth 32) irqDefaultPriority) free
    have unchanged := routes.alone foreign
    rw [(cpu_handleSgiTrap value cpu e).1 selected] at unchanged
    rw [← unchanged, written, getLrState_buildLr] at invalid
    cases invalid
  · have masks := routes.untouched id (.inr foreign)
    rw [pendingSgis_handleSgiTrap, if_pos ⟨own, selected.1⟩, clear] at masks
    have bit := getLsbD_sgiBit value
    rw [show (0 : U32) = 0#32 from rfl, BitVec.zero_or] at masks
    rw [masks, BitVec.getLsbD_zero] at bit
    cases bit

end Handler

/-- The targets are right for all masks and registers exactly if the fields that the handler ignores are zero or
do not matter. -/
theorem sgi_targets_iff (value : U64) (e : El2) :
    (∀ (pendingSgis : VcpuId → U32) (cpu : Cpu Other),
      (∃ n, IsImplemented e.ichVtrEl2 n ∧ getLrState (lrs cpu n) = 0) →
        RoutesSgi value cpu (e.setCurrent { e.currentVmState with pendingSgis })) ↔ Sgi1r.Local value := by
  constructor
  · intro always
    by_contra foreign
    obtain ⟨list, elsewhere, some⟩ : Sgi1r.irm value ≠ 1 ∧ _ ∧ ¬(value &&& 0xFF = 0) := by
      rw [Sgi1r.Local, not_or, not_or] at foreign
      exact foreign
    rw [and_ff_eq_zero_iff, not_forall] at some
    obtain ⟨id, listed⟩ := some
    rw [Bool.not_eq_false] at listed
    have free : ∃ n, IsImplemented e.ichVtrEl2 n ∧ getLrState (lrs (fun _ => 0 : Cpu Other) n) = 0 :=
      ⟨0, Nat.succ_pos _, (by decide : getLrState 0 = 0)⟩
    refine not_routesSgi ((selects_iff_of_list list).mpr listed) (not_targets_of_foreign list elsewhere)
      (El2.currentVmState_setCurrent ..) ?_ free (always (fun _ => 0) _ free)
    rfl
  · intro right pendingSgis cpu free
    exact routesSgi_of_local right free

/-- An SGI for a CPU with Aff1 = 1 is queued for vCPU 1. -/
theorem foreign_sgi_queued :
    let e : El2 := ⟨0, fun _ => .new, 0, 0, 0, false, 0, 3⟩
    ¬RoutesSgi 0x10002 (fun _ => 0 : Cpu Empty) e := by
  have selected : Sgi1r.Selects 0x10002 .new 1 := (selects_iff_of_list (by decide)).mpr (by decide)
  have foreign : ¬Sgi1r.Targets 0x10002 .new 1 := not_targets_of_foreign (by decide) (by decide)
  exact not_routesSgi selected foreign rfl rfl ⟨0, by decide, by decide⟩

/-! ## No SGI is lost -/

/-- Where an SGI comes from. -/
inductive SgiCause where
  /-- A write of a guest to `ICC_SGI1R_EL1`. -/
  | trap (value : U64)
  /-- A physical SGI, which is for vCPU 0. -/
  | physical (intid : Fin 16)

namespace SgiCause

def sgi : SgiCause → ℕ
  | trap value => (Sgi1r.intid value).toNat
  | physical intid => intid

def Selects (cause : SgiCause) (vs : VmGlobalState) (id : VcpuId) : Prop :=
  match cause with
  | trap value => Sgi1r.Selects value vs id
  | physical _ => id = 0

def handle (cause : SgiCause) (cpu : Cpu Other) (e : El2) : Cpu Other × El2 :=
  match cause with
  | trap value => handleSgiTrap value cpu e
  | physical intid =>
      let handled := handleIrqException cpu (BitVec.ofNat 32 intid) e
      (handled.cpu, handled.el2)

end SgiCause

/-- The word holds the SGI in a pending state. -/
def PendsSgi (sgi : ℕ) (lr : U64) : Prop :=
  (getLrState lr = lrStatePending ∨ getLrState lr = lrStatePendingActive) ∧ (getLrIntid lr).toNat = sgi

/-- The SGI is recorded for the vCPU: in its mask, or in a list register if it is running. -/
def Recorded (sgi : ℕ) (high : Fin 12 → U64) (cpu : Cpu Other) (e : El2) (id : VcpuId) : Prop :=
  (e.currentVmState.pendingSgis id).getLsbD sgi = true ∨
    id = e.currentVmState.currentVcpuId ∧
      ∃ n : Fin 16, n.val < numListRegisters e.ichVtrEl2 ∧ PendsSgi sgi (hwLr cpu high n)

section Lost

variable {cause : SgiCause} {cpu : Cpu Other} {e : El2} {high : Fin 12 → U64} {id : VcpuId}

/-- What a handler does with an SGI: it queues it for the other vCPUs that it selects, and tries to inject it
into the running one if it selects that. -/
structure Handles (cause : SgiCause) (cpu : Cpu Other) (e : El2) : Prop where
  vtr : (cause.handle cpu e).2.ichVtrEl2 = e.ichVtrEl2
  running : (cause.handle cpu e).2.currentVmState.currentVcpuId = e.currentVmState.currentVcpuId
  queued : ∀ id, id ≠ e.currentVmState.currentVcpuId → cause.Selects e.currentVmState id →
    ((cause.handle cpu e).2.currentVmState.pendingSgis id).getLsbD cause.sgi = true
  own : (cause.handle cpu e).2.currentVmState.pendingSgis e.currentVmState.currentVcpuId =
    e.currentVmState.pendingSgis e.currentVmState.currentVcpuId
  injected : cause.Selects e.currentVmState e.currentVmState.currentVcpuId →
    ∃ lr, PendsSgi cause.sgi lr ∧ (cause.handle cpu e).1 = (writeFreeLr e.ichVtrEl2 lr cpu).2

theorem handles_trap (value : U64) (cpu : Cpu Other) (e : El2) : Handles (.trap value) cpu e where
  vtr := rfl
  running := by rw [SgiCause.handle, handleSgiTrap, El2.currentVmState_setCurrent]
  queued id apart selected := by
    rw [SgiCause.handle, pendingSgis_handleSgiTrap, if_pos ⟨apart, selected.1⟩, BitVec.getLsbD_or, SgiCause.sgi,
      getLsbD_sgiBit, Bool.or_true]
  own := by
    rw [SgiCause.handle, pendingSgis_handleSgiTrap, if_neg fun other => other.1 rfl]
  injected selected := by
    have holds := holdsPending_sgi value
    exact ⟨_, ⟨.inl holds.state, holds.intid⟩, (cpu_handleSgiTrap value cpu e).1 selected⟩

theorem handleIrqException_of_sgi (intid : Fin 16) (cpu : Cpu Other) (e : El2) :
    handleIrqException cpu (BitVec.ofNat 32 intid) e =
      if e.currentVmState.currentVcpuId = 0 then
        ⟨true, saveContext cpu, (injectInterrupt e.ichVtrEl2 (BitVec.ofNat 32 intid) irqDefaultPriority cpu).2,
          e.resetExceptionCount⟩
      else
        ⟨true, saveContext cpu, cpu, e.resetExceptionCount.setCurrent
          (e.currentVmState.orSgis 0 ((1 : U32) <<< (BitVec.ofNat 32 intid.val).toNat))⟩ := by
  have real : ¬gicSpuriousIntid ≤ BitVec.ofNat 32 intid := by revert intid; decide
  have low : BitVec.ofNat 32 intid ≤ 15 := by revert intid; decide
  rw [handleIrqException]
  dsimp only
  rw [if_neg real, if_pos low]
  rfl

theorem toNat_ofNat_sgi (intid : Fin 16) : (BitVec.ofNat 32 intid.val).toNat = intid :=
  Nat.mod_eq_of_lt (Nat.lt_trans intid.isLt (by decide))

theorem handles_physical (intid : Fin 16) (cpu : Cpu Other) (e : El2) : Handles (.physical intid) cpu e := by
  by_cases first : e.currentVmState.currentVcpuId = 0
  · have same := handleIrqException_of_sgi intid cpu e
    rw [if_pos first] at same
    constructor
    all_goals rw [SgiCause.handle, same]
    · rfl
    · rfl
    · intro id apart selected
      exact absurd (selected.trans first.symm) apart
    · rfl
    · intro _
      have holds := holdsPending_buildLr (BitVec.ofNat 32 intid) irqDefaultPriority
      rw [toNat_ofNat_sgi] at holds
      exact ⟨_, ⟨.inl holds.state, holds.intid⟩, rfl⟩
  · have same := handleIrqException_of_sgi intid cpu e
    rw [if_neg first] at same
    constructor
    all_goals rw [SgiCause.handle, same]
    · rfl
    · rw [El2.currentVmState_setCurrent]
      rfl
    · rintro id - rfl
      rw [El2.currentVmState_setCurrent, VmGlobalState.orSgis]
      dsimp only
      rw [Function.update_self, BitVec.getLsbD_or, getLsbD_one_shiftLeft, toNat_ofNat_sgi, SgiCause.sgi,
        decide_eq_true (Nat.lt_trans intid.isLt (by decide)), decide_eq_true rfl, Bool.and_true, Bool.or_true]
    · rw [El2.currentVmState_setCurrent]
      exact Function.update_of_ne first _ _
    · intro selected
      exact absurd selected first

theorem handles (cause : SgiCause) (cpu : Cpu Other) (e : El2) : Handles cause cpu e := by
  cases cause with
  | trap value => exact handles_trap value cpu e
  | physical intid => exact handles_physical intid cpu e

/-- Every selected vCPU has the SGI afterwards exactly if the running one is not selected, a list register is free
for it, or it has the SGI already. -/
theorem sgi_recorded_iff (cause : SgiCause) (cpu : Cpu Other) (e : El2) (high : Fin 12 → U64) :
    (∀ id, cause.Selects e.currentVmState id →
      Recorded cause.sgi high (cause.handle cpu e).1 (cause.handle cpu e).2 id) ↔
        (cause.Selects e.currentVmState e.currentVmState.currentVcpuId →
          (∃ n, IsImplemented e.ichVtrEl2 n ∧ getLrState (lrs cpu n) = 0) ∨
            Recorded cause.sgi high cpu e e.currentVmState.currentVcpuId) := by
  obtain ⟨vtr, running, queued, own, injected⟩ := handles cause cpu e
  have here : cause.Selects e.currentVmState e.currentVmState.currentVcpuId →
      (Recorded cause.sgi high (cause.handle cpu e).1 (cause.handle cpu e).2 e.currentVmState.currentVcpuId ↔
        (∃ n, IsImplemented e.ichVtrEl2 n ∧ getLrState (lrs cpu n) = 0) ∨
          Recorded cause.sgi high cpu e e.currentVmState.currentVcpuId) := by
    intro selected
    obtain ⟨lr, pends, written⟩ := injected selected
    rw [Recorded, Recorded, vtr, running, own, written,
      exists_hwLr_writeFreeLr_iff pends fun _ holds => getLrState_ne_zero_of_pending holds.1]
    simp only [true_and]
    exact or_left_comm
  constructor
  · intro recorded selected
    exact (here selected).mp (recorded _ selected)
  · intro room id selected
    by_cases self : id = e.currentVmState.currentVcpuId
    · rw [self] at selected ⊢
      exact (here selected).mpr (room selected)
    · exact .inl (queued id self selected)

/-- With all list registers in use, a vCPU that sends SGI 1 to itself loses it. -/
theorem self_sgi_lost :
    let e : El2 := ⟨0, fun _ => .new, 0, 0, 0, false, 0, 3⟩
    ¬∀ id, (SgiCause.trap 0x1000001).Selects e.currentVmState id →
      Recorded 1 (fun _ => 0) ((SgiCause.trap 0x1000001).handle busyCpu e).1
        ((SgiCause.trap 0x1000001).handle busyCpu e).2 id := by
  intro e always
  rcases always 0 ((selects_iff_of_list (by decide)).mpr (by decide)) with queued | ⟨-, n, implemented, pends⟩
  · exact absurd queued (by decide)
  · have other : ∀ n : Fin 4, (getLrIntid (lrs ((SgiCause.trap 0x1000001).handle busyCpu e).1 n)).toNat ≠ 1 := by decide
    have four : numListRegisters e.ichVtrEl2 = 4 := by decide
    have named : n.val < 4 := four ▸ implemented
    have intid := pends.2
    rw [hwLr, dif_pos named] at intid
    exact other _ intid

end Lost

/-! ## Masks -/

/-- The masks of a VM have bits for the sixteen SGIs only. -/
def VmGlobalState.SgiMasks (vs : VmGlobalState) : Prop := ∀ id bit, (vs.pendingSgis id).getLsbD bit = true → bit < 16

/-- The handlers add no other bits to the masks, so an entry looks at all of them. -/
theorem VmGlobalState.SgiMasks.handle {e : El2} (masks : e.currentVmState.SgiMasks) (cause : SgiCause) (cpu : Cpu Other) :
    (cause.handle cpu e).2.currentVmState.SgiMasks := by
  intro id bit set
  cases cause with
  | trap value =>
      rw [SgiCause.handle, pendingSgis_handleSgiTrap] at set
      split_ifs at set
      · rw [BitVec.getLsbD_or, sgiBit, getLsbD_one_shiftLeft, Bool.or_eq_true, Bool.and_eq_true, decide_eq_true_iff,
          decide_eq_true_iff] at set
        rcases set with old | new
        · exact masks id bit old
        · exact new.2 ▸ toNat_intid_lt value
      · exact masks id bit set
  | physical intid =>
      rw [SgiCause.handle, handleIrqException_of_sgi] at set
      split_ifs at set
      · exact masks id bit set
      · rw [El2.currentVmState_setCurrent, VmGlobalState.orSgis] at set
        dsimp only at set
        by_cases first : id = 0
        · rw [first, Function.update_self, BitVec.getLsbD_or, getLsbD_one_shiftLeft, Bool.or_eq_true, Bool.and_eq_true,
            decide_eq_true_iff, decide_eq_true_iff, toNat_ofNat_sgi] at set
          rcases set with old | new
          · exact masks 0 bit old
          · exact new.2 ▸ intid.isLt
        · rw [Function.update_of_ne first] at set
          exact masks id bit set

end Hypervisor
