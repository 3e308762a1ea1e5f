import Hypervisor.Model.MultiPcpu
import Hypervisor.Proofs.RunLoop

/-! # What pCPUs leave to each other

The rely and the guarantee of the pCPUs: the steps of one pCPU do not touch what another one owns (its online bit, its
terminal flag, its debts), and keep what it counts on. An interrupt that becomes pending for it comes with a wake-up, or
with a debt of the sender; a `CPU_ON` request comes with an event, or with the SEV that is still to come.
-/

namespace Hypervisor

open Concurrent

namespace VmGlobalState

variable {vs : VmGlobalState} {kind k : PendingKind} {id t : VcpuId} {value : U32}

theorem pending_setPending :
    (vs.setPending kind id value).pending k t = if k = kind ∧ t = id then value else vs.pending k t := by
  cases k <;> cases kind <;> simp [setPending, pending]

theorem getLsbD_vcpuBit : ∀ id t : VcpuId, ((1 : U64) <<< id.val).getLsbD t.val = decide (t = id) := by decide

theorem isOnline_setOnline_of_ne (other : t ≠ id) : (vs.setOnline id).isOnline t = vs.isOnline t := by
  rw [Bool.eq_iff_iff, isOnline_setOnline]
  exact or_iff_right (Ne.symm other)

theorem isOnline_clearOnline : (vs.clearOnline id).isOnline t = (vs.isOnline t && decide (t ≠ id)) := by
  have bound : t.val < 64 := t.isLt.trans (by decide)
  rw [Bool.eq_iff_iff, isOnline_iff, clearOnline, BitVec.getLsbD_and, BitVec.getLsbD_not, getLsbD_vcpuBit,
    Bool.and_eq_true, Bool.and_eq_true, Bool.and_eq_true, isOnline_iff, decide_not, eq_true (decide_eq_true bound),
    true_and]

end VmGlobalState

namespace MultiPcpu

/-! ## What a pCPU counts on -/

namespace Shared

variable (s : Shared) (t : VcpuId)

/-- If the interrupt is pending, it was put back, or the pCPU is about to leave its guest, or someone will see to
that. -/
def Covered (kind : PendingKind) (bit : ℕ) : Prop :=
  (s.vs.pending kind t).getLsbD bit = true →
    (s.putBack kind t).getLsbD bit = true ∨ s.wakeup t = true ∨ ∃ p, s.owes p t = true

def Requested : Prop := (s.pendingCpuOn t).requested = true

/-- A request will end the WFE of an idle pCPU. -/
def Called : Prop := s.Requested t → s.event t = true ∨ (∃ p, s.signals p = true) ∨ s.late t = true

end Shared

/-- What the steps of others leave to pCPU `t`. -/
structure Keeps (t : VcpuId) (s s' : Shared) : Prop where
  online : s'.vs.isOnline t = s.vs.isOnline t
  terminal : s'.vs.terminalExit t = s.vs.terminalExit t
  debts : ∀ q, s'.owes t q = s.owes t q
  pending : ∀ kind bit, (s.vs.pending kind t).getLsbD bit = true → (s'.vs.pending kind t).getLsbD bit = true
  covered : s.vs.isOnline t = true → ∀ kind bit, s.Covered t kind bit → s'.Covered t kind bit
  signals : s'.signals t = s.signals t
  serving : s'.serving t = s.serving t
  called : s.Called t → s'.Called t
  late : s.serving t = true → (s.Requested t → s.late t = true) → s'.Requested t → s'.late t = true

theorem Keeps.refl (t : VcpuId) (s : Shared) : Keeps t s s :=
  ⟨rfl, rfl, fun _ => rfl, fun _ _ => id, fun _ _ _ => id, rfl, rfl, id, fun _ => id⟩

/-- What the pCPUs allow each other. -/
def interference (self : VcpuId) : Interference Shared where
  rely := Keeps self
  guar s s' := ∀ t ≠ self, Keeps t s s'

/-! ## Interrupts that stay covered -/

section Covered

variable {s s' : Shared} {self target t : VcpuId} {k kind : PendingKind} {b : ℕ}

theorem Shared.Covered.mono (covered : s.Covered t k b)
    (pending : (s'.vs.pending k t).getLsbD b = true → (s.vs.pending k t).getLsbD b = true)
    (back : s'.putBack k t = s.putBack k t) (woken : s.wakeup t = true → s'.wakeup t = true)
    (owed : ∀ p, s.owes p t = true → s'.wakeup t = true ∨ s'.owes p t = true) : s'.Covered t k b := by
  intro here
  obtain back' | woken' | ⟨p, owed'⟩ := covered (pending here)
  · exact .inl (back ▸ back')
  · exact .inr (.inl (woken woken'))
  · exact .inr ((owed p owed').imp_right fun later => ⟨p, later⟩)

/-- An interrupt for another pCPU comes with a debt. -/
theorem covered_orPending {bits : U32} (own : t = self → target = self → k ≠ kind) (covered : s.Covered t k b) :
    (s.orPending self target kind bits).Covered t k b := by
  by_cases here : k = kind ∧ t = target
  · obtain ⟨rfl, rfl⟩ := here
    have other : t ≠ self := fun same => own same same rfl
    exact fun _ => .inr (.inr ⟨self, by simp [Shared.orPending, other]⟩)
  · refine covered.mono (fun pending => ?_) rfl id fun p owed => .inr (by simp [Shared.orPending, owed])
    rwa [Shared.orPending, VmGlobalState.pending_setPending, if_neg here] at pending

theorem covered_requeue {bit : ℕ} (covered : s.Covered t k b) : (s.requeue self kind bit).Covered t k b := by
  intro pending
  have back : (s.requeue self kind bit).putBack k t =
      if k = kind ∧ t = self then s.putBack k t ||| ((1 : U32) <<< bit) else s.putBack k t := rfl
  rw [Shared.requeue, VmGlobalState.pending_setPending] at pending
  rw [back]
  split_ifs at pending ⊢ with here
  · obtain ⟨rfl, rfl⟩ := here
    rw [BitVec.getLsbD_or, Bool.or_eq_true] at pending ⊢
    rcases pending with before | new
    · exact (covered before).imp_left .inl
    · exact .inl (.inr new)
  · exact covered pending

/-- What is left pending after a swap came later. -/
theorem covered_takePending (covered : k = kind ∧ t = self ∨ s.Covered t k b) :
    (s.takePending self kind).Covered t k b := by
  intro pending
  rw [Shared.takePending, VmGlobalState.pending_setPending] at pending
  split_ifs at pending with here
  · exact absurd pending (by simp)
  · have back : (s.takePending self kind).putBack k t = s.putBack k t := if_neg here
    rw [back]
    exact covered.resolve_left here pending

theorem covered_forgive (online : s.vs.isOnline t = true) (covered : s.Covered t k b) : (s.forgive self).Covered t k b :=
  covered.mono id rfl id fun p owed => .inr (by simp [Shared.forgive, owed, online])

theorem covered_ring {targetList : U16} (covered : s.Covered t k b) : (s.ring self targetList).Covered t k b := by
  refine covered.mono id rfl (fun woken => by simp [Shared.ring, woken]) fun p owed => ?_
  cases target : targetList.getLsbD t.val with
  | true => exact .inl (by simp [Shared.ring, target])
  | false => exact .inr (by simp [Shared.ring, owed, target])

end Covered

/-! ## Requests -/

section Requests

variable {s : Shared} {self target q : VcpuId}

theorem requested_storeSlot {slot : PerVcpuCpuOnRequest → PerVcpuCpuOnRequest}
    (same : ∀ request, (slot request).requested = request.requested) :
    (s.storeSlot target slot).Requested q ↔ s.Requested q := by
  simp only [Shared.Requested, Shared.storeSlot, Function.update_apply]
  split_ifs with here
  · rw [same, here]
  · rfl

theorem requested_takeRequested : (s.takeRequested self).Requested q ↔ q ≠ self ∧ s.Requested q := by
  simp only [Shared.Requested, Shared.takeRequested, Shared.storeSlot, Function.update_apply]
  split_ifs with same
  · exact iff_of_false (by decide) fun here => here.1 same
  · exact (and_iff_right same).symm

/-- A request to a pCPU that is serving one is late. -/
theorem late_storeRequested (serving : s.serving q = true) (late : s.Requested q → s.late q = true)
    (requested : (s.storeRequested self target).Requested q) : (s.storeRequested self target).late q = true := by
  simp only [Shared.Requested, Shared.storeRequested, Shared.storeSlot, Function.update_apply] at requested ⊢
  split_ifs at requested ⊢ with same
  · exact same ▸ serving
  · exact late requested

end Requests

/-! ## What the accesses leave to others -/

section Accesses

variable {s : Shared} {self : VcpuId}

theorem getLsbD_pending_or {t target : VcpuId} {k kind : PendingKind} {bit : ℕ} {vs : VmGlobalState} (bits : U32)
    (here : (vs.pending k t).getLsbD bit = true) :
    ((vs.setPending kind target (vs.pending kind target ||| bits)).pending k t).getLsbD bit = true := by
  rw [VmGlobalState.pending_setPending]
  split_ifs with same
  · rw [← same.1, ← same.2, BitVec.getLsbD_or, here, Bool.true_or]
  · exact here

theorem keeps_orPending {target : VcpuId} {kind : PendingKind} {bits : U32} :
    (interference self).guar s (s.orPending self target kind bits) := fun t other =>
  { Keeps.refl t s with
    debts := fun q => by simp [Shared.orPending, other]
    pending := fun _ _ => getLsbD_pending_or bits
    covered := fun _ _ _ => covered_orPending fun same => absurd same other }

theorem keeps_requeue {kind : PendingKind} {bit : ℕ} : (interference self).guar s (s.requeue self kind bit) := fun t _ =>
  { Keeps.refl t s with
    pending := fun _ _ => getLsbD_pending_or _
    covered := fun _ _ _ => covered_requeue }

theorem keeps_takePending {kind : PendingKind} : (interference self).guar s (s.takePending self kind) := fun t other =>
  { Keeps.refl t s with
    pending := fun _ _ here => by rwa [Shared.takePending, VmGlobalState.pending_setPending, if_neg fun same => other same.2]
    covered := fun _ _ _ covered => covered_takePending (.inr covered) }

theorem keeps_forgive : (interference self).guar s (s.forgive self) := fun t other =>
  { Keeps.refl t s with
    debts := fun q => by simp [Shared.forgive, other]
    covered := fun online _ _ => covered_forgive online }

theorem keeps_ring {targetList : U16} : (interference self).guar s (s.ring self targetList) := fun t other =>
  { Keeps.refl t s with
    debts := fun q => by simp [Shared.ring, other]
    covered := fun _ _ _ => covered_ring }

theorem keeps_acknowledge : (interference self).guar s (s.acknowledge self) := fun t other =>
  have same : (s.acknowledge self).wakeup t = s.wakeup t := Function.update_of_ne other ..
  { Keeps.refl t s with covered := fun _ _ _ covered => covered.mono id rfl same.trans fun _ => .inr }

theorem keeps_setOnline : (interference self).guar s (s.setOnline self) := fun t other =>
  { Keeps.refl t s with online := VmGlobalState.isOnline_setOnline_of_ne other }

theorem keeps_clearOnline : (interference self).guar s (s.clearOnline self) := fun t other =>
  { Keeps.refl t s with
    online := by rw [Shared.clearOnline, VmGlobalState.isOnline_clearOnline, decide_eq_true other, Bool.and_true]
    serving := Function.update_of_ne other .. }

theorem keeps_setTerminalExit {value : Bool} : (interference self).guar s (s.setTerminalExit self value) :=
  fun t other => { Keeps.refl t s with terminal := Function.update_of_ne other .. }

theorem keeps_waitForEvent : (interference self).guar s (s.waitForEvent self) := fun t other =>
  have same : (s.waitForEvent self).event t = s.event t := Function.update_of_ne other ..
  { Keeps.refl t s with called := fun called requested => (called requested).imp_left same.trans }

theorem keeps_sendEvent : (interference self).guar s (s.sendEvent self) := fun t other =>
  { Keeps.refl t s with
    signals := Function.update_of_ne other ..
    called := fun _ _ => .inl rfl }

theorem keeps_storeSlot {target : VcpuId} {slot : PerVcpuCpuOnRequest → PerVcpuCpuOnRequest}
    (same : ∀ request, (slot request).requested = request.requested) :
    (interference self).guar s (s.storeSlot target slot) := fun t _ =>
  { Keeps.refl t s with
    called := fun called here => called ((requested_storeSlot same).mp here)
    late := fun _ late here => late ((requested_storeSlot same).mp here) }

theorem keeps_storeRequested {target : VcpuId} : (interference self).guar s (s.storeRequested self target) :=
  fun t other =>
  { Keeps.refl t s with
    signals := Function.update_of_ne other ..
    called := fun _ _ => .inr (.inl ⟨self, Function.update_self ..⟩)
    late := late_storeRequested }

theorem keeps_takeRequested : (interference self).guar s (s.takeRequested self) := fun t other =>
  { Keeps.refl t s with
    serving := Function.update_of_ne other ..
    called := fun called here => called (requested_takeRequested.mp here).2
    late := fun _ late here => late (requested_takeRequested.mp here).2 }

end Accesses

end MultiPcpu

end Hypervisor
