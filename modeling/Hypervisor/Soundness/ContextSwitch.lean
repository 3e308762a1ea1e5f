import Hypervisor.Model.Vcpu
import Mathlib.Logic.Function.Basic

/-! # What one vCPU sees of another

vCPU A leaves the physical CPU, others run on it, and A comes back. A register of A survives the others,
whatever they do, exactly when it is one of those that are saved and restored.
-/

namespace Hypervisor

variable {Other : Type}

/-- Guest code, with everything emulated for it while it runs. It cannot write VMPIDR_EL2, which it
reads as MPIDR_EL1. -/
structure Behaviour (Other : Type) where
  run : Cpu Other → Cpu Other
  identity : ∀ cpu, run cpu .vmpidrEl2 = cpu .vmpidrEl2

/-- The registers after other vCPUs ran, one after another. -/
def afterSlices (cpu : Cpu Other) (slices : List (Vcpu × Behaviour Other)) : Cpu Other :=
  slices.foldl (fun cpu slice => slice.2.run (slice.1.enter cpu)) cpu

/-- Register `r` has on the next entry of a vCPU the value of its last exit, but for what was emulated
on its saved context, whichever vCPUs ran in between and whatever they did. -/
def Reg.Preserved (r : Reg Other) : Prop :=
  ∀ (a : Vcpu) (behaviour : Behaviour Other) (emulate : VcpuContext → VcpuContext) (cpu : Cpu Other)
    (slices : List (Vcpu × Behaviour Other)),
    let last := behaviour.run (a.enter cpu)
    let a' := a.exit emulate last
    a'.enter (afterSlices last slices) r = enterGuest a'.context last r

/-- The registers that a vCPU saves and restores. -/
def Reg.saved : Reg Other → Bool
  | .v _ => false
  | .fpsr => false
  | .fpcr => false
  | .other _ => false
  | _ => true

/-- A register that is saved comes back from the vCPU, whatever is in the CPU by then. -/
theorem enter_exit_of_saved {r : Reg Other} (saved : r.saved = true) (a : Vcpu) (emulate : VcpuContext → VcpuContext)
    (last cpu : Cpu Other) (identity : last .vmpidrEl2 = a.archState.vmpidr) :
    (a.exit emulate last).enter cpu r = enterGuest (a.exit emulate last).context last r := by
  cases r with
  | vmpidrEl2 => exact identity.symm
  | v => contradiction
  | fpsr => contradiction
  | fpcr => contradiction
  | other => contradiction
  | _ => rfl

/-- Neither entering nor leaving a vCPU touches the other registers. -/
theorem enter_of_not_saved {r : Reg Other} (unsaved : r.saved = false) (a : Vcpu) (context : VcpuContext)
    (cpu : Cpu Other) :
    a.enter cpu r = cpu r ∧ enterGuest context cpu r = cpu r := by
  cases r with
  | v => exact ⟨rfl, rfl⟩
  | fpsr => exact ⟨rfl, rfl⟩
  | fpcr => exact ⟨rfl, rfl⟩
  | other => exact ⟨rfl, rfl⟩
  | _ => contradiction

theorem one_ne_zero_of_width (r : Reg Other) : (1 : BitVec r.width) ≠ 0 := by
  have wide : 0 < r.width := by cases r <;> exact Nat.zero_lt_succ _
  intro same
  have bits := congrArg BitVec.toNat same
  rw [show (1 : BitVec r.width).toNat = 1 from BitVec.toNat_one wide] at bits
  exact absurd bits (by simp)

/-- Guest code that writes one register. -/
def writes [DecidableEq Other] (r : Reg Other) (other : r ≠ .vmpidrEl2) (value : BitVec r.width) :
    Behaviour Other where
  run cpu := Function.update cpu r value
  identity cpu := Function.update_of_ne other.symm value cpu

end Hypervisor
