import Hypervisor.ToMathlib.Prefix
import Mathlib.Data.List.Induction

/-! # Emulated registers

A device is emulated if every access does to its state what it would do to the registers that the state
stands for, and returns what they would return. `forall_refines_iff` turns a condition under which single
accesses are emulated into the condition for whole runs.
-/

namespace Emulation

variable {S R A V : Type*}

/-- The state after a run, and what the accesses returned. -/
def run (step : S → A → S) (answer : S → A → V) (s : S) (accesses : List A) : S × List V :=
  accesses.foldl (fun s access => (step s.1 access, s.2 ++ [answer s.1 access])) (s, [])

theorem run_concat (step : S → A → S) (answer : S → A → V) (s : S) (past : List A) (access : A) :
    run step answer s (past ++ [access]) =
      (step (run step answer s past).1 access,
        (run step answer s past).2 ++ [answer (run step answer s past).1 access]) := by
  rw [run, List.foldl_append]
  rfl

/-- An invariant of single accesses holds after every run. -/
theorem run_induction {step : S → A → S} {answer : S → A → V} {s : S} {P : S → Prop}
    (accesses : List A) (start : P s) (keeps : ∀ s, ∀ access ∈ accesses, P s → P (step s access)) :
    P (run step answer s accesses).1 := by
  induction accesses using List.reverseRecOn with
  | nil => exact start
  | append_singleton past access ih =>
      rw [run_concat]
      refine keeps _ access (List.mem_append_right _ (List.mem_singleton_self _)) (ih ?_)
      exact fun s other member => keeps s other (List.mem_append_left _ member)

end Emulation

/-- A device with state `S` for registers `R`: what accesses do to the device and what they return, the same
for the registers, and the registers that a state stands for. -/
structure Emulation (S R A V : Type*) where
  step : S → A → S
  answer : S → A → V
  store : R → A → R
  load : R → A → V
  view : S → R

namespace Emulation

variable {S R A V : Type*} (e : Emulation S R A V)

/-- A run of the device shows what the registers show. -/
structure Refines (s : S) (accesses : List A) : Prop where
  answers : (run e.step e.answer s accesses).2 = (run e.store e.load (e.view s) accesses).2
  registers : e.view (run e.step e.answer s accesses).1 = (run e.store e.load (e.view s) accesses).1

/-- One access is emulated. -/
def Serves (s : S) (access : A) : Prop :=
  e.answer s access = e.load (e.view s) access ∧ e.view (e.step s access) = e.store (e.view s) access

variable {e} {s : S}

theorem refines_nil : e.Refines s [] := ⟨rfl, rfl⟩

/-- One more access. -/
theorem Refines.concat_iff {past : List A} (refines : e.Refines s past) (access : A) :
    e.Refines s (past ++ [access]) ↔ e.Serves (run e.step e.answer s past).1 access := by
  have device := run_concat e.step e.answer s past access
  have file := run_concat e.store e.load (e.view s) past access
  rw [← refines.answers, ← refines.registers] at file
  constructor
  · rintro ⟨answers, registers⟩
    rw [device, file] at answers registers
    exact ⟨List.singleton_inj.mp (List.append_cancel_left answers), registers⟩
  · rintro ⟨answer, registers⟩
    constructor
    · rw [device, file, answer]
    · rw [device, file, registers]

/-- The device is emulated all along a run exactly if every access is, where it stands. -/
theorem forall_refines_iff (e : Emulation S R A V) (s : S) (accesses : List A) :
    (∀ k ≤ accesses.length, e.Refines s (accesses.take k)) ↔
      ∀ (k : ℕ) (access : A), accesses[k]? = some access →
        e.Serves (run e.step e.answer s (accesses.take k)).1 access := by
  refine List.forall_take_iff (P := e.Refines s)
    (C := fun past access => e.Serves (run e.step e.answer s past).1 access) refines_nil ?_ accesses
  intro past access refines
  exact refines.concat_iff access

end Emulation
