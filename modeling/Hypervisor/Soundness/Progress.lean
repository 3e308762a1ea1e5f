import Hypervisor.Soundness.Power

/-! # Progress of several VMs on one physical CPU

`run_multi_vm` gives each VM one iteration in turn, and an iteration ends when a handler leaves the
guest. The preemption timer is armed only if several vCPUs of the VM are online, and its interrupt
leaves the guest only then.
-/

namespace Hypervisor

section Guest

variable {Other : Type} [DecidableEq Other]

/-- A guest as it runs on: at each point it takes an exception or it does not. -/
abbrev GuestCourse (Other : Type) := ℕ → Option (GuestException Other)

namespace GuestCourse

/-- The exceptions up to point `n`. -/
def events (guest : GuestCourse Other) (n : ℕ) : List (GuestException Other) := (List.range n).filterMap guest

/-- If the preemption timer is armed on entry, its interrupt arrives. -/
def Fires (guest : GuestCourse Other) (e : El2) : Prop :=
  e.cnthpArmed = true → ∃ k cpu, guest k = some ⟨cpu, .irq 26⟩

/-- EL2 comes back from every exception of the guest. -/
def Responds (guest : GuestCourse Other) (e : El2) : Prop := ∀ n, runGuest (guest.events n) e ≠ .stopped

variable {guest : GuestCourse Other} {e : El2}

omit [DecidableEq Other] in
theorem events_succ (guest : GuestCourse Other) {n : ℕ} {x : GuestException Other} (takes : guest n = some x) :
    guest.events (n + 1) = guest.events n ++ [x] := by
  rw [events, List.range_succ, List.filterMap_append, events]
  simp [takes]

/-- A guest that takes the timer's interrupt at once, and nothing else. -/
def spinning (cpu : Cpu Other) : GuestCourse Other
  | 0 => some ⟨cpu, .irq 26⟩
  | _ + 1 => none

omit [DecidableEq Other] in
theorem events_spinning (cpu : Cpu Other) (n : ℕ) :
    (spinning cpu).events n = [] ∨ (spinning cpu).events n = [⟨cpu, .irq 26⟩] := by
  induction n with
  | zero => exact .inl rfl
  | succ n ih =>
      cases n with
      | zero => exact .inr rfl
      | succ n =>
          have same : (spinning cpu).events (n + 2) = (spinning cpu).events (n + 1) := by
            rw [events, List.range_succ, List.filterMap_append, events]
            exact List.append_nil _
          rwa [same]

end GuestCourse

/-- The timer's interrupt leaves the guest exactly if several vCPUs are online. -/
theorem resume_of_watchdog (cpu : Cpu Other) (e : El2) :
    (handleIrqException cpu 26 e).resume = !e.currentVmState.multiVcpu := by
  rw [El2.currentVmState]
  cases multi : (e.vmState e.currentVmId).multiVcpu with
  | true => simp [handleIrqException, gicSpuriousIntid, El2.resetExceptionCount, El2.currentVmState, multi]
  | false => simp [handleIrqException, gicSpuriousIntid, El2.resetExceptionCount, El2.currentVmState, multi]

/-- With the timer armed where it should be, every guest is left, short of one that stops EL2 itself,
exactly if several vCPUs are online. -/
theorem leaves_iff {e : El2} (armed : e.currentVmState.multiVcpu = true → e.cnthpArmed = true) :
    (∀ guest : GuestCourse Other, guest.Fires e → guest.Responds e →
      ∃ n last h, runGuest (guest.events n) e = .left last h) ↔ e.currentVmState.multiVcpu = true := by
  constructor
  · intro leaves
    by_contra single
    -- the guest spins: a timer that was still armed fires once and is not armed again
    have resumes : (handleIrqException (fun _ => 0 : Cpu Other) 26 e).resume = true := by
      rw [resume_of_watchdog, Bool.eq_false_iff.mpr single, Bool.not_false]
    have runs (n : ℕ) : ∃ e', runGuest ((GuestCourse.spinning (fun _ => 0 : Cpu Other)).events n) e = .running e' := by
      rcases GuestCourse.events_spinning (fun _ => 0 : Cpu Other) n with none | once
      · rw [none]
        exact ⟨e, rfl⟩
      · rw [once, runGuest, GuestException.handle]
        simp only [resumes, if_true]
        exact ⟨_, rfl⟩
    obtain ⟨n, last, h, left⟩ := leaves (.spinning fun _ => 0) (fun _ => ⟨0, _, rfl⟩) fun n stopped => by
      obtain ⟨e', running⟩ := runs n
      cases running.symm.trans stopped
    obtain ⟨e', running⟩ := runs n
    cases running.symm.trans left
  · intro multi guest fires responds
    obtain ⟨k, cpu, interrupt⟩ := fires (armed multi)
    cases before : runGuest (guest.events k) e with
    | stopped => exact absurd before (responds k)
    | left last h => exact ⟨k, last, h, before⟩
    | running e' =>
        have multi' : e'.currentVmState.multiVcpu = true := by
          rw [(runGuest_eq_running before).control.multiVcpu, multi]
        have leaves : (handleIrqException cpu 26 e').resume = false := by rw [resume_of_watchdog, multi', Bool.not_true]
        refine ⟨k + 1, ⟨cpu, .irq 26⟩, handleIrqException cpu 26 e', ?_⟩
        rw [guest.events_succ interrupt]
        exact runGuest_append_left before rfl leaves []

end Guest

namespace MultiVm

variable {Other : Type} [DecidableEq Other] {m m' : MultiVm}

/-- The states of the loop in `run_multi_vm`. -/
inductive Reached (Other : Type) [DecidableEq Other] : MultiVm → Prop
  | start {s : System} (booted : s.Booted) : Reached Other (.start s)
  | step {m m' : MultiVm} {inputs : Inputs Other} (reached : Reached Other m) (step : m.step inputs = some m') :
      Reached Other m'

theorem settled_markReady {s : System} {u : VmId} (settled : s.Settled u) (v : VmId) : (s.markReady v).Settled u := by
  rw [System.markReady]
  by_cases same : u = v
  · subst same
    obtain ⟨id_eq, current, not_running, registered, terminalExit⟩ := settled
    refine ⟨?_, ?_, ?_, ?_, terminalExit⟩
    all_goals rwa [System.setVm_vms_same]
  · exact settled.of_eq (System.setVm_vms_of_ne same) rfl

theorem Reached.settled (reached : Reached Other m) (v : VmId) : m.sys.Settled v := by
  induction reached generalizing v with
  | start booted => exact System.Started.settled (.multi booted) v
  | @step m m' inputs _ step ih =>
      rw [MultiVm.step] at step
      split_ifs at step with done
      · cases step
        exact ih v
      · obtain ⟨⟨finished, after⟩, turn, rfl⟩ := Option.map_eq_some_iff.mp step
        obtain ⟨label, taken⟩ := System.exists_step_iff.mpr ⟨inputs, finished, turn⟩
        have settled (u : VmId) : after.Settled u := System.Settled.step ih taken u
        cases finished with
        | true => exact settled_markReady (settled v) m.next
        | false => exact settled v

/-- The turn of the VM that is next comes to an end, and the other one has its turn. -/
def TurnEnds (m : MultiVm) (drained : Option (VcpuId → U32)) (guest : GuestCourse Other) : Prop :=
  ∃ n m', m.step ⟨drained, guest.events n⟩ = some m' ∧ m'.next = m.next + 1 ∧ m'.done (m.next + 1) = false

theorem step_of_turn {inputs : Inputs Other} {finished : Bool} {s : System} (waiting : m.done m.next = false)
    (turn : m.sys.turn m.next inputs = some (finished, s)) :
    m.step inputs = some (if finished then ⟨s.markReady m.next, Function.update m.done m.next true, m.next + 1⟩
      else ⟨s, m.done, m.next + 1⟩) := by
  rw [step, waiting, turn]
  rfl

theorem turnEnds_idle {drained : Option (VcpuId → U32)} (guest : GuestCourse Other) {done : Bool} {vm : GuestVm} {e : El2}
    (waiting : m.done m.next = false) (other : m.done (m.next + 1) = false)
    (before : (m.sys.vms m.next).beforeRun drained (m.sys.activate m.next).el2 = some (.idle done vm e)) :
    m.TurnEnds drained guest := by
  have turn : m.sys.turn m.next ⟨drained, guest.events 0⟩ = some (done, m.sys.setVm m.next vm e) := by
    simp [System.turn, GuestVm.runOneIteration, before]
  refine ⟨0, _, step_of_turn waiting turn, ?_⟩
  cases done with
  | false => exact ⟨rfl, other⟩
  | true =>
      refine ⟨rfl, ?_⟩
      have ne : m.next + 1 ≠ m.next := by
        generalize m.next = v
        revert v
        decide
      exact (Function.update_of_ne ne ..).trans other

/-- A turn in which a vCPU is entered ends exactly if a handler leaves the guest. -/
theorem turnEnds_entry {drained : Option (VcpuId → U32)} {guest : GuestCourse Other} {id : VcpuId} {vcpu : GuestVcpu}
    {vm : GuestVm} {e : El2} (waiting : m.done m.next = false) (other : m.done (m.next + 1) = false)
    (before : (m.sys.vms m.next).beforeRun drained (m.sys.activate m.next).el2 = some (.entry id vcpu vm e)) :
    m.TurnEnds drained guest ↔ ∃ n last h, runGuest (guest.events n) e = .left last h := by
  constructor
  · rintro ⟨n, m', ends, -⟩
    rw [step, waiting] at ends
    obtain ⟨⟨finished, after⟩, turn, -⟩ := Option.map_eq_some_iff.mp ends
    refine ⟨n, ?_⟩
    cases run : runGuest (guest.events n) e with
    | left last h => exact ⟨last, h, rfl⟩
    | running e' => simp [System.turn, GuestVm.runOneIteration, before, run] at turn
    | stopped => simp [System.turn, GuestVm.runOneIteration, before, run] at turn
  · rintro ⟨n, last, h, left⟩
    have turn : m.sys.turn m.next ⟨drained, guest.events n⟩ = some (false, m.sys.setVm m.next
        (vm.runVcpu id vcpu last h).1 (vm.runVcpu id vcpu last h).2) := by
      simp [System.turn, GuestVm.runOneIteration, before, left]
    exact ⟨n, _, step_of_turn waiting turn, rfl, other⟩

/-- The VM that is next, what is done, and whether several vCPUs are online in the VM that is entered. -/
def entryOf (m : MultiVm) : Option (VmId × Bool × Bool × Bool) :=
  match (m.sys.vms m.next).beforeRun (some fun _ => 0) (m.sys.activate m.next).el2 with
  | some (.entry _ _ _ e) => some (m.next, m.done 0, m.done 1, (e.vmState m.next).multiVcpu)
  | _ => none

end MultiVm

end Hypervisor
