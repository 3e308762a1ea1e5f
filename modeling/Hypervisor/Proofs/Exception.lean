import Hypervisor.Model.RunLoop

/-! # What an exception can change

Every exception leaves the other VMs alone. In its own VM only a PSCI call reaches the state that
decides which vCPUs exist and run: `CPU_ON` fills the mailbox, the three terminal calls set the flag
of the calling vCPU, and all four leave the guest.
-/

namespace Hypervisor

/-- The two states agree but for pending interrupts and the request to preempt. -/
structure VmGlobalState.SameControl (vs vs' : VmGlobalState) : Prop where
  terminalExit : vs'.terminalExit = vs.terminalExit
  vcpuOnlineMask : vs'.vcpuOnlineMask = vs.vcpuOnlineMask
  currentVcpuId : vs'.currentVcpuId = vs.currentVcpuId
  pendingCpuOn : vs'.pendingCpuOn = vs.pendingCpuOn

namespace VmGlobalState

variable {vs vs' vs'' : VmGlobalState}

theorem SameControl.rfl : SameControl vs vs := ⟨.refl _, .refl _, .refl _, .refl _⟩

theorem SameControl.trans (first : SameControl vs vs') (second : SameControl vs' vs'') : SameControl vs vs'' :=
  ⟨second.terminalExit.trans first.terminalExit, second.vcpuOnlineMask.trans first.vcpuOnlineMask,
    second.currentVcpuId.trans first.currentVcpuId, second.pendingCpuOn.trans first.pendingCpuOn⟩

theorem SameControl.multiVcpu (same : SameControl vs vs') : vs'.multiVcpu = vs.multiVcpu := by
  rw [VmGlobalState.multiVcpu, same.vcpuOnlineMask, VmGlobalState.multiVcpu]

theorem SameControl.isOnline (same : SameControl vs vs') (id : VcpuId) : vs'.isOnline id = vs.isOnline id := by
  rw [VmGlobalState.isOnline, same.vcpuOnlineMask, VmGlobalState.isOnline]

end VmGlobalState

/-- The current VM's state becomes `vs`, and no other VM is touched. -/
structure El2.Sets (e : El2) (vs : VmGlobalState) (e' : El2) : Prop where
  currentVmId : e'.currentVmId = e.currentVmId
  current : e'.currentVmState = vs
  others : ∀ u, u ≠ e.currentVmId → e'.vmState u = e.vmState u
  mpidrEl1 : e'.mpidrEl1 = e.mpidrEl1

/-- Nothing that decides which vCPUs exist and run has changed. -/
def El2.Quiet (e e' : El2) : Prop := ∃ vs, e.currentVmState.SameControl vs ∧ e.Sets vs e'

namespace El2

variable {e e' e'' : El2} {vs vs' : VmGlobalState}

@[simp] theorem currentVmState_setCurrent (e : El2) (vs : VmGlobalState) : (e.setCurrent vs).currentVmState = vs :=
  Function.update_self ..

@[simp] theorem currentVmId_setCurrent (e : El2) (vs : VmGlobalState) :
    (e.setCurrent vs).currentVmId = e.currentVmId := rfl

theorem vmState_setCurrent_of_ne {u : VmId} (other : u ≠ e.currentVmId) :
    (e.setCurrent vs).vmState u = e.vmState u := Function.update_of_ne other ..

theorem Sets.refl (e : El2) : e.Sets e.currentVmState e := ⟨rfl, rfl, fun _ _ => rfl, rfl⟩

theorem Sets.setCurrent (sets : e.Sets vs e') (vs' : VmGlobalState) : e.Sets vs' (e'.setCurrent vs') where
  currentVmId := sets.currentVmId
  current := currentVmState_setCurrent ..
  others u other := by rw [vmState_setCurrent_of_ne (sets.currentVmId ▸ other), sets.others u other]
  mpidrEl1 := sets.mpidrEl1

theorem Sets.trans (first : e.Sets vs e') (second : e'.Sets vs' e'') : e.Sets vs' e'' where
  currentVmId := second.currentVmId.trans first.currentVmId
  current := second.current
  others u other := by
    rw [second.others u (first.currentVmId ▸ other), first.others u other]
  mpidrEl1 := second.mpidrEl1.trans first.mpidrEl1

theorem Sets.quiet (sets : e.Sets e.currentVmState e') : e.Quiet e' := ⟨_, .rfl, sets⟩

theorem Quiet.refl (e : El2) : e.Quiet e := (Sets.refl e).quiet

theorem Quiet.of_vmState (currentVmId : e'.currentVmId = e.currentVmId) (vmState : e'.vmState = e.vmState)
    (mpidrEl1 : e'.mpidrEl1 = e.mpidrEl1) : e.Quiet e' :=
  Sets.quiet ⟨currentVmId, by rw [currentVmState, vmState, currentVmId, currentVmState], fun _ _ => by rw [vmState],
    mpidrEl1⟩

theorem Quiet.trans (first : e.Quiet e') (second : e'.Quiet e'') : e.Quiet e'' := by
  obtain ⟨vs, same, sets⟩ := first
  obtain ⟨vs', same', sets'⟩ := second
  rw [sets.current] at same'
  exact ⟨vs', same.trans same', sets.trans sets'⟩

theorem Quiet.resetExceptionCount (quiet : e.Quiet e') : e.Quiet e'.resetExceptionCount :=
  quiet.trans (.of_vmState rfl rfl rfl)

theorem Quiet.control (quiet : e.Quiet e') : e.currentVmState.SameControl e'.currentVmState := by
  obtain ⟨vs, same, sets⟩ := quiet
  rwa [sets.current]

theorem Quiet.setCurrent (quiet : e.Quiet e') (same : e'.currentVmState.SameControl vs) : e.Quiet (e'.setCurrent vs) := by
  have all := quiet.control.trans same
  obtain ⟨_, -, sets⟩ := quiet
  exact ⟨vs, all, sets.setCurrent vs⟩

end El2

/-! ## PSCI calls -/

def IsCpuOn (fid : U64) : Prop := fid = psciCpuOn32 ∨ fid = psciCpuOn64

def IsSystemCall (fid : U64) : Prop := fid = psciSystemOff ∨ fid = psciSystemReset

def IsTerminal (fid : U64) : Prop := fid = psciCpuOff ∨ IsSystemCall fid

instance (fid : U64) : Decidable (IsCpuOn fid) := inferInstanceAs (Decidable (_ ∨ _))
instance (fid : U64) : Decidable (IsSystemCall fid) := inferInstanceAs (Decidable (_ ∨ _))
instance (fid : U64) : Decidable (IsTerminal fid) := inferInstanceAs (Decidable (_ ∨ _))

theorem IsCpuOn.not_terminal {fid : U64} (on : IsCpuOn fid) : ¬ IsTerminal fid := by
  rcases on with rfl | rfl
  · decide
  · decide

/-- `CPU_ON` answers success and fills the mailbox with x1 to x3. -/
theorem handlePsci_of_cpuOn {fid : U64} (on : IsCpuOn fid) (context : VcpuContext) (vs : VmGlobalState) :
    handlePsci context fid vs = some (false, context.setX 0 psciSuccess,
      { vs with pendingCpuOn := ⟨true, context.gpRegs 1, context.gpRegs 2, context.gpRegs 3⟩ }) := by
  rcases on with rfl | rfl
  · rfl
  · rfl

theorem handlePsci_of_terminal {fid : U64} (terminal : IsTerminal fid) (context : VcpuContext) (vs : VmGlobalState) :
    ∃ context', handlePsci context fid vs = some (false, context', vs.setTerminalExit vs.currentVcpuId true) := by
  rcases terminal with rfl | rfl | rfl
  · exact ⟨_, rfl⟩
  · exact ⟨_, rfl⟩
  · exact ⟨_, rfl⟩

/-- Any other call continues the guest and changes nothing but its registers. -/
theorem handlePsci_of_other {fid : U64} {context context' : VcpuContext} {vs vs' : VmGlobalState} {resume : Bool}
    (notOn : ¬ IsCpuOn fid) (notTerminal : ¬ IsTerminal fid)
    (run : handlePsci context fid vs = some (resume, context', vs')) : resume = true ∧ vs' = vs := by
  obtain ⟨notOff, notSystemOff, notReset⟩ : fid ≠ psciCpuOff ∧ fid ≠ psciSystemOff ∧ fid ≠ psciSystemReset := by
    simpa only [IsTerminal, IsSystemCall, not_or] using notTerminal
  rw [handlePsci, if_neg notOff, if_neg (show ¬ (_ ∨ _) from notOn), if_neg notSystemOff, if_neg notReset] at run
  split_ifs at run with version features affinity
  case pos =>
    cases run
    exact ⟨rfl, rfl⟩
  case pos =>
    cases run
    exact ⟨rfl, rfl⟩
  case pos =>
    obtain ⟨_, -, same⟩ := Option.map_eq_some_iff.mp run
    cases same
    exact ⟨rfl, rfl⟩
  all_goals
    cases run
    exact ⟨rfl, rfl⟩

/-! ## The handlers -/

section Handlers

variable {Other : Type} [DecidableEq Other] {context context' : VcpuContext} {cpu cpu' : Cpu Other} {e e' : El2}

theorem handleRepeatedWfi_quiet (count : U32) : e.Quiet (handleRepeatedWfi count cpu e).2.2 := by
  unfold handleRepeatedWfi
  dsimp only
  split_ifs
  all_goals exact .of_vmState rfl rfl rfl

theorem handleWfi_quiet {go : Bool} (run : handleWfiWithTimerInjection context cpu e = some (go, cpu', e')) :
    e.Quiet e' := by
  rw [handleWfiWithTimerInjection] at run
  split_ifs at run
  · cases run
    exact .of_vmState rfl rfl rfl
  · obtain ⟨count, -, same⟩ := Option.map_eq_some_iff.mp run
    have quiet : e.Quiet (handleRepeatedWfi count cpu e).2.2 := handleRepeatedWfi_quiet count
    rwa [same] at quiet

theorem handleSgiTrap_quiet (value : U64) : e.Quiet (handleSgiTrap value cpu e).2 :=
  (El2.Quiet.refl e).setCurrent ⟨rfl, rfl, rfl, rfl⟩

theorem emulateMsr_quiet (reg : U64 × U64 × U64 × U64 × U64) (value : U64) :
    e.Quiet (emulateMsr reg value cpu e).2 := by
  rw [emulateMsr]
  split_ifs
  · exact handleSgiTrap_quiet value
  · exact .refl e
  · exact .refl e

theorem handleMsrMrsTrap_quiet (esr : U64) : e.Quiet (handleMsrMrsTrap context esr cpu e).2.2 := by
  unfold handleMsrMrsTrap
  dsimp only
  by_cases read : esr &&& 1 = 1
  · rw [if_pos read]
    exact .refl e
  · rw [if_neg read]
    exact emulateMsr_quiet ..

theorem flushPendingSpis_quiet : e.Quiet (flushPendingSpis cpu e).2 :=
  (El2.Quiet.refl e).setCurrent ⟨rfl, rfl, rfl, rfl⟩

theorem handleDataAbort_quiet {reply : Option Reply} {h : Handled Other}
    (run : handleDataAbort context reply cpu e = some h) : e.Quiet h.el2 := by
  obtain ⟨reply, -, run⟩ := Option.bind_eq_some_iff.mp run
  have raised : e.Quiet (e.setCurrent (e.currentVmState.orSpis reply.spis)) :=
    (El2.Quiet.refl e).setCurrent ⟨rfl, rfl, rfl, rfl⟩
  dsimp only at run
  split_ifs at run
  · obtain ⟨context, -, run⟩ := Option.bind_eq_some_iff.mp run
    cases run
    exact raised.resetExceptionCount.trans flushPendingSpis_quiet
  · cases run
    exact raised

theorem handleIrqException_quiet (intid : U32) : e.Quiet (handleIrqException cpu intid e).el2 := by
  unfold handleIrqException
  dsimp only
  split_ifs
  all_goals first
    | exact .of_vmState rfl rfl rfl
    | exact El2.Quiet.setCurrent (.of_vmState rfl rfl rfl) ⟨rfl, rfl, rfl, rfl⟩

end Handlers

/-! ## One exception -/

namespace GuestException

variable {Other : Type} [DecidableEq Other]

/-- The PSCI function that an exception calls, by HVC or by SMC. -/
def psci (x : GuestException Other) : Option U64 :=
  match x.cause with
  | .irq _ => none
  | .sync esr _ =>
      let fid := (saveContext x.cpu).gpRegs 0
      match exitReason esr with
      | .hvcCall => if esr &&& 0xFFFF ≠ jailhouseHvcImmediate ∧ fid &&& 0x80000000 ≠ 0 then some fid else none
      | .smcCall => if isPsciFunction fid then some fid else none
      | _ => none

/-- Argument `n` of a call. -/
def arg (x : GuestException Other) (n : Fin 31) : U64 := (saveContext x.cpu).gpRegs n

/-- What a PSCI call comes to: the handler's answer, with the exception counter reset. An SMC returns
behind the instruction. -/
theorem handle_of_psci {x : GuestException Other} {fid : U64} {e : El2} {h : Handled Other} (call : x.psci = some fid)
    (run : x.handle e = some h) :
    ∃ context vs, handlePsci (saveContext x.cpu) fid e.currentVmState = some (h.resume, context, vs) ∧
      h.context.gpRegs = context.gpRegs ∧ e.Sets vs h.el2 := by
  obtain ⟨cpu, cause⟩ := x
  cases cause with
  | irq intid => cases call
  | sync esr reply =>
      obtain ⟨count, -, run⟩ := Option.bind_eq_some_iff.mp run
      have counted : e.Sets e.currentVmState ({ e with exceptionCount := count }.resetExceptionCount) :=
        ⟨rfl, rfl, fun _ _ => rfl, rfl⟩
      split_ifs at run
      rw [dispatchException] at run
      rw [psci] at call
      cases reason : exitReason esr with
      | hvcCall =>
          simp only [reason] at run call
          split_ifs at call with standard
          cases call
          obtain ⟨⟨resume, context, vs⟩, ran, rfl⟩ := Option.map_eq_some_iff.mp run
          rw [handleHypercall, if_neg standard.1, if_pos standard.2] at ran
          exact ⟨context, vs, ran, rfl, counted.setCurrent vs⟩
      | smcCall =>
          simp only [reason] at run call
          split_ifs at call with standard
          cases call
          obtain ⟨⟨resume, context, vs⟩, ran, run⟩ := Option.bind_eq_some_iff.mp run
          obtain ⟨advanced, adv, rfl⟩ := Option.map_eq_some_iff.mp run
          obtain ⟨pc, -, rfl⟩ := Option.map_eq_some_iff.mp adv
          rw [handleSmc, if_pos standard] at ran
          exact ⟨context, vs, ran, rfl, counted.setCurrent vs⟩
      | _ => simp only [reason, reduceCtorEq] at call

/-- A hypercall that is no PSCI call does not reach the shared state. -/
theorem handleHypercall_vs {context context' : VcpuContext} {esr : U64} {reply : Option Reply} {vs vs' : VmGlobalState}
    {resume : Bool} (other : ¬ (esr &&& 0xFFFF ≠ jailhouseHvcImmediate ∧ context.gpRegs 0 &&& 0x80000000 ≠ 0))
    (run : handleHypercall context esr reply vs = some (resume, context', vs')) : vs' = vs := by
  unfold handleHypercall at run
  dsimp only at run
  split_ifs at run with jailhouse standard
  · obtain ⟨_, -, same⟩ := Option.map_eq_some_iff.mp run
    cases same
    rfl
  · exact absurd ⟨jailhouse, standard⟩ other
  all_goals
    cases run
    rfl

theorem handleSmc_vs {context context' : VcpuContext} {reply : Option Reply} {vs vs' : VmGlobalState}
    {resume : Bool} (other : ¬ isPsciFunction (context.gpRegs 0))
    (run : handleSmc context reply vs = some (resume, context', vs')) : vs' = vs := by
  unfold handleSmc at run
  dsimp only at run
  rw [if_neg other] at run
  split_ifs at run
  all_goals
    obtain ⟨_, -, same⟩ := Option.map_eq_some_iff.mp run
    cases same
    rfl

/-- An exception that is no PSCI call leaves the shared state alone, but for pending interrupts and
the request to preempt. -/
theorem handle_of_psci_eq_none {x : GuestException Other} {e : El2} {h : Handled Other} (none : x.psci = none)
    (run : x.handle e = some h) : e.Quiet h.el2 := by
  obtain ⟨cpu, cause⟩ := x
  cases cause with
  | irq intid =>
      cases run
      exact handleIrqException_quiet intid
  | sync esr reply =>
      obtain ⟨count, -, run⟩ := Option.bind_eq_some_iff.mp run
      have counted : e.Quiet { e with exceptionCount := count } := .of_vmState rfl rfl rfl
      split_ifs at run
      rw [dispatchException] at run
      rw [psci] at none
      cases reason : exitReason esr with
      | hvcCall =>
          simp only [reason] at run none
          split_ifs at none with standard
          obtain ⟨⟨resume, context, vs⟩, ran, rfl⟩ := Option.map_eq_some_iff.mp run
          cases handleHypercall_vs standard ran
          exact counted.resetExceptionCount.setCurrent .rfl
      | smcCall =>
          simp only [reason] at run none
          split_ifs at none with standard
          obtain ⟨⟨resume, context, vs⟩, ran, run⟩ := Option.bind_eq_some_iff.mp run
          obtain ⟨_, -, rfl⟩ := Option.map_eq_some_iff.mp run
          cases handleSmc_vs standard ran
          exact counted.resetExceptionCount.setCurrent .rfl
      | wfiWfe =>
          simp only [reason] at run
          obtain ⟨⟨inject, cpu, e'⟩, ran, run⟩ := Option.bind_eq_some_iff.mp run
          have quiet := counted.resetExceptionCount.trans (handleWfi_quiet ran)
          dsimp only at run
          split_ifs at run
          · obtain ⟨_, -, rfl⟩ := Option.map_eq_some_iff.mp run
            exact quiet
          · obtain ⟨_, -, rfl⟩ := Option.map_eq_some_iff.mp run
            exact quiet
          · cases run
            exact quiet
      | trapMsrMrs =>
          simp only [reason] at run
          obtain ⟨_, -, rfl⟩ := Option.map_eq_some_iff.mp run
          exact counted.resetExceptionCount.trans (handleMsrMrsTrap_quiet esr)
      | dataAbort =>
          simp only [reason] at run
          exact counted.trans (handleDataAbort_quiet run)
      | other ec =>
          simp only [reason, exitOther] at run
          split_ifs at run
          · obtain ⟨_, -, rfl⟩ := Option.map_eq_some_iff.mp run
            exact counted
          · cases run
            exact counted
      | instructionAbort =>
          simp only [reason] at run
          cases run
          exact counted
      | unknown =>
          simp only [reason] at run
          cases run
          exact counted

/-- All that handling an exception can come to. -/
inductive Outcome (x : GuestException Other) (e : El2) (h : Handled Other) : Prop
  | quiet (quiet : e.Quiet h.el2) (other : ∀ fid, x.psci = some fid → ¬ IsCpuOn fid ∧ ¬ IsTerminal fid)
  | cpuOn {fid : U64} (call : x.psci = some fid) (on : IsCpuOn fid) (left : h.resume = false)
      (success : h.context.gpRegs 0 = psciSuccess)
      (sets : e.Sets { e.currentVmState with pendingCpuOn := ⟨true, x.arg 1, x.arg 2, x.arg 3⟩ } h.el2)
  | terminal {fid : U64} (call : x.psci = some fid) (terminal : IsTerminal fid) (left : h.resume = false)
      (sets : e.Sets (e.currentVmState.setTerminalExit e.currentVmState.currentVcpuId true) h.el2)

variable {x : GuestException Other} {e : El2} {h : Handled Other}

theorem handle_outcome (run : x.handle e = some h) : x.Outcome e h := by
  cases call : x.psci with
  | none => exact .quiet (handle_of_psci_eq_none call run) (by rw [call]; rintro _ ⟨⟩)
  | some fid =>
      obtain ⟨context, vs, answer, regs, sets⟩ := handle_of_psci call run
      by_cases on : IsCpuOn fid
      · rw [handlePsci_of_cpuOn on, Option.some.injEq, Prod.mk.injEq, Prod.mk.injEq] at answer
        obtain ⟨left, rfl, rfl⟩ := answer
        exact .cpuOn call on left.symm (by rw [regs, VcpuContext.setX_same]) sets
      by_cases terminal : IsTerminal fid
      · obtain ⟨context', same⟩ := handlePsci_of_terminal terminal (saveContext x.cpu) e.currentVmState
        rw [same, Option.some.injEq, Prod.mk.injEq, Prod.mk.injEq] at answer
        obtain ⟨left, -, rfl⟩ := answer
        exact .terminal call terminal left.symm sets
      · obtain ⟨-, rfl⟩ := handlePsci_of_other on terminal answer
        refine .quiet sets.quiet fun fid' call' => ?_
        cases call.symm.trans call'
        exact ⟨on, terminal⟩

omit [DecidableEq Other] in
/-- A PSCI call is not reported as a WFI. -/
theorem result_of_psci {fid : U64} (call : x.psci = some fid) : x.result = .ok := by
  obtain ⟨cpu, cause⟩ := x
  cases cause with
  | irq intid => rfl
  | sync esr reply =>
      refine if_neg fun wfi => ?_
      have reason : exitReason esr = .wfiWfe := by rw [exitReason, wfi]; rfl
      rw [psci] at call
      simp only [reason, reduceCtorEq] at call

/-- An exception after which the guest continues is a quiet one. -/
theorem quiet_of_resume (run : x.handle e = some h) (resume : h.resume = true) : e.Quiet h.el2 := by
  cases handle_outcome run with
  | quiet quiet => exact quiet
  | cpuOn _ _ left => cases resume.symm.trans left
  | terminal _ _ left => cases resume.symm.trans left

/-- A `CPU_ON` call leaves the guest. -/
theorem leaves_of_cpuOn {fid : U64} (call : x.psci = some fid) (on : IsCpuOn fid) (run : x.handle e = some h) :
    h.resume = false := by
  cases handle_outcome run with
  | quiet _ other => exact absurd on (other fid call).1
  | cpuOn _ _ left => exact left
  | terminal _ _ left => exact left

end GuestException

/-! ## A whole stay in the guest -/

section RunGuest

variable {Other : Type} [DecidableEq Other]

theorem runGuest_cons {first : GuestException Other} {rest : List (GuestException Other)} {e : El2}
    (responds : runGuest (first :: rest) e ≠ .stopped) : ∃ done, first.handle e = some done ∧
      runGuest (first :: rest) e = if done.resume then runGuest rest done.el2 else .left first done := by
  rw [runGuest] at responds ⊢
  cases handled : first.handle e with
  | none =>
      rw [handled] at responds
      exact absurd rfl responds
  | some done => exact ⟨done, rfl, rfl⟩

/-- Everything before the exception that leaves the guest is quiet. -/
theorem runGuest_eq_left {events : List (GuestException Other)} {e : El2} {x : GuestException Other} {h : Handled Other}
    (run : runGuest events e = .left x h) : ∃ e', e.Quiet e' ∧ x.handle e' = some h := by
  induction events generalizing e with
  | nil => cases run
  | cons first rest ih =>
      obtain ⟨done, handled, step⟩ := runGuest_cons (by rw [run]; rintro ⟨⟩)
      rw [step] at run
      split_ifs at run with resume
      · obtain ⟨e', quiet, last⟩ := ih run
        exact ⟨e', (GuestException.quiet_of_resume handled resume).trans quiet, last⟩
      · cases run
        exact ⟨e, .refl e, handled⟩

/-- All that can lead out of a guest that was entered with EL2 in state `e`. -/
inductive LeftBy (e : El2) (x : GuestException Other) (h : Handled Other) : Prop
  | quiet (quiet : e.Quiet h.el2) (other : ∀ fid, x.psci = some fid → ¬ IsCpuOn fid ∧ ¬ IsTerminal fid)
  | cpuOn {fid : U64} {vs : VmGlobalState} (call : x.psci = some fid) (on : IsCpuOn fid)
      (success : h.context.gpRegs 0 = psciSuccess) (same : e.currentVmState.SameControl vs)
      (sets : e.Sets { vs with pendingCpuOn := ⟨true, x.arg 1, x.arg 2, x.arg 3⟩ } h.el2)
  | terminal {fid : U64} {vs : VmGlobalState} (call : x.psci = some fid) (terminal : IsTerminal fid)
      (same : e.currentVmState.SameControl vs)
      (sets : e.Sets (vs.setTerminalExit vs.currentVcpuId true) h.el2)

theorem leftBy_of_runGuest {events : List (GuestException Other)} {e : El2} {x : GuestException Other}
    {h : Handled Other} (run : runGuest events e = .left x h) : LeftBy e x h := by
  obtain ⟨e', quiet, handled⟩ := runGuest_eq_left run
  have same := quiet.control
  obtain ⟨_, -, sets⟩ := quiet
  cases GuestException.handle_outcome handled with
  | quiet last other => exact .quiet (.trans ⟨_, sets.current ▸ same, sets⟩ last) other
  | cpuOn call on _ success last => exact .cpuOn call on success same (sets.trans last)
  | terminal call terminal _ last => exact .terminal call terminal same (sets.trans last)

/-- A guest that is still running has only taken quiet exceptions. -/
theorem runGuest_eq_running {events : List (GuestException Other)} {e e' : El2} (run : runGuest events e = .running e') :
    e.Quiet e' := by
  induction events generalizing e with
  | nil =>
      cases run
      exact .refl _
  | cons first rest ih =>
      obtain ⟨done, handled, step⟩ := runGuest_cons (by rw [run]; rintro ⟨⟩)
      rw [step] at run
      split_ifs at run with resume
      exact (GuestException.quiet_of_resume handled resume).trans (ih run)

/-- What comes after some exceptions that the guest survives. -/
theorem runGuest_append {before : List (GuestException Other)} {e e' : El2} (run : runGuest before e = .running e')
    (after : List (GuestException Other)) : runGuest (before ++ after) e = runGuest after e' := by
  induction before generalizing e with
  | nil =>
      cases run
      rfl
  | cons first rest ih =>
      obtain ⟨done, handled, step⟩ := runGuest_cons (by rw [run]; rintro ⟨⟩)
      rw [step] at run
      split_ifs at run with resume
      rw [List.cons_append, runGuest, handled, ← ih run]
      exact if_pos resume

/-- An exception that leaves the guest ends its stay, whatever would have come after it. -/
theorem runGuest_append_left {before : List (GuestException Other)} {e e' : El2} {x : GuestException Other}
    {h : Handled Other} (alive : runGuest before e = .running e') (handled : x.handle e' = some h)
    (leaves : h.resume = false) (rest : List (GuestException Other)) : runGuest (before ++ x :: rest) e = .left x h := by
  rw [runGuest_append alive, runGuest, handled]
  simp [leaves]

end RunGuest

end Hypervisor
