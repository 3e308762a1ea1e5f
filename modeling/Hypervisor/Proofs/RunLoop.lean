import Hypervisor.Proofs.Exception
import Hypervisor.Proofs.Scheduler
import Hypervisor.ToMathlib.Mask

/-! # What an iteration of the run loop does

The steps of `run_one_iteration` one by one: taking a `CPU_ON` request, entering a vCPU, and putting it
back. An iteration of one VM does not touch any other.
-/

namespace Hypervisor

namespace VmGlobalState

variable {vs : VmGlobalState} {id t : VcpuId}

theorem isOnline_iff : vs.isOnline id = true ↔ vs.vcpuOnlineMask.getLsbD id.val = true := by
  rw [isOnline, bne_iff_ne, ne_eq, BitVec.and_one_shiftLeft_eq_zero_iff _ (id.isLt.trans (by decide)),
    Bool.not_eq_false]

theorem isOnline_setOnline : (vs.setOnline id).isOnline t = true ↔ id = t ∨ vs.isOnline t = true := by
  have bound : t.val < 64 := t.isLt.trans (by decide)
  have bit : ((1 : U64) <<< id.val).getLsbD t.val = decide (id.val = t.val) := by
    change (BitVec.twoPow 64 id.val).getLsbD t.val = _
    simp [bound, eq_comm]
  rw [isOnline_iff, isOnline_iff, setOnline, BitVec.getLsbD_or, bit, Bool.or_eq_true, decide_eq_true_iff, Fin.val_inj,
    or_comm]

end VmGlobalState

namespace El2

variable {e : El2} {v u : VmId} {vs : VmGlobalState}

@[simp] theorem vmState_setVmState : (e.setVmState v vs).vmState v = vs := Function.update_self ..

theorem vmState_setVmState_of_ne (other : u ≠ v) : (e.setVmState v vs).vmState u = e.vmState u :=
  Function.update_of_ne other ..

@[simp] theorem currentVmId_setVmState : (e.setVmState v vs).currentVmId = e.currentVmId := rfl

@[simp] theorem vmState_resetExceptionCounters : e.resetExceptionCounters.vmState = e.vmState := rfl

@[simp] theorem currentVmId_resetExceptionCounters : e.resetExceptionCounters.currentVmId = e.currentVmId := rfl

@[simp] theorem setVmState_setVmState (vs' : VmGlobalState) :
    (e.setVmState v vs).setVmState v vs' = e.setVmState v vs' := by
  rw [setVmState, setVmState, Function.update_idem, setVmState]

theorem setVmState_self (same : e.vmState v = vs) : e.setVmState v vs = e := by
  rw [setVmState, ← same, Function.update_eq_self]

theorem setCurrent_eq (current : e.currentVmId = v) : e.setCurrent vs = e.setVmState v vs := by rw [setCurrent, current]

theorem currentVmState_eq (current : e.currentVmId = v) : e.currentVmState = e.vmState v := by
  rw [currentVmState, current]

end El2

/-- A secondary vCPU starts where it was told to, with its context identifier. -/
theorem GuestVcpu.secondary_starts (mpidrEl1 : U64) (id : VcpuId) (entry ctxId : U64) :
    (secondary mpidrEl1 id entry ctxId).context.pc = entry ∧
      (secondary mpidrEl1 id entry ctxId).context.gpRegs 0 = ctxId :=
  ⟨rfl, by simp [secondary]⟩

namespace GuestVm

variable {vm vm' : GuestVm} {e e' : El2} {id t : VcpuId}

/-! ## Taking a request -/

theorem takeCpuOn_of_not_requested (idle : (e.vmState vm.id).pendingCpuOn.requested = false) :
    vm.takeCpuOn e = (vm, e) := by
  have take : (e.vmState vm.id).pendingCpuOn.take = (none, (e.vmState vm.id).pendingCpuOn) := by
    rw [PendingCpuOn.take, idle]
    rfl
  simp only [takeCpuOn, take]
  rw [El2.setVmState_self rfl]

/-- EL2 once a request has been taken. -/
def cleared (vm : GuestVm) (e : El2) : El2 :=
  let vs := e.vmState vm.id
  e.setVmState vm.id { vs with pendingCpuOn := { vs.pendingCpuOn with requested := false } }

theorem takeCpuOn_of_requested (requested : (e.vmState vm.id).pendingCpuOn.requested = true) :
    vm.takeCpuOn e =
      let request := (e.vmState vm.id).pendingCpuOn
      let vcpuId := (request.targetCpu &&& 0xFF).toNat
      if bound : vcpuId < maxVcpus then
        if (vm.vcpus ⟨vcpuId, bound⟩).isNone then
          vm.bootSecondaryVcpu ⟨vcpuId, bound⟩ request.entryPoint request.contextId (vm.cleared e)
        else (vm, vm.cleared e)
      else (vm, vm.cleared e) := by
  have take : (e.vmState vm.id).pendingCpuOn.take =
      (some ((e.vmState vm.id).pendingCpuOn.targetCpu, (e.vmState vm.id).pendingCpuOn.entryPoint,
        (e.vmState vm.id).pendingCpuOn.contextId), { (e.vmState vm.id).pendingCpuOn with requested := false }) := by
    rw [PendingCpuOn.take, if_pos requested]
  simp only [takeCpuOn, take]
  rfl

/-- The slot that a pending request names. -/
def Names (vm : GuestVm) (e : El2) (t : VcpuId) : Prop :=
  ((e.vmState vm.id).pendingCpuOn.targetCpu &&& 0xFF).toNat = t.val

/-- All that taking a request can come to. -/
inductive Took (vm : GuestVm) (e : El2) : GuestVm → El2 → Prop
  | nothing (idle : (e.vmState vm.id).pendingCpuOn.requested = false) : Took vm e vm e
  | dropped (occupied : ∀ t, vm.Names e t → vm.vcpus t ≠ none) : Took vm e vm (vm.cleared e)
  | booted (t : VcpuId) (names : vm.Names e t) (free : vm.vcpus t = none)
      (requested : (e.vmState vm.id).pendingCpuOn.requested = true) :
      Took vm e
        (vm.bootSecondaryVcpu t (e.vmState vm.id).pendingCpuOn.entryPoint (e.vmState vm.id).pendingCpuOn.contextId
          (vm.cleared e)).1
        (vm.bootSecondaryVcpu t (e.vmState vm.id).pendingCpuOn.entryPoint (e.vmState vm.id).pendingCpuOn.contextId
          (vm.cleared e)).2

theorem took_takeCpuOn (vm : GuestVm) (e : El2) : Took vm e (vm.takeCpuOn e).1 (vm.takeCpuOn e).2 := by
  cases requested : (e.vmState vm.id).pendingCpuOn.requested with
  | false =>
      rw [takeCpuOn_of_not_requested requested]
      exact .nothing requested
  | true =>
      rw [takeCpuOn_of_requested requested]
      dsimp only
      split_ifs with bound free
      · exact .booted _ rfl (Option.isNone_iff_eq_none.mp free) requested
      · refine .dropped fun t names none => free (Option.isNone_iff_eq_none.mpr ?_)
        obtain rfl : (⟨_, bound⟩ : VcpuId) = t := Fin.ext names
        exact none
      · exact .dropped fun t names _ => bound (names ▸ t.isLt)

/-- A slot that is written has a vCPU, and the others keep theirs. -/
theorem update_ne_none {vcpus : VcpuId → Option GuestVcpu} {vcpu : GuestVcpu} (there : t ≠ id → vcpus t ≠ none) :
    Function.update vcpus id (some vcpu) t ≠ none := by
  rw [Function.update_apply]
  split_ifs with same
  · exact Option.some_ne_none vcpu
  · exact there same

section Booted

variable (vm : GuestVm) (t : VcpuId) (entry ctxId : U64) (e : El2)

@[simp] theorem bootSecondaryVcpu_vcpus :
    (vm.bootSecondaryVcpu t entry ctxId e).1.vcpus =
      Function.update vm.vcpus t (some (.secondary e.mpidrEl1 t entry ctxId)) := rfl

@[simp] theorem bootSecondaryVcpu_scheduler :
    (vm.bootSecondaryVcpu t entry ctxId e).1.scheduler = vm.scheduler.setState t .ready := Scheduler.addVcpu_coe ..

@[simp] theorem bootSecondaryVcpu_id : (vm.bootSecondaryVcpu t entry ctxId e).1.id = vm.id := rfl

@[simp] theorem bootSecondaryVcpu_vmState :
    (vm.bootSecondaryVcpu t entry ctxId e).2.vmState = Function.update e.vmState vm.id ((e.vmState vm.id).setOnline t) :=
  rfl

@[simp] theorem bootSecondaryVcpu_currentVmId : (vm.bootSecondaryVcpu t entry ctxId e).2.currentVmId = e.currentVmId := rfl

@[simp] theorem cleared_currentVmId : (vm.cleared e).currentVmId = e.currentVmId := rfl

@[simp] theorem cleared_vmState :
    (vm.cleared e).vmState vm.id =
      { e.vmState vm.id with pendingCpuOn := { (e.vmState vm.id).pendingCpuOn with requested := false } } :=
  El2.vmState_setVmState

end Booted

namespace Took

variable (took : Took vm e vm' e')

include took

theorem id_eq : vm'.id = vm.id := by cases took <;> rfl

theorem currentVmId : e'.currentVmId = e.currentVmId := by cases took <;> rfl

theorem others {u : VmId} (other : u ≠ vm.id) : e'.vmState u = e.vmState u := by
  cases took with
  | nothing => rfl
  | dropped => exact El2.vmState_setVmState_of_ne other
  | booted =>
      rw [bootSecondaryVcpu_vmState, Function.update_of_ne other]
      exact El2.vmState_setVmState_of_ne other

/-- Nothing is pending any more. -/
theorem requested : (e'.vmState vm.id).pendingCpuOn.requested = false := by
  cases took with
  | nothing idle => exact idle
  | dropped => rw [cleared_vmState]
  | booted => rw [bootSecondaryVcpu_vmState, Function.update_self, VmGlobalState.setOnline, cleared_vmState]

theorem terminalExit : (e'.vmState vm.id).terminalExit = (e.vmState vm.id).terminalExit := by
  cases took with
  | nothing => rfl
  | dropped => rw [cleared_vmState]
  | booted => rw [bootSecondaryVcpu_vmState, Function.update_self, VmGlobalState.setOnline, cleared_vmState]

theorem current : vm'.scheduler.current = vm.scheduler.current := by
  cases took with
  | nothing => rfl
  | dropped => rfl
  | booted => rw [bootSecondaryVcpu_scheduler, Scheduler.setState_current]

/-- A vCPU that was not there before is ready. -/
theorem states (t : VcpuId) : vm'.scheduler.states t = vm.scheduler.states t ∨
    vm'.scheduler.states t = .ready ∧ vm'.vcpus t ≠ none := by
  cases took with
  | nothing => exact .inl rfl
  | dropped => exact .inl rfl
  | booted t' =>
      rw [bootSecondaryVcpu_scheduler, bootSecondaryVcpu_vcpus, Scheduler.setState_states]
      by_cases same : t = t'
      · subst same
        rw [Function.update_self, Function.update_self]
        exact .inr ⟨rfl, Option.some_ne_none _⟩
      · rw [Function.update_of_ne same]
        exact .inl rfl

/-- A vCPU that was there before still is. -/
theorem vcpus_ne_none {t : VcpuId} (there : vm.vcpus t ≠ none) : vm'.vcpus t ≠ none := by
  cases took with
  | nothing => exact there
  | dropped => exact there
  | booted t' =>
      rw [bootSecondaryVcpu_vcpus]
      exact update_ne_none fun _ => there

/-- Without a request nothing changes. -/
theorem eq_of_not_requested (idle : (e.vmState vm.id).pendingCpuOn.requested = false) : vm' = vm ∧ e' = e := by
  cases took with
  | nothing => exact ⟨rfl, rfl⟩
  | dropped =>
      refine ⟨rfl, El2.setVmState_self ?_⟩
      rw [← idle]
  | booted _ _ _ requested => cases requested.symm.trans idle

end Took

/-! ## Entering a vCPU -/

/-- What is left of the state after a request has been taken, when vCPU `id` is about to run. -/
structure Entered (vm : GuestVm) (e : El2) (id : VcpuId) (vcpu : GuestVcpu) (vm' : GuestVm) (e' : El2) : Prop where
  id_eq : vm'.id = vm.id
  vcpus : vm'.vcpus = vm.vcpus
  /-- The vCPU runs with the registers it was left with, but for its list registers. -/
  vcpu : ∃ saved, vm.vcpus id = some saved ∧ vcpu.id = saved.id ∧ vcpu.context = saved.context
  current : vm'.scheduler.current = some id
  /-- Blocked vCPUs may have become ready. -/
  states : ∀ t, t ≠ id → vm'.scheduler.states t = vm.scheduler.states t ∨
    vm.scheduler.states t = .blocked ∧ vm'.scheduler.states t = .ready
  running : vm'.scheduler.states id = .running
  registered : vm.scheduler.states id ≠ .none
  currentVmId : e'.currentVmId = e.currentVmId
  others : ∀ u, u ≠ vm.id → e'.vmState u = e.vmState u
  control : VmGlobalState.SameControl { e.vmState vm.id with currentVcpuId := id } (e'.vmState vm.id)
  armed : e'.cnthpArmed = ((e'.vmState vm.id).multiVcpu || e.cnthpArmed)

theorem injectPendingInterrupts_control (id : VcpuId) (vcpu : Vcpu) (vs : VmGlobalState) :
    vs.SameControl (injectPendingInterrupts id vcpu vs).2 ∧
      (injectPendingInterrupts id vcpu vs).1.context = vcpu.context :=
  ⟨⟨rfl, rfl, rfl, rfl⟩, rfl⟩

section Arm

variable (v : VmId) (e : El2)

@[simp] theorem armPreemptionTimer_vmState : (armPreemptionTimer v e).vmState = e.vmState := by
  rw [armPreemptionTimer]
  split_ifs <;> rfl

@[simp] theorem armPreemptionTimer_currentVmId : (armPreemptionTimer v e).currentVmId = e.currentVmId := by
  rw [armPreemptionTimer]
  split_ifs <;> rfl

theorem armPreemptionTimer_cnthpArmed :
    (armPreemptionTimer v e).cnthpArmed = ((e.vmState v).multiVcpu || e.cnthpArmed) := by
  rw [armPreemptionTimer]
  split_ifs with multi
  · rw [multi, Bool.true_or]
  · rw [Bool.eq_false_iff.mpr multi, Bool.false_or]

end Arm

/-- All writes before an entry go to the VM that is being entered. -/
theorem prepareEntry_el2 {v : VmId} (current : e.currentVmId = v) (id : VcpuId) (spis : VcpuId → U32) (vcpu : GuestVcpu) :
    ∃ vs, VmGlobalState.SameControl { e.vmState v with currentVcpuId := id } vs ∧
      (prepareEntry v id spis vcpu e).2 = armPreemptionTimer v (e.setVmState v vs) := by
  refine ⟨_, ?_, by
    rw [prepareEntry]
    simp only [El2.setCurrent_eq (v := v) (e := El2.setVmState _ _ _) current,
      El2.currentVmState_eq (v := v) (e := El2.setVmState _ _ _) current, El2.setVmState_setVmState]
    rfl⟩
  refine .trans ?_ (injectPendingInterrupts_control _ _ _).1
  rw [El2.vmState_setVmState, El2.vmState_setVmState]
  exact ⟨rfl, rfl, rfl, rfl⟩

/-- An interrupt is pending for a vCPU that exists. -/
def hasPending (vm : GuestVm) (vs : VmGlobalState) (t : VcpuId) : Bool :=
  (vm.vcpus t).isSome && (vs.pendingSgis t != 0 || vs.pendingSpis t != 0)

theorem wakePendingVcpus_eq (vm : GuestVm) (vs : VmGlobalState) :
    vm.wakePendingVcpus vs = { vm with scheduler := unblockAll (vm.hasPending vs) vm.scheduler } := rfl

/-- A vCPU that the next search finds. -/
def Runnable (vm : GuestVm) (vs : VmGlobalState) (t : VcpuId) : Prop :=
  vm.scheduler.states t = .ready ∨ vm.hasPending vs t = true ∧ vm.scheduler.states t = .blocked

/-- The vCPUs that are ready once those with pending interrupts have been woken. -/
theorem wakePendingVcpus_ready {vs : VmGlobalState} :
    (vm.wakePendingVcpus vs).scheduler.states t = .ready ↔ vm.Runnable vs t := by
  rw [wakePendingVcpus_eq, unblockAll_states, Runnable]
  split_ifs with woken
  · exact iff_of_true rfl (.inr woken)
  · exact ⟨.inl, fun runnable => runnable.resolve_right woken⟩

theorem unblockAll_states_or (test : VcpuId → Bool) (s : Scheduler) (t : VcpuId) :
    (unblockAll test s).states t = s.states t ∨ s.states t = .blocked ∧ (unblockAll test s).states t = .ready := by
  rw [unblockAll_states]
  split_ifs with blocked
  · exact .inr ⟨blocked.2, rfl⟩
  · exact .inl rfl

/-- What is left of the state after a request has been taken, when no vCPU is ready. -/
structure Idled (vm : GuestVm) (e : El2) (done : Bool) (vm' : GuestVm) (e' : El2) : Prop where
  el2 : e' = e
  id_eq : vm'.id = vm.id
  vcpus : vm'.vcpus = vm.vcpus
  current : vm'.scheduler.current = vm.scheduler.current
  states : ∀ t, vm'.scheduler.states t = vm.scheduler.states t ∨
    vm.scheduler.states t = .blocked ∧ vm'.scheduler.states t = .ready
  not_runnable : ∀ t, ¬ vm.Runnable (e.vmState vm.id) t
  done_iff : done = true ↔ ∀ t, vm.isUp (e.vmState vm.id) t = false

/-- The scheduler when vCPU `id` has been picked, from what it was before the wake-ups. -/
theorem states_of_pick {vs : VmGlobalState} {s : Scheduler}
    (pick : (vm.wakePendingVcpus vs).scheduler.pickNext = (some id, s)) :
    s.current = some id ∧ s.states id = .running ∧ vm.scheduler.states id ≠ .none ∧
      ∀ t, t ≠ id → s.states t = vm.scheduler.states t ∨ vm.scheduler.states t = .blocked ∧ s.states t = .ready := by
  obtain ⟨before, states, now⟩ := Scheduler.pickNext_eq_some pick
  refine ⟨now, by rw [states, Function.update_self], fun none => ?_, fun t other => ?_⟩
  · have unregistered := (unblockAll_states_eq_none (vm.hasPending vs) vm.scheduler id).mpr none
    rw [wakePendingVcpus_eq, unregistered] at before
    simp at before
  · rw [states, Function.update_of_ne other]
    exact unblockAll_states_or ..

/-- All that an iteration can come to before guest code runs. -/
theorem beforeRun_eq_some {drained : Option (VcpuId → U32)} {turn : Turn} (current : e.currentVmId = vm.id)
    (run : vm.beforeRun drained e = some turn) :
    (∃ id vcpu vm' e', turn = .entry id vcpu vm' e' ∧
      Entered (vm.takeCpuOn e).1 (vm.takeCpuOn e).2 id vcpu vm' e') ∨
    ∃ done vm' e', turn = .idle done vm' e' ∧ Idled (vm.takeCpuOn e).1 (vm.takeCpuOn e).2 done vm' e' := by
  have took := took_takeCpuOn vm e
  have current' : (vm.takeCpuOn e).2.currentVmId = (vm.takeCpuOn e).1.id := by
    rw [took.currentVmId, took.id_eq, current]
  unfold beforeRun at run
  generalize vm.takeCpuOn e = after at *
  obtain ⟨vm₁, e₁⟩ := after
  dsimp only at *
  clear took
  rcases pick : (vm₁.wakePendingVcpus (e₁.vmState vm₁.id)).scheduler.pickNext with ⟨_ | id, s⟩
  · right
    rw [pick] at run
    obtain ⟨rfl, none⟩ := Scheduler.pickNext_eq_none pick
    refine ⟨_, _, _, (Option.some.inj run).symm, ?_⟩
    exact {
      el2 := rfl
      id_eq := rfl
      vcpus := rfl
      current := by rw [unblockAll_current, wakePendingVcpus_eq, unblockAll_current]
      states := fun t => by
        rcases unblockAll_states_or (vm₁.hasPending (e₁.vmState vm₁.id)) vm₁.scheduler t with same | woken
        · have second := unblockAll_states_or ((vm₁.wakePendingVcpus (e₁.vmState vm₁.id)).isUp (e₁.vmState vm₁.id))
            (vm₁.wakePendingVcpus (e₁.vmState vm₁.id)).scheduler t
          rw [wakePendingVcpus_eq, same] at second
          exact second
        · exact absurd woken.2 (none t)
      not_runnable := fun t runnable => none t (wakePendingVcpus_ready.mpr runnable)
      done_iff := by
        rw [Bool.not_eq_true', List.any_eq_false]
        exact ⟨fun all t => Bool.eq_false_iff.mpr (all t (List.mem_finRange t)),
          fun all t _ => Bool.eq_false_iff.mp (all t)⟩ }
  · left
    rw [pick] at run
    obtain ⟨now, running, registered, states⟩ := states_of_pick pick
    obtain ⟨spis, -, run⟩ := Option.bind_eq_some_iff.mp run
    obtain ⟨saved, there, rfl⟩ := Option.map_eq_some_iff.mp run
    obtain ⟨vs, control, entered⟩ := prepareEntry_el2 current' id spis saved
    refine ⟨id, _, _, _, rfl, ?_⟩
    exact {
      id_eq := rfl
      vcpus := rfl
      vcpu := ⟨saved, there, rfl, rfl⟩
      current := now
      states := states
      running := running
      registered := registered
      currentVmId := by
        rw [wakePendingVcpus_eq, entered]
        simp
      others := fun u other => by
        rw [wakePendingVcpus_eq, entered]
        simpa using El2.vmState_setVmState_of_ne other
      control := by
        rw [wakePendingVcpus_eq, entered]
        simpa using control
      armed := by
        rw [wakePendingVcpus_eq, entered]
        simp [armPreemptionTimer_cnthpArmed]
        rfl }

/-- With nothing pending and nobody to find, the iteration is over at once. -/
theorem beforeRun_of_not_runnable (idle : (e.vmState vm.id).pendingCpuOn.requested = false)
    (current : vm.scheduler.current = none) (none : ∀ t, ¬ vm.Runnable (e.vmState vm.id) t) :
    ∃ vm', ∀ drained, vm.beforeRun drained e =
      some (.idle (!(List.finRange maxVcpus).any (vm.isUp (e.vmState vm.id))) vm' e) := by
  have pick : (vm.wakePendingVcpus (e.vmState vm.id)).scheduler.pickNext =
      (Option.none, (vm.wakePendingVcpus (e.vmState vm.id)).scheduler) :=
    Scheduler.pickNext_of_idle (by rw [wakePendingVcpus_eq, unblockAll_current, current])
      fun t ready => none t (wakePendingVcpus_ready.mp ready)
  simp only [beforeRun, takeCpuOn_of_not_requested idle, pick]
  exact ⟨_, fun _ => rfl⟩

/-! ## Putting a vCPU back -/

/-- What an iteration leaves of the state in which guest code stopped. -/
structure PutBack (vm : GuestVm) (e : El2) (id : VcpuId) (result : RunResult) (vm' : GuestVm) (e' : El2) : Prop where
  id_eq : vm'.id = vm.id
  vcpus : vm'.vcpus = vm.vcpus
  current : vm'.scheduler.current = none
  states : ∃ state, state ≠ .running ∧ vm'.scheduler.states = Function.update vm.scheduler.states id state ∧
    (state = .none ↔ result = .ok ∧ (e.vmState vm.id).terminalExit id = true)
  currentVmId : e'.currentVmId = e.currentVmId
  others : ∀ u, u ≠ vm.id → e'.vmState u = e.vmState u
  vcpuOnlineMask : (e'.vmState vm.id).vcpuOnlineMask = (e.vmState vm.id).vcpuOnlineMask
  pendingCpuOn : (e'.vmState vm.id).pendingCpuOn = (e.vmState vm.id).pendingCpuOn
  terminalExit : (e'.vmState vm.id).terminalExit =
    if result = .ok then Function.update (e.vmState vm.id).terminalExit id false else (e.vmState vm.id).terminalExit

/-- Yielding or blocking, with the shared state as it is but for the request to preempt. -/
theorem putBack_of_leave {result : RunResult} {state : RunState} {vs : VmGlobalState}
    (running : vm.scheduler.current = some id) (kept : state ≠ .running ∧ state ≠ .none)
    (same : (e.vmState vm.id).SameControl vs) (flag : result = .ok → (e.vmState vm.id).terminalExit id = false) :
    PutBack vm e id result { vm with scheduler := vm.scheduler.leaveCurrent state } (e.setVmState vm.id vs) where
  id_eq := rfl
  vcpus := rfl
  current := by rw [Scheduler.leaveCurrent_of_current running]
  states := by
    refine ⟨state, kept.1, by rw [Scheduler.leaveCurrent_of_current running]; rfl, ?_⟩
    refine iff_of_false kept.2 fun ⟨ok, set⟩ => ?_
    cases set.symm.trans (flag ok)
  currentVmId := rfl
  others _ other := El2.vmState_setVmState_of_ne other
  vcpuOnlineMask := by rw [El2.vmState_setVmState, same.vcpuOnlineMask]
  pendingCpuOn := by rw [El2.vmState_setVmState, same.pendingCpuOn]
  terminalExit := by
    rw [El2.vmState_setVmState, same.terminalExit]
    split_ifs with ok
    · rw [← flag ok, Function.update_eq_self]
    · rfl

theorem putBack_afterRun (running : vm.scheduler.current = some id) (result : RunResult) :
    PutBack vm e id result (vm.afterRun id result e).1 (vm.afterRun id result e).2 := by
  have leave {state : RunState} (kept : state ≠ .running ∧ state ≠ .none)
      (flag : result = .ok → (e.vmState vm.id).terminalExit id = false) :
      PutBack vm e id result { vm with scheduler := vm.scheduler.leaveCurrent state } e := by
    have put := putBack_of_leave (e := e) running kept .rfl flag
    rwa [El2.setVmState_self rfl] at put
  cases result with
  | wfi => exact leave (by decide) (by rintro ⟨⟩)
  | ok =>
      simp only [afterRun]
      split_ifs with terminal requested preempted
      · exact {
          id_eq := rfl
          vcpus := rfl
          current := by rw [Scheduler.removeVcpu_coe, running, if_pos rfl]
          states := ⟨.none, by decide, Scheduler.removeVcpu_states .., iff_of_true rfl ⟨rfl, terminal⟩⟩
          currentVmId := rfl
          others := fun u other => El2.vmState_setVmState_of_ne other
          vcpuOnlineMask := by rw [El2.vmState_setVmState]; rfl
          pendingCpuOn := by rw [El2.vmState_setVmState]; rfl
          terminalExit := by rw [El2.vmState_setVmState]; rfl }
      all_goals have flag := fun _ : RunResult.ok = .ok => Bool.eq_false_iff.mpr terminal
      · exact leave (by decide) flag
      · exact putBack_of_leave running (by decide) ⟨rfl, rfl, rfl, rfl⟩ flag
      · exact leave (by decide) flag

end GuestVm

end Hypervisor
