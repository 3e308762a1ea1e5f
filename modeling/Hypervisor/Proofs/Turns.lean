import Hypervisor.Proofs.RunLoop

/-! # Runs of the system

A run is a sequence of iterations, each of any VM: `run_smp` repeats those of one VM and
`run_multi_vm` alternates. Between two iterations no vCPU is running, what is registered with a
scheduler exists, and no terminal exit is outstanding.
-/

namespace Hypervisor

/-- How an iteration went: without entering the guest, or with vCPU `id` of the VM `entered` running
until the exception `last`. -/
inductive TurnLabel (Other : Type) where
  | idle (done : Bool)
  | ran (id : VcpuId) (entered : GuestVm) (last : GuestException Other)

/-! ## How a VM is set up -/

/-- The VMs that can be set up before they run: vCPUs are created in the scheduler or merely added,
and their registers are set. -/
inductive GuestVm.Built (mpidrEl1 : U64) : GuestVm → Prop
  | new (id : VmId) : Built mpidrEl1 (.new id)
  | createVcpu {vm vm' : GuestVm} {vcpuId : ℕ} (built : Built mpidrEl1 vm)
      (created : vm.createVcpu mpidrEl1 vcpuId = .ok vm') : Built mpidrEl1 vm'
  | addVcpu {vm vm' : GuestVm} {entry sp : U64} {id : VcpuId} (built : Built mpidrEl1 vm)
      (added : vm.addVcpu mpidrEl1 entry sp = .ok (id, vm')) : Built mpidrEl1 vm'
  | setVcpu {vm : GuestVm} {id : VcpuId} {old : GuestVcpu} (built : Built mpidrEl1 vm) (there : vm.vcpus id = some old)
      (regs : Vcpu) : Built mpidrEl1 (vm.setVcpu id { old with toVcpu := regs })

namespace GuestVm

variable {vm vm' : GuestVm} {mpidrEl1 : U64}

section BecomeReady

variable (vm : GuestVm)

@[simp] theorem becomeReady_id : vm.becomeReady.id = vm.id := by
  rw [becomeReady]
  split_ifs <;> rfl

@[simp] theorem becomeReady_vcpus : vm.becomeReady.vcpus = vm.vcpus := by
  rw [becomeReady]
  split_ifs <;> rfl

@[simp] theorem becomeReady_vcpuCount : vm.becomeReady.vcpuCount = vm.vcpuCount := by
  rw [becomeReady]
  split_ifs <;> rfl

@[simp] theorem becomeReady_scheduler : vm.becomeReady.scheduler = vm.scheduler := by
  rw [becomeReady]
  split_ifs <;> rfl

end BecomeReady

/-- A vCPU is put into a slot. -/
structure Placed (vm : GuestVm) (slot : VcpuId) (vm' : GuestVm) : Prop where
  id_eq : vm'.id = vm.id
  vcpus : ∃ vcpu : GuestVcpu, vcpu.id = slot ∧ vm'.vcpus = Function.update vm.vcpus slot (some vcpu)
  vcpuCount : vm'.vcpuCount = vm.vcpuCount + 1

theorem createVcpu_eq_ok {vcpuId : ℕ} (created : vm.createVcpu mpidrEl1 vcpuId = .ok vm') :
    ∃ slot : VcpuId, slot.val = vcpuId ∧ vm.vcpus slot = none ∧ vm.Placed slot vm' ∧
      vm'.scheduler = vm.scheduler.setState slot .ready := by
  rw [createVcpu] at created
  split_ifs at created with bound there
  obtain rfl := Except.ok.inj created
  have free : vm.vcpus ⟨vcpuId, bound⟩ = none := Option.not_isSome_iff_eq_none.mp there
  refine ⟨⟨vcpuId, bound⟩, rfl, free, ⟨becomeReady_id _, ?_, becomeReady_vcpuCount _⟩, ?_⟩
  · exact ⟨.new mpidrEl1 ⟨vcpuId, bound⟩ 0 0, rfl, becomeReady_vcpus _⟩
  · rw [becomeReady_scheduler]
    exact Scheduler.addVcpu_coe _ ⟨vcpuId, bound⟩

theorem addVcpu_eq_ok {entry sp : U64} {slot : VcpuId} (added : vm.addVcpu mpidrEl1 entry sp = .ok (slot, vm')) :
    slot.val = vm.vcpuCount ∧ vm.Placed slot vm' ∧ vm'.scheduler = vm.scheduler := by
  rw [addVcpu] at added
  split_ifs at added with bound
  obtain ⟨rfl, rfl⟩ := Prod.mk.inj (Except.ok.inj added)
  refine ⟨rfl, ⟨becomeReady_id _, ?_, becomeReady_vcpuCount _⟩, becomeReady_scheduler _⟩
  exact ⟨.new mpidrEl1 ⟨vm.vcpuCount, bound⟩ entry sp, rfl, becomeReady_vcpus _⟩

/-- Nobody runs in a VM that has only been set up, and what is registered is there. -/
structure Fresh (vm : GuestVm) : Prop where
  current : vm.scheduler.current = none
  not_running : ∀ t, vm.scheduler.states t ≠ .running
  registered : ∀ t, vm.scheduler.states t ≠ .none → vm.vcpus t ≠ none

theorem Built.fresh (built : Built mpidrEl1 vm) : vm.Fresh := by
  induction built with
  | new id => exact ⟨rfl, fun _ running => (by cases running), fun _ some => absurd rfl some⟩
  | createVcpu built created ih =>
      obtain ⟨id, -, -, placed, scheduler⟩ := createVcpu_eq_ok created
      obtain ⟨vcpu, -, vcpus⟩ := placed.vcpus
      refine ⟨by rw [scheduler, Scheduler.setState_current, ih.current], fun t => ?_, fun t some => ?_⟩
      · rw [scheduler, Scheduler.setState_states]
        by_cases same : t = id
        · rw [same, Function.update_self]
          decide
        · rw [Function.update_of_ne same]
          exact ih.not_running t
      · rw [vcpus]
        rw [scheduler, Scheduler.setState_states] at some
        refine update_ne_none fun other => ih.registered t ?_
        rwa [Function.update_of_ne other] at some
  | addVcpu built added ih =>
      obtain ⟨-, placed, scheduler⟩ := addVcpu_eq_ok added
      obtain ⟨vcpu, -, vcpus⟩ := placed.vcpus
      refine ⟨by rw [scheduler, ih.current], fun t => scheduler ▸ ih.not_running t, fun t some => ?_⟩
      rw [vcpus]
      exact update_ne_none fun _ => ih.registered t (scheduler ▸ some)
  | setVcpu built there regs ih =>
      exact ⟨ih.current, ih.not_running, fun t some => update_ne_none fun _ => ih.registered t some⟩

end GuestVm

namespace System

variable {Other : Type} [DecidableEq Other] {s s' s'' : System} {v u : VmId} {label : TurnLabel Other}

@[simp] theorem activate_vms (s : System) (v : VmId) : (s.activate v).vms = s.vms := rfl

@[simp] theorem activate_vmState (s : System) (v : VmId) : (s.activate v).el2.vmState = s.el2.vmState := rfl

/-- An iteration of VM `v` reaches the point where `vcpu` is about to run. -/
def Entry (s : System) (v : VmId) (id : VcpuId) (vcpu : GuestVcpu) (vm : GuestVm) (e : El2) : Prop :=
  ∃ drained, (s.vms v).beforeRun drained (s.activate v).el2 = some (.entry id vcpu vm e)

/-- One iteration of VM `v`. -/
inductive Step (s : System) (v : VmId) : TurnLabel Other → System → Prop
  | idle {drained : Option (VcpuId → U32)} {done : Bool} {vm : GuestVm} {e : El2}
      (before : (s.vms v).beforeRun drained (s.activate v).el2 = some (.idle done vm e)) :
      Step s v (.idle done) (s.setVm v vm e)
  | ran {events : List (GuestException Other)} {id : VcpuId} {vcpu : GuestVcpu} {vm : GuestVm} {e : El2}
      {last : GuestException Other} {h : Handled Other} (before : s.Entry v id vcpu vm e)
      (guest : runGuest events e = .left last h) :
      Step s v (.ran id vm last) (s.setVm v (vm.runVcpu id vcpu last h).1 (vm.runVcpu id vcpu last h).2)

/-- The steps are the iterations that end. -/
theorem exists_step_iff :
    (∃ label : TurnLabel Other, s.Step v label s') ↔
      ∃ (inputs : Inputs Other) (done : Bool), s.turn v inputs = some (done, s') := by
  constructor
  · rintro ⟨label, step⟩
    cases step with
    | @idle drained done vm e before => exact ⟨⟨drained, []⟩, done, by simp [turn, GuestVm.runOneIteration, before]⟩
    | @ran events id vcpu vm e last h before guest =>
        obtain ⟨drained, before⟩ := before
        exact ⟨⟨drained, events⟩, false, by simp [turn, GuestVm.runOneIteration, before, guest]⟩
  · rintro ⟨inputs, done, turn⟩
    obtain ⟨⟨done', vm, e⟩, run, same⟩ := Option.bind_eq_some_iff.mp turn
    cases same
    obtain ⟨reached, before, run⟩ := Option.bind_eq_some_iff.mp run
    cases reached with
    | idle done' vm' e' =>
        cases run
        exact ⟨_, .idle before⟩
    | entry id vcpu vm' e' =>
        dsimp only at run
        split at run
        case h_1 guest =>
          obtain ⟨-, same⟩ := Prod.mk.inj (Option.some.inj run)
          obtain rfl := congrArg Prod.fst same
          obtain rfl := congrArg Prod.snd same
          exact ⟨_, .ran ⟨_, before⟩ guest⟩
        case h_2 => cases run

/-! ## Between two iterations -/

/-- The state of VM `v` between two iterations. -/
structure Settled (s : System) (v : VmId) : Prop where
  id_eq : (s.vms v).id = v
  current : (s.vms v).scheduler.current = none
  not_running : ∀ t, (s.vms v).scheduler.states t ≠ .running
  registered : ∀ t, (s.vms v).scheduler.states t ≠ .none → (s.vms v).vcpus t ≠ none
  terminalExit : ∀ t, (s.el2.vmState v).terminalExit t = false

@[simp] theorem setVm_vms_same (s : System) (v : VmId) (vm : GuestVm) (e : El2) : (s.setVm v vm e).vms v = vm :=
  Function.update_self ..

theorem setVm_vms_of_ne {vm : GuestVm} {e : El2} (other : u ≠ v) : (s.setVm v vm e).vms u = s.vms u :=
  Function.update_of_ne other ..

@[simp] theorem setVm_el2 (s : System) (v : VmId) (vm : GuestVm) (e : El2) : (s.setVm v vm e).el2 = e := rfl

/-- The state of VM `v` when its vCPU `id` is about to run. -/
structure AtEntry (s : System) (v : VmId) (id : VcpuId) (vm : GuestVm) (e : El2) : Prop where
  id_eq : vm.id = v
  currentVmId : e.currentVmId = v
  current : vm.scheduler.current = some id
  not_running : ∀ t, t ≠ id → vm.scheduler.states t ≠ .running
  registered : ∀ t, vm.scheduler.states t ≠ .none → vm.vcpus t ≠ none
  there : vm.vcpus id ≠ none
  terminalExit : ∀ t, (e.vmState v).terminalExit t = false
  requested : (e.vmState v).pendingCpuOn.requested = false
  currentVcpuId : (e.vmState v).currentVcpuId = id
  others : ∀ u, u ≠ v → e.vmState u = s.el2.vmState u

section Entry

variable {id : VcpuId} {vcpu : GuestVcpu} {vm : GuestVm} {e : El2}

/-- An entry is a request taken and a vCPU entered. -/
theorem Settled.entered (settled : s.Settled v) (entry : s.Entry v id vcpu vm e) :
    ∃ vm₁ e₁, GuestVm.Took (s.vms v) (s.activate v).el2 vm₁ e₁ ∧ GuestVm.Entered vm₁ e₁ id vcpu vm e := by
  obtain ⟨drained, before⟩ := entry
  refine ⟨_, _, GuestVm.took_takeCpuOn _ _, ?_⟩
  obtain ⟨_, _, _, _, same, entered⟩ | ⟨_, _, _, same, _⟩ := GuestVm.beforeRun_eq_some settled.id_eq.symm before
  · cases same
    exact entered
  · cases same

theorem Settled.atEntry (settled : s.Settled v) (entry : s.Entry v id vcpu vm e) : s.AtEntry v id vm e := by
  obtain ⟨vm₁, e₁, took, entered⟩ := settled.entered entry
  have id_eq : vm₁.id = v := took.id_eq.trans settled.id_eq
  have control := entered.control
  have flags := took.terminalExit
  have requested := took.requested
  rw [id_eq] at control
  rw [settled.id_eq] at flags requested
  have registered₁ (t : VcpuId) (some : vm₁.scheduler.states t ≠ .none) : vm₁.vcpus t ≠ none := by
    rcases took.states t with same | ⟨-, there⟩
    · exact took.vcpus_ne_none (settled.registered t (same ▸ some))
    · exact there
  exact {
    id_eq := entered.id_eq.trans id_eq
    currentVmId := entered.currentVmId.trans took.currentVmId
    current := entered.current
    not_running := fun t other running => by
      rcases entered.states t other with same | ⟨-, ready⟩
      · rcases took.states t with same' | ⟨ready, -⟩
        · exact settled.not_running t (by rw [← same', ← same, running])
        · rw [same, ready] at running
          cases running
      · rw [ready] at running
        cases running
    registered := fun t some => by
      rw [entered.vcpus]
      by_cases same : t = id
      · exact same ▸ registered₁ id entered.registered
      · refine registered₁ t fun none => some ?_
        rcases entered.states t same with same | ⟨blocked, -⟩
        · rw [same, none]
        · rw [none] at blocked
          cases blocked
    there := by
      rw [entered.vcpus]
      exact registered₁ id entered.registered
    terminalExit := fun t => by rw [control.terminalExit, flags]; exact settled.terminalExit t
    requested := by rw [control.pendingCpuOn, requested]
    currentVcpuId := control.currentVcpuId
    others := fun u other => by
      rw [entered.others u (id_eq ▸ other), took.others (by rwa [settled.id_eq]), activate_vmState] }

/-- An idle iteration keeps the tables and takes the request. -/
theorem Settled.idled (settled : s.Settled v) {drained : Option (VcpuId → U32)} {done : Bool}
    (before : (s.vms v).beforeRun drained (s.activate v).el2 = some (.idle done vm e)) :
    ∃ vm₁ e₁, GuestVm.Took (s.vms v) (s.activate v).el2 vm₁ e₁ ∧ GuestVm.Idled vm₁ e₁ done vm e := by
  refine ⟨_, _, GuestVm.took_takeCpuOn _ _, ?_⟩
  obtain ⟨_, _, _, _, same, _⟩ | ⟨_, _, _, same, idled⟩ := GuestVm.beforeRun_eq_some settled.id_eq.symm before
  · cases same
  · cases same
    exact idled

omit [DecidableEq Other] in
/-- The state of VM `v` when an exception has led out of its guest and `afterRun` has put the vCPU
back. -/
theorem AtEntry.putBack (entry : s.AtEntry v id vm e) (vcpu : GuestVcpu) (last : GuestException Other)
    (h : Handled Other) :
    GuestVm.PutBack (vm.setVcpu id { vcpu with toVcpu := vcpu.exit (fun _ => h.context) h.cpu }) h.el2 id last.result
      (vm.runVcpu id vcpu last h).1 (vm.runVcpu id vcpu last h).2 :=
  @GuestVm.putBack_afterRun (vm.setVcpu id _) h.el2 id entry.current last.result

omit [DecidableEq Other] in
/-- The terminal flags are clear again when the vCPU has been put back. -/
theorem AtEntry.terminalExit_of_left (entry : s.AtEntry v id vm e) {last : GuestException Other} {h : Handled Other}
    (left : LeftBy e last h) (t : VcpuId) :
    (if last.result = .ok then Function.update (h.el2.vmState v).terminalExit id false
      else (h.el2.vmState v).terminalExit) t = false := by
  have current : e.currentVmState = e.vmState v := El2.currentVmState_eq entry.currentVmId
  have here (vs : VmGlobalState) (sets : e.Sets vs h.el2) : h.el2.vmState v = vs := by
    rw [← El2.currentVmState_eq (sets.currentVmId.trans entry.currentVmId), sets.current]
  have clear (flags : (h.el2.vmState v).terminalExit t = false) :
      (if last.result = .ok then Function.update (h.el2.vmState v).terminalExit id false
        else (h.el2.vmState v).terminalExit) t = false := by
    split_ifs
    · by_cases same : t = id
      · rw [same, Function.update_self]
      · rw [Function.update_of_ne same, flags]
    · exact flags
  cases left with
  | quiet quiet =>
      obtain ⟨vs, same, sets⟩ := quiet
      exact clear (by rw [here vs sets, same.terminalExit, current, entry.terminalExit])
  | cpuOn _ _ _ same sets => exact clear (by rw [here _ sets, same.terminalExit, current, entry.terminalExit])
  | terminal call _ same sets =>
      rw [GuestException.result_of_psci call, if_pos rfl, here _ sets, VmGlobalState.setTerminalExit,
        same.currentVcpuId, current, entry.currentVcpuId, Function.update_idem]
      by_cases at_id : t = id
      · rw [at_id, Function.update_self]
      · rw [Function.update_of_ne at_id, same.terminalExit, current, entry.terminalExit]

end Entry

/-- Leaving the guest touches no other VM. -/
theorem LeftBy.others {Other : Type} [DecidableEq Other] {e : El2} {x : GuestException Other} {h : Handled Other}
    (left : LeftBy e x h) :
    h.el2.currentVmId = e.currentVmId ∧ ∀ u, u ≠ e.currentVmId → h.el2.vmState u = e.vmState u := by
  cases left with
  | quiet quiet =>
      obtain ⟨_, -, sets⟩ := quiet
      exact ⟨sets.currentVmId, sets.others⟩
  | cpuOn _ _ _ _ sets => exact ⟨sets.currentVmId, sets.others⟩
  | terminal _ _ _ sets => exact ⟨sets.currentVmId, sets.others⟩

/-- An iteration of one VM leaves the others as they are. -/
theorem Step.others (settled : s.Settled v) (step : s.Step v label s') (other : u ≠ v) :
    s'.vms u = s.vms u ∧ s'.el2.vmState u = s.el2.vmState u := by
  cases step with
  | idle before =>
      obtain ⟨vm₁, e₁, took, idled⟩ := settled.idled before
      refine ⟨setVm_vms_of_ne other, ?_⟩
      rw [setVm_el2, idled.el2, took.others (by rwa [settled.id_eq]), activate_vmState]
  | ran before guest =>
      have entry := settled.atEntry before
      have left := leftBy_of_runGuest guest
      refine ⟨setVm_vms_of_ne other, ?_⟩
      rw [setVm_el2, (entry.putBack _ _ _).others u (show u ≠ _ from entry.id_eq.symm ▸ other),
        (LeftBy.others left).2 u (entry.currentVmId.symm ▸ other), entry.others u other]

theorem Settled.of_eq (settled : s.Settled u) (vms : s'.vms u = s.vms u) (vmState : s'.el2.vmState u = s.el2.vmState u) :
    s'.Settled u := by
  obtain ⟨id_eq, current, not_running, registered, terminalExit⟩ := settled
  rw [← vms] at id_eq current not_running registered
  rw [← vmState] at terminalExit
  exact ⟨id_eq, current, not_running, registered, terminalExit⟩

theorem Settled.of_idle (settled : s.Settled v) {drained : Option (VcpuId → U32)} {done : Bool} {vm : GuestVm} {e : El2}
    (before : (s.vms v).beforeRun drained (s.activate v).el2 = some (.idle done vm e)) : (s.setVm v vm e).Settled v := by
  obtain ⟨vm₁, e₁, took, idled⟩ := settled.idled before
  have flags := took.terminalExit
  rw [settled.id_eq] at flags
  have states (t : VcpuId) : vm.scheduler.states t = (s.vms v).scheduler.states t ∨
      vm.scheduler.states t = .ready ∧ ((s.vms v).scheduler.states t ≠ .none ∨ vm.vcpus t ≠ none) := by
    rw [idled.vcpus]
    rcases idled.states t with same | ⟨blocked, ready⟩
    · rcases took.states t with same' | ⟨ready, there⟩
      · exact .inl (same.trans same')
      · exact .inr ⟨same.trans ready, .inr there⟩
    · refine .inr ⟨ready, .inl fun none => ?_⟩
      rcases took.states t with same' | ⟨ready', -⟩
      · rw [same', none] at blocked
        cases blocked
      · rw [ready'] at blocked
        cases blocked
  exact {
    id_eq := by rw [setVm_vms_same, idled.id_eq, took.id_eq, settled.id_eq]
    current := by rw [setVm_vms_same, idled.current, took.current, settled.current]
    not_running := fun t => by
      rw [setVm_vms_same]
      rcases states t with same | ⟨ready, -⟩
      · rw [same]
        exact settled.not_running t
      · rw [ready]
        decide
    registered := fun t some => by
      rw [setVm_vms_same] at some ⊢
      have kept (before : (s.vms v).scheduler.states t ≠ .none) : vm.vcpus t ≠ none := by
        rw [idled.vcpus]
        exact took.vcpus_ne_none (settled.registered t before)
      rcases states t with same | ⟨-, before | there⟩
      · exact kept (same ▸ some)
      · exact kept before
      · exact there
    terminalExit := fun t => by
      rw [setVm_el2, idled.el2, flags]
      exact settled.terminalExit t }

theorem Settled.of_ran (settled : s.Settled v) {events : List (GuestException Other)} {id : VcpuId} {vcpu : GuestVcpu}
    {vm : GuestVm} {e : El2} {last : GuestException Other} {h : Handled Other} (before : s.Entry v id vcpu vm e)
    (guest : runGuest events e = .left last h) :
    (s.setVm v (vm.runVcpu id vcpu last h).1 (vm.runVcpu id vcpu last h).2).Settled v := by
  have entry := settled.atEntry before
  have put := entry.putBack vcpu last h
  have flags := entry.terminalExit_of_left (leftBy_of_runGuest guest)
  obtain ⟨state, idle, states, -⟩ := put.states
  have terminalExit := put.terminalExit
  rw [show (vm.setVcpu id _).id = v from entry.id_eq] at terminalExit
  have states : (vm.runVcpu id vcpu last h).1.scheduler.states = Function.update vm.scheduler.states id state := states
  exact {
    id_eq := by rw [setVm_vms_same, put.id_eq]; exact entry.id_eq
    current := by rw [setVm_vms_same, put.current]
    not_running := fun t => by
      rw [setVm_vms_same, states]
      by_cases same : t = id
      · rwa [same, Function.update_self]
      · rw [Function.update_of_ne same]
        exact entry.not_running t same
    registered := fun t some => by
      rw [setVm_vms_same] at some ⊢
      rw [put.vcpus, GuestVm.setVcpu_vcpus]
      refine GuestVm.update_ne_none fun other => entry.registered t ?_
      rwa [states, Function.update_of_ne other] at some
    terminalExit := fun t => by rw [setVm_el2, terminalExit, flags t] }

/-- Every iteration leaves every VM settled. -/
theorem Settled.step (settled : ∀ u, s.Settled u) (step : s.Step v label s') (u : VmId) : s'.Settled u := by
  by_cases same : u = v
  · subst same
    cases step with
    | idle before => exact (settled u).of_idle before
    | ran before guest => exact (settled u).of_ran before guest
  · obtain ⟨vms, vmState⟩ := step.others (settled v) same
    exact (settled u).of_eq vms vmState

/-! ## Runs -/

/-- Both VMs have been set up, and nothing has run. -/
structure Booted (s : System) : Prop where
  built : ∀ v, (s.vms v).Built s.el2.mpidrEl1
  id_eq : ∀ v, (s.vms v).id = v
  vmState : ∀ v, s.el2.vmState v = .new

/-- The states in which the loop of `run_smp` or of `run_multi_vm` starts. -/
inductive Started : System → Prop
  | smp {s s' : System} {v : VmId} (booted : s.Booted) (start : s.startSmp v = .ok s') : Started s'
  | multi {s : System} (booted : s.Booted) : Started s.startMulti

/-- The iterations since the start, the last one first. -/
inductive Run (start : System) : List (VmId × TurnLabel Other) → System → Prop
  | nil : Run start [] start
  | step {trace : List (VmId × TurnLabel Other)} {s s' : System} {v : VmId} {label : TurnLabel Other}
      (run : Run start trace s) (step : s.Step v label s') : Run start ((v, label) :: trace) s'

theorem Booted.settled (booted : s.Booted) (u : VmId) : s.Settled u := by
  obtain ⟨current, not_running, registered⟩ := (booted.built u).fresh
  exact ⟨booted.id_eq u, current, not_running, registered, fun t => by rw [booted.vmState u]; rfl⟩

/-- Marking a VM as running keeps everything that `Settled` is about. -/
theorem Settled.mark (settled : s.Settled u) {e : El2} (vmState : e.vmState = s.el2.vmState) :
    (s.setVm v { s.vms v with state := .running } (e.setVmState v ((s.el2.vmState v).setOnline 0))).Settled u := by
  by_cases same : u = v
  · subst same
    obtain ⟨id_eq, current, not_running, registered, terminalExit⟩ := settled
    refine ⟨?_, ?_, ?_, ?_, fun t => ?_⟩
    · rwa [setVm_vms_same]
    · rwa [setVm_vms_same]
    · rwa [setVm_vms_same]
    · rwa [setVm_vms_same]
    · rw [setVm_el2, El2.vmState_setVmState]
      exact terminalExit t
  · refine settled.of_eq (setVm_vms_of_ne same) ?_
    rw [setVm_el2, El2.vmState_setVmState_of_ne same, vmState]

theorem Settled.markRunning (settled : s.Settled u) (v : VmId) : (s.markRunning v).Settled u := by
  rw [System.markRunning]
  split_ifs
  · exact settled.mark rfl
  · exact settled

theorem Started.settled (started : Started s) (u : VmId) : s.Settled u := by
  cases started with
  | smp booted start =>
      rw [startSmp] at start
      split_ifs at start
      cases start
      exact (booted.settled u).mark rfl
  | multi booted => exact ((booted.settled u).markRunning 0).markRunning 1

section Run

variable {trace : List (VmId × TurnLabel Other)}

theorem Settled.run (settled : ∀ u, s.Settled u) (run : Run s trace s') (u : VmId) : s'.Settled u := by
  induction run generalizing u with
  | nil => exact settled u
  | step _ step ih => exact Settled.step ih step u

theorem Run.settled (started : Started s) (run : Run s trace s') (u : VmId) : s'.Settled u :=
  Settled.run started.settled run u

/-- Iterations of other VMs leave a VM as it is. -/
theorem Run.of_others (settled : ∀ u, s.Settled u) (run : Run s trace s') (others : ∀ turn ∈ trace, turn.1 ≠ v) :
    s'.vms v = s.vms v ∧ s'.el2.vmState v = s.el2.vmState v := by
  induction run with
  | nil => exact ⟨rfl, rfl⟩
  | @step trace t t' u label run step ih =>
      obtain ⟨vms, vmState⟩ := ih fun turn member => others turn (List.mem_cons_of_mem _ member)
      have other : u ≠ v := others (u, label) List.mem_cons_self
      obtain ⟨vms', vmState'⟩ := step.others (Settled.run settled run u) other.symm
      exact ⟨vms'.trans vms, vmState'.trans vmState⟩

end Run

end System

end Hypervisor
