import Hypervisor.Proofs.Turns

/-! # PSCI power states

What `AFFINITY_INFO` reports, what becomes of a `CPU_ON` request, and how a VM ends. The mask of online
vCPUs, the vCPU table, the scheduler and the mailbox are four pieces of state; a terminal call reaches
the scheduler only.
-/

namespace Hypervisor

/-! ## AFFINITY_INFO -/

def IsAffinityInfo (fid : U64) : Prop := fid = psciAffinityInfo32 ∨ fid = psciAffinityInfo64

/-- Aff1, Aff2 and Aff3 of an affinity value. -/
def upperAffinity (affinity : U64) : U64 := affinity &&& 0xFF00FFFF00

/-- The affinity value of vCPU `t`, which exists. -/
structure GuestVm.NamesVcpu (vm : GuestVm) (affinity : U64) (t : VcpuId) : Prop where
  upper : upperAffinity affinity = 0
  lowest : (affinity &&& 0xFF).toNat = t.val
  there : vm.vcpus t ≠ none

theorem checkedShl_of_lt {amount : U64} (bound : amount.toNat < 64) :
    checkedShl amount = some ((1 : U64) <<< amount.toNat) := if_pos bound

theorem affinityInfo_of_lt {affinity mask : U64} (bound : (affinity &&& 0xFF).toNat < 64) :
    affinityInfo affinity mask = some (if mask.getLsbD (affinity &&& 0xFF).toNat then 0 else 1) := by
  have set : mask &&& (1 : U64) <<< (affinity &&& 0xFF).toNat ≠ 0 ↔ mask.getLsbD (affinity &&& 0xFF).toNat = true := by
    rw [ne_eq, BitVec.and_one_shiftLeft_eq_zero_iff mask bound, Bool.not_eq_false]
  rw [affinityInfo, checkedShl_of_lt bound]
  exact congrArg some (if_congr set rfl rfl)

theorem lowest_vcpu (t : VcpuId) : (BitVec.ofNat 64 t.val &&& 0xFF).toNat = t.val := by
  revert t
  decide

theorem affinityInfo_vcpu (t : VcpuId) (mask : U64) :
    affinityInfo (BitVec.ofNat 64 t.val) mask = some (if mask.getLsbD t.val then 0 else 1) := by
  have bound : t.val < 64 := t.isLt.trans (by decide)
  rw [affinityInfo_of_lt (by rwa [lowest_vcpu]), lowest_vcpu]

theorem answer_eq_zero_iff {bit : Bool} : (if bit then (0 : U64) else 1) = 0 ↔ bit = true := by
  cases bit with
  | true => exact iff_of_true rfl rfl
  | false => exact iff_of_false (by decide) (by decide)

theorem affinityInfo_eq_none_iff {affinity mask : U64} :
    affinityInfo affinity mask = none ↔ 64 ≤ (affinity &&& 0xFF).toNat := by
  constructor
  · intro none
    by_contra bound
    rw [affinityInfo_of_lt (Nat.lt_of_not_le bound)] at none
    cases none
  · intro large
    rw [affinityInfo, checkedShl, if_neg (Nat.not_lt.mpr large)]
    rfl

/-- What the handler makes of the call. -/
theorem handlePsci_of_affinityInfo {fid : U64} (call : IsAffinityInfo fid) (context : VcpuContext) (vs : VmGlobalState) :
    handlePsci context fid vs =
      (affinityInfo (context.gpRegs 1) vs.vcpuOnlineMask).map fun state => (true, context.setX 0 state, vs) := by
  rcases call with rfl | rfl
  · rfl
  · rfl

/-- The call is answered, and the answer is ON for the vCPUs that exist and are online, and for no other
affinity value. -/
def AffinityAnswered (vm : GuestVm) (vs : VmGlobalState) (context : VcpuContext) (fid : U64) : Prop :=
  ∃ context', handlePsci context fid vs = some (true, context', vs) ∧
    (context'.gpRegs 0 = 0 ↔ ∃ t, vm.NamesVcpu (context.gpRegs 1) t ∧ vs.isOnline t = true)

/-- Only Aff0 is read, and without a bound: the answer is right when Aff0 is less than 64 and, where that
bit of the mask is set, the whole value names a vCPU that exists. -/
theorem affinityAnswered_iff (vm : GuestVm) (vs : VmGlobalState) (context : VcpuContext) :
    (∀ fid, IsAffinityInfo fid → AffinityAnswered vm vs context fid) ↔
      (context.gpRegs 1 &&& 0xFF).toNat < 64 ∧
        (vs.vcpuOnlineMask.getLsbD (context.gpRegs 1 &&& 0xFF).toNat = true →
          ∃ t, vm.NamesVcpu (context.gpRegs 1) t) := by
  by_cases bound : (context.gpRegs 1 &&& 0xFF).toNat < 64
  case neg =>
    refine iff_of_false (fun answered => ?_) fun right => bound right.1
    obtain ⟨context', answer, -⟩ := answered psciAffinityInfo32 (.inl rfl)
    rw [handlePsci_of_affinityInfo (.inl rfl), affinityInfo_eq_none_iff.mpr (Nat.le_of_not_lt bound)] at answer
    cases answer
  have answer {fid : U64} (call : IsAffinityInfo fid) := handlePsci_of_affinityInfo call context vs
  simp only [affinityInfo_of_lt bound, Option.map_some] at answer
  -- the vCPU that is named is online exactly if the bit that is tested is set
  have online {t : VcpuId} (names : vm.NamesVcpu (context.gpRegs 1) t) :
      vs.isOnline t = true ↔ vs.vcpuOnlineMask.getLsbD (context.gpRegs 1 &&& 0xFF).toNat = true := by
    rw [VmGlobalState.isOnline_iff, names.lowest]
  constructor
  · refine fun answered => ⟨bound, fun set => ?_⟩
    obtain ⟨context', same, reported⟩ := answered psciAffinityInfo32 (.inl rfl)
    rw [answer (.inl rfl)] at same
    obtain ⟨-, rfl, -⟩ := by simpa only [Option.some.injEq, Prod.mk.injEq] using same
    obtain ⟨t, names, -⟩ := reported.mp (by rw [VcpuContext.setX_same, if_pos set])
    exact ⟨t, names⟩
  · rintro ⟨-, named⟩ fid call
    refine ⟨_, answer call, ?_⟩
    rw [VcpuContext.setX_same]
    cases set : vs.vcpuOnlineMask.getLsbD (context.gpRegs 1 &&& 0xFF).toNat with
    | true =>
        obtain ⟨t, names⟩ := named set
        exact iff_of_true rfl ⟨t, names, (online names).mpr set⟩
    | false =>
        refine iff_of_false (by decide) ?_
        rintro ⟨t, names, on⟩
        cases set.symm.trans ((online names).mp on)

/-- A query for affinity 64. -/
def queryOf64 : VcpuContext := (VcpuContext.new 0 0).setX 1 64

theorem affinityInfo_of_64_panics :
    ¬ AffinityAnswered (.new 0) (VmGlobalState.new.setOnline 0) queryOf64 psciAffinityInfo64 := by
  rintro ⟨context', answer, -⟩
  cases answer

/-! ## Who is on -/

/-- The vCPUs in the table are those registered with the scheduler, and those in the mask. -/
structure GuestVm.Powered (vm : GuestVm) (vs : VmGlobalState) : Prop where
  online : ∀ t, vs.isOnline t = true ↔ vm.scheduler.states t ≠ .none
  created : ∀ t, vm.vcpus t ≠ none → vm.scheduler.states t ≠ .none

namespace GuestVm

variable {vm vm' : GuestVm} {e e' : El2} {vs vs' : VmGlobalState} {id : VcpuId}

/-- Only which vCPUs are registered, created and online counts. -/
theorem Powered.congr (powered : vm.Powered vs)
    (states : ∀ t, vm'.scheduler.states t = .none ↔ vm.scheduler.states t = .none)
    (vcpus : ∀ t, vm'.vcpus t = none ↔ vm.vcpus t = none) (mask : vs'.vcpuOnlineMask = vs.vcpuOnlineMask) :
    vm'.Powered vs' where
  online t := by
    rw [VmGlobalState.isOnline, mask, ne_eq, states]
    exact powered.online t
  created t there := by
    rw [ne_eq, states]
    exact powered.created t (mt (vcpus t).mpr there)

/-- A vCPU that is booted is created, registered and put online together. -/
theorem Powered.took (powered : vm.Powered (e.vmState vm.id)) (took : Took vm e vm' e') :
    vm'.Powered (e'.vmState vm.id) := by
  cases took with
  | nothing => exact powered
  | dropped => exact powered.congr (fun _ => .rfl) (fun _ => .rfl) (by rw [cleared_vmState])
  | booted t =>
      have cleared : vm.Powered ((vm.cleared e).vmState vm.id) :=
        powered.congr (fun _ => .rfl) (fun _ => .rfl) (by rw [cleared_vmState])
      rw [bootSecondaryVcpu_vmState, Function.update_self]
      refine ⟨fun u => ?_, fun u there => ?_⟩
      · rw [VmGlobalState.isOnline_setOnline, bootSecondaryVcpu_scheduler, Scheduler.setState_states]
        by_cases same : u = t
        · rw [same, Function.update_self]
          exact iff_of_true (.inl rfl) (by decide)
        · rw [Function.update_of_ne same, ← cleared.online]
          exact ⟨fun on => on.resolve_left (Ne.symm same), .inr⟩
      · rw [bootSecondaryVcpu_vcpus] at there
        rw [bootSecondaryVcpu_scheduler, Scheduler.setState_states]
        by_cases same : u = t
        · rw [same, Function.update_self]
          decide
        · rw [Function.update_of_ne same] at there ⊢
          exact cleared.created u there

/-- Waking a vCPU does not register it. -/
theorem states_eq_none_of_woken {state state' : RunState}
    (woken : state' = state ∨ state = .blocked ∧ state' = .ready) : state' = .none ↔ state = .none := by
  rcases woken with rfl | ⟨rfl, rfl⟩
  · rfl
  · decide

theorem Powered.entered {vcpu : GuestVcpu} (powered : vm.Powered (e.vmState vm.id))
    (entered : Entered vm e id vcpu vm' e') : vm'.Powered (e'.vmState vm.id) := by
  refine powered.congr (fun t => ?_) (fun t => by rw [entered.vcpus]) entered.control.vcpuOnlineMask
  by_cases same : t = id
  · rw [same, entered.running]
    exact iff_of_false (by decide) entered.registered
  · exact states_eq_none_of_woken (entered.states t same)

theorem Powered.idled {done : Bool} (powered : vm.Powered (e.vmState vm.id)) (idled : Idled vm e done vm' e') :
    vm'.Powered (e'.vmState vm.id) :=
  powered.congr (fun t => states_eq_none_of_woken (idled.states t)) (fun t => by rw [idled.vcpus]) (by rw [idled.el2])

end GuestVm

/-! ## A small machine -/

/-- EL2 before anything has run, on a CPU with four list registers. -/
def El2.boot : El2 := ⟨0, fun _ => .new, 0, 0, 0, false, 0, 3⟩

/-- A VM in which vCPU 0 has been created. -/
def GuestVm.single (v : VmId) : GuestVm := ((GuestVm.new v).createVcpu 0 0).toOption.getD (.new v)

/-- Two such VMs, as `run_multi_vm` finds them. -/
def System.twoVms : System := ⟨.boot, .single⟩

theorem System.twoVms_booted : twoVms.Booted :=
  ⟨fun v => @GuestVm.Built.createVcpu _ (.new v) _ 0 (.new v) rfl, fun _ => rfl, fun _ => rfl⟩

/-- An HVC with arguments from x0 on. -/
def hvcOf (args : List U64) : GuestException Empty where
  cpu
    | .x n => args.getD n 0
    | _ => 0
  cause := .sync ((0x16 : U64) <<< 26) none

/-! ## CPU_ON -/

/-- vCPU `t` is there as a `CPU_ON` asked for it. -/
structure GuestVm.Delivered (vm : GuestVm) (vs : VmGlobalState) (t : VcpuId) (entry ctxId : U64) : Prop where
  vcpu : ∃ vcpu, vm.vcpus t = some vcpu ∧ vcpu.context.pc = entry ∧ vcpu.context.gpRegs 0 = ctxId
  runnable : vm.scheduler.states t = .ready ∨ vm.scheduler.states t = .running
  online : vs.isOnline t = true

namespace System

variable {Other : Type} [DecidableEq Other] {s s' start : System} {v : VmId} {id t : VcpuId} {vcpu : GuestVcpu}
  {vm : GuestVm} {e : El2} {events : List (GuestException Other)} {x : GuestException Other} {h : Handled Other}
  {fid : U64} {trace : List (VmId × TurnLabel Other)}

/-- The state in which an iteration leaves the system once guest code has run. -/
def afterGuest (s : System) (v : VmId) (vm : GuestVm) (id : VcpuId) (vcpu : GuestVcpu) (last : GuestException Other)
    (h : Handled Other) : System :=
  s.setVm v (vm.runVcpu id vcpu last h).1 (vm.runVcpu id vcpu last h).2

/-- What a `CPU_ON` call leaves for the next iteration: the request, and the table as it was. -/
theorem Settled.cpuOn_pending (settled : s.Settled v) (entry : s.Entry v id vcpu vm e)
    (guest : runGuest events e = .left x h) (call : x.psci = some fid) (on : IsCpuOn fid) :
    ((s.afterGuest v vm id vcpu x h).el2.vmState v).pendingCpuOn = ⟨true, x.arg 1, x.arg 2, x.arg 3⟩ ∧
      ∀ t, vm.vcpus t = none → ((s.afterGuest v vm id vcpu x h).vms v).vcpus t = none := by
  have entered := settled.atEntry entry
  have put := entered.putBack vcpu x h
  have pending := put.pendingCpuOn
  rw [show (vm.setVcpu id _).id = v from entered.id_eq] at pending
  constructor
  · cases leftBy_of_runGuest guest with
    | quiet _ other => exact absurd on (other fid call).1
    | cpuOn _ _ _ _ sets =>
        rw [afterGuest, setVm_el2, pending, ← El2.currentVmState_eq (sets.currentVmId.trans entered.currentVmId),
          sets.current]
    | terminal call' terminal =>
        cases call.symm.trans call'
        exact absurd terminal on.not_terminal
  · intro t free
    rw [afterGuest, setVm_vms_same, put.vcpus, GuestVm.setVcpu_vcpus, Function.update_of_ne, free]
    rintro rfl
    exact entered.there free

/-- A pending request for a free slot is carried out before guest code runs. -/
theorem Settled.delivered (settled : s.Settled v) {target entry ctxId : U64}
    (pending : (s.el2.vmState v).pendingCpuOn = ⟨true, target, entry, ctxId⟩)
    (names : (target &&& 0xFF).toNat = t.val) (free : (s.vms v).vcpus t = none)
    {drained : Option (VcpuId → U32)} {turn : GuestVm.Turn}
    (before : (s.vms v).beforeRun drained (s.activate v).el2 = some turn) :
    ∃ id vcpu vm e, turn = .entry id vcpu vm e ∧ vm.Delivered (e.vmState v) t entry ctxId := by
  have pending' : ((s.activate v).el2.vmState (s.vms v).id).pendingCpuOn = ⟨true, target, entry, ctxId⟩ := by
    rw [settled.id_eq, activate_vmState, pending]
  have after := GuestVm.beforeRun_eq_some settled.id_eq.symm before
  have took := GuestVm.took_takeCpuOn (s.vms v) (s.activate v).el2
  generalize (s.vms v).takeCpuOn (s.activate v).el2 = taken at after took
  obtain ⟨vm₁, e₁⟩ := taken
  dsimp only at after took
  cases took with
  | nothing idle =>
      rw [pending'] at idle
      cases idle
  | dropped occupied => exact absurd free (occupied t (by rw [GuestVm.Names, pending', names]))
  | booted t' names' =>
      obtain rfl : t' = t := Fin.ext (by rw [← names, ← names', pending'])
      rw [pending'] at after
      set booted := (s.vms v).bootSecondaryVcpu t' entry ctxId ((s.vms v).cleared (s.activate v).el2) with booted_eq
      have ready : booted.1.scheduler.states t' = .ready := by
        rw [booted_eq, GuestVm.bootSecondaryVcpu_scheduler, Scheduler.setState_states, Function.update_self]
      have there : booted.1.vcpus t' = some (.secondary (s.activate v).el2.mpidrEl1 t' entry ctxId) := by
        rw [booted_eq, GuestVm.bootSecondaryVcpu_vcpus, Function.update_self]
        rfl
      have id_eq : booted.1.id = v := settled.id_eq
      rcases after with ⟨id, vcpu, vm, e, same, entered⟩ | ⟨_, _, _, _, idled⟩
      · refine ⟨id, vcpu, vm, e, same, ⟨_, by rw [entered.vcpus, there], GuestVcpu.secondary_starts ..⟩, ?_, ?_⟩
        · by_cases same : t' = id
          · exact .inr (same ▸ entered.running)
          · rcases entered.states t' same with kept | ⟨-, woken⟩
            · exact .inl (kept.trans ready)
            · exact .inl woken
        · have control := entered.control
          rw [id_eq] at control
          rw [control.isOnline]
          refine Eq.trans ?_ (VmGlobalState.isOnline_setOnline.mpr (.inl (rfl : t' = t')) :
            (((s.vms v).cleared (s.activate v).el2).vmState v |>.setOnline t').isOnline t' = true)
          rw [booted_eq, GuestVm.bootSecondaryVcpu_vmState, settled.id_eq, Function.update_self]
          rfl
      · exact absurd (.inl ready) (idled.not_runnable t')

/-- A `CPU_ON` for a free slot is carried out when its VM has its next turn, whatever other VMs do
meanwhile. -/
theorem delivered_later (settled : ∀ u, s.Settled u) (entry : s.Entry v id vcpu vm e)
    (guest : runGuest events e = .left x h) (call : x.psci = some fid) (on : IsCpuOn fid)
    (names : (x.arg 1 &&& 0xFF).toNat = t.val) (free : vm.vcpus t = none)
    (run : Run (s.afterGuest v vm id vcpu x h) trace s') (others : ∀ turn ∈ trace, turn.1 ≠ v) :
    (s'.el2.vmState v).pendingCpuOn = ⟨true, x.arg 1, x.arg 2, x.arg 3⟩ ∧
      ∀ drained turn, (s'.vms v).beforeRun drained (s'.activate v).el2 = some turn →
        ∃ id' vcpu' vm' e', turn = .entry id' vcpu' vm' e' ∧ vm'.Delivered (e'.vmState v) t (x.arg 2) (x.arg 3) := by
  obtain ⟨pending, kept⟩ := (settled v).cpuOn_pending entry guest call on
  have after (u : VmId) : (s.afterGuest v vm id vcpu x h).Settled u := Settled.step settled (.ran entry guest) u
  obtain ⟨vms, vmState⟩ := run.of_others after others
  have pending' : (s'.el2.vmState v).pendingCpuOn = ⟨true, x.arg 1, x.arg 2, x.arg 3⟩ := by rw [vmState, pending]
  refine ⟨pending', fun drained turn before => ?_⟩
  exact (Settled.run after run v).delivered pending' names (by rw [vms, kept t free]) before

/-- A `CPU_ON` call for a vCPU that was never created: the mailbox is empty when it is made, the guest is
left at once, and whatever other VMs do meanwhile, the request is still there when its VM has its next
turn, which carries it out before any guest code of the VM runs. -/
theorem cpuOn_delivered (started : Started start) (run : Run start trace s) (entry : s.Entry v id vcpu vm e)
    {before : List (GuestException Other)} {e₁ : El2} (alive : runGuest before e = .running e₁)
    (call : x.psci = some fid) (on : IsCpuOn fid) (handled : x.handle e₁ = some h)
    (names : (x.arg 1 &&& 0xFF).toNat = t.val) (new : vm.vcpus t = none) :
    (e₁.vmState v).pendingCpuOn.requested = false ∧
      (∀ rest, runGuest (before ++ x :: rest) e = .left x h) ∧
      ∀ {trace' : List (VmId × TurnLabel Other)} {s' : System}, Run (s.afterGuest v vm id vcpu x h) trace' s' →
        (∀ turn ∈ trace', turn.1 ≠ v) →
        (s'.el2.vmState v).pendingCpuOn = ⟨true, x.arg 1, x.arg 2, x.arg 3⟩ ∧
          ∀ drained turn, (s'.vms v).beforeRun drained (s'.activate v).el2 = some turn →
            ∃ id' vcpu' vm' e', turn = .entry id' vcpu' vm' e' ∧ vm'.Delivered (e'.vmState v) t (x.arg 2) (x.arg 3) := by
  have settled := run.settled started
  have entered := (settled v).atEntry entry
  have leaves (rest : List (GuestException Other)) : runGuest (before ++ x :: rest) e = .left x h :=
    runGuest_append_left alive handled (GuestException.leaves_of_cpuOn call on handled) rest
  refine ⟨?_, leaves, fun run' others => delivered_later settled entry (leaves []) call on names new run' others⟩
  have quiet := runGuest_eq_running alive
  have control := quiet.control
  obtain ⟨_, -, sets⟩ := quiet
  rw [El2.currentVmState_eq entered.currentVmId,
    El2.currentVmState_eq (sets.currentVmId.trans entered.currentVmId)] at control
  rw [control.pendingCpuOn, entered.requested]

theorem cpuOn_delivered_vcpu1 :
    ∃ vcpu vm e h, twoVms.startMulti.Entry 0 0 vcpu vm e ∧
      runGuest [hvcOf [psciCpuOn64, 1, 0x40200000, 7]] e = .left (hvcOf [psciCpuOn64, 1, 0x40200000, 7]) h ∧
      ∃ id' vcpu' vm' e',
        (twoVms.startMulti.afterGuest 0 vm 0 vcpu (hvcOf [psciCpuOn64, 1, 0x40200000, 7]) h).Entry 0 id' vcpu' vm' e' ∧
          vm'.Delivered (e'.vmState 0) 1 0x40200000 7 := by
  have entry : twoVms.startMulti.Entry 0 0 _ _ _ := ⟨some fun _ => 0, rfl⟩
  refine ⟨_, _, _, _, entry, rfl, ?_⟩
  obtain ⟨-, -, after⟩ := cpuOn_delivered (x := hvcOf [psciCpuOn64, 1, 0x40200000, 7]) (t := 1) (.multi twoVms_booted)
    .nil entry (rfl : runGuest [] _ = _) rfl (.inr rfl) rfl rfl rfl
  obtain ⟨-, next⟩ := after .nil (by simp)
  obtain ⟨id', vcpu', vm', e', same, delivered⟩ := next (some fun _ => 0) _ rfl
  exact ⟨id', vcpu', vm', e', ⟨some fun _ => 0, congrArg some same⟩, delivered⟩

/-! ## Runs without a terminal call -/

/-- The iteration does not end with a terminal call, nor with a `CPU_ON` for anything but a vCPU that is
off. -/
def Orderly : TurnLabel Other → Prop
  | .idle _ => True
  | .ran _ entered last => ∀ fid, last.psci = some fid → ¬ IsTerminal fid ∧
      (IsCpuOn fid → ∃ t : VcpuId, last.arg 1 = BitVec.ofNat 64 t.val ∧ entered.scheduler.states t = .none)

/-- vCPU 0 is created, registered and online, and no other one. -/
structure BootsFirst (s : System) (v : VmId) : Prop where
  created : ∀ t, (s.vms v).vcpus t ≠ none ↔ t = 0
  registered : ∀ t, (s.vms v).scheduler.states t ≠ .none ↔ t = 0
  online : ∀ t, (s.el2.vmState v).isOnline t = true ↔ t = 0

/-- The state of VM `v` is consistent. -/
def Powered (s : System) (v : VmId) : Prop := (s.vms v).Powered (s.el2.vmState v)

theorem BootsFirst.powered (boots : s.BootsFirst v) : s.Powered v :=
  ⟨fun t => by rw [boots.online, boots.registered], fun t there => (boots.registered t).mpr ((boots.created t).mp there)⟩

theorem Settled.powered_entry (settled : s.Settled v) (powered : s.Powered v) (entry : s.Entry v id vcpu vm e) :
    vm.Powered (e.vmState v) := by
  obtain ⟨vm₁, e₁, took, entered⟩ := settled.entered entry
  have id_eq : vm₁.id = v := took.id_eq.trans settled.id_eq
  have before : (s.vms v).Powered ((s.activate v).el2.vmState (s.vms v).id) := by rwa [settled.id_eq]
  have booted := before.took took
  rw [← took.id_eq] at booted
  have now := booted.entered entered
  rwa [id_eq] at now

omit [DecidableEq Other] in
/-- What the way out of the guest does to the mask and to the flags. -/
theorem AtEntry.left_control (entry : s.AtEntry v id vm e) (left : LeftBy e x h) :
    (h.el2.vmState v).vcpuOnlineMask = (e.vmState v).vcpuOnlineMask ∧
      ((∀ fid, x.psci = some fid → ¬ IsTerminal fid) → ∀ t, (h.el2.vmState v).terminalExit t = false) := by
  have current : e.currentVmState = e.vmState v := El2.currentVmState_eq entry.currentVmId
  have here {vs : VmGlobalState} (sets : e.Sets vs h.el2) : h.el2.vmState v = vs := by
    rw [← El2.currentVmState_eq (sets.currentVmId.trans entry.currentVmId), sets.current]
  cases left with
  | quiet quiet =>
      obtain ⟨vs, same, sets⟩ := quiet
      rw [here sets, same.vcpuOnlineMask, same.terminalExit, current]
      exact ⟨rfl, fun _ => entry.terminalExit⟩
  | cpuOn _ _ _ same sets =>
      rw [here sets, same.vcpuOnlineMask, same.terminalExit, current]
      exact ⟨rfl, fun _ => entry.terminalExit⟩
  | terminal call terminal same sets =>
      rw [here sets]
      exact ⟨by rw [← current, ← same.vcpuOnlineMask]; rfl, fun ordinary => absurd terminal (ordinary _ call)⟩

theorem Settled.powered_step (settled : s.Settled v) (powered : s.Powered v) {label : TurnLabel Other}
    (step : s.Step v label s') (orderly : Orderly label) : s'.Powered v := by
  cases step with
  | idle before =>
      obtain ⟨vm₁, e₁, took, idled⟩ := settled.idled before
      have id_eq : vm₁.id = v := took.id_eq.trans settled.id_eq
      have start : (s.vms v).Powered ((s.activate v).el2.vmState (s.vms v).id) := by rwa [settled.id_eq]
      have booted := start.took took
      rw [← took.id_eq] at booted
      have now := booted.idled idled
      rw [id_eq] at now
      rwa [Powered, setVm_vms_same]
  | @ran events id vcpu vm e last h entry guest =>
      have now := settled.powered_entry powered entry
      have entered := settled.atEntry entry
      have put := entered.putBack vcpu last h
      obtain ⟨mask, flags⟩ := entered.left_control (leftBy_of_runGuest guest)
      obtain ⟨state, -, states, removed⟩ := put.states
      have id_eq : (vm.setVcpu id { vcpu with toVcpu := vcpu.exit (fun _ => h.context) h.cpu }).id = v := entered.id_eq
      have kept : state ≠ .none := fun none => by
        have set := (removed.mp none).2
        rw [id_eq, flags fun fid call => (orderly fid call).1] at set
        cases set
      have mask' := put.vcpuOnlineMask
      rw [id_eq, mask] at mask'
      rw [Powered, setVm_vms_same, setVm_el2]
      refine now.congr (fun t => ?_) (fun t => ?_) mask'
      · rw [states]
        by_cases same : t = id
        · rw [same, Function.update_self]
          exact iff_of_false kept ((now.created id) entered.there)
        · rw [Function.update_of_ne same]
          rfl
      · rw [put.vcpus, GuestVm.setVcpu_vcpus]
        by_cases same : t = id
        · rw [same, Function.update_self]
          exact iff_of_false (Option.some_ne_none _) entered.there
        · rw [Function.update_of_ne same]

/-- Iterations of other VMs count for nothing. -/
theorem Powered.of_eq {u : VmId} (powered : s.Powered u) (vms : s'.vms u = s.vms u)
    (vmState : s'.el2.vmState u = s.el2.vmState u) : s'.Powered u := by
  rwa [Powered, vms, vmState]

theorem Run.powered (started : Started start) (powered : start.Powered v) (run : Run start trace s)
    (orderly : ∀ label, (v, label) ∈ trace → Orderly label) : s.Powered v := by
  induction run with
  | nil => exact powered
  | @step trace t t' u label run step ih =>
      have before := ih fun label member => orderly label (List.mem_cons_of_mem _ member)
      by_cases same : u = v
      · subst same
        exact (run.settled started u).powered_step before step (orderly label List.mem_cons_self)
      · obtain ⟨vms, vmState⟩ := step.others (run.settled started u) (Ne.symm same)
        exact before.of_eq vms vmState

/-- In a run without terminal calls, in which every `CPU_ON` is for a vCPU that is off, `AFFINITY_INFO`
reports exactly the vCPUs that are registered with the scheduler, and each `CPU_ON` for one that is off
answers success and starts it. -/
theorem power_consistent (started : Started start) (boots : start.BootsFirst v) (run : Run start trace s)
    (orderly : ∀ label, (v, label) ∈ trace → Orderly label) :
    (∀ t : VcpuId, affinityInfo (BitVec.ofNat 64 t.val) (s.el2.vmState v).vcpuOnlineMask = some 0 ↔
      (s.vms v).scheduler.states t ≠ .none) ∧
    ∀ {id : VcpuId} {vcpu : GuestVcpu} {vm : GuestVm} {e e₁ : El2} {before : List (GuestException Other)}
      {x : GuestException Other} {h : Handled Other} {fid : U64} {t : VcpuId}, s.Entry v id vcpu vm e →
      runGuest before e = .running e₁ → x.psci = some fid → x.handle e₁ = some h → x.arg 1 = BitVec.ofNat 64 t.val →
      (IsAffinityInfo fid → (h.context.gpRegs 0 = 0 ↔ vm.scheduler.states t ≠ .none)) ∧
      (IsCpuOn fid → vm.scheduler.states t = .none → h.context.gpRegs 0 = psciSuccess ∧
        ∀ {trace' : List (VmId × TurnLabel Other)} {s' : System}, Run (s.afterGuest v vm id vcpu x h) trace' s' →
          (∀ turn ∈ trace', turn.1 ≠ v) →
          ∀ drained turn, (s'.vms v).beforeRun drained (s'.activate v).el2 = some turn →
            ∃ id' vcpu' vm' e', turn = .entry id' vcpu' vm' e' ∧
              vm'.Delivered (e'.vmState v) t (x.arg 2) (x.arg 3)) := by
  have powered := run.powered started boots.powered orderly
  have settled := run.settled started
  refine ⟨fun t => ?_, fun {id vcpu vm e e₁ before x h fid t} entry alive call handled target => ⟨fun info => ?_,
    fun on off => ⟨?_, fun run' others => ?_⟩⟩⟩
  · rw [affinityInfo_vcpu, Option.some.injEq, ← powered.online, VmGlobalState.isOnline_iff]
    exact answer_eq_zero_iff
  · have now := (settled v).powered_entry powered entry
    have control := (runGuest_eq_running alive).control
    rw [El2.currentVmState_eq ((settled v).atEntry entry).currentVmId] at control
    obtain ⟨context, vs, answer, regs, -⟩ := GuestException.handle_of_psci call handled
    rw [handlePsci_of_affinityInfo info, show (saveContext x.cpu).gpRegs 1 = _ from target, affinityInfo_vcpu,
      control.vcpuOnlineMask, Option.map_some, Option.some.injEq, Prod.mk.injEq, Prod.mk.injEq] at answer
    obtain ⟨-, rfl, -⟩ := answer
    rw [regs, VcpuContext.setX_same, ← now.online, VmGlobalState.isOnline_iff]
    exact answer_eq_zero_iff
  · cases GuestException.handle_outcome handled with
    | quiet _ other => exact absurd on (other fid call).1
    | cpuOn _ _ _ success => exact success
    | terminal call' terminal =>
        cases call.symm.trans call'
        exact absurd terminal on.not_terminal
  · have now := (settled v).powered_entry powered entry
    have free : vm.vcpus t = none := by_contra fun there => now.created t there off
    have leaves := runGuest_append_left alive handled (GuestException.leaves_of_cpuOn call on handled) []
    exact (delivered_later settled entry leaves call on (by rw [target, lowest_vcpu]) free run' others).2

theorem twoVms_bootsFirst : twoVms.startMulti.BootsFirst 0 where
  created t := by
    rw [Option.ne_none_iff_isSome]
    revert t
    decide
  registered := by decide
  online := by decide

/-- Once vCPU 1 has been started, it is reported as on. -/
theorem power_consistent_vcpu1 :
    ∃ vm s, Run twoVms.startMulti [(0, .ran 0 vm (hvcOf [psciCpuOn64, 1, 0x40200000, 7]))] s ∧
      ∀ t : VcpuId, affinityInfo (BitVec.ofNat 64 t.val) (s.el2.vmState 0).vcpuOnlineMask = some 0 ↔
        (s.vms 0).scheduler.states t ≠ .none := by
  have entry : twoVms.startMulti.Entry 0 0 _ _ _ := ⟨some fun _ => 0, rfl⟩
  have run : Run twoVms.startMulti [(0, .ran 0 _ (hvcOf [psciCpuOn64, 1, 0x40200000, 7]))] _ :=
    .step .nil (.ran entry (rfl : runGuest [hvcOf [psciCpuOn64, 1, 0x40200000, 7]] _ = _))
  refine ⟨_, _, run, (power_consistent (.multi twoVms_booted) twoVms_bootsFirst run ?_).1⟩
  intro label member
  obtain rfl := congrArg Prod.snd (List.mem_singleton.mp member)
  rintro fid ⟨⟩
  exact ⟨by decide, fun _ => ⟨1, rfl, rfl⟩⟩

/-- Iterations of VM `v`, one after another. -/
def turns (v : VmId) : List (Inputs Other) → System → Option System
  | [], s => some s
  | inputs :: rest, s => (s.turn v inputs).bind fun after => turns v rest after.2

theorem Run.turns (run : Run start trace s) {inputs : List (Inputs Other)} (ends : s.turns v inputs = some s') :
    ∃ trace' : List (VmId × TurnLabel Other), Run start trace' s' := by
  induction inputs generalizing s trace with
  | nil =>
      cases ends
      exact ⟨trace, run⟩
  | cons first rest ih =>
      obtain ⟨⟨done, after⟩, turn, ends⟩ := Option.bind_eq_some_iff.mp ends
      obtain ⟨label, step⟩ := exists_step_iff.mpr ⟨first, done, turn⟩
      exact ih (run.step step) ends

/-- The answer to an `AFFINITY_INFO` for vCPU 1 in the next turn of VM 0, and what the scheduler has. -/
def askForVcpu1 (s : System) : Option (U64 × RunState) :=
  match (s.vms 0).beforeRun (some fun _ => 0) (s.activate 0).el2 with
  | some (.entry _ _ vm e) =>
      ((hvcOf [psciAffinityInfo64, 1]).handle e).map fun h => (h.context.gpRegs 0, vm.scheduler.states 1)
  | _ => none

/-- vCPU 0 starts vCPU 1, which turns itself off; vCPU 0 still sees it on. -/
theorem affinityInfo_after_cpuOff :
    ∃ (trace : List (VmId × TurnLabel Empty)) (s : System), Run twoVms.startMulti trace s ∧
      ∃ id vcpu vm e h, s.Entry 0 id vcpu vm e ∧ (hvcOf [psciAffinityInfo64, 1]).handle e = some h ∧
        h.context.gpRegs 0 = 0 ∧ vm.scheduler.states 1 = .none := by
  have seen : (twoVms.startMulti.turns 0 [⟨some fun _ => 0, [hvcOf [psciCpuOn64, 1, 0x40200000, 7]]⟩,
      ⟨some fun _ => 0, [hvcOf [psciCpuOff]]⟩]).bind askForVcpu1 = some (0, .none) := by decide +kernel
  obtain ⟨s, ends, asked⟩ := Option.bind_eq_some_iff.mp seen
  obtain ⟨trace, run⟩ := Run.nil.turns ends
  rw [askForVcpu1] at asked
  split at asked
  case h_1 id vcpu vm e before =>
    obtain ⟨h, handled, same⟩ := Option.map_eq_some_iff.mp asked
    obtain ⟨on, off⟩ := Prod.mk.inj same
    exact ⟨trace, s, run, id, vcpu, vm, e, h, ⟨_, before⟩, handled, on, off⟩
  case h_2 => cases asked

/-! ## The end of a VM -/

/-- VM `v` runs no guest code any more and finishes after finitely many turns, whatever other VMs do
between them: every turn finds no vCPU to run, and the last one returns `true`. -/
inductive WindsDown (v : VmId) : System → Prop
  | done {s : System} {vm : GuestVm} {e : El2}
      (idle : ∀ drained, (s.vms v).beforeRun drained (s.activate v).el2 = some (.idle true vm e)) : WindsDown v s
  | again {s : System} {vm : GuestVm} {e : El2}
      (idle : ∀ drained, (s.vms v).beforeRun drained (s.activate v).el2 = some (.idle false vm e))
      (rest : ∀ s' : System, s'.vms v = vm → s'.el2.vmState v = e.vmState v → WindsDown v s') : WindsDown v s

/-- The exception `last` of vCPU `id` ends the VM: it is a system call, or it turns off the last vCPU that
had not turned itself off. -/
def EndsVm (v : VmId) (vm : GuestVm) (id : VcpuId) (last : GuestException Other)
    (trace : List (VmId × TurnLabel Other)) : Prop :=
  ∃ fid, last.psci = some fid ∧ (IsSystemCall fid ∨ fid = psciCpuOff ∧
    ∀ t, vm.vcpus t ≠ none → t ≠ id →
      ∃ entered before, (v, .ran t entered before) ∈ trace ∧ before.psci = some psciCpuOff)

omit [DecidableEq Other] in
theorem EndsVm.terminal (ends : EndsVm v vm id x trace) : ∃ fid, x.psci = some fid ∧ IsTerminal fid := by
  obtain ⟨fid, call, system | ⟨off, -⟩⟩ := ends
  · exact ⟨fid, call, .inr system⟩
  · exact ⟨fid, call, .inl off⟩

/-- A terminal call requests nothing. -/
theorem Settled.not_requested_of_terminal (settled : s.Settled v) (entry : s.Entry v id vcpu vm e)
    (guest : runGuest events e = .left x h) (call : x.psci = some fid) (terminal : IsTerminal fid) :
    ((s.afterGuest v vm id vcpu x h).el2.vmState v).pendingCpuOn.requested = false := by
  have entered := settled.atEntry entry
  have pending := (entered.putBack vcpu x h).pendingCpuOn
  rw [show (vm.setVcpu id _).id = v from entered.id_eq] at pending
  cases leftBy_of_runGuest guest with
  | quiet _ other => exact absurd terminal (other fid call).2
  | cpuOn call' on =>
      cases call.symm.trans call'
      exact absurd terminal on.not_terminal
  | terminal _ _ same sets =>
      rw [afterGuest, setVm_el2, pending, ← El2.currentVmState_eq (sets.currentVmId.trans entered.currentVmId),
        sets.current, VmGlobalState.setTerminalExit, same.pendingCpuOn, El2.currentVmState_eq entered.currentVmId,
        entered.requested]

/-- While a vCPU is in the table and in the mask, no turn returns `true`. -/
theorem WindsDown.not_up (down : WindsDown v s) (settled : s.Settled v)
    (idle : (s.el2.vmState v).pendingCpuOn.requested = false) (t : VcpuId) :
    (s.vms v).isUp (s.el2.vmState v) t = false := by
  have nothing {s : System} {done : Bool} {vm : GuestVm} {e : El2} (settled : s.Settled v)
      (idle : (s.el2.vmState v).pendingCpuOn.requested = false)
      (turn : (s.vms v).beforeRun none (s.activate v).el2 = some (.idle done vm e)) :
      GuestVm.Idled (s.vms v) (s.activate v).el2 done vm e := by
    obtain ⟨vm₁, e₁, took, idled⟩ := settled.idled turn
    obtain ⟨rfl, rfl⟩ := took.eq_of_not_requested (by rw [settled.id_eq]; exact idle)
    exact idled
  induction down with
  | done turn =>
      have all := (nothing settled idle (turn none)).done_iff.mp rfl t
      rwa [settled.id_eq] at all
  | @again s vm e turn rest ih =>
      have idled := nothing settled idle (turn none)
      have same : e.vmState v = s.el2.vmState v := by rw [idled.el2, activate_vmState]
      have next := ih (s.setVm v vm e) (setVm_vms_same ..) rfl (settled.of_idle (turn none))
        (by rw [setVm_el2, same, idle])
      rwa [setVm_vms_same, setVm_el2, same, GuestVm.isUp, idled.vcpus] at next

theorem WindsDown.not_runnable (down : WindsDown v s) (settled : s.Settled v)
    (idle : (s.el2.vmState v).pendingCpuOn.requested = false) (t : VcpuId) :
    ¬ (s.vms v).Runnable (s.el2.vmState v) t := by
  have first : ∃ done vm e, (s.vms v).beforeRun none (s.activate v).el2 = some (.idle done vm e) := by
    cases down with
    | done turn => exact ⟨_, _, _, turn none⟩
    | again turn => exact ⟨_, _, _, turn none⟩
  obtain ⟨done, vm, e, turn⟩ := first
  obtain ⟨vm₁, e₁, took, idled⟩ := settled.idled turn
  obtain ⟨rfl, rfl⟩ := took.eq_of_not_requested (by rw [settled.id_eq]; exact idle)
  have none := idled.not_runnable t
  rwa [settled.id_eq] at none

/-- A VM that has ended winds down exactly if no vCPU is left in both the table and the mask, and none is
left that the scheduler would run. -/
theorem windsDown_iff (started : Started start) (run : Run start ((v, .ran id vm x) :: trace) s)
    (ends : EndsVm v (s.vms v) id x trace) :
    WindsDown v s ↔ ∀ t, (s.vms v).isUp (s.el2.vmState v) t = false ∧ ¬ (s.vms v).Runnable (s.el2.vmState v) t := by
  have settled := run.settled started v
  have idle : (s.el2.vmState v).pendingCpuOn.requested = false := by
    obtain ⟨fid, call, terminal⟩ := ends.terminal
    cases run with
    | step before last =>
        cases last with
        | ran entry guest => exact (before.settled started v).not_requested_of_terminal entry guest call terminal
  refine ⟨fun down t => ⟨down.not_up settled idle t, down.not_runnable settled idle t⟩, fun none => ?_⟩
  obtain ⟨vm', turn⟩ := @GuestVm.beforeRun_of_not_runnable (s.vms v) (s.activate v).el2
    (by rw [settled.id_eq]; exact idle) settled.current (by rw [settled.id_eq]; exact fun t => (none t).2)
  have nobody : (List.finRange maxVcpus).any ((s.vms v).isUp ((s.activate v).el2.vmState v)) = false :=
    List.any_eq_false.mpr fun t _ => Bool.eq_false_iff.mp (none t).1
  rw [settled.id_eq, nobody] at turn
  exact .done turn

/-- Two VMs whose only vCPU has number 1, which is not in the mask. -/
def secondsOnly : System := ⟨.boot, fun v => ((GuestVm.new v).createVcpu 0 1).toOption.getD (.new v)⟩

theorem secondsOnly_booted : secondsOnly.Booted :=
  ⟨fun v => @GuestVm.Built.createVcpu _ (.new v) _ 1 (.new v) rfl, fun _ => rfl, fun _ => rfl⟩

theorem windsDown_of_second :
    ∃ vm s, Run secondsOnly.startMulti [(0, .ran 1 vm (hvcOf [psciSystemOff]))] s ∧ WindsDown 0 s := by
  have entry : secondsOnly.startMulti.Entry 0 1 _ _ _ := ⟨some fun _ => 0, rfl⟩
  have run : Run secondsOnly.startMulti [(0, .ran 1 _ (hvcOf [psciSystemOff]))] _ :=
    .step .nil (.ran entry (rfl : runGuest [hvcOf [psciSystemOff]] _ = _))
  refine ⟨_, _, run, (windsDown_iff (.multi secondsOnly_booted) run
    ⟨psciSystemOff, rfl, .inl (.inl rfl)⟩).mpr fun t => ⟨?_, ?_⟩⟩
  · revert t
    decide
  · rw [GuestVm.Runnable]
    revert t
    decide

/-- The only vCPU of VM 0 switches the system off, and VM 0 is never done. -/
theorem systemOff_does_not_end :
    ∃ vm s, Run twoVms.startMulti [(0, .ran 0 vm (hvcOf [psciSystemOff]))] s ∧
      EndsVm 0 (s.vms 0) 0 (hvcOf [psciSystemOff]) [] ∧ ¬ WindsDown 0 s := by
  have entry : twoVms.startMulti.Entry 0 0 _ _ _ := ⟨some fun _ => 0, rfl⟩
  have run : Run twoVms.startMulti [(0, .ran 0 _ (hvcOf [psciSystemOff]))] _ :=
    .step .nil (.ran entry (rfl : runGuest [hvcOf [psciSystemOff]] _ = _))
  refine ⟨_, _, run, ⟨psciSystemOff, rfl, .inl (.inl rfl)⟩, fun down => ?_⟩
  cases down.not_up (run.settled (.multi twoVms_booted) 0) rfl 0

end System

end Hypervisor
