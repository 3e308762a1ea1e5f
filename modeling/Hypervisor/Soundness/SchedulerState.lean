import Hypervisor.Soundness.Fairness

/-! # The scheduler under any calls

The scheduler writes `current` and the states of the vCPUs separately. The states of one vCPU form a small machine;
each call moves every vCPU along it, and `current` names the one that is running as long as no vCPU is added twice.
The calls that a VM makes are of this kind.
-/

namespace Hypervisor

inductive SchedulerCall
  | addVcpu (vcpuId : ℕ)
  | removeVcpu (vcpuId : ℕ)
  | pickNext
  | yieldCurrent
  | blockCurrent
  | unblock (vcpuId : ℕ)
deriving DecidableEq, Repr

namespace Scheduler

variable {s s' : Scheduler} {id slot : VcpuId} {call : SchedulerCall} {calls : List SchedulerCall}

def step (s : Scheduler) : SchedulerCall → Scheduler
  | .addVcpu vcpuId => s.addVcpu vcpuId
  | .removeVcpu vcpuId => s.removeVcpu vcpuId
  | .pickNext => s.pickNext.2
  | .yieldCurrent => s.yieldCurrent
  | .blockCurrent => s.blockCurrent
  | .unblock vcpuId => s.unblock vcpuId

def runCalls (s : Scheduler) (calls : List SchedulerCall) : Scheduler := calls.foldl step s

/-- A vCPU is added only while it is not registered. -/
def Permits (s : Scheduler) : SchedulerCall → Prop
  | .addVcpu vcpuId => s.state vcpuId = .none
  | _ => True

/-- Every call is made in a state that permits it. -/
def Issued (s : Scheduler) : List SchedulerCall → Prop
  | [] => True
  | call :: rest => s.Permits call ∧ (s.step call).Issued rest

theorem runCalls_append (s : Scheduler) (past rest : List SchedulerCall) :
    s.runCalls (past ++ rest) = (s.runCalls past).runCalls rest := List.foldl_append

theorem issued_append (past rest : List SchedulerCall) :
    s.Issued (past ++ rest) ↔ s.Issued past ∧ (s.runCalls past).Issued rest := by
  induction past generalizing s with
  | nil => simp only [List.nil_append, Issued, runCalls, List.foldl_nil, true_and]
  | cons call past ih =>
    simp only [List.cons_append, Issued, ih, and_assoc]
    rfl

/-! ## The machine of one vCPU -/

/-- How a call moves the state of vCPU `id`. -/
inductive Moves (id : VcpuId) : SchedulerCall → RunState → RunState → Prop
  | stays (call : SchedulerCall) (state : RunState) : Moves id call state state
  | added : Moves id (.addVcpu id) .none .ready
  | removed (state : RunState) : Moves id (.removeVcpu id) state .none
  | picked : Moves id .pickNext .ready .running
  | yielded : Moves id .yieldCurrent .running .ready
  | blocked : Moves id .blockCurrent .running .blocked
  | unblocked : Moves id (.unblock id) .blocked .ready

structure Agrees (s : Scheduler) : Prop where
  current_iff : ∀ id, s.current = some id ↔ s.states id = .running
  nextIdx_lt : s.nextIdx < maxVcpus

theorem agrees_new : new.Agrees := by
  refine ⟨fun id => iff_of_false ?_ ?_, by decide⟩
  · exact (Option.some_ne_none id).symm
  · rw [states_new]
    decide

/-- A call that writes the state of one vCPU. -/
structure Wrote (s : Scheduler) (call : SchedulerCall) (slot : VcpuId) (state : RunState) : Prop where
  move : Moves slot call (s.states slot) state
  states : (s.step call).states = Function.update s.states slot state
  current : (s.step call).current =
    if state = .running then some slot else if s.current = some slot then none else s.current
  alone : state = .running → ∀ t, s.states t ≠ .running
  nextIdx_lt : (s.step call).nextIdx < maxVcpus

/-- A number names a slot, or the calls that take it do nothing. -/
theorem slot_or_unchanged (s : Scheduler) (vcpuId : ℕ) : (∃ id : VcpuId, vcpuId = id.val) ∨
    s.addVcpu vcpuId = s ∧ s.removeVcpu vcpuId = s ∧ s.unblock vcpuId = s := by
  rcases Nat.lt_or_ge vcpuId maxVcpus with bound | large
  · exact .inl ⟨⟨vcpuId, bound⟩, rfl⟩
  · have out : ¬vcpuId < maxVcpus := Nat.not_lt.mpr large
    exact .inr ⟨dif_neg out, dif_neg out, dif_neg out⟩

/-- A vCPU that is not running is not the current one. -/
theorem Agrees.current_eq (agrees : s.Agrees) (idle : s.states slot ≠ .running) :
    s.current = if s.current = some slot then none else s.current := by
  rw [if_neg]
  exact fun current => idle ((agrees.current_iff slot).mp current)

/-- `add_vcpu` and `unblock`. -/
theorem Agrees.wrote_ready (agrees : s.Agrees) (after : s.step call = s.setState slot .ready)
    (move : Moves slot call (s.states slot) .ready) (idle : s.states slot ≠ .running) : s.Wrote call slot .ready := by
  refine ⟨move, ?_, ?_, fun running => (by cases running), ?_⟩
  · rw [after, setState_states]
  · rw [after, setState_current]
    exact agrees.current_eq idle
  · rw [after]
    exact agrees.nextIdx_lt

theorem Agrees.wrote_removeVcpu (agrees : s.Agrees) : s.Wrote (.removeVcpu slot) slot .none := by
  have after : s.step (.removeVcpu slot) =
      { s.setState slot .none with current := if s.current = some slot then none else s.current } :=
    s.removeVcpu_coe slot
  refine ⟨.removed _, ?_, ?_, fun running => (by cases running), ?_⟩
  · rw [after, setState_states]
  · rw [after]
    rfl
  · rw [after]
    exact agrees.nextIdx_lt

/-- `yield_current` and `block_current`. -/
theorem Agrees.wrote_leave (agrees : s.Agrees) {state : RunState} (leaves : s.step call = s.leaveCurrent state)
    (move : Moves slot call .running state) (stops : state ≠ .running) (current : s.current = some slot) :
    s.Wrote call slot state := by
  have after := leaves.trans (leaveCurrent_of_current current)
  refine ⟨(agrees.current_iff slot).mp current ▸ move, ?_, ?_, fun running => absurd running stops, ?_⟩
  · rw [after, setState_states]
  · rw [after, if_neg stops, if_pos current]
  · rw [after]
    exact Nat.mod_lt _ (by decide)

theorem Agrees.wrote_pickNext (agrees : s.Agrees) (idle : ∀ t, s.current = some t → s.states t ≠ .running)
    (pick : s.pickNext = (some slot, s')) (search : s.pickReady = (some slot, s')) :
    s.Wrote .pickNext slot .running := by
  obtain ⟨ready, rfl⟩ := pickReady_eq_some search
  have after : s.step .pickNext = { s.setState slot .running with current := some slot } := congrArg Prod.snd pick
  refine ⟨ready ▸ .picked, ?_, ?_, fun _ t running => ?_, ?_⟩
  · rw [after, setState_states]
  · rw [after, if_pos rfl]
  · exact idle t ((agrees.current_iff t).mpr running) running
  · rw [after]
    exact agrees.nextIdx_lt

/-- All that a call can do. -/
theorem Agrees.call_cases (agrees : s.Agrees) (permits : s.Permits call) :
    s.step call = s ∨ ∃ slot state, s.Wrote call slot state := by
  cases call with
  | addVcpu vcpuId =>
    obtain ⟨slot, rfl⟩ | ⟨unchanged, -⟩ := s.slot_or_unchanged vcpuId
    · have free : s.states slot = .none := (s.state_coe slot).symm.trans permits
      exact .inr ⟨slot, _, agrees.wrote_ready (s.addVcpu_coe slot) (free ▸ .added) (by rw [free]; decide)⟩
    · exact .inl unchanged
  | removeVcpu vcpuId =>
    obtain ⟨slot, rfl⟩ | ⟨-, unchanged, -⟩ := s.slot_or_unchanged vcpuId
    · exact .inr ⟨slot, _, agrees.wrote_removeVcpu⟩
    · exact .inl unchanged
  | pickNext =>
    -- nothing is written when nothing is ready, and when the vCPU that is running is picked again
    rcases pick : s.pickNext with ⟨_ | slot, s'⟩
    · exact .inl ((congrArg Prod.snd pick).trans (pickNext_eq_none pick).1)
    · rcases pickNext_cases pick with ⟨-, -, rfl⟩ | ⟨idle, search⟩
      · exact .inl (congrArg Prod.snd pick)
      · exact .inr ⟨slot, _, agrees.wrote_pickNext idle pick search⟩
  | yieldCurrent =>
    cases current : s.current with
    | none => exact .inl (by rw [step, yieldCurrent, leaveCurrent, current])
    | some slot => exact .inr ⟨slot, _, agrees.wrote_leave rfl .yielded (by decide) current⟩
  | blockCurrent =>
    cases current : s.current with
    | none => exact .inl (by rw [step, blockCurrent, leaveCurrent, current])
    | some slot => exact .inr ⟨slot, _, agrees.wrote_leave rfl .blocked (by decide) current⟩
  | unblock vcpuId =>
    obtain ⟨slot, rfl⟩ | ⟨-, -, unchanged⟩ := s.slot_or_unchanged vcpuId
    · by_cases blocked : s.states slot = .blocked
      · have after : s.step (.unblock slot) = s.setState slot .ready := (s.unblock_coe slot).trans (if_pos blocked)
        exact .inr ⟨slot, _, agrees.wrote_ready after (blocked ▸ .unblocked) (by rw [blocked]; decide)⟩
      · exact .inl ((s.unblock_coe slot).trans (if_neg blocked))
    · exact .inl unchanged

theorem Agrees.moves (agrees : s.Agrees) (permits : s.Permits call) (id : VcpuId) :
    Moves id call (s.states id) ((s.step call).states id) := by
  rcases agrees.call_cases permits with same | ⟨slot, state, wrote⟩
  · rw [same]
    exact .stays call _
  · rw [wrote.states]
    by_cases here : id = slot
    · rw [here, Function.update_self]
      exact wrote.move
    · rw [Function.update_of_ne here]
      exact .stays call _

theorem Wrote.current_iff (agrees : s.Agrees) {state : RunState} (wrote : s.Wrote call slot state) (id : VcpuId) :
    (s.step call).current = some id ↔ (s.step call).states id = .running := by
  rw [wrote.current, wrote.states]
  by_cases running : state = .running
  · rw [if_pos running, running, Option.some_inj]
    by_cases here : id = slot
    · rw [here, Function.update_self]
      exact iff_of_true rfl rfl
    · rw [Function.update_of_ne here]
      exact iff_of_false (Ne.symm here) (wrote.alone running id)
  · rw [if_neg running]
    by_cases here : id = slot
    · rw [here, Function.update_self]
      refine iff_of_false ?_ running
      split_ifs with current
      · exact not_false
      · exact current
    · rw [Function.update_of_ne here, ← agrees.current_iff id]
      split_ifs with current
      · rw [current, Option.some_inj]
        exact iff_of_false not_false (Ne.symm here)
      · exact Iff.rfl

theorem Agrees.step (agrees : s.Agrees) (permits : s.Permits call) : (s.step call).Agrees := by
  rcases agrees.call_cases permits with same | ⟨slot, state, wrote⟩
  · rwa [same]
  · exact ⟨wrote.current_iff agrees, wrote.nextIdx_lt⟩

/-! ## Runs -/

theorem Agrees.runCalls (agrees : s.Agrees) (issued : s.Issued calls) : (s.runCalls calls).Agrees := by
  induction calls generalizing s with
  | nil => exact agrees
  | cons call rest ih => exact ih (agrees.step issued.1) issued.2

/-- What no call of a run moves a vCPU out of, it stays in. -/
theorem Agrees.runCalls_states {P : RunState → Prop} (agrees : s.Agrees) (issued : s.Issued calls)
    (closed : ∀ call ∈ calls, ∀ before after, Moves id call before after → P before → P after)
    (start : P (s.states id)) : P ((s.runCalls calls).states id) := by
  induction calls generalizing s with
  | nil => exact start
  | cons call rest ih =>
    have next := closed call List.mem_cons_self _ _ (agrees.moves issued.1 id) start
    exact ih (agrees.step issued.1) issued.2 (fun call member => closed call (List.mem_cons_of_mem _ member)) next

/-- A vCPU is picked when it is ready or running. -/
theorem pickNext_ne (idle : s.states id = .blocked ∨ s.states id = .none) : s.pickNext.1 ≠ some id := by
  intro picked
  obtain ⟨state, -⟩ := pickNext_eq_some (Prod.ext picked rfl : s.pickNext = (some id, s.pickNext.2))
  rcases idle with same | same <;> simp [same] at state

theorem blockCurrent_states (current : s.current = some id) : (s.step .blockCurrent).states id = .blocked := by
  rw [step, blockCurrent, leaveCurrent_of_current current]
  exact Function.update_self ..

theorem step_removeVcpu_states (s : Scheduler) (id : VcpuId) : (s.step (.removeVcpu id)).states id = .none := by
  rw [step, removeVcpu_states]
  exact Function.update_self ..

/-- The scheduler after some calls. -/
structure Consistent (calls : List SchedulerCall) : Prop where
  current_iff : ∀ id, (new.runCalls calls).current = some id ↔ (new.runCalls calls).states id = .running
  single : ∀ i j, (new.runCalls calls).states i = .running → (new.runCalls calls).states j = .running → i = j
  nextIdx_lt : (new.runCalls calls).nextIdx < maxVcpus
  /-- A vCPU that was blocked and since then neither unblocked nor added again is not picked. -/
  blocked : ∀ (past since : List SchedulerCall) (id : VcpuId), calls = past ++ .blockCurrent :: since →
    (new.runCalls past).current = some id → .unblock id ∉ since → .addVcpu id ∉ since →
      (new.runCalls calls).pickNext.1 ≠ some id
  /-- A vCPU that was removed and since then not added again is not picked, even if it was unblocked. -/
  removed : ∀ (past since : List SchedulerCall) (id : VcpuId), calls = past ++ .removeVcpu id :: since →
    .addVcpu id ∉ since → (new.runCalls calls).pickNext.1 ≠ some id

theorem Agrees.blocked_stays (agrees : s.Agrees) (issued : s.Issued calls) (blocked : s.states id = .blocked)
    (asleep : .unblock id.val ∉ calls) (gone : .addVcpu id.val ∉ calls) :
    (s.runCalls calls).states id = .blocked ∨ (s.runCalls calls).states id = .none := by
  refine agrees.runCalls_states (P := fun state => state = .blocked ∨ state = .none) issued ?_ (.inl blocked)
  intro call member before after move start
  cases move with
  | stays => exact start
  | added => exact absurd member gone
  | removed => exact .inr rfl
  | unblocked => exact absurd member asleep
  | picked | yielded | blocked => simp at start

theorem Agrees.removed_stays (agrees : s.Agrees) (issued : s.Issued calls) (removed : s.states id = .none)
    (gone : .addVcpu id.val ∉ calls) : (s.runCalls calls).states id = .none := by
  refine agrees.runCalls_states (P := fun state => state = .none) issued ?_ removed
  intro call member before after move start
  cases move with
  | stays => exact start
  | added => exact absurd member gone
  | removed => rfl
  | picked | yielded | blocked | unblocked => cases start

theorem scheduler_consistent (issued : new.Issued calls) : Consistent calls := by
  have agrees := agrees_new.runCalls issued
  constructor
  · exact agrees.current_iff
  · intro i j first second
    have same := ((agrees.current_iff i).mpr first).symm.trans ((agrees.current_iff j).mpr second)
    exact Option.some.inj same
  · exact agrees.nextIdx_lt
  · rintro past since id rfl current asleep gone
    obtain ⟨before, permits, after⟩ := (issued_append past _).mp issued
    have then_agrees := (agrees_new.runCalls before).step permits
    rw [runCalls_append]
    exact pickNext_ne (then_agrees.blocked_stays after (blockCurrent_states current) asleep gone)
  · rintro past since id rfl gone
    obtain ⟨before, permits, after⟩ := (issued_append past _).mp issued
    have then_agrees := (agrees_new.runCalls before).step permits
    rw [runCalls_append]
    exact pickNext_ne (.inr (then_agrees.removed_stays after (step_removeVcpu_states _ id) gone))

/-- vCPU 0 blocks, vCPU 1 runs in its place and is removed. -/
theorem scheduler_consistent_two_vcpus : ∃ calls : List SchedulerCall,
    calls = [.addVcpu 0, .addVcpu 1, .pickNext, .blockCurrent, .pickNext, .removeVcpu 1] ∧
      Consistent calls ∧ (new.runCalls calls).pickNext.1 = none := by
  refine ⟨_, rfl, scheduler_consistent ⟨rfl, rfl, ?_⟩, by decide⟩
  exact ⟨True.intro, True.intro, True.intro, True.intro, True.intro⟩

/-! ## The calls of a VM

A VM adds a vCPU to its scheduler when it fills an empty slot, and what is registered has a slot that is filled.
-/

/-- Calls that are permitted lead from one scheduler to the other. -/
def Serves (s s' : Scheduler) : Prop := ∃ calls, s.Issued calls ∧ s.runCalls calls = s'

theorem Serves.refl (s : Scheduler) : s.Serves s := ⟨[], True.intro, rfl⟩

theorem Serves.trans {s'' : Scheduler} (first : s.Serves s') (second : s'.Serves s'') : s.Serves s'' := by
  obtain ⟨calls, issued, rfl⟩ := first
  obtain ⟨more, issued', rfl⟩ := second
  exact ⟨calls ++ more, (issued_append calls more).mpr ⟨issued, issued'⟩, runCalls_append ..⟩

theorem serves_step (permits : s.Permits call) : s.Serves (s.step call) := ⟨[call], ⟨permits, True.intro⟩, rfl⟩

theorem serves_pickNext (s : Scheduler) : s.Serves s.pickNext.2 := ⟨[.pickNext], ⟨True.intro, True.intro⟩, rfl⟩

theorem serves_addVcpu (free : s.states slot = .none) : s.Serves (s.setState slot .ready) := by
  have permits : s.Permits (.addVcpu slot) := (s.state_coe slot).trans free
  have served := serves_step permits
  rwa [step, addVcpu_coe] at served

end Scheduler

namespace GuestVm

variable {vm vm' : GuestVm} {e e' : El2}

theorem serves_unblockAll (test : VcpuId → Bool) (s : Scheduler) : s.Serves (unblockAll test s) := by
  rw [unblockAll]
  induction List.finRange maxVcpus generalizing s with
  | nil => exact .refl s
  | cons id rest ih =>
    rw [List.foldl_cons]
    have unblocked : s.Serves (s.step (.unblock id)) := Scheduler.serves_step True.intro
    refine .trans ?_ (ih _)
    split_ifs
    · exact unblocked
    · exact .refl s

theorem Took.serves (took : Took vm e vm' e')
    (registered : ∀ t, vm.scheduler.states t ≠ .none → vm.vcpus t ≠ none) : vm.scheduler.Serves vm'.scheduler := by
  cases took with
  | nothing => exact .refl _
  | dropped => exact .refl _
  | booted t _ free =>
    rw [bootSecondaryVcpu_scheduler]
    exact Scheduler.serves_addVcpu (by_contra fun some => registered t some free)

/-- The VM at that point. -/
def Turn.guestVm : Turn → GuestVm
  | .idle _ vm _ => vm
  | .entry _ _ vm _ => vm

theorem serves_beforeRun {drained : Option (VcpuId → U32)} {turn : Turn}
    (registered : ∀ t, vm.scheduler.states t ≠ .none → vm.vcpus t ≠ none)
    (run : vm.beforeRun drained e = some turn) : vm.scheduler.Serves turn.guestVm.scheduler := by
  have took := (took_takeCpuOn vm e).serves registered
  unfold beforeRun at run
  generalize vm.takeCpuOn e = after at *
  obtain ⟨vm₁, e₁⟩ := after
  dsimp only at *
  have woken : vm.scheduler.Serves (vm₁.wakePendingVcpus (e₁.vmState vm₁.id)).scheduler :=
    took.trans (serves_unblockAll (vm₁.hasPending (e₁.vmState vm₁.id)) vm₁.scheduler)
  have picked := woken.trans (Scheduler.serves_pickNext _)
  rcases pick : (vm₁.wakePendingVcpus (e₁.vmState vm₁.id)).scheduler.pickNext with ⟨_ | id, s⟩
  · rw [pick] at run picked
    cases run
    exact picked.trans (serves_unblockAll ..)
  · rw [pick] at run picked
    obtain ⟨spis, -, run⟩ := Option.bind_eq_some_iff.mp run
    obtain ⟨saved, -, rfl⟩ := Option.map_eq_some_iff.mp run
    exact picked

theorem serves_afterRun (vm : GuestVm) (id : VcpuId) (result : RunResult) (e : El2) :
    vm.scheduler.Serves (vm.afterRun id result e).1.scheduler := by
  have removed : vm.scheduler.Serves (vm.scheduler.step (.removeVcpu id)) := Scheduler.serves_step True.intro
  have yielded : vm.scheduler.Serves (vm.scheduler.step .yieldCurrent) := Scheduler.serves_step True.intro
  have blocked : vm.scheduler.Serves (vm.scheduler.step .blockCurrent) := Scheduler.serves_step True.intro
  cases result with
  | ok =>
    rw [afterRun]
    split_ifs
    · exact removed
    · exact yielded
    · exact yielded
    · exact yielded
  | wfi => exact blocked

theorem Built.serves {mpidrEl1 : U64} (built : Built mpidrEl1 vm) : Scheduler.new.Serves vm.scheduler := by
  induction built with
  | new id => exact .refl _
  | createVcpu built created ih =>
    obtain ⟨slot, -, free, -, scheduler⟩ := createVcpu_eq_ok created
    rw [scheduler]
    exact ih.trans (Scheduler.serves_addVcpu (by_contra fun some => built.fresh.registered slot some free))
  | addVcpu _ added ih =>
    obtain ⟨-, -, scheduler⟩ := addVcpu_eq_ok added
    rwa [scheduler]
  | setVcpu _ _ _ ih => exact ih

end GuestVm

namespace System

variable {Other : Type} [DecidableEq Other] {s s' : System} {v : VmId} {label : TurnLabel Other}

theorem Settled.serves_entry {id : VcpuId} {vcpu : GuestVcpu} {vm : GuestVm} {e : El2} (settled : s.Settled v)
    (entry : s.Entry v id vcpu vm e) : (s.vms v).scheduler.Serves vm.scheduler := by
  obtain ⟨drained, before⟩ := entry
  exact GuestVm.serves_beforeRun settled.registered before

theorem Step.serves (settled : ∀ u, s.Settled u) (step : s.Step v label s') (u : VmId) :
    (s.vms u).scheduler.Serves (s'.vms u).scheduler := by
  by_cases same : u = v
  · subst same
    cases step with
    | idle before =>
      rw [setVm_vms_same]
      exact GuestVm.serves_beforeRun (settled u).registered before
    | @ran events id vcpu vm e last h entry guest =>
      rw [setVm_vms_same]
      exact ((settled u).serves_entry entry).trans (GuestVm.serves_afterRun (vm.setVcpu id _) id last.result h.el2)
  · rw [(step.others (settled v) same).1]
    exact .refl _

/-- The state of a VM is not that of its scheduler. -/
theorem setVm_state_scheduler (s : System) (v : VmId) (state : VmRunState) (e : El2) (u : VmId) :
    ((s.setVm v { s.vms v with state } e).vms u).scheduler = (s.vms u).scheduler := by
  by_cases same : u = v
  · rw [same, setVm_vms_same]
  · rw [setVm_vms_of_ne same]

theorem markRunning_scheduler (s : System) (v u : VmId) :
    ((s.markRunning v).vms u).scheduler = (s.vms u).scheduler := by
  rw [markRunning]
  split_ifs
  · exact setVm_state_scheduler ..
  · rfl

theorem Started.serves (started : s.Started) (u : VmId) : Scheduler.new.Serves (s.vms u).scheduler := by
  cases started with
  | @smp s₀ _ v booted start =>
    rw [startSmp] at start
    split_ifs at start
    cases start
    have same := setVm_state_scheduler (s₀.activate v) v .running
      ((s₀.activate v).el2.setVmState v ((s₀.el2.vmState v).setOnline 0)) u
    exact same.symm ▸ (booted.built u).serves
  | @multi s booted =>
    have same : (s.startMulti.vms u).scheduler = (s.vms u).scheduler :=
      (markRunning_scheduler _ 1 u).trans (markRunning_scheduler s 0 u)
    rw [same]
    exact (booted.built u).serves

theorem InLoop.serves (inLoop : s.InLoop Other) (u : VmId) : Scheduler.new.Serves (s.vms u).scheduler := by
  cases inLoop with
  | @turns start s trace started run =>
    induction run with
    | nil => exact started.serves u
    | step run step ih => exact ih.trans (step.serves (run.settled started) u)
  | @multi m reached =>
    induction reached with
    | start booted => exact Started.serves (.multi booted) u
    | @step m m' inputs reached step ih =>
      rw [MultiVm.step] at step
      split_ifs at step with done
      · cases step
        exact ih
      · obtain ⟨⟨finished, after⟩, turn, rfl⟩ := Option.map_eq_some_iff.mp step
        obtain ⟨label, taken⟩ := exists_step_iff.mpr ⟨inputs, finished, turn⟩
        have served := ih.trans (taken.serves reached.settled u)
        cases finished with
        | true =>
          have same := setVm_state_scheduler after m.next .ready after.el2 u
          exact same.symm ▸ served
        | false => exact served

end System

namespace Scheduler

variable {Other : Type} [DecidableEq Other] {s : Scheduler}

theorem Reached.serves (reached : s.Reached Other) : new.Serves s := by
  cases reached with
  | between inLoop v => exact inLoop.serves v
  | entered inLoop entry => exact (inLoop.serves _).trans ((inLoop.settled _).serves_entry entry)

/-- Between two iterations and while a vCPU runs, the scheduler of a VM names the vCPU that is running. -/
theorem Reached.agrees (reached : s.Reached Other) : s.Agrees := by
  obtain ⟨calls, issued, rfl⟩ := reached.serves
  exact agrees_new.runCalls issued

theorem agrees_twoVms : ((MultiVm.start .twoVms).sys.vms 0).scheduler.Agrees :=
  Reached.agrees (.between (.multi (.start System.twoVms_booted)) 0 : Reached Empty _)

end Scheduler

end Hypervisor
