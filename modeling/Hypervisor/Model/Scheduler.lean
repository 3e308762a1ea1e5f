import Hypervisor.Model.Defs
import Mathlib.Logic.Function.Basic

/-! # The vCPU scheduler

`scheduler.rs`: round robin over the vCPU slots of one VM. A slot number that is out of range is
ignored by the operations that take one.
-/

namespace Hypervisor

/-- `vm::MAX_VCPUS`. -/
abbrev maxVcpus : ℕ := 8

instance : NeZero maxVcpus := ⟨by decide⟩

/-- A vCPU slot of a VM. -/
abbrev VcpuId := Fin maxVcpus

inductive RunState where
  /-- Not registered. -/
  | none
  | ready
  | running
  /-- Waiting, for example for I/O. -/
  | blocked
deriving DecidableEq, Repr

structure Scheduler where
  states : VcpuId → RunState
  /-- The vCPU that is running, if any. -/
  current : Option VcpuId
  /-- Where the next search starts. -/
  nextIdx : ℕ

namespace Scheduler

def new : Scheduler := ⟨fun _ => .none, none, 0⟩

def setState (s : Scheduler) (id : VcpuId) (state : RunState) : Scheduler :=
  { s with states := Function.update s.states id state }

def addVcpu (s : Scheduler) (vcpuId : ℕ) : Scheduler :=
  if bound : vcpuId < maxVcpus then s.setState ⟨vcpuId, bound⟩ .ready else s

def removeVcpu (s : Scheduler) (vcpuId : ℕ) : Scheduler :=
  if bound : vcpuId < maxVcpus then
    { s.setState ⟨vcpuId, bound⟩ .none with
      current := if s.current = some ⟨vcpuId, bound⟩ then none else s.current }
  else s

/-- The slots in the order in which they are searched. -/
def order (s : Scheduler) : List VcpuId := (List.range maxVcpus).map fun i => Fin.ofNat maxVcpus (s.nextIdx + i)

/-- The search of `pick_next`. -/
def pickReady (s : Scheduler) : Option VcpuId × Scheduler :=
  match s.order.find? fun id => s.states id = .ready with
  | some id => (some id, { s.setState id .running with current := some id })
  | none => (none, s)

/-- A vCPU that is still running is picked again. -/
def pickNext (s : Scheduler) : Option VcpuId × Scheduler :=
  match s.current with
  | some id => if s.states id = .running then (some id, s) else s.pickReady
  | none => s.pickReady

/-- The current vCPU stops running and the next search starts behind it. -/
def leaveCurrent (s : Scheduler) (state : RunState) : Scheduler :=
  match s.current with
  | some id => { s.setState id state with current := none, nextIdx := (id.val + 1) % maxVcpus }
  | none => s

def yieldCurrent (s : Scheduler) : Scheduler := s.leaveCurrent .ready

def blockCurrent (s : Scheduler) : Scheduler := s.leaveCurrent .blocked

def unblock (s : Scheduler) (vcpuId : ℕ) : Scheduler :=
  if bound : vcpuId < maxVcpus then
    if s.states ⟨vcpuId, bound⟩ = .blocked then s.setState ⟨vcpuId, bound⟩ .ready else s
  else s

def state (s : Scheduler) (vcpuId : ℕ) : RunState :=
  if bound : vcpuId < maxVcpus then s.states ⟨vcpuId, bound⟩ else .none

section Lemmas

variable (s : Scheduler) (id : VcpuId)

@[simp] theorem states_new (t : VcpuId) : new.states t = .none := rfl

@[simp] theorem setState_states (state : RunState) : (s.setState id state).states = Function.update s.states id state :=
  rfl

@[simp] theorem setState_current (state : RunState) : (s.setState id state).current = s.current := rfl

@[simp] theorem addVcpu_coe : s.addVcpu id = s.setState id .ready := dif_pos id.isLt

theorem removeVcpu_coe : s.removeVcpu id =
    { s.setState id .none with current := if s.current = some id then none else s.current } := dif_pos id.isLt

@[simp] theorem removeVcpu_states : (s.removeVcpu id).states = Function.update s.states id .none := by
  rw [removeVcpu_coe]
  rfl

@[simp] theorem state_coe : s.state id = s.states id := dif_pos id.isLt

theorem unblock_coe : s.unblock id = if s.states id = .blocked then s.setState id .ready else s := dif_pos id.isLt

end Lemmas

end Scheduler

end Hypervisor
