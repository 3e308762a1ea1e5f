import Hypervisor.Proofs.Handlers
import Mathlib.Logic.Relation

/-! # The sharing protocol without tables

The ledger is what the memory calls are about: the view of every VM and the share records. `Effect`
lists what one call can do to it, and `MemCall.effect` says that the handlers do nothing else. A run
is a sequence of calls by booted VMs, with anything in between that keeps the tables sound and the
views and records as they are: the rest of the hypervisor may use the heap, so that page requests
fail in any pattern. Properties of runs follow from `Reach.invariant` by cases on `Effect`.
-/

namespace Hypervisor

/-- The views, the share records and the number of refused page requests. -/
structure Ledger where
  view : View
  records : List MemShareRecord
  refused : ℕ

def Machine.ledger (m : Machine) : Ledger := ⟨m.view, m.spmc.records, m.phys.refused⟩

theorem Machine.after_ledger {m : Machine} {v : VmId} {phys : Phys} {spmc : StubSpmc} {space : Space}
    (refines : Refines m.perVmVttbr phys space) :
    (m.after v phys spmc).ledger = ⟨space.view, spmc.records, phys.refused⟩ := by
  rw [ledger, after_view refines]
  rfl

/-- The translation of a page in the tables of its sender. -/
def sharedTranslation (isLend : Bool) : Translation → Translation :=
  Translation.retag PageOwnership.sharedOwned.bits (senderS2ap isLend)

/-- The tags that a share or lend leaves do not permit stores. -/
theorem sharedTranslation_marks (isLend : Bool) (tr : Translation) :
    (sharedTranslation isLend tr).sw = 1 ∧ (sharedTranslation isLend tr).writable = false ∧
      (isLend = true → (sharedTranslation isLend tr).s2ap = 0) := by
  have closed : ∀ lend : Bool, PageOwnership.sharedOwned.bits &&& 3 = 1 ∧
      (senderS2ap lend &&& 3).getLsbD 1 = false ∧ (lend = true → senderS2ap lend &&& 3 = 0) := by decide
  exact closed isLend

def reclaimedTranslation : Translation → Translation :=
  Translation.retag PageOwnership.owned.bits ((s2apRw >>> s2apShift).setWidth 8)

/-- The call that shares or lends. -/
def shareCall (isLend : Bool) : MemCall := if isLend then .lend else .share

/-- VM `v` shares or lends owned pages. All of them change if no page request is refused. -/
structure Shares (L : Ledger) (v : VmId) (isLend : Bool) (ranges : List AddrRange) (R : ℕ → Prop)
    (W : View) (refused : ℕ) : Prop where
  owned : ∀ a ∈ covered ranges, ∃ leaf, L.view v a = some leaf ∧ leaf.translation.sw = 0
  retyped : Retyped v R (sharedTranslation isLend) L.view W
  inside : Small L.view v → ∀ b, R b → b ∈ covered ranges
  complete : refused = L.refused → ∀ a ∈ covered ranges, R a

/-- What a call by VM `v` can do. -/
inductive Effect (L : Ledger) (v : VmId) (ctx : GpRegs) : MemCall → Ledger → Prop
  | refuse (call : MemCall) (refused : ℕ) : Effect L v ctx call { L with refused }
  | full {isLend : Bool} {ranges : List AddrRange} {R : ℕ → Prop} {W : View} {refused : ℕ} :
      Shares L v isLend ranges R W refused →
      Effect L v ctx (shareCall isLend) ⟨W, L.records, refused⟩
  | share {isLend : Bool} {ranges : List AddrRange} {R : ℕ → Prop} {W : View} {refused i : ℕ}
      {free record : MemShareRecord} :
      Shares L v isLend ranges R W refused → L.records[i]? = some free → free.active = false →
      record.senderId = vmIdToPartitionId v → record.ranges = ranges.take maxShareRanges →
      record.active = true → record.isLend = isLend → record.retrieved = false →
      Effect L v ctx (shareCall isLend) ⟨W, L.records.set i record, refused⟩
  | reclaim {R : ℕ → Prop} {W : View} {refused i : ℕ} {record : MemShareRecord} :
      Found L.records (handleOf ctx) i record → record.retrieved = false →
      Retyped v R reclaimedTranslation L.view W →
      (Small L.view v → ∀ b, R b → b ∈ covered record.ranges) →
      Effect L v ctx .reclaim ⟨W, L.records.set i { record with active := false }, refused⟩
  | retrieve {W : View} {refused i : ℕ} {record : MemShareRecord} :
      Found L.records (handleOf ctx) i record → vmIdToPartitionId v = record.receiverId →
      record.retrieved = false → Borrows v (pages record.ranges) L.view W →
      Effect L v ctx .retrieveReq ⟨W, L.records.set i { record with retrieved := true }, refused⟩
  | relinquish {refused i : ℕ} {record : MemShareRecord} :
      Found L.records (handleOf ctx) i record → vmIdToPartitionId v = record.receiverId →
      record.retrieved = true →
      Effect L v ctx .relinquish ⟨returned v (covered record.ranges) L.view,
        L.records.set i { record with retrieved := false }, refused⟩

section Simulation

variable {m m' : Machine} {v : VmId} {ctx regs : GpRegs} {ram : GuestRam} {isLend : Bool}

/-- A request that passed the checks shares pages, recorded or not. -/
theorem shares_of_accepts {request : ShareRequest} {phys : Phys} {room : ℕ}
    (accepts : m.Accepts v ctx ram request)
    (refines : Refines m.perVmVttbr phys (Space.retagAll v PageOwnership.sharedOwned.bits
      (senderS2ap isLend) (covered request.ranges) (m.space room))) :
    Shares m.ledger v isLend request.ranges
      (Space.Reached v PageOwnership.sharedOwned.bits (senderS2ap isLend) (covered request.ranges)
        (m.space room))
      (Space.retagAll v PageOwnership.sharedOwned.bits (senderS2ap isLend) (covered request.ranges)
        (m.space room)).view phys.refused where
  owned := accepts.owned
  retyped := Space.retagAll_retyped
  inside small b reached := reached.mem small
  complete kept a member := by
    obtain ⟨leaf, mapped, -⟩ := accepts.owned a member
    exact Space.reached_of_mapped (refines.2.2.symm.trans kept) member mapped

theorem share_effect (wf : m.Wf) (booted : m.perVmVttbr v ≠ 0)
    (run : handleMemShareOrLend (m.activate v) ctx ram isLend = some (regs, m')) :
    m'.Wf ∧ m'.perVmVttbr = m.perVmVttbr ∧ Effect m.ledger v ctx (shareCall isLend) m'.ledger := by
  obtain ⟨room, refines⟩ := wf.refines
  rcases share_cases wf booted run with ⟨code, -, -, rfl⟩ | ⟨request, phys, accepts, retag, outcome⟩
  · exact ⟨wf.after refines, rfl, .refuse _ _⟩
  · have refines' := retag room refines
    have shares := shares_of_accepts accepts refines'
    rcases outcome with ⟨-, -, rfl⟩ | ⟨i, free, here, inactive, -, rfl⟩
    · refine ⟨wf.after refines', rfl, ?_⟩
      rw [Machine.after_ledger refines']
      exact .full shares
    · refine ⟨wf.after refines', rfl, ?_⟩
      rw [Machine.after_ledger refines']
      exact .share shares here inactive rfl rfl rfl rfl rfl

/-- Every handler keeps the tables sound and does to the ledger what `Effect` says. -/
theorem MemCall.effect {call : MemCall} (wf : m.Wf) (booted : m.perVmVttbr v ≠ 0)
    (run : call.handle (m.activate v) ctx ram = some (regs, m')) :
    m'.Wf ∧ m'.perVmVttbr = m.perVmVttbr ∧ Effect m.ledger v ctx call m'.ledger := by
  obtain ⟨room, refines⟩ := wf.refines
  cases call with
  | share => exact share_effect wf booted run
  | lend => exact share_effect wf booted run
  | reclaim =>
    rcases reclaim_cases wf booted run with ⟨code, -, rfl⟩ | ⟨i, record, phys, found, idle, retag, -, rfl⟩
    · exact ⟨wf.after refines, rfl, .refuse _ _⟩
    · have refines' := retag room refines
      refine ⟨wf.after refines', rfl, ?_⟩
      rw [Machine.after_ledger refines']
      have retyped : Retyped v (Space.Reached v _ _ (covered record.ranges) (m.space room))
          reclaimedTranslation m.ledger.view _ := Space.retagAll_retyped
      exact .reclaim found idle retyped fun small b reached => reached.mem small
  | retrieveReq =>
    rcases retrieve_cases wf booted run with ⟨code, phys, space, -, rfl, refines', same⟩ |
      ⟨i, record, phys, space, found, receiver, idle, refines', borrows, -, rfl⟩
    · refine ⟨wf.after refines', rfl, ?_⟩
      rw [Machine.after_ledger refines', same]
      exact .refuse _ _
    · refine ⟨wf.after refines', rfl, ?_⟩
      rw [Machine.after_ledger refines']
      exact .retrieve found receiver idle borrows
  | relinquish =>
    rcases relinquish_cases booted run with ⟨code, -, rfl⟩ |
      ⟨i, record, phys, found, receiver, held, unmap, -, rfl⟩
    · exact ⟨wf.after refines, rfl, .refuse _ _⟩
    · have refines' := unmap room refines
      refine ⟨wf.after refines', rfl, ?_⟩
      rw [Machine.after_ledger refines']
      exact .relinquish found receiver held

end Simulation

/-! ## Runs -/

/-- A call by a VM, or anything else the hypervisor does. -/
inductive Event where
  | call (v : VmId) (call : MemCall) (ctx : GpRegs) (ram : GuestRam)
  | other

inductive Machine.Step (m : Machine) : Event → Machine → Prop
  | call {v : VmId} {call : MemCall} {ctx regs : GpRegs} {ram : GuestRam} {m' : Machine} :
      m.perVmVttbr v ≠ 0 → memCallOf ctx.x0 = some call →
      call.handle (m.activate v) ctx ram = some (regs, m') → Step m (.call v call ctx ram) m'
  | other {m' : Machine} :
      m'.Wf → m'.perVmVttbr = m.perVmVttbr → m'.ledger = m.ledger → Step m .other m'

/-- States reached by steps that are all allowed. -/
def Reach (allowed : Ledger → Event → Ledger → Prop) : Machine → Machine → Prop :=
  Relation.ReflTransGen fun m m' => ∃ event, m.Step event m' ∧ allowed m.ledger event m'.ledger

/-- Every step is allowed. -/
def anyStep : Ledger → Event → Ledger → Prop := fun _ _ _ => True

section Runs

variable {allowed : Ledger → Event → Ledger → Prop} {m₀ m : Machine}

theorem Machine.Step.wf {event : Event} {m' : Machine} (wf : m.Wf) (step : m.Step event m') : m'.Wf := by
  cases step with
  | call booted _ run => exact (MemCall.effect wf booted run).1
  | other sound => exact sound

theorem Reach.wf (wf : m₀.Wf) (reach : Reach allowed m₀ m) : m.Wf := by
  induction reach with
  | refl => exact wf
  | tail _ step ih =>
    obtain ⟨event, step, -⟩ := step
    exact step.wf ih

theorem Reach.perVmVttbr_eq (wf : m₀.Wf) (reach : Reach allowed m₀ m) : m.perVmVttbr = m₀.perVmVttbr := by
  induction reach with
  | refl => rfl
  | tail before step ih =>
    obtain ⟨event, step, -⟩ := step
    cases step with
    | call booted _ run => exact (MemCall.effect (Reach.wf wf before) booted run).2.1.trans ih
    | other _ same _ => exact same.trans ih

/-- What holds at the start and is kept by every effect holds in every state reached. -/
theorem Reach.invariant {I : Ledger → Prop} (wf : m₀.Wf) (start : I m₀.ledger)
    (keeps : ∀ L L' v call ctx ram, I L → Effect L v ctx call L' →
      allowed L (.call v call ctx ram) L' → I L')
    (reach : Reach allowed m₀ m) : I m.ledger := by
  induction reach with
  | refl => exact start
  | @tail m m' before step ih =>
    obtain ⟨event, step, permitted⟩ := step
    cases step with
    | call booted _ run =>
      exact keeps _ _ _ _ _ _ ih (MemCall.effect (Reach.wf wf before) booted run).2.2 permitted
    | other _ _ same => exact same ▸ ih

/-- The machine after a call; a call that panics leaves the machine as it is. -/
def Machine.perform (m : Machine) (v : VmId) (call : MemCall) (ctx : GpRegs) (ram : GuestRam) : Machine :=
  ((call.handle (m.activate v) ctx ram).map Prod.snd).getD m

/-- What a call returns, and the machine after it. -/
theorem Machine.handle_eq_perform (m : Machine) (v : VmId) (call : MemCall) (ctx : GpRegs) (ram : GuestRam)
    {α : Type} (f : GpRegs → α) (x : α)
    (returns : (call.handle (m.activate v) ctx ram).map (fun result => f result.1) = some x) :
    ∃ regs, call.handle (m.activate v) ctx ram = some (regs, m.perform v call ctx ram) ∧ f regs = x := by
  obtain ⟨⟨regs, m'⟩, run, result⟩ := Option.map_eq_some_iff.mp returns
  refine ⟨regs, ?_, result⟩
  rw [Machine.perform, run, Option.map_some, Option.getD_some]

/-- A run goes on with a call that returns. -/
theorem Reach.perform {v : VmId} {call : MemCall} {ctx : GpRegs} {ram : GuestRam} (reach : Reach allowed m₀ m)
    (booted : m.perVmVttbr v ≠ 0) (dispatch : memCallOf ctx.x0 = some call)
    (returns : (call.handle (m.activate v) ctx ram).isSome = true)
    (permitted : allowed m.ledger (.call v call ctx ram) (m.perform v call ctx ram).ledger) :
    Reach allowed m₀ (m.perform v call ctx ram) := by
  obtain ⟨⟨regs, m'⟩, run⟩ := Option.isSome_iff_exists.mp returns
  obtain ⟨regs, run, -⟩ := m.handle_eq_perform v call ctx ram id regs (congrArg (Option.map _) run)
  exact reach.tail ⟨_, .call booted dispatch run, permitted⟩

end Runs

end Hypervisor
