import Hypervisor.Proofs.Loops
import Hypervisor.Proofs.Records

/-! # What the handlers do

One case lemma per handler, for a call by a VM that has tables, in a machine whose tables are
sound. Each says for every outcome which registers are returned, which slot of the record table
changed, and which address space the new tables refine.
-/

namespace Hypervisor

namespace Machine

/-- What the VMs see through their tables. -/
def view (m : Machine) : View := Hypervisor.view m.perVmVttbr m.phys.mem

/-- Sound tables, and saved registers that point to them. -/
structure Wf (m : Machine) : Prop where
  tables : ∃ role room, Tables m.perVmVttbr m.phys role room
  vttbr : ∀ v, m.vmVttbr v &&& pteAddrMask = m.perVmVttbr v

/-- The address space of a machine whose heap can serve `room` pages. -/
def space (m : Machine) (room : ℕ) : Space := ⟨m.view, room, m.phys.refused⟩

theorem Wf.refines {m : Machine} (wf : m.Wf) : ∃ room, Refines m.perVmVttbr m.phys (m.space room) := by
  obtain ⟨role, room, tables⟩ := wf.tables
  exact ⟨room, ⟨role, tables⟩, rfl, rfl⟩

/-- The machine after a call by VM `v` that left `phys` and `spmc` behind. -/
def after (m : Machine) (v : VmId) (phys : Phys) (spmc : StubSpmc) : Machine :=
  { m.activate v with phys, spmc }

variable {m : Machine} {v : VmId} {phys : Phys} {spmc : StubSpmc} {space : Space}

theorem Wf.after (wf : m.Wf) (refines : Refines m.perVmVttbr phys space) : (m.after v phys spmc).Wf := by
  obtain ⟨⟨role, tables⟩, -⟩ := refines
  exact ⟨⟨role, space.room, tables⟩, wf.vttbr⟩

theorem after_view (refines : Refines m.perVmVttbr phys space) : (m.after v phys spmc).view = space.view :=
  refines.2.1

end Machine

/-! ## Outcomes of the handlers

What each handler returns, as its source has it: nothing is assumed about the tables. -/

/-- The record that a share or a lend leaves in its slot. -/
def shareRecord (m : Machine) (v : VmId) (request : ShareRequest) (isLend : Bool) : MemShareRecord :=
  ⟨m.spmc.nextHandle, vmIdToPartitionId v, request.receiverId, request.ranges.take maxShareRanges,
    request.totalPageCount, true, isLend, false⟩

/-- The registers of a successful share or lend. -/
def shareSuccess (ctx : GpRegs) (handle : U64) : GpRegs :=
  { ctx with x0 := ffaSuccess32, x2 := handle &&& 0xFFFFFFFF, x3 := handle >>> 32 }

/-- The loop of VM `v` over the pages that it shares or reclaims, if it has tables. -/
def Machine.retagPages (m : Machine) (v : VmId) (sw s2ap : U8) (ranges : List AddrRange) : Option Phys :=
  let walker := Stage2Walker.fromVttbr (m.activate v).vttbrEl2
  if walker.hasStage2 then transitionPages walker sw s2ap (pages ranges) m.phys else some m.phys

/-- How a share or a lend ends when its pages have been retagged: out of slots, or recorded. -/
def Machine.Recorded (m : Machine) (v : VmId) (ctx : GpRegs) (request : ShareRequest) (isLend : Bool) (phys : Phys)
    (regs : GpRegs) (m' : Machine) : Prop :=
  (∀ r ∈ m.spmc.records, r.active = true) ∧ regs = ffaError ctx ffaNoMemory ∧
      m' = m.after v phys { m.spmc with nextHandle := m.spmc.nextHandle + 1 } ∨
    ∃ i free, m.spmc.records[i]? = some free ∧ free.active = false ∧ regs = shareSuccess ctx m.spmc.nextHandle ∧
      m' = m.after v phys ⟨m.spmc.records.set i (shareRecord m v request isLend), m.spmc.nextHandle + 1⟩

section Outcomes

variable {m m' : Machine} {v : VmId} {ctx regs : GpRegs} {ram : GuestRam} {isLend : Bool}

theorem exists_of_ite_bind {α β : Type} {c : Prop} [Decidable c] {x y : Option α} {next : α → Option β} {out : β}
    (run : (if c then x >>= next else y >>= next) = some out) :
    ∃ mid, (if c then x else y) = some mid ∧ next mid = some out := by
  split_ifs at run ⊢
  · exact Option.bind_eq_some_iff.mp run
  · exact Option.bind_eq_some_iff.mp run

/-- MEM_SHARE and MEM_LEND: refused by a check, out of slots, or recorded. The pages are retagged
in both of the last cases. -/
theorem share_outcome (run : handleMemShareOrLend (m.activate v) ctx ram isLend = some (regs, m')) :
    (∃ code, checkShare (m.activate v) ctx ram = some (.error code) ∧ regs = ffaError ctx code ∧ m' = m.activate v) ∨
    ∃ request phys, checkShare (m.activate v) ctx ram = some (.ok request) ∧
      m.retagPages v PageOwnership.sharedOwned.bits (senderS2ap isLend) request.ranges = some phys ∧
      m.Recorded v ctx request isLend phys regs m' := by
  rw [handleMemShareOrLend] at run
  obtain ⟨check, checked, run⟩ := Option.bind_eq_some_iff.mp run
  cases check with
  | error code =>
    cases run
    exact .inl ⟨code, checked, rfl, rfl⟩
  | ok request =>
    obtain ⟨phys, retag, run⟩ := exists_of_ite_bind run
    refine .inr ⟨request, phys, checked, retag, ?_⟩
    rcases StubSpmc.recordShare_cases m.spmc (vmIdToPartitionId v) request.receiverId request.ranges
      request.totalPageCount isLend with ⟨full, recorded⟩ | ⟨i, free, here, inactive, recorded⟩
    all_goals
      simp only [Machine.activate_spmc, Machine.activate_currentVmId, recorded] at run
      cases run
    · exact .inl ⟨full, rfl, rfl⟩
    · exact .inr ⟨i, free, here, inactive, rfl, rfl⟩

/-- MEM_RECLAIM: refused, or the caller's pages are retagged and the record is dropped. -/
theorem reclaim_outcome (run : handleMemReclaim (m.activate v) ctx = some (regs, m')) :
    (∃ code, regs = ffaError ctx code ∧ m' = m.activate v) ∨
    ∃ i record phys, Found m.spmc.records (handleOf ctx) i record ∧ record.retrieved = false ∧
      m.retagPages v PageOwnership.owned.bits ((s2apRw >>> s2apShift).setWidth 8) record.ranges = some phys ∧
      regs = { ctx with x0 := ffaSuccess32 } ∧
      m' = m.after v phys { m.spmc with records := m.spmc.records.set i { record with active := false } } := by
  rw [handleMemReclaim, Machine.activate_spmc] at run
  rcases m.spmc.lookup_cases (handleOf ctx) with lookup | ⟨i, record, found, lookup⟩
  · rw [lookup] at run
    cases run
    exact .inl ⟨_, rfl, rfl⟩
  · rw [lookup] at run
    dsimp only at run
    rcases Bool.eq_false_or_eq_true record.info.retrieved with taken | idle
    · rw [if_pos taken] at run
      cases run
      exact .inl ⟨_, rfl, rfl⟩
    · rw [if_neg (Bool.eq_false_iff.mp idle)] at run
      obtain ⟨phys, retag, run⟩ := exists_of_ite_bind run
      rw [StubSpmc.reclaimShare, StubSpmc.updateByHandle_of_found found rfl] at run
      cases run
      exact .inr ⟨i, record, phys, found, idle, retag, rfl, rfl⟩

/-- MEM_RETRIEVE_REQ: refused before the pages are mapped or while they are, or the record is marked. -/
theorem retrieve_outcome (run : handleMemRetrieveReq (m.activate v) ctx = some (regs, m')) :
    (∃ code, regs = ffaError ctx code ∧ m' = m.activate v) ∨
    ∃ i record mapped phys, Found m.spmc.records (handleOf ctx) i record ∧
      vmIdToPartitionId v = record.receiverId ∧ record.retrieved = false ∧
      mapIntoReceiver (m.activate v) record.info = some (mapped, phys) ∧
      ((∃ code, mapped = .error code ∧ regs = ffaError ctx code ∧ m' = m.after v phys m.spmc) ∨
        mapped = .ok () ∧ regs.x0 = ffaMemRetrieveResp ∧
          m' = m.after v phys { m.spmc with records := m.spmc.records.set i { record with retrieved := true } }) := by
  rw [handleMemRetrieveReq, Machine.activate_spmc] at run
  rcases m.spmc.lookup_cases (handleOf ctx) with lookup | ⟨i, record, found, lookup⟩
  · rw [lookup] at run
    cases run
    exact .inl ⟨_, rfl, rfl⟩
  · rw [lookup] at run
    dsimp only at run
    split_ifs at run with stranger taken
    · cases run
      exact .inl ⟨_, rfl, rfl⟩
    · cases run
      exact .inl ⟨_, rfl, rfl⟩
    · obtain ⟨⟨mapped, phys⟩, loop, run⟩ := Option.bind_eq_some_iff.mp run
      have idle : record.retrieved = false := Bool.eq_false_iff.mpr taken
      refine .inr ⟨i, record, mapped, phys, found, not_not.mp stranger, idle, loop, ?_⟩
      cases mapped with
      | error code =>
        cases run
        exact .inl ⟨code, rfl, rfl, rfl⟩
      | ok _ =>
        rw [StubSpmc.markRetrieved, StubSpmc.updateByHandle_of_found found (by rw [idle]; rfl)] at run
        cases run
        exact .inr ⟨rfl, rfl, rfl⟩

/-- MEM_RELINQUISH: refused, or the pages are unmapped and the record is marked. -/
theorem relinquish_outcome (run : handleMemRelinquish (m.activate v) ctx = some (regs, m')) :
    (∃ code, regs = ffaError ctx code ∧ m' = m.activate v) ∨
    ∃ i record phys, Found m.spmc.records (handleOf ctx) i record ∧
      vmIdToPartitionId v = record.receiverId ∧ record.retrieved = true ∧
      unmapFromReceiver (m.activate v) record.info = some phys ∧
      regs = { ctx with x0 := ffaSuccess32 } ∧
      m' = m.after v phys { m.spmc with records := m.spmc.records.set i { record with retrieved := false } } := by
  rw [handleMemRelinquish, Machine.activate_spmc] at run
  rcases m.spmc.lookup_cases (handleOf ctx) with lookup | ⟨i, record, found, lookup⟩
  · rw [lookup] at run
    cases run
    exact .inl ⟨_, rfl, rfl⟩
  · rw [lookup] at run
    dsimp only at run
    split_ifs at run with stranger idle
    · cases run
      exact .inl ⟨_, rfl, rfl⟩
    · cases run
      exact .inl ⟨_, rfl, rfl⟩
    · obtain ⟨phys, loop, run⟩ := Option.bind_eq_some_iff.mp run
      have taken : record.retrieved = true := by simpa [MemShareRecord.info] using idle
      rw [StubSpmc.markRelinquished, StubSpmc.updateByHandle_of_found found taken] at run
      cases run
      exact .inr ⟨i, record, phys, found, not_not.mp stranger, taken, loop, rfl, rfl⟩

end Outcomes

/-! ## Effect on the address spaces -/

section Calls

variable {m m' : Machine} {v : VmId} {ctx regs : GpRegs} {ram : GuestRam} {isLend : Bool}

theorem fromVttbr_activate (wf : m.Wf) :
    Stage2Walker.fromVttbr (m.activate v).vttbrEl2 = ⟨m.perVmVttbr v⟩ := by
  rw [Stage2Walker.fromVttbr]
  exact congrArg _ (wf.vttbr v)

theorem hasStage2_of_booted (booted : m.perVmVttbr v ≠ 0) :
    (⟨m.perVmVttbr v⟩ : Stage2Walker).hasStage2 = true := by
  simpa [Stage2Walker.hasStage2] using booted

theorem retagPages_of_booted (wf : m.Wf) (booted : m.perVmVttbr v ≠ 0) {sw s2ap : U8} {ranges : List AddrRange} :
    m.retagPages v sw s2ap ranges = transitionPages ⟨m.perVmVttbr v⟩ sw s2ap (pages ranges) m.phys := by
  rw [Machine.retagPages, fromVttbr_activate wf]
  exact if_pos (hasStage2_of_booted booted)

/-- A share or lend that VM `v` may make: a well-formed request for owned pages. -/
structure Machine.Accepts (m : Machine) (v : VmId) (ctx : GpRegs) (ram : GuestRam) (request : ShareRequest) :
    Prop where
  asked : shareRequest ctx (m.mailbox v) ram = .ok request
  receiver : isValidReceiver request.receiverId = true
  sender : request.senderId = 0 ∨ request.senderId = vmIdToPartitionId v
  owned : ∀ a ∈ covered request.ranges, ∃ leaf, m.view v a = some leaf ∧ leaf.translation.sw = 0

theorem getMailbox_activate : (m.activate v).getMailbox v = some (m.mailbox v) := dif_pos _

/-- The checks of a share accept exactly those requests. -/
theorem checkShare_iff (wf : m.Wf) (booted : m.perVmVttbr v ≠ 0) {result : Except I32 ShareRequest}
    {request : ShareRequest} (check : checkShare (m.activate v) ctx ram = some result) :
    result = .ok request ↔ m.Accepts v ctx ram request := by
  rw [checkShare, Machine.activate_currentVmId, bind_of_eq_some _ getMailbox_activate] at check
  cases parsed : shareRequest ctx (m.mailbox v) ram with
  | error code =>
    rw [parsed] at check
    obtain rfl := Option.some.inj check
    refine iff_of_false nofun fun accepts => ?_
    have asked := accepts.asked
    rw [parsed] at asked
    contradiction
  | ok found =>
    rw [parsed] at check
    simp only [fromVttbr_activate wf, hasStage2_of_booted booted, if_true] at check
    have same : m.Accepts v ctx ram request → found = request := fun accepts =>
      Except.ok.inj (parsed.symm.trans accepts.asked)
    split_ifs at check with invalid foreign
    · obtain rfl := Option.some.inj check
      refine iff_of_false nofun fun accepts => ?_
      rw [same accepts, accepts.receiver] at invalid
      contradiction
    · obtain rfl := Option.some.inj check
      refine iff_of_false nofun fun accepts => ?_
      rw [same accepts] at foreign
      exact accepts.sender.elim foreign.1 foreign.2
    · obtain ⟨valid, validated, check⟩ := Option.bind_eq_some_iff.mp check
      obtain rfl := Option.some.inj check
      obtain ⟨room, refines⟩ := wf.refines
      have owned := refines.validatePages booted validated
      constructor
      · intro accepted
        cases valid with
        | error code => exact nomatch accepted
        | ok =>
          obtain rfl := Except.ok.inj accepted
          refine ⟨parsed, by simpa using invalid, ?_, owned.mp rfl⟩
          by_contra neither
          exact foreign (not_or.mp neither)
      · intro accepts
        obtain rfl := same accepts
        rw [owned.mpr accepts.owned]
        rfl

theorem ffaError_x0_ne {code : I32} {id : U64} (other : ffaErrorId ≠ id) : (ffaError ctx code).x0 ≠ id := other

/-- MEM_SHARE and MEM_LEND: the pages of a request that passes the checks are retagged. -/
theorem share_cases (wf : m.Wf) (booted : m.perVmVttbr v ≠ 0)
    (run : handleMemShareOrLend (m.activate v) ctx ram isLend = some (regs, m')) :
    (∃ code, (∀ request, ¬m.Accepts v ctx ram request) ∧ regs = ffaError ctx code ∧ m' = m.activate v) ∨
    ∃ request phys, m.Accepts v ctx ram request ∧
      (∀ room, Refines m.perVmVttbr m.phys (m.space room) →
        Refines m.perVmVttbr phys (Space.retagAll v PageOwnership.sharedOwned.bits (senderS2ap isLend)
          (covered request.ranges) (m.space room))) ∧
      m.Recorded v ctx request isLend phys regs m' := by
  rcases share_outcome run with ⟨code, checked, rfl, rfl⟩ | ⟨request, phys, checked, retag, outcome⟩
  · refine .inl ⟨code, fun request accepts => ?_, rfl, rfl⟩
    exact nomatch (checkShare_iff wf booted checked).mpr accepts
  · refine .inr ⟨request, phys, (checkShare_iff wf booted checked).mp rfl, fun room refines => ?_, outcome⟩
    exact refines.transitionPages booted (retagPages_of_booted wf booted ▸ retag)

/-- MEM_RECLAIM: refused, or the caller's pages are retagged and the record is dropped. -/
theorem reclaim_cases (wf : m.Wf) (booted : m.perVmVttbr v ≠ 0)
    (run : handleMemReclaim (m.activate v) ctx = some (regs, m')) :
    (∃ code, regs = ffaError ctx code ∧ m' = m.activate v) ∨
    ∃ i record phys, Found m.spmc.records (handleOf ctx) i record ∧ record.retrieved = false ∧
      (∀ room, Refines m.perVmVttbr m.phys (m.space room) →
        Refines m.perVmVttbr phys (Space.retagAll v PageOwnership.owned.bits
          ((s2apRw >>> s2apShift).setWidth 8) (covered record.ranges) (m.space room))) ∧
      regs = { ctx with x0 := ffaSuccess32 } ∧
      m' = m.after v phys { m.spmc with records := m.spmc.records.set i { record with active := false } } := by
  rcases reclaim_outcome run with refused | ⟨i, record, phys, found, idle, retag, rfl, rfl⟩
  · exact .inl refused
  · refine .inr ⟨i, record, phys, found, idle, fun room refines => ?_, rfl, rfl⟩
    exact refines.transitionPages booted (retagPages_of_booted wf booted ▸ retag)

theorem partitionIdToVmId_vmIdToPartitionId (v : VmId) :
    partitionIdToVmId (vmIdToPartitionId v) = some v.val := by
  revert v
  decide

theorem loadPerVmVttbr_self : (m.activate v).loadPerVmVttbr v = some (m.perVmVttbr v) := dif_pos v.isLt

/-- A VM that calls as the receiver has tables to map into. -/
theorem mapIntoReceiver_self (booted : m.perVmVttbr v ≠ 0) {info : ShareInfoFull}
    (receiver : vmIdToPartitionId v = info.receiverId) :
    mapIntoReceiver (m.activate v) info = mapPages ⟨m.perVmVttbr v⟩ ((s2apRw >>> s2apShift).setWidth 8)
      PageOwnership.sharedBorrowed.bits [] (pages info.ranges) m.phys := by
  rw [mapIntoReceiver, ← receiver, partitionIdToVmId_vmIdToPartitionId]
  dsimp only
  rw [bind_of_eq_some _ loadPerVmVttbr_self, if_pos booted, mapRanges_eq]
  rfl

theorem unmapFromReceiver_self (booted : m.perVmVttbr v ≠ 0) {info : ShareInfoFull}
    (receiver : vmIdToPartitionId v = info.receiverId) :
    unmapFromReceiver (m.activate v) info = unmapPages ⟨m.perVmVttbr v⟩ (pages info.ranges) m.phys := by
  rw [unmapFromReceiver, ← receiver, partitionIdToVmId_vmIdToPartitionId]
  dsimp only
  rw [bind_of_eq_some _ loadPerVmVttbr_self, if_pos booted]
  rfl

/-- MEM_RETRIEVE_REQ: refused with every view as before, or the caller borrows the pages. -/
theorem retrieve_cases (wf : m.Wf) (booted : m.perVmVttbr v ≠ 0)
    (run : handleMemRetrieveReq (m.activate v) ctx = some (regs, m')) :
    (∃ code phys space, regs = ffaError ctx code ∧ m' = m.after v phys m.spmc ∧
      Refines m.perVmVttbr phys space ∧ space.view = m.view) ∨
    ∃ i record phys space, Found m.spmc.records (handleOf ctx) i record ∧
      vmIdToPartitionId v = record.receiverId ∧ record.retrieved = false ∧
      Refines m.perVmVttbr phys space ∧ Borrows v (pages record.ranges) m.view space.view ∧
      regs.x0 = ffaMemRetrieveResp ∧
      m' = m.after v phys { m.spmc with records := m.spmc.records.set i { record with retrieved := true } } := by
  obtain ⟨room, refines⟩ := wf.refines
  rcases retrieve_outcome run with ⟨code, rfl, rfl⟩ | ⟨i, record, mapped, phys, found, receiver, idle, loop, outcome⟩
  · exact .inl ⟨code, m.phys, _, rfl, rfl, refines, rfl⟩
  · rw [mapIntoReceiver_self booted receiver] at loop
    obtain ⟨space, refines', ⟨rfl, borrows⟩ | ⟨rfl, same⟩⟩ := refines.mapPages booted (.nil m.view) loop
    · rcases outcome with ⟨code, error, -⟩ | ⟨-, answer, rfl⟩
      · cases error
      · exact .inr ⟨i, record, phys, space, found, receiver, idle, refines', borrows, answer, rfl⟩
    · rcases outcome with ⟨code, -, rfl, rfl⟩ | ⟨ok, -⟩
      · exact .inl ⟨code, phys, space, rfl, rfl, refines', same⟩
      · cases ok

/-- MEM_RELINQUISH: refused, or the caller gives up the 4KB pages of the record. -/
theorem relinquish_cases (booted : m.perVmVttbr v ≠ 0)
    (run : handleMemRelinquish (m.activate v) ctx = some (regs, m')) :
    (∃ code, regs = ffaError ctx code ∧ m' = m.activate v) ∨
    ∃ i record phys, Found m.spmc.records (handleOf ctx) i record ∧
      vmIdToPartitionId v = record.receiverId ∧ record.retrieved = true ∧
      (∀ room, Refines m.perVmVttbr m.phys (m.space room) →
        Refines m.perVmVttbr phys ((m.space room).unmapAll v (covered record.ranges))) ∧
      regs = { ctx with x0 := ffaSuccess32 } ∧
      m' = m.after v phys { m.spmc with records := m.spmc.records.set i { record with retrieved := false } } := by
  rcases relinquish_outcome run with refused | ⟨i, record, phys, found, receiver, taken, loop, rfl, rfl⟩
  · exact .inl refused
  · rw [unmapFromReceiver_self booted receiver] at loop
    exact .inr ⟨i, record, phys, found, receiver, taken, fun room refines => refines.unmapPages booted loop, rfl, rfl⟩

end Calls

end Hypervisor
