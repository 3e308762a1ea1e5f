import Hypervisor.Soundness.Authority

/-! # The life of a handle

Over the slots of the record table lies the table by handle, `StubSpmc.named`. Slots are used again
and handles are not: as long as the counter has not wrapped, a handle is held by at most one slot, and
every call moves the entry of one handle along `Moves` or is refused. What the calls do to the page
tables plays no part here, so nothing is assumed about them.
-/

namespace Hypervisor

/-- The record that a handle names. -/
def StubSpmc.named (spmc : StubSpmc) (handle : U64) : Option MemShareRecord :=
  spmc.records.find? (·.holds handle)

/-- How a call by VM `v` moves the records: from shared to retrieved and back by the receiver, and from
shared to gone. A new record is named by the two registers of the answer. -/
inductive Moves (v : VmId) (ctx regs : GpRegs) (named : U64 → Option MemShareRecord) :
    MemCall → (U64 → Option MemShareRecord) → Prop
  | refuse (call : MemCall) : regs.x0 = ffaErrorId → Moves v ctx regs named call named
  | share {isLend : Bool} {record : MemShareRecord} :
      regs.x0 = ffaSuccess32 → named record.handle = none → record.senderId = vmIdToPartitionId v →
      record.isLend = isLend → record.retrieved = false → handleReturned regs = record.handle →
      (∀ next : GpRegs, next.x1 = regs.x2 → next.x2 = regs.x3 → handleOf next = record.handle) →
      Moves v ctx regs named (shareCall isLend) (Function.update named record.handle (some record))
  | retrieve {record : MemShareRecord} :
      regs.x0 = ffaMemRetrieveResp → named (handleOf ctx) = some record →
      vmIdToPartitionId v = record.receiverId → record.retrieved = false →
      Moves v ctx regs named .retrieveReq
        (Function.update named (handleOf ctx) (some { record with retrieved := true }))
  | relinquish {record : MemShareRecord} :
      regs.x0 = ffaSuccess32 → named (handleOf ctx) = some record →
      vmIdToPartitionId v = record.receiverId → record.retrieved = true →
      Moves v ctx regs named .relinquish
        (Function.update named (handleOf ctx) (some { record with retrieved := false }))
  | reclaim {record : MemShareRecord} :
      regs.x0 = ffaSuccess32 → named (handleOf ctx) = some record → record.retrieved = false →
      Moves v ctx regs named .reclaim (Function.update named (handleOf ctx) none)

/-- The calls by VM `v` that the state of their handle admits. -/
def MemCall.Enabled (call : MemCall) (v : VmId) (named : Option MemShareRecord) : Prop :=
  match call with
  | share => True
  | lend => True
  | reclaim => ∃ record ∈ named, record.retrieved = false
  | retrieveReq => ∃ record ∈ named, vmIdToPartitionId v = record.receiverId ∧ record.retrieved = false
  | relinquish => ∃ record ∈ named, vmIdToPartitionId v = record.receiverId ∧ record.retrieved = true

/-- The calls that spend a handle. -/
def MemCall.isShare : MemCall → Bool
  | share => true
  | lend => true
  | _ => false

theorem isShare_shareCall (isLend : Bool) : (shareCall isLend).isShare = true := by
  cases isLend <;> rfl

theorem MemCall.not_enabled_none {call : MemCall} {v : VmId} (other : call.isShare = false) :
    ¬call.Enabled v none := by
  cases call with
  | share => contradiction
  | lend => contradiction
  | reclaim => exact nofun
  | retrieveReq => exact nofun
  | relinquish => exact nofun

/-! ## What a call does to the slots -/

/-- The outcomes of a call by VM `v`, by slot. -/
inductive SpmcStep (spmc : StubSpmc) (v : VmId) (ctx : GpRegs) : MemCall → GpRegs → StubSpmc → Prop
  | refuse (call : MemCall) (code : I32) : SpmcStep spmc v ctx call (ffaError ctx code) spmc
  | full (isLend : Bool) (code : I32) :
      SpmcStep spmc v ctx (shareCall isLend) (ffaError ctx code) { spmc with nextHandle := spmc.nextHandle + 1 }
  | share {isLend : Bool} {i : ℕ} {free record : MemShareRecord} :
      spmc.records[i]? = some free → free.active = false → record.handle = spmc.nextHandle →
      record.active = true → record.senderId = vmIdToPartitionId v → record.isLend = isLend →
      record.retrieved = false →
      SpmcStep spmc v ctx (shareCall isLend) (shareSuccess ctx spmc.nextHandle)
        ⟨spmc.records.set i record, spmc.nextHandle + 1⟩
  | retrieve {regs : GpRegs} {i : ℕ} {record : MemShareRecord} :
      regs.x0 = ffaMemRetrieveResp → Found spmc.records (handleOf ctx) i record →
      vmIdToPartitionId v = record.receiverId → record.retrieved = false →
      SpmcStep spmc v ctx .retrieveReq regs
        { spmc with records := spmc.records.set i { record with retrieved := true } }
  | relinquish {i : ℕ} {record : MemShareRecord} :
      Found spmc.records (handleOf ctx) i record → vmIdToPartitionId v = record.receiverId →
      record.retrieved = true →
      SpmcStep spmc v ctx .relinquish { ctx with x0 := ffaSuccess32 }
        { spmc with records := spmc.records.set i { record with retrieved := false } }
  | reclaim {i : ℕ} {record : MemShareRecord} :
      Found spmc.records (handleOf ctx) i record → record.retrieved = false →
      SpmcStep spmc v ctx .reclaim { ctx with x0 := ffaSuccess32 }
        { spmc with records := spmc.records.set i { record with active := false } }

section Steps

variable {m m' : Machine} {v : VmId} {ctx regs : GpRegs} {ram : GuestRam}

theorem share_spmcStep {isLend : Bool}
    (run : handleMemShareOrLend (m.activate v) ctx ram isLend = some (regs, m')) :
    SpmcStep m.spmc v ctx (shareCall isLend) regs m'.spmc := by
  rcases share_outcome run with ⟨code, -, rfl, rfl⟩ | ⟨request, phys, -, -, outcome⟩
  · exact .refuse _ code
  · rcases outcome with ⟨-, rfl, rfl⟩ | ⟨i, free, here, inactive, rfl, rfl⟩
    · exact .full isLend ffaNoMemory
    · exact .share here inactive rfl rfl rfl rfl rfl

theorem MemCall.spmcStep {call : MemCall} (run : call.handle (m.activate v) ctx ram = some (regs, m')) :
    SpmcStep m.spmc v ctx call regs m'.spmc := by
  cases call with
  | share => exact share_spmcStep run
  | lend => exact share_spmcStep run
  | reclaim =>
    rcases reclaim_outcome run with ⟨code, rfl, rfl⟩ | ⟨i, record, phys, found, idle, -, rfl, rfl⟩
    · exact .refuse _ code
    · exact .reclaim found idle
  | retrieveReq =>
    rcases retrieve_outcome run with ⟨code, rfl, rfl⟩ | ⟨i, record, mapped, phys, found, receiver, idle, -, outcome⟩
    · exact .refuse _ code
    · rcases outcome with ⟨code, -, rfl, rfl⟩ | ⟨-, answer, rfl⟩
      · exact .refuse _ code
      · exact .retrieve answer found receiver idle
  | relinquish =>
    rcases relinquish_outcome run with ⟨code, rfl, rfl⟩ | ⟨i, record, phys, found, receiver, taken, -, rfl, rfl⟩
    · exact .refuse _ code
    · exact .relinquish found receiver taken

/-- A call that is not enabled is refused before it does anything. -/
theorem MemCall.refused_of_not_enabled {call : MemCall}
    (closed : ¬call.Enabled v (m.spmc.named (handleOf ctx))) :
    ∃ code, call.handle (m.activate v) ctx ram = some (ffaError ctx code, m.activate v) := by
  have lookup : m.spmc.lookupShareFull (handleOf ctx) = (m.spmc.named (handleOf ctx)).map MemShareRecord.info := rfl
  cases call with
  | share => exact absurd trivial closed
  | lend => exact absurd trivial closed
  | reclaim =>
    rw [MemCall.handle, handleMemReclaim, Machine.activate_spmc, lookup]
    cases named : m.spmc.named (handleOf ctx) with
    | none => exact ⟨_, rfl⟩
    | some record =>
      have taken : record.retrieved = true := by
        by_contra idle
        exact closed ⟨record, named, Bool.eq_false_iff.mpr idle⟩
      exact ⟨_, if_pos taken⟩
  | retrieveReq =>
    rw [MemCall.handle, handleMemRetrieveReq, Machine.activate_spmc, lookup]
    cases named : m.spmc.named (handleOf ctx) with
    | none => exact ⟨_, rfl⟩
    | some record =>
      rcases eq_or_ne (vmIdToPartitionId v) record.receiverId with receiver | stranger
      · have taken : record.retrieved = true := by
          by_contra idle
          exact closed ⟨record, named, receiver, Bool.eq_false_iff.mpr idle⟩
        exact ⟨_, (if_neg (not_not.mpr receiver)).trans (if_pos taken)⟩
      · exact ⟨_, if_pos stranger⟩
  | relinquish =>
    rw [MemCall.handle, handleMemRelinquish, Machine.activate_spmc, lookup]
    cases named : m.spmc.named (handleOf ctx) with
    | none => exact ⟨_, rfl⟩
    | some record =>
      rcases eq_or_ne (vmIdToPartitionId v) record.receiverId with receiver | stranger
      · have idle : (!record.retrieved) = true := by
          rw [Bool.not_eq_true', Bool.eq_false_iff]
          exact fun taken => closed ⟨record, named, receiver, taken⟩
        exact ⟨_, (if_neg (not_not.mpr receiver)).trans (if_pos idle)⟩
      · exact ⟨_, if_pos stranger⟩

end Steps

/-! ## Slots and handles -/

/-- A handle is held by at most one slot. -/
def Distinct (records : List MemShareRecord) : Prop :=
  ∀ ⦃handle : U64⦄ ⦃i j : ℕ⦄ ⦃one two : MemShareRecord⦄, records[i]? = some one → records[j]? = some two →
    one.holds handle = true → two.holds handle = true → i = j

theorem holds_iff {record : MemShareRecord} {handle : U64} :
    record.holds handle = true ↔ record.active = true ∧ record.handle = handle := by
  rw [MemShareRecord.holds, Bool.and_eq_true, beq_iff_eq]

section Slots

variable {spmc : StubSpmc} {records : List MemShareRecord} {handle next : U64} {i : ℕ}
  {old new record : MemShareRecord}

/-- With distinct handles, any slot that holds the handle is the one that it names. -/
theorem named_eq_some_iff (distinct : Distinct spmc.records) :
    spmc.named handle = some record ↔ ∃ i : ℕ, spmc.records[i]? = some record ∧ record.holds handle = true := by
  constructor
  · intro named
    obtain ⟨i, here, holds, -⟩ := exists_first_of_find? named
    exact ⟨i, here, holds⟩
  · rintro ⟨i, here, holds⟩
    obtain ⟨other, named⟩ : ∃ other, spmc.named handle = some other :=
      Option.isSome_iff_exists.mp (List.find?_isSome.mpr ⟨record, List.mem_of_getElem? here, holds⟩)
    obtain ⟨j, there, holds', -⟩ := exists_first_of_find? named
    obtain rfl := distinct here there holds holds'
    rw [named, ← there, here]

theorem Found.named (found : Found spmc.records handle i record) (distinct : Distinct spmc.records) :
    spmc.named handle = some record :=
  (named_eq_some_iff distinct).mpr ⟨i, found.here, found.holds⟩

/-- A slot may be rewritten if no other one holds the new handle. -/
theorem Distinct.set (distinct : Distinct records)
    (free : new.active = true → ∀ j other, j ≠ i → records[j]? = some other → other.holds new.handle = false) :
    Distinct (records.set i new) := by
  have apart : ∀ {key : U64} {j : ℕ} {other : MemShareRecord}, j ≠ i → records[j]? = some other →
      new.holds key = true → ¬other.holds key = true := by
    intro key j other ne there holds
    obtain ⟨active, rfl⟩ := holds_iff.mp holds
    exact Bool.eq_false_iff.mp (free active j other ne there)
  intro key j k one two here there holds holds'
  rw [List.getElem?_set] at here there
  split_ifs at here there with atJ _ atK
  · exact atJ.symm.trans atK
  · cases here
    exact absurd holds' (apart (Ne.symm atK) there holds)
  · cases there
    exact absurd holds (apart (Ne.symm atJ) here holds')
  · exact distinct here there holds holds'

/-- What a handle names after a slot was rewritten. -/
theorem named_set (distinct : Distinct spmc.records) (distinct' : Distinct (spmc.records.set i new))
    (here : spmc.records[i]? = some old) :
    (⟨spmc.records.set i new, next⟩ : StubSpmc).named handle =
      if new.holds handle then some new else if old.holds handle then none else spmc.named handle := by
  have bound : i < spmc.records.length := (List.getElem?_eq_some_iff.mp here).1
  apply Option.ext
  intro record
  rw [named_eq_some_iff distinct']
  split_ifs with holds held
  · constructor
    · rintro ⟨j, there, holds'⟩
      obtain rfl := distinct' there (List.getElem?_set_self bound) holds' holds
      exact (List.getElem?_set_self bound).symm.trans there
    · rintro ⟨⟩
      exact ⟨i, List.getElem?_set_self bound, holds⟩
  · refine iff_of_false ?_ nofun
    rintro ⟨j, there, holds'⟩
    rw [List.getElem?_set] at there
    split_ifs at there with same
    · cases there
      exact holds holds'
    · exact same (distinct here there held holds')
  · rw [named_eq_some_iff distinct]
    refine exists_congr fun j => and_congr_left fun holds' => ?_
    rw [List.getElem?_set]
    split_ifs with same
    · refine iff_of_false (fun there => ?_) fun there => ?_
      · cases there
        exact holds holds'
      · rw [← same, here] at there
        cases there
        exact held holds'
    · rfl

end Slots

/-! ## Runs -/

/-- A call and the answer to it. -/
structure Exchange where
  caller : VmId
  call : MemCall
  ctx : GpRegs
  regs : GpRegs

/-- The handle that a successful share or lend returned. -/
def Exchange.handle? (e : Exchange) : Option U64 :=
  if e.call.isShare ∧ e.regs.x0 = ffaSuccess32 then some (handleReturned e.regs) else none

/-- The handles returned, oldest first. -/
def handlesReturned (trace : List Exchange) : List U64 := trace.filterMap Exchange.handle?

def shareCount (trace : List Exchange) : ℕ := trace.countP (·.call.isShare)

/-- Memory calls one after another. In between, anything may change but the records. -/
inductive Machine.Run (m₀ : Machine) : List Exchange → Machine → Prop
  | start : Run m₀ [] m₀
  | call {m m' : Machine} {trace : List Exchange} {v : VmId} {call : MemCall} {ctx regs : GpRegs} {ram : GuestRam} :
      Run m₀ trace m → memCallOf ctx.x0 = some call → call.handle (m.activate v) ctx ram = some (regs, m') →
      Run m₀ (trace ++ [⟨v, call, ctx, regs⟩]) m'
  | other {m m' : Machine} {trace : List Exchange} :
      Run m₀ trace m → m'.spmc = m.spmc → Run m₀ trace m'

/-- The first `count` handles are spent: the active records hold handles that were returned, each its own. -/
structure Issued (spmc : StubSpmc) (returned : List U64) (count : ℕ) : Prop where
  next : spmc.nextHandle = BitVec.ofNat 64 (count + 1)
  spent : ∀ handle ∈ returned, ∃ k, 1 ≤ k ∧ k ≤ count ∧ handle = BitVec.ofNat 64 k
  held : ∀ record ∈ spmc.records, record.active = true → record.handle ∈ returned
  distinct : Distinct spmc.records
  nodup : returned.Nodup

theorem issued_init : Issued .init [] 0 := by
  have idle : ∀ record ∈ StubSpmc.init.records, record.active = false := by decide
  refine ⟨rfl, nofun, fun record member active => ?_, fun _ _ _ _ _ here _ holds => ?_, List.nodup_nil⟩
  · exact absurd active (Bool.eq_false_iff.mp (idle record member))
  · exact absurd (holds_iff.mp holds).1 (Bool.eq_false_iff.mp (idle _ (List.mem_of_getElem? here)))

section Issue

variable {spmc spmc' : StubSpmc} {returned : List U64} {count i : ℕ} {v : VmId} {ctx regs : GpRegs} {call : MemCall}
  {handle : U64} {record : MemShareRecord}

/-- The counter has not come around yet. -/
theorem Issued.fresh (issued : Issued spmc returned count) (small : count < 2 ^ 64) : spmc.nextHandle ∉ returned := by
  intro member
  obtain ⟨k, low, high, same⟩ := issued.spent _ member
  rw [issued.next] at same
  have same := congrArg BitVec.toNat same
  simp only [BitVec.toNat_ofNat] at same
  omega

theorem Issued.named_eq_none (issued : Issued spmc returned count) (unknown : handle ∉ returned) :
    spmc.named handle = none := by
  refine List.find?_eq_none.mpr fun record member holds => unknown ?_
  obtain ⟨active, rfl⟩ := holds_iff.mp holds
  exact issued.held record member active

theorem Issued.spend (issued : Issued spmc returned count) :
    Issued { spmc with nextHandle := spmc.nextHandle + 1 } returned (count + 1) := by
  refine ⟨?_, fun handle member => ?_, issued.held, issued.distinct, issued.nodup⟩
  · exact (congrArg (· + 1) issued.next).trans (BitVec.ofNat_add (count + 1) 1).symm
  · obtain ⟨k, low, high, same⟩ := issued.spent handle member
    exact ⟨k, low, Nat.le_succ_of_le high, same⟩

/-- The record that a handle names changes in its slot. -/
theorem Issued.rewrite (issued : Issued spmc returned count) (found : Found spmc.records handle i record)
    (new : MemShareRecord) (same : new.handle = record.handle) :
    Issued { spmc with records := spmc.records.set i new } returned count := by
  refine ⟨issued.next, issued.spent, fun other member active => ?_, issued.distinct.set fun _ j other ne there => ?_,
    issued.nodup⟩
  · rcases List.mem_or_eq_of_mem_set member with member | rfl
    · exact issued.held other member active
    · rw [same]
      exact issued.held record (List.mem_of_getElem? found.here) found.active
  · refine Bool.eq_false_iff.mpr fun holds => ne (issued.distinct there found.here holds ?_)
    rw [same, holds_iff]
    exact ⟨found.active, rfl⟩

/-- The table by handle changes at that handle. -/
theorem Issued.named_rewrite (issued : Issued spmc returned count) (found : Found spmc.records handle i record)
    (new : MemShareRecord) (same : new.handle = record.handle) :
    ({ spmc with records := spmc.records.set i new } : StubSpmc).named =
      Function.update spmc.named handle (if new.active then some new else none) := by
  obtain ⟨active, rfl⟩ := holds_iff.mp found.holds
  funext key
  rw [named_set issued.distinct (issued.rewrite found new same).distinct found.here, Function.update_apply]
  rcases eq_or_ne key record.handle with rfl | ne
  · rw [if_pos rfl, if_pos found.holds]
    simp only [holds_iff, same, and_true]
  · rw [if_neg ne, if_neg fun holds => ne ((holds_iff.mp holds).2.symm.trans same),
      if_neg fun holds => ne (holds_iff.mp holds).2.symm]

/-- A new record takes a free slot and the next handle. -/
theorem Issued.enter (issued : Issued spmc returned count) (small : count < 2 ^ 64)
    {free new : MemShareRecord} (here : spmc.records[i]? = some free) (inactive : free.active = false)
    (named : new.handle = spmc.nextHandle) (active : new.active = true) :
    Issued ⟨spmc.records.set i new, spmc.nextHandle + 1⟩ (returned ++ [spmc.nextHandle]) (count + 1) ∧
      (⟨spmc.records.set i new, spmc.nextHandle + 1⟩ : StubSpmc).named =
        Function.update spmc.named new.handle (some new) := by
  have fresh := issued.fresh small
  have distinct : Distinct (spmc.records.set i new) := by
    refine issued.distinct.set fun _ j other ne there => Bool.eq_false_iff.mpr fun holds => fresh ?_
    obtain ⟨active', same⟩ := holds_iff.mp holds
    rw [← named, ← same]
    exact issued.held other (List.mem_of_getElem? there) active'
  constructor
  · refine ⟨issued.spend.next, fun handle member => ?_, fun other member active' => ?_, distinct, ?_⟩
    · rcases List.mem_append.mp member with member | member
      · exact issued.spend.spent handle member
      · exact ⟨count + 1, Nat.le_add_left 1 count, le_rfl, (List.mem_singleton.mp member).trans issued.next⟩
    · rcases List.mem_or_eq_of_mem_set member with member | rfl
      · exact List.mem_append_left _ (issued.held other member active')
      · exact List.mem_append_right _ (List.mem_singleton.mpr named)
    · rw [← List.concat_eq_append]
      exact issued.nodup.concat fresh
  · funext key
    rw [named_set issued.distinct distinct here, Function.update_apply]
    have closed : ¬free.holds key = true := fun holds => Bool.eq_false_iff.mp inactive (holds_iff.mp holds).1
    rw [if_neg closed]
    exact if_congr (holds_iff.trans ((and_iff_right active).trans eq_comm)) rfl rfl

theorem handle?_shareSuccess (isLend : Bool) :
    (⟨v, shareCall isLend, ctx, shareSuccess ctx handle⟩ : Exchange).handle? = some handle := by
  rw [Exchange.handle?, if_pos ⟨isShare_shareCall isLend, rfl⟩, handleReturned_shareSuccess]

theorem handleOf_of_returned {next : GpRegs} (low : next.x1 = (shareSuccess ctx handle).x2)
    (high : next.x2 = (shareSuccess ctx handle).x3) : handleOf next = handle := by
  have halves : handleOf next = (next.x1 &&& BitVec.mask 0 32) ||| ((next.x2 &&& BitVec.mask 0 32) <<< 32) := rfl
  have sent : (shareSuccess ctx handle).x2 = handle &&& BitVec.mask 0 32 := rfl
  rw [halves, low, high, sent]
  apply BitVec.eq_of_getLsbD_eq
  intro i bound
  simp only [shareSuccess, BitVec.getLsbD_or, BitVec.getLsbD_and, BitVec.getLsbD_shiftLeft,
    BitVec.getLsbD_ushiftRight, BitVec.getLsbD_mask]
  grind

/-- One call moves the table by handle, and the handles stay distinct. -/
theorem Issued.step (issued : Issued spmc returned count) (small : count < 2 ^ 64)
    (step : SpmcStep spmc v ctx call regs spmc') :
    Moves v ctx regs spmc.named call spmc'.named ∧
      ∃ count' ≤ count + [(⟨v, call, ctx, regs⟩ : Exchange)].countP (·.call.isShare),
        Issued spmc' (returned ++ handlesReturned [⟨v, call, ctx, regs⟩]) count' := by
  have silent : (⟨v, call, ctx, regs⟩ : Exchange).handle? = none →
      returned ++ handlesReturned [⟨v, call, ctx, regs⟩] = returned := by
    intro none
    rw [handlesReturned, List.filterMap_cons_none none, List.filterMap_nil, List.append_nil]
  have failed : ∀ {code}, regs = ffaError ctx code → (⟨v, call, ctx, regs⟩ : Exchange).handle? = none := by
    rintro code rfl
    exact if_neg fun success => ffaError_x0_ne (by decide) success.2
  cases step with
  | refuse code =>
    refine ⟨.refuse _ rfl, count, Nat.le_add_right .., ?_⟩
    rw [silent (failed rfl)]
    exact issued
  | full isLend code =>
    refine ⟨.refuse _ rfl, count + 1, ?_, ?_⟩
    · rw [List.countP_singleton, isShare_shareCall]
      rfl
    · rw [silent (failed rfl)]
      exact issued.spend
  | @share isLend i free record here inactive named active sender lend idle =>
    obtain ⟨issued', moved⟩ := issued.enter small here inactive named active
    refine ⟨?_, count + 1, ?_, ?_⟩
    · rw [moved]
      refine .share rfl ?_ sender lend idle ?_ fun next low high => ?_
      · rw [named]
        exact issued.named_eq_none (issued.fresh small)
      · rw [handleReturned_shareSuccess, named]
      · rw [handleOf_of_returned low high, named]
    · rw [List.countP_singleton, isShare_shareCall]
      rfl
    · rw [handlesReturned, List.filterMap_cons_some (handle?_shareSuccess isLend), List.filterMap_nil]
      exact issued'
  | @retrieve _ i record success found receiver idle =>
    refine ⟨?_, count, Nat.le_add_right .., ?_⟩
    · rw [issued.named_rewrite found { record with retrieved := true } rfl, if_pos found.active]
      exact .retrieve success (found.named issued.distinct) receiver idle
    · rw [silent rfl]
      exact issued.rewrite found _ rfl
  | @relinquish i record found receiver taken =>
    refine ⟨?_, count, Nat.le_add_right .., ?_⟩
    · rw [issued.named_rewrite found { record with retrieved := false } rfl, if_pos found.active]
      exact .relinquish rfl (found.named issued.distinct) receiver taken
    · rw [silent rfl]
      exact issued.rewrite found _ rfl
  | @reclaim i record found idle =>
    refine ⟨?_, count, Nat.le_add_right .., ?_⟩
    · rw [issued.named_rewrite found { record with active := false } rfl, if_neg Bool.false_ne_true]
      exact .reclaim rfl (found.named issued.distinct) idle
    · rw [silent rfl]
      exact issued.rewrite found _ rfl

end Issue

section Histories

variable {m₀ m m' : Machine} {trace later : List Exchange}

/-- The handles of a run that has not used up the counter. -/
theorem Machine.Run.issued (init : m₀.spmc = .init) (run : m₀.Run trace m) (few : shareCount trace < 2 ^ 64) :
    ∃ count ≤ shareCount trace, Issued m.spmc (handlesReturned trace) count := by
  induction run with
  | start => exact ⟨0, le_rfl, init ▸ issued_init⟩
  | other _ same ih => exact same ▸ ih few
  | call before _ handled ih =>
    rw [shareCount, List.countP_append] at few
    obtain ⟨count, bound, issued⟩ := ih (Nat.lt_of_le_of_lt (Nat.le_add_right ..) few)
    rw [shareCount] at bound
    obtain ⟨-, count', bound', issued'⟩ := issued.step (by omega) (MemCall.spmcStep handled)
    refine ⟨count', ?_, ?_⟩
    · rw [shareCount, List.countP_append]
      omega
    · rw [handlesReturned, List.filterMap_append]
      exact issued'

theorem Machine.Run.trans (run : m₀.Run trace m) (rest : m.Run later m') : m₀.Run (trace ++ later) m' := by
  induction rest with
  | start => simpa using run
  | call before dispatch handled ih =>
    rw [← List.append_assoc]
    exact .call ih dispatch handled
  | other before same ih => exact .other ih same

/-- Only a fresh handle begins to name a record. -/
theorem Moves.named_eq_none {v : VmId} {ctx regs : GpRegs} {named named' : U64 → Option MemShareRecord}
    {call : MemCall} {handle : U64} (moves : Moves v ctx regs named call named') (gone : named handle = none)
    (other : (⟨v, call, ctx, regs⟩ : Exchange).handle? ≠ some handle) : named' handle = none := by
  have apart : ∀ {key : U64} {record : MemShareRecord}, named key = some record → handle ≠ key := by
    rintro key record named rfl
    exact nomatch gone.symm.trans named
  cases moves with
  | refuse => exact gone
  | @share isLend record success _ _ _ _ returned =>
    rw [Function.update_of_ne, gone]
    rintro rfl
    exact other ((if_pos ⟨isShare_shareCall isLend, success⟩).trans (congrArg some returned))
  | retrieve _ named => rw [Function.update_of_ne (apart named), gone]
  | relinquish _ named => rw [Function.update_of_ne (apart named), gone]
  | reclaim _ named => rw [Function.update_of_ne (apart named), gone]

/-- A handle that names nothing any more never names a record again. -/
theorem Machine.Run.gone {handle : U64} (init : m₀.spmc = .init) (run : m₀.Run trace m)
    (known : handle ∈ handlesReturned trace) (gone : m.spmc.named handle = none) (rest : m.Run later m')
    (few : shareCount (trace ++ later) < 2 ^ 64) : m'.spmc.named handle = none := by
  induction rest with
  | start => exact gone
  | other _ same ih => exact same ▸ ih few
  | @call m₁ m₂ middle v call ctx regs ram before _ handled ih =>
    rw [← List.append_assoc, shareCount, List.countP_append] at few
    have few' : shareCount (trace ++ middle) < 2 ^ 64 := Nat.lt_of_le_of_lt (Nat.le_add_right ..) few
    obtain ⟨count, bound, issued⟩ := (run.trans before).issued init few'
    obtain ⟨moves, _, -, issued'⟩ := issued.step (Nat.lt_of_le_of_lt bound few') (MemCall.spmcStep handled)
    refine moves.named_eq_none (ih few') fun again => ?_
    have twice := List.disjoint_of_nodup_append issued'.nodup
    rw [handlesReturned, List.filterMap_append] at twice
    refine twice (List.mem_append_left _ known) ?_
    rw [handlesReturned, List.filterMap_cons_some again]
    exact List.mem_singleton_self handle

/-- Handles are returned once, every call moves the record of its handle along the automaton or is
refused, calls that are not enabled change nothing, and a handle that is gone stays gone. -/
theorem handle_automaton (init : m₀.spmc = .init) (run : m₀.Run trace m) (few : shareCount trace < 2 ^ 64) :
    (handlesReturned trace).Nodup ∧
    (∀ v (call : MemCall) ctx ram regs m', call.handle (m.activate v) ctx ram = some (regs, m') →
      Moves v ctx regs m.spmc.named call m'.spmc.named) ∧
    (∀ v (call : MemCall) ctx ram, ¬call.Enabled v (m.spmc.named (handleOf ctx)) →
      ∃ code, call.handle (m.activate v) ctx ram = some (ffaError ctx code, m.activate v)) ∧
    ∀ handle ∈ handlesReturned trace, m.spmc.named handle = none →
      ∀ later m', m.Run later m' → shareCount (trace ++ later) < 2 ^ 64 →
        m'.spmc.named handle = none ∧
        ∀ v (call : MemCall) ctx ram, handleOf ctx = handle → call.isShare = false →
          ∃ code, call.handle (m'.activate v) ctx ram = some (ffaError ctx code, m'.activate v) := by
  obtain ⟨count, bound, issued⟩ := run.issued init few
  refine ⟨issued.nodup, fun v call ctx ram regs m' handled => ?_,
    fun v call ctx ram closed => MemCall.refused_of_not_enabled closed,
    fun handle known gone later m' rest few' => ?_⟩
  · exact (issued.step (Nat.lt_of_le_of_lt bound few) (MemCall.spmcStep handled)).1
  · have gone' := run.gone init known gone rest few'
    refine ⟨gone', fun v call ctx ram same other => MemCall.refused_of_not_enabled ?_⟩
    rw [same, gone']
    exact MemCall.not_enabled_none other

end Histories

/-- Handle 1 has been returned to VM 0 and is gone for ever once it was reclaimed. -/
theorem handle_automaton_robbedGuests :
    ∃ trace, freshGuests.Run trace robbedGuests ∧ handlesReturned trace = [1] ∧
      ∀ later m', robbedGuests.Run later m' → shareCount (trace ++ later) < 2 ^ 64 →
        m'.spmc.named 1 = none := by
  obtain ⟨regs, share, returned⟩ := freshGuests.handle_eq_perform 0 .share
    { x0 := ffaMemShare32, x3 := 0x48000000, x4 := 1, x5 := 2 } (fun _ => 0)
    (fun regs => (⟨0, .share, {}, regs⟩ : Exchange).handle?) (some 1) (by decide)
  obtain ⟨regs', reclaim, -⟩ := sharedGuests.handle_eq_perform 1 .reclaim
    { x0 := ffaMemReclaim, x1 := 1 } (fun _ => 0) (·.x0) ffaSuccess32 (by decide)
  have run : freshGuests.Run [⟨0, .share, _, regs⟩, ⟨1, .reclaim, _, regs'⟩] robbedGuests :=
    .call (.call .start rfl share) rfl reclaim
  have handles : ∀ ctx ctx', handlesReturned [⟨0, .share, ctx, regs⟩, ⟨1, .reclaim, ctx', regs'⟩] = [1] :=
    fun _ _ => List.filterMap_cons_some returned
  have known : ∀ ctx ctx', 1 ∈ handlesReturned [⟨0, .share, ctx, regs⟩, ⟨1, .reclaim, ctx', regs'⟩] := by
    intro ctx ctx'
    rw [handles]
    exact List.mem_singleton_self 1
  have gone : robbedGuests.spmc.named 1 = none := by decide
  have automaton := handle_automaton rfl run (Nat.one_lt_two_pow (by decide))
  exact ⟨_, run, handles _ _, fun later m' rest few => (automaton.2.2.2 1 (known _ _) gone later m' rest few).1⟩

end Hypervisor
