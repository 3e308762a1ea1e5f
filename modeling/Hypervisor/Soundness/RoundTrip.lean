import Hypervisor.Soundness.Sharing

/-! # From share to reclaim

A share, any number of retrieve and relinquish pairs, and a reclaim by the sender. The pairs leave
views and records as they were. The reclaim undoes the share on the pages of the record, which keeps
the first four ranges of the request, so the trip is complete exactly when the share retagged no page
outside those ranges.
-/

namespace Hypervisor

/-- The handle that a share returns in two registers. -/
def handleReturned (regs : GpRegs) : U64 := regs.x2 ||| (regs.x3 <<< 32)

theorem handleReturned_shareSuccess (ctx : GpRegs) (handle : U64) :
    handleReturned (shareSuccess ctx handle) = handle := by
  apply BitVec.eq_of_getLsbD_eq
  intro i bound
  simp only [handleReturned, shareSuccess, show (0xFFFFFFFF : U64) = BitVec.mask 0 32 by decide,
    BitVec.getLsbD_or, BitVec.getLsbD_and, BitVec.getLsbD_shiftLeft, BitVec.getLsbD_ushiftRight,
    BitVec.getLsbD_mask]
  grind

/-- A successful retrieve of a handle and a successful relinquish of it. -/
def Machine.Pair (handle : U64) (m m'' : Machine) : Prop :=
  ∃ u u' ctx ctx' regs regs' m', m.perVmVttbr u ≠ 0 ∧ handleOf ctx = handle ∧
    handleMemRetrieveReq (m.activate u) ctx = some (regs, m') ∧ regs.x0 = ffaMemRetrieveResp ∧
    m'.perVmVttbr u' ≠ 0 ∧ handleOf ctx' = handle ∧
    handleMemRelinquish (m'.activate u') ctx' = some (regs', m'') ∧ regs'.x0 = ffaSuccess32

section Trip

variable {m m₁ m₂ m₃ : Machine} {v : VmId} {ctx ctx' regs regs' : GpRegs} {ram : GuestRam} {isLend : Bool}
  {request : ShareRequest} {handle : U64}

/-- A pair leaves views and records as they were. -/
theorem Machine.Pair.same (wf : m.Wf) (pair : m.Pair handle m₁) :
    m₁.Wf ∧ m₁.perVmVttbr = m.perVmVttbr ∧ m₁.view = m.view ∧ m₁.spmc.records = m.spmc.records := by
  obtain ⟨u, u', ctx, ctx', regs, regs', m', booted, rfl, retrieve, retrieved, booted', same, relinquish, done⟩ := pair
  rcases retrieve_cases wf booted retrieve with ⟨code, phys, space, rfl, -⟩ |
    ⟨i, record, phys, space, found, receiver, idle, refines, borrows, -, rfl⟩
  · exact absurd retrieved (ffaError_x0_ne (by decide))
  rcases relinquish_cases booted' relinquish with ⟨code, rfl, -⟩ |
    ⟨j, other, phys', found', receiver', -, unmap, -, rfl⟩
  · exact absurd done (ffaError_x0_ne (by decide))
  -- the slot found by the relinquish is the one that the retrieve marked
  have marked : Found (m.spmc.records.set i { record with retrieved := true }) (handleOf ctx) i
      { record with retrieved := true } := found.set found.holds
  rw [same] at found'
  obtain ⟨rfl, rfl⟩ := marked.unique found'
  obtain rfl := vmIdToPartitionId_injective (receiver.trans receiver'.symm)
  have seen : (m.after u phys { m.spmc with
      records := m.spmc.records.set i { record with retrieved := true } }).view = space.view :=
    Machine.after_view refines
  have wf' : (m.after u phys { m.spmc with
      records := m.spmc.records.set i { record with retrieved := true } }).Wf := wf.after refines
  obtain ⟨room, refines'⟩ := wf'.refines
  have refines'' := unmap room refines'
  refine ⟨wf'.after refines'', rfl, ?_, ?_⟩
  · rw [Machine.after_view refines'']
    rw [← seen] at borrows
    exact borrows.rollback
  · obtain ⟨bound, here⟩ := List.getElem?_eq_some_iff.mp found.here
    have restored : { record with retrieved := false } = record := by rw [← idle]
    change (m.spmc.records.set i _).set i { record with retrieved := false } = m.spmc.records
    rw [List.set_set, restored, ← here, List.set_getElem_self]

/-- Pairs leave views and records as they were. -/
theorem pairs_same (wf : m.Wf) (pairs : Relation.ReflTransGen (Machine.Pair handle) m m₁) :
    m₁.Wf ∧ m₁.perVmVttbr = m.perVmVttbr ∧ m₁.view = m.view ∧ m₁.spmc.records = m.spmc.records := by
  induction pairs with
  | refl => exact ⟨wf, rfl, rfl, rfl⟩
  | tail _ pair ih =>
    obtain ⟨wf', roots, views, records⟩ := ih
    obtain ⟨wf'', roots', views', records'⟩ := pair.same wf'
    exact ⟨wf'', roots'.trans roots, views'.trans views, records'.trans records⟩

/-- A successful reclaim of the record in slot `i` retags pages of the record, among them all that are
not in 2MB blocks. -/
theorem reclaim_success (wf : m.Wf) (booted : m.perVmVttbr v ≠ 0) (small : Small m.view v)
    {i : ℕ} {record : MemShareRecord} (found : Found m.spmc.records (handleOf ctx) i record)
    (run : handleMemReclaim (m.activate v) ctx = some (regs, m₁)) (success : regs.x0 = ffaSuccess32) :
    ∃ R : ℕ → Prop, Retyped v R reclaimedTranslation m.view m₁.view ∧
      (∀ a, R a → a ∈ covered record.ranges) ∧
      ∀ a leaf, a ∈ covered record.ranges → m.view v a = some leaf → leaf.height = 0 → R a := by
  obtain ⟨room, refines⟩ := wf.refines
  rcases reclaim_cases wf booted run with ⟨code, rfl, -⟩ | ⟨j, other, phys, found', -, retag, -, rfl⟩
  · exact absurd success (ffaError_x0_ne (by decide))
  · obtain ⟨rfl, rfl⟩ := found.unique found'
    have refines' := retag room refines
    refine ⟨Space.Reached v PageOwnership.owned.bits ((s2apRw >>> s2apShift).setWidth 8)
      (covered record.ranges) (m.space room), ?_, fun a reached => reached.mem small, ?_⟩
    · rw [Machine.after_view refines']
      exact Space.retagAll_retyped
    · intro a leaf member mapped height
      exact Space.reached_of_not_block member (Space.heightAt_eq_some.mpr ⟨leaf, mapped, height⟩) (by decide)

/-- Owned and writable. -/
def Translation.Free (tr : Translation) : Prop := tr.sw = PageOwnership.owned.bits ∧ tr.s2ap = 0b11

theorem reclaimedTranslation_of_free {tr : Translation} (free : tr.Free) : reclaimedTranslation tr = tr :=
  Translation.ext rfl rfl free.1.symm free.2.symm

theorem reclaimedTranslation_shared {tr : Translation} (free : tr.Free) :
    reclaimedTranslation (sharedTranslation isLend tr) = tr :=
  Translation.ext rfl rfl free.1.symm free.2.symm

/-- The slot of a new share under its handle, if no active record has that handle. -/
theorem found_of_share {i : ℕ} {free : MemShareRecord} (here : m.spmc.records[i]? = some free)
    (fresh : ∀ record ∈ m.spmc.records, record.active = true → record.handle ≠ m.spmc.nextHandle) :
    Found (m.spmc.records.set i (shareRecord m v request isLend)) m.spmc.nextHandle i
      (shareRecord m v request isLend) := by
  obtain ⟨bound, -⟩ := List.getElem?_eq_some_iff.mp here
  refine ⟨List.getElem?_set_self bound, by simp [MemShareRecord.holds, shareRecord], fun j before other at_ => ?_⟩
  rw [List.getElem?_set_ne (by omega)] at at_
  have apart := fresh other (List.mem_of_getElem? at_)
  simp only [MemShareRecord.holds, Bool.and_eq_false_imp, beq_eq_false_iff_ne]
  exact apart

/-- A round trip restores every page and every translation exactly when the share retagged no page
outside the ranges that the record keeps. -/
theorem share_round_trip (wf : m.Wf) (booted : m.perVmVttbr v ≠ 0) (small : Small m.view v)
    (fresh : ∀ record ∈ m.spmc.records, record.active = true → record.handle ≠ m.spmc.nextHandle)
    (asked : shareRequest ctx (m.mailbox v) ram = .ok request)
    (free : ∀ a ∈ covered request.ranges, ∃ tr, m.translation v a = some tr ∧ tr.Free)
    (share : handleMemShareOrLend (m.activate v) ctx ram isLend = some (regs, m₁))
    (shared : regs.x0 = ffaSuccess32)
    (pairs : Relation.ReflTransGen (Machine.Pair (handleReturned regs)) m₁ m₂)
    (handle : handleOf ctx' = handleReturned regs)
    (reclaim : handleMemReclaim (m₂.activate v) ctx' = some (regs', m₃))
    (reclaimed : regs'.x0 = ffaSuccess32) :
    ((∀ a ∈ covered request.ranges, ∃ tr, m₃.translation v a = some tr ∧ tr.Free) ∧
      ∀ u a, m₃.translation u a = m.translation u a) ↔
    ∀ a ∈ m.retagged v (covered request.ranges), a ∈ covered (request.ranges.take maxShareRanges) := by
  obtain ⟨wf₁, roots₁, -⟩ := share_effect wf booted share
  obtain ⟨found, i, slot, accepts, here, -, rfl, records, retyped, pages⟩ :=
    share_success wf booted small share shared
  obtain rfl := accepts.eq asked
  rw [handleReturned_shareSuccess] at pairs handle
  obtain ⟨wf₂, roots₂, views, records₂⟩ := pairs_same wf₁ pairs
  have slot₂ : Found m₂.spmc.records (handleOf ctx') i (shareRecord m v found isLend) := by
    rw [records₂, records, handle]
    exact found_of_share here fresh
  rw [← roots₁, ← roots₂] at booted
  rw [← views] at retyped pages
  obtain ⟨R, retyped', inside, reaches⟩ := reclaim_success wf₂ booted (small.retyped retyped) slot₂ reclaim reclaimed
  constructor
  · rintro ⟨-, same⟩ a member
    by_contra outside
    obtain ⟨leaf, mapped, owned⟩ := accepts.owned a (mem_of_transitioned member)
    refine translation_ne_of_reached retyped member mapped owned ?_
    rw [← retyped'.translation_eq fun hit => outside (inside a hit.2)]
    exact same v a
  · intro kept
    have same : ∀ u a, m₃.translation u a = m.translation u a := by
      intro u a
      by_cases hit : u = v ∧ (a ∈ m.retagged v (covered found.ranges) ∨ R a)
      · obtain ⟨rfl, touched⟩ := hit
        have page : a ∈ covered found.ranges :=
          touched.elim mem_of_transitioned fun reached => covered_take (inside a reached)
        obtain ⟨leaf, mapped, -⟩ := accepts.owned a page
        obtain ⟨tr, sees, unshared⟩ := free a page
        rw [Machine.translation, mapped, Option.map_some] at sees
        obtain rfl := Option.some.inj sees
        obtain ⟨leaf₁, mapped₁, -, inside₁, outside₁⟩ := retyped.mapped a leaf mapped
        obtain ⟨leaf₂, mapped₂, -, inside₂, outside₂⟩ := retyped'.mapped a leaf₁ mapped₁
        rw [Machine.translation, Machine.translation, mapped₂, mapped, Option.map_some, Option.map_some,
          Option.some.injEq]
        by_cases first : a ∈ m.retagged u (covered found.ranges)
        · obtain ⟨page₁, seen₁, height⟩ := pages a first
          obtain rfl := Option.some.inj (seen₁.symm.trans mapped₁)
          rw [inside₂ (reaches a _ (kept a first) mapped₁ height), inside₁ first,
            reclaimedTranslation_shared unshared]
        · rw [inside₂ (touched.resolve_left first), outside₁ first, reclaimedTranslation_of_free unshared]
      · rw [Machine.translation, retyped'.translation_eq, retyped.translation_eq, Machine.translation]
        · exact fun touched => hit ⟨touched.1, .inl touched.2⟩
        · exact fun touched => hit ⟨touched.1, .inr touched.2⟩
    exact ⟨fun a member => (same v a).symm ▸ free a member, same⟩

end Trip

/-! ## A trip over one page and a trip over five ranges -/

/-- VM 0 has shared a page of its RAM block with VM 1. -/
def sharedGuests : Machine :=
  freshGuests.perform 0 .share { x0 := ffaMemShare32, x3 := 0x48000000, x4 := 1, x5 := 2 } fun _ => 0

/-- VM 1 has retrieved the page. -/
def borrowedGuests : Machine :=
  sharedGuests.perform 1 .retrieveReq { x0 := ffaMemRetrieveReq32, x1 := 1 } fun _ => 0

/-- VM 1 has given the page back. -/
def returnedGuests : Machine :=
  borrowedGuests.perform 1 .relinquish { x0 := ffaMemRelinquish, x1 := 1 } fun _ => 0

theorem sharedGuests_pair : sharedGuests.Pair 1 returnedGuests := by
  obtain ⟨regs, retrieve, retrieved⟩ := sharedGuests.handle_eq_perform 1 .retrieveReq
    { x0 := ffaMemRetrieveReq32, x1 := 1 } (fun _ => 0) (·.x0) ffaMemRetrieveResp (by decide)
  obtain ⟨regs', relinquish, relinquished⟩ := borrowedGuests.handle_eq_perform 1 .relinquish
    { x0 := ffaMemRelinquish, x1 := 1 } (fun _ => 0) (·.x0) ffaSuccess32 (by decide)
  exact ⟨1, 1, { x0 := ffaMemRetrieveReq32, x1 := 1 }, { x0 := ffaMemRelinquish, x1 := 1 }, regs, regs',
    borrowedGuests, by decide, by decide, retrieve, retrieved, by decide, by decide, relinquish,
    relinquished⟩

/-- After the reclaim the pages are as they were before the share. -/
theorem share_round_trip_freshGuests : ∃ regs m',
    handleMemReclaim (returnedGuests.activate 0) { x0 := ffaMemReclaim, x1 := 1 } = some (regs, m') ∧
      ∀ u a, m'.translation u a = freshGuests.translation u a := by
  obtain ⟨regs, share, outcome⟩ := freshGuests.handle_eq_perform 0 .share
    { x0 := ffaMemShare32, x3 := 0x48000000, x4 := 1, x5 := 2 } (fun _ => 0)
    (fun regs => (regs.x0, handleReturned regs)) (ffaSuccess32, 1) (by decide +kernel)
  obtain ⟨shared, handle⟩ := Prod.mk.inj outcome
  obtain ⟨regs', reclaim, reclaimed⟩ := returnedGuests.handle_eq_perform 0 .reclaim
    { x0 := ffaMemReclaim, x1 := 1 } (fun _ => 0) (·.x0) ffaSuccess32 (by decide +kernel)
  have asked : shareRequest { x0 := ffaMemShare32, x3 := 0x48000000, x4 := 1, x5 := 2 } (freshGuests.mailbox 0)
      (fun _ => 0) = .ok ⟨0, 2, [(0x48000000, 1)], 1⟩ := by decide +kernel
  have free : ∀ a ∈ covered [(0x48000000, 1)], ∃ tr, freshGuests.translation 0 a = some tr ∧ tr.Free := by
    intro a member
    rw [show covered [(0x48000000, 1)] = [0x48000] by decide +kernel, List.mem_singleton] at member
    exact ⟨⟨0x48000000, 0x73C, 0, 3⟩, member ▸ by decide +kernel, rfl, rfl⟩
  replace share : _ = some (regs, sharedGuests) := share
  have pair : sharedGuests.Pair (handleReturned regs) returnedGuests := by
    rw [handle]
    exact sharedGuests_pair
  have same : handleOf { x0 := ffaMemReclaim, x1 := 1 } = handleReturned regs := by
    rw [handle]
    decide
  have trip := share_round_trip freshGuests_initial.wf (by decide) (freshGuests_initial.small 0) (by decide) asked
    free share shared (Relation.ReflTransGen.single pair) same reclaim reclaimed
  exact ⟨regs', _, reclaim, (trip.mpr (by decide +kernel)).2⟩

/-- Guests that have mapped their mailboxes, with TX buffers at 0x48100000. -/
def mailGuests : Machine :=
  { freshGuests with mailboxes := fun _ => ⟨0x48100000, 0x48101000, 1, true, true, false, 0⟩ }

theorem mailGuests_wf : mailGuests.Wf := { freshGuests_initial.wf with }

/-- Five pages of the RAM block of VM 0. -/
def fivePages : List AddrRange :=
  [(0x48000000, 1), (0x48002000, 1), (0x48004000, 1), (0x48006000, 1), (0x48008000, 1)]

/-- Memory with a descriptor of the five pages in the TX buffer. -/
def fivePagesRam : GuestRam := fun addr =>
  match buildTestDescriptor (fun _ => 0) 1 2 fivePages with
  | some (_, buf) => buf (addr - 0x48100000)
  | none => 0

/-- VM 0 has shared the five pages with VM 1. -/
def fiveShared : Machine :=
  mailGuests.perform 0 .share { x0 := ffaMemShare32, x1 := 160, x2 := 160 } fivePagesRam

/-- VM 0 has reclaimed the share. -/
def fiveReclaimed : Machine := fiveShared.perform 0 .reclaim { x0 := ffaMemReclaim, x1 := 1 } fun _ => 0

/-- The fifth page stays shared and read-only after a trip in which every call succeeded. -/
theorem reclaim_forgets_fifth_range :
    mailGuests.Wf ∧
    shareRequest { x0 := ffaMemShare32, x1 := 160, x2 := 160 } (mailGuests.mailbox 0) fivePagesRam =
      .ok ⟨1, 2, fivePages, 5⟩ ∧
    (∀ a ∈ covered fivePages, (mailGuests.translation 0 a).any fun tr => tr.sw = 0 ∧ tr.s2ap = 0b11) ∧
    (∃ regs, handleMemShare (mailGuests.activate 0) { x0 := ffaMemShare32, x1 := 160, x2 := 160 } fivePagesRam =
      some (regs, fiveShared) ∧ regs.x0 = ffaSuccess32 ∧ handleReturned regs = 1) ∧
    (∃ regs, handleMemReclaim (fiveShared.activate 0) { x0 := ffaMemReclaim, x1 := 1 } =
      some (regs, fiveReclaimed) ∧ regs.x0 = ffaSuccess32) ∧
    mailGuests.translation 0 0x48008 = some ⟨0x48008000, 0x73C, PageOwnership.owned.bits, 0b11⟩ ∧
    fiveReclaimed.translation 0 0x48008 = some ⟨0x48008000, 0x73C, PageOwnership.sharedOwned.bits, 0b01⟩ := by
  refine ⟨mailGuests_wf, by decide +kernel, by decide +kernel, ?_, ?_, by decide +kernel, by decide +kernel⟩
  · obtain ⟨regs, share, outcome⟩ := mailGuests.handle_eq_perform 0 .share
      { x0 := ffaMemShare32, x1 := 160, x2 := 160 } fivePagesRam
      (fun regs => (regs.x0, handleReturned regs)) (ffaSuccess32, 1) (by decide +kernel)
    exact ⟨regs, share, Prod.mk.inj outcome⟩
  · exact fiveShared.handle_eq_perform 0 .reclaim { x0 := ffaMemReclaim, x1 := 1 } (fun _ => 0) (·.x0) ffaSuccess32
      (by decide +kernel)

end Hypervisor
