import Hypervisor.Proofs.Mapper
import Hypervisor.Soundness.Authority

/-! # Borrowed pages

A page that a VM did not map at the start is in its tables exactly while an active record that names
the VM as receiver, marked as retrieved, covers it. There is one such record, and the page leaves the
tables only when that record is relinquished. A retrieve that fails leaves all pages and records alone.
-/

namespace Hypervisor

/-- The record in slot `i` has brought page `a` to VM `r`. -/
structure Brought (records : List MemShareRecord) (r : VmId) (a i : ℕ) (record : MemShareRecord) : Prop
    extends Covers records a i record where
  receiver : record.receiverId = vmIdToPartitionId r
  retrieved : record.retrieved = true

/-- Page `a` is in the tables of VM `r`, as a 4KB page, exactly while one record has brought it. -/
structure Borrowed (r : VmId) (a : ℕ) (L : Ledger) : Prop where
  page : ∀ leaf, L.view r a = some leaf → leaf.height = 0
  record : L.view r a ≠ none → ∃ i record, Brought L.records r a i record
  mapped : ∀ i record, Brought L.records r a i record → L.view r a ≠ none
  unique : ∀ i record j other, Brought L.records r a i record → Brought L.records r a j other → i = j

section Slots

variable {records : List MemShareRecord} {r v : VmId} {a i j : ℕ} {record other new : MemShareRecord}

theorem Brought.of_set (brought : Brought (records.set i new) r a j other) :
    j = i ∧ other = new ∨ Brought records r a j other := by
  rcases brought.toCovers.of_set with hit | ⟨-, old⟩
  · exact .inl hit
  · exact .inr ⟨old, brought.receiver, brought.retrieved⟩

theorem Brought.set_of_ne (brought : Brought records r a j other) (apart : j ≠ i) :
    Brought (records.set i new) r a j other := ⟨brought.toCovers.set_of_ne apart, brought.receiver, brought.retrieved⟩

/-- Writing a slot that neither brought the page nor brings it now changes nothing for the page. -/
theorem brought_set_iff (before : ∀ record, ¬Brought records r a i record)
    (after : ¬Brought (records.set i new) r a i new) :
    Brought (records.set i new) r a j other ↔ Brought records r a j other := by
  constructor
  · intro brought
    rcases brought.of_set with ⟨rfl, rfl⟩ | old
    · exact absurd brought after
    · exact old
  · intro brought
    refine brought.set_of_ne ?_
    rintro rfl
    exact before other brought

end Slots

section Steps

variable {L L' : Ledger} {r v : VmId} {a : ℕ} {call : MemCall} {ctx : GpRegs}

/-- The invariant depends on which records lend the page and on what maps it. -/
theorem Borrowed.congr (borrowed : Borrowed r a L)
    (page : ∀ leaf', L'.view r a = some leaf' → ∃ leaf, L.view r a = some leaf ∧ leaf'.height ≤ leaf.height)
    (kept : L.view r a ≠ none → L'.view r a ≠ none)
    (records : ∀ i record, Brought L'.records r a i record ↔ Brought L.records r a i record) : Borrowed r a L' := by
  refine ⟨?_, ?_, ?_, ?_⟩
  · intro leaf' mapped'
    obtain ⟨leaf, mapped, height⟩ := page leaf' mapped'
    have bottom := borrowed.page leaf mapped
    omega
  · intro maps
    obtain ⟨leaf', mapped'⟩ := Option.ne_none_iff_exists'.mp maps
    obtain ⟨leaf, mapped, -⟩ := page leaf' mapped'
    obtain ⟨i, record, brought⟩ := borrowed.record (by simp [mapped])
    exact ⟨i, record, (records i record).mpr brought⟩
  · intro i record brought
    exact kept (borrowed.mapped i record ((records i record).mp brought))
  · intro i record j other one two
    exact borrowed.unique i record j other ((records i record).mp one) ((records j other).mp two)

/-- Retagging changes neither which pages are mapped nor which records lend them. -/
theorem Borrowed.retyped (borrowed : Borrowed r a L) {R : ℕ → Prop} {change : Translation → Translation} {W : View}
    {refused : ℕ} {records : List MemShareRecord} (retyped : Retyped v R change L.view W)
    (same : ∀ i record, Brought records r a i record ↔ Brought L.records r a i record) :
    Borrowed r a ⟨W, records, refused⟩ := by
  refine borrowed.congr (fun leaf' mapped' => ?_) (fun maps gone => ?_) same
  · obtain ⟨leaf, mapped, height, -⟩ := retyped.backward mapped'
    exact ⟨leaf, mapped, by omega⟩
  · obtain ⟨leaf, mapped⟩ := Option.ne_none_iff_exists'.mp maps
    obtain ⟨leaf', mapped', -⟩ := retyped.forward mapped
    exact absurd gone (by simp [mapped'])

theorem Borrowed.reclaim (borrowed : Borrowed r a L) {R : ℕ → Prop} {W : View} {refused i : ℕ}
    {record : MemShareRecord} (found : Found L.records (handleOf ctx) i record) (idle : record.retrieved = false)
    (retyped : Retyped v R reclaimedTranslation L.view W) :
    Borrowed r a ⟨W, L.records.set i { record with active := false }, refused⟩ := by
  refine borrowed.retyped retyped fun j other => brought_set_iff (fun old brought => ?_) fun brought => ?_
  · obtain rfl := Option.some.inj (found.here.symm.trans brought.here)
    rw [brought.retrieved] at idle
    contradiction
  · exact absurd brought.active (by simp)

theorem Borrowed.retrieve (borrowed : Borrowed r a L) {W : View} {refused i : ℕ} {record : MemShareRecord}
    (found : Found L.records (handleOf ctx) i record) (receiver : vmIdToPartitionId v = record.receiverId)
    (idle : record.retrieved = false) (borrows : Borrows v (pages record.ranges) L.view W) :
    Borrowed r a ⟨W, L.records.set i { record with retrieved := true }, refused⟩ := by
  have before : ∀ old, ¬Brought L.records r a i old := by
    intro old brought
    obtain rfl := Option.some.inj (found.here.symm.trans brought.here)
    rw [brought.retrieved] at idle
    contradiction
  by_cases hit : r = v ∧ a ∈ covered record.ranges
  · -- the page was not mapped, so no record had brought it, and now this one has
    obtain ⟨rfl, member⟩ := hit
    obtain ⟨tr, mapped, -⟩ := borrows.mapped member
    have none_before : ∀ j other, ¬Brought L.records r a j other := fun j other brought =>
      borrowed.mapped j other brought (borrows.fresh a member)
    have only : ∀ j other, Brought (L.records.set i { record with retrieved := true }) r a j other → j = i := by
      intro j other brought
      rcases brought.of_set with ⟨same, -⟩ | old
      · exact same
      · exact absurd old (none_before j other)
    refine ⟨fun leaf sees => ?_, fun _ => ⟨i, _, .set_self found.here found.active member, receiver.symm, rfl⟩,
      ?_, ?_⟩
    · rw [← Option.some.inj (mapped.symm.trans sees)]
    · intro j other _ gone
      exact nomatch mapped.symm.trans gone
    · intro j other k another one two
      rw [only j other one, only k another two]
  · refine borrowed.congr (fun leaf sees => ?_) (fun maps => ?_) fun j other => brought_set_iff before ?_
    · exact ⟨leaf, (borrows.other r a hit).symm.trans sees, le_rfl⟩
    · exact fun gone => maps ((borrows.other r a hit).symm.trans gone)
    · intro brought
      exact hit ⟨vmIdToPartitionId_injective (brought.receiver.symm.trans receiver.symm), brought.page⟩

theorem Borrowed.relinquish (borrowed : Borrowed r a L) {refused i : ℕ} {record : MemShareRecord}
    (found : Found L.records (handleOf ctx) i record) (receiver : vmIdToPartitionId v = record.receiverId)
    (held : record.retrieved = true) :
    Borrowed r a ⟨returned v (covered record.ranges) L.view,
      L.records.set i { record with retrieved := false }, refused⟩ := by
  have after : ∀ new, ¬Brought (L.records.set i { record with retrieved := false }) r a i new := by
    intro new brought
    rcases brought.toCovers.of_set with ⟨-, rfl⟩ | ⟨apart, -⟩
    · exact absurd brought.retrieved (by simp)
    · exact apart rfl
  by_cases hit : r = v ∧ a ∈ covered record.ranges
  · -- this record had brought the page, and no other one
    obtain ⟨rfl, member⟩ := hit
    have brought : Brought L.records r a i record := ⟨found.covers member, receiver.symm, held⟩
    have gone : returned r (covered record.ranges) L.view r a = none := by
      cases sees : returned r (covered record.ranges) L.view r a with
      | none => rfl
      | some leaf =>
        obtain ⟨mapped, high⟩ := of_returned sees
        exact absurd (borrowed.page leaf mapped) (high rfl member)
    have none_after : ∀ j other,
        ¬Brought (L.records.set i { record with retrieved := false }) r a j other := by
      intro j other there
      rcases there.of_set with ⟨rfl, -⟩ | old
      · exact after other there
      · obtain rfl := borrowed.unique i record j other brought old
        exact after other there
    refine ⟨fun leaf sees => ?_, fun maps => absurd gone maps, fun j other there => absurd there (none_after j other),
      fun j other _ _ there => absurd there (none_after j other)⟩
    exact nomatch gone.symm.trans sees
  · refine borrowed.congr (fun leaf sees => ⟨leaf, (of_returned sees).1, le_rfl⟩) (fun maps => ?_) fun j other =>
      brought_set_iff (fun old brought => ?_) (after _)
    · exact fun gone => maps ((if_neg hit).symm.trans gone)
    · obtain rfl := Option.some.inj (found.here.symm.trans brought.here)
      exact hit ⟨vmIdToPartitionId_injective (brought.receiver.symm.trans receiver.symm), brought.page⟩

theorem Effect.borrowed (effect : Effect L v ctx call L') (borrowed : Borrowed r a L) : Borrowed r a L' := by
  cases effect with
  | refuse => exact ⟨borrowed.page, borrowed.record, borrowed.mapped, borrowed.unique⟩
  | full shares => exact borrowed.retyped shares.retyped fun _ _ => Iff.rfl
  | share shares here inactive _ _ _ _ idle =>
    refine borrowed.retyped shares.retyped fun j other => brought_set_iff (fun old brought => ?_) fun brought => ?_
    · exact brought.toCovers.ne_of_inactive here inactive rfl
    · rw [brought.retrieved] at idle
      contradiction
  | reclaim found idle retyped => exact borrowed.reclaim found idle retyped
  | retrieve found receiver idle borrows => exact borrowed.retrieve found receiver idle borrows
  | relinquish found receiver held => exact borrowed.relinquish found receiver held

end Steps

section Runs

variable {m₀ m m' : Machine} {r v : VmId} {a : ℕ} {ctx regs : GpRegs}

theorem Reach.borrowed (wf : m₀.Wf) (unshared : ∀ record ∈ m₀.spmc.records, record.active = false)
    (unmapped : m₀.view r a = none) (reach : Reach anyStep m₀ m) : Borrowed r a m.ledger := by
  refine reach.invariant wf ?_ fun _ _ _ _ _ _ borrowed effect _ => effect.borrowed borrowed
  have none_yet : ∀ i record, ¬Brought m₀.spmc.records r a i record := by
    intro i record brought
    have inactive := unshared record (List.mem_of_getElem? brought.here)
    rw [brought.active] at inactive
    contradiction
  refine ⟨fun leaf mapped => ?_, fun maps => absurd unmapped maps, fun i record there => ?_,
    fun i record _ _ there => ?_⟩
  · exact nomatch unmapped.symm.trans mapped
  · exact absurd there (none_yet i record)
  · exact absurd there (none_yet i record)

/-- A record that has brought a page stays as it is until its receiver relinquishes it. -/
theorem Brought.step {i : ℕ} {record : MemShareRecord} {event : Event} (wf : m.Wf)
    (brought : Brought m.spmc.records r a i record) (step : m.Step event m') :
    Brought m'.spmc.records r a i record ∨ ∃ ctx ram, event = .call r .relinquish ctx ram ∧
      Found m.spmc.records (handleOf ctx) i record := by
  cases step with
  | other _ _ same =>
    have records : m'.spmc.records = m.spmc.records := congrArg Ledger.records same
    exact .inl (records.symm ▸ brought)
  | call booted _ run =>
    have effect := (MemCall.effect wf booted run).2.2
    rcases effect.slot brought.here brought.active with here | ⟨found, new, update, -⟩
    · exact .inl ⟨⟨here, brought.active, brought.page⟩, brought.receiver, brought.retrieved⟩
    · cases update with
      | reclaim idle => exact absurd brought.retrieved (by simp [idle])
      | retrieve _ idle => exact absurd brought.retrieved (by simp [idle])
      | relinquish receiver =>
        obtain rfl := vmIdToPartitionId_injective (brought.receiver.symm.trans receiver.symm)
        exact .inr ⟨_, _, rfl, found⟩

/-- In every state reached, a page that VM `r` did not map at the start is mapped exactly while a record
that `r` has retrieved covers it, and that record is unique. It cannot be reclaimed and stays as it is
until `r` relinquishes it, and before that the page does not leave the tables. -/
theorem borrow_invariant (wf : m₀.Wf) (unshared : ∀ record ∈ m₀.spmc.records, record.active = false)
    (unmapped : m₀.view r a = none) (reach : Reach anyStep m₀ m) :
    (m.view r a ≠ none → ∃! i, ∃ record, Brought m.spmc.records r a i record) ∧
    ∀ i record, Brought m.spmc.records r a i record →
      m.view r a ≠ none ∧
      (∀ v ctx, Found m.spmc.records (handleOf ctx) i record →
        handleMemReclaim (m.activate v) ctx = some (ffaError ctx ffaDenied, m.activate v)) ∧
      ∀ event m', m.Step event m' →
        (Brought m'.spmc.records r a i record ∧ m'.view r a ≠ none) ∨
        ∃ ctx ram, event = .call r .relinquish ctx ram ∧ Found m.spmc.records (handleOf ctx) i record := by
  have borrowed := reach.borrowed wf unshared unmapped
  refine ⟨fun maps => ?_, fun i record brought => ⟨borrowed.mapped i record brought, ?_, ?_⟩⟩
  · obtain ⟨i, record, brought⟩ := borrowed.record maps
    refine ⟨i, ⟨record, brought⟩, ?_⟩
    rintro j ⟨other, brought'⟩
    exact borrowed.unique j other i record brought' brought
  · intro v ctx found
    exact reclaim_of_retrieved found brought.retrieved
  · intro event m' step
    rcases brought.step (reach.wf wf) step with kept | relinquished
    · have reach' : Reach anyStep m₀ m' := reach.tail ⟨event, step, trivial⟩
      exact .inl ⟨kept, (reach'.borrowed wf unshared unmapped).mapped i record kept⟩
    · exact .inr relinquished

end Runs

theorem borrowedGuests_reach : Reach anyStep freshGuests borrowedGuests :=
  .perform sharedGuests_reach (by decide) rfl (by decide) trivial

/-- A call in the protocol without tables. -/
def Ledger.Next (L L' : Ledger) : Prop := ∃ v ctx call, Effect L v ctx call L'

/-- A run on the tables keeps them sound and is a run of the protocol without tables. -/
theorem runs_refine_ledger {m₀ m : Machine} (wf : m₀.Wf) (reach : Reach anyStep m₀ m) :
    m.Wf ∧ Relation.ReflTransGen Ledger.Next m₀.ledger m.ledger := by
  refine ⟨reach.wf wf, ?_⟩
  refine reach.invariant (I := Relation.ReflTransGen Ledger.Next m₀.ledger) wf .refl ?_
  intro L L' v call ctx _ before effect _
  exact before.tail ⟨v, ctx, call, effect⟩

theorem runs_refine_ledger_borrowedGuests : borrowedGuests.Wf ∧
    Relation.ReflTransGen Ledger.Next freshGuests.ledger borrowedGuests.ledger :=
  runs_refine_ledger freshGuests_initial.wf borrowedGuests_reach

/-- VM 1 has retrieved the page of VM 0 under one record. -/
theorem borrow_invariant_borrowedGuests : borrowedGuests.view 1 0x48000 ≠ none ∧
    ∃! i, ∃ record, Brought borrowedGuests.spmc.records 1 0x48000 i record := by
  have maps : borrowedGuests.view 1 0x48000 ≠ none := by decide
  exact ⟨maps, (borrow_invariant freshGuests_initial.wf freshGuests_initial.unshared (by decide)
    borrowedGuests_reach).1 maps⟩

/-- A retrieve that fails leaves every translation and all records as they were. -/
theorem retrieve_error_atomic {m m' : Machine} {v : VmId} {ctx regs : GpRegs} (wf : m.Wf)
    (booted : m.perVmVttbr v ≠ 0) (run : handleMemRetrieveReq (m.activate v) ctx = some (regs, m'))
    (failed : regs.x0 = ffaErrorId) :
    (∀ u a, m'.translation u a = m.translation u a) ∧ m'.spmc = m.spmc := by
  rcases retrieve_cases wf booted run with ⟨code, phys, space, -, rfl, refines, same⟩ |
    ⟨i, record, phys, space, -, -, -, -, -, success, -⟩
  · refine ⟨fun u a => ?_, rfl⟩
    rw [Machine.translation, Machine.after_view refines, same, Machine.translation]
  · rw [failed] at success
    contradiction

/-- VM 0 has shared a page with VM 1 twice in one record. -/
def doublyShared : Machine := (Snapshot.twoGuests 0x42000000).machine
  ⟨[⟨1, 1, 2, [(0x48000000, 2), (0x48001000, 1)], 3, true, false, false⟩], 2⟩

/-- Mapping the page for the second time fails, and the pages mapped before are gone again. -/
theorem retrieve_error_atomic_doublyShared : ∃ regs m',
    handleMemRetrieveReq (doublyShared.activate 1) { x0 := ffaMemRetrieveReq32, x1 := 1 } = some (regs, m') ∧
      regs.x0 = ffaErrorId ∧ (∀ u a, m'.translation u a = doublyShared.translation u a) ∧
      m'.spmc = doublyShared.spmc := by
  obtain ⟨⟨regs, m'⟩, run, failed⟩ := Option.map_eq_some_iff.mp
    (by decide : (handleMemRetrieveReq (doublyShared.activate 1)
      { x0 := ffaMemRetrieveReq32, x1 := 1 }).map (·.1.x0) = some ffaErrorId)
  exact ⟨regs, m', run, failed, retrieve_error_atomic Snapshot.twoGuests_sound.wf (by decide) run failed⟩

/-! ## The descriptor of a borrowed page -/

/-- Page `a` as its borrower should see it: Normal memory with all accesses, marked as borrowed. -/
def borrowedLeaf (a : ℕ) : Leaf where
  height := 0
  translation :=
    { output := pageAddr a
      attrs := MemoryAttribute.normal.bits &&& attrMask
      sw := PageOwnership.sharedBorrowed.bits
      s2ap := (s2apRw >>> s2apShift).setWidth 8 }

/-- Bits 63:48 without bit 56, which is the SW bit that marks a borrowed page. -/
def strayBits : U64 := 0xFEFF000000000000

theorem and_strayBits_eq_zero_iff (ipa : U64) :
    ipa &&& strayBits = 0 ↔ ∀ i, 48 ≤ i → i < 64 → i ≠ 56 → ipa.getLsbD i = false := by
  have stray : ∀ i, strayBits.getLsbD i = (decide (48 ≤ i ∧ i < 64) && decide (i ≠ 56)) := by
    intro i
    rw [show strayBits = BitVec.mask 48 8 ||| BitVec.mask 57 7 by decide, BitVec.getLsbD_or, BitVec.getLsbD_mask,
      BitVec.getLsbD_mask]
    grind
  constructor
  · intro clear i low high other
    have bit := congrArg (BitVec.getLsbD · i) clear
    simp only [BitVec.getLsbD_and, stray] at bit
    grind
  · intro clear
    apply BitVec.eq_of_getLsbD_eq
    intro i bound
    have bit := clear i
    simp only [BitVec.getLsbD_and, stray]
    grind

/-- The address reaches the descriptor unmasked: its stray bits are the only ones that differ. -/
theorem borrowedPage_eq_iff (page : U64 × ℕ) :
    (⟨0, borrowedPage page⟩ : Leaf) = borrowedLeaf (pageIndex page) ↔ visitedIpa page &&& strayBits = 0 := by
  obtain ⟨output, -, access⟩ := borrowedPage_marks page
  rw [borrowedLeaf, Leaf.mk.injEq, and_iff_right rfl, Translation.ext_iff, and_iff_right output,
    and_strayBits_eq_zero_iff]
  have normal : ∀ i, (MemoryAttribute.normal.bits &&& attrMask).getLsbD i =
      decide (2 ≤ i ∧ i < 6 ∨ 8 ≤ i ∧ i < 11) := by
    intro i
    rw [show MemoryAttribute.normal.bits &&& attrMask = BitVec.mask 2 4 ||| BitVec.mask 8 3 by decide,
      BitVec.getLsbD_or, BitVec.getLsbD_mask, BitVec.getLsbD_mask]
    grind
  have mark : ∀ i, PageOwnership.sharedBorrowed.bits.getLsbD i = decide (i = 1) := by
    intro i
    rw [show PageOwnership.sharedBorrowed.bits = BitVec.mask 1 1 by decide, BitVec.getLsbD_mask]
    grind
  have attrs : ∀ i, (borrowedPage page).attrs.getLsbD i = (decide (2 ≤ i ∧ i < 6 ∨ 8 ≤ i ∧ i < 11) ||
      (decide (48 ≤ i ∧ ¬(55 ≤ i ∧ i < 57)) && (visitedIpa page).getLsbD i)) := by
    intro i
    simp only [borrowedPage, borrowed, translate, getLsbD_attrs, getLsbD_borrowEntry]
    grind
  have sw : ∀ i, (borrowedPage page).sw.getLsbD i =
      (decide (i < 2) && ((visitedIpa page).getLsbD (55 + i) || decide (i = 1))) := by
    intro i
    simp only [borrowedPage, borrowed, translate, getLsbD_swBits, getLsbD_borrowEntry, mark]
    grind
  constructor
  · rintro ⟨sameAttrs, sameSw, -⟩ i low high other
    have attr := congrArg (BitVec.getLsbD · i) sameAttrs
    have tag := congrArg (BitVec.getLsbD · (i - 55)) sameSw
    simp only [attrs, sw, normal, mark] at attr tag
    grind
  · intro clear
    refine ⟨?_, ?_, access⟩
    · apply BitVec.eq_of_getLsbD_eq
      intro i bound
      have bit := clear i
      simp only [attrs, normal]
      grind
    · apply BitVec.eq_of_getLsbD_eq
      intro i bound
      have bit := clear (55 + i)
      simp only [sw, mark]
      grind

/-- After a retrieve every page of the record has the descriptor of a borrowed page exactly when the
addresses of the pages have no stray bits. -/
theorem retrieve_descriptor {m m' : Machine} {v : VmId} {ctx regs : GpRegs} {i : ℕ} {record : MemShareRecord}
    (wf : m.Wf) (booted : m.perVmVttbr v ≠ 0) (found : Found m.spmc.records (handleOf ctx) i record)
    (run : handleMemRetrieveReq (m.activate v) ctx = some (regs, m')) (success : regs.x0 = ffaMemRetrieveResp) :
    (∀ page ∈ pages record.ranges, m'.view v (pageIndex page) = some (borrowedLeaf (pageIndex page))) ↔
      ∀ page ∈ pages record.ranges, visitedIpa page &&& strayBits = 0 := by
  rcases retrieve_cases wf booted run with ⟨code, phys, space, rfl, -⟩ |
    ⟨j, other, phys, space, found', -, -, refines, borrows, -, rfl⟩
  · exact absurd success (ffaError_x0_ne (by decide))
  obtain ⟨-, rfl⟩ := found.unique found'
  refine forall₂_congr fun page member => ?_
  rw [Machine.after_view refines, borrows.entry page member, Option.some.injEq, borrowedPage_eq_iff]

/-- VM 1 retrieves a page whose address lies in the RAM of VM 0. -/
theorem retrieve_descriptor_sharedGuests :
    ∃ regs, handleMemRetrieveReq (sharedGuests.activate 1) { x0 := ffaMemRetrieveReq32, x1 := 1 } =
      some (regs, borrowedGuests) ∧ regs.x0 = ffaMemRetrieveResp ∧
    ∀ page ∈ pages [(0x48000000, 1)],
      borrowedGuests.view 1 (pageIndex page) = some (borrowedLeaf (pageIndex page)) := by
  obtain ⟨regs, retrieve, success⟩ := sharedGuests.handle_eq_perform 1 .retrieveReq
    { x0 := ffaMemRetrieveReq32, x1 := 1 } (fun _ => 0) (·.x0) ffaMemRetrieveResp (by decide)
  have run : handleMemRetrieveReq (sharedGuests.activate 1) { x0 := ffaMemRetrieveReq32, x1 := 1 } =
      some (regs, borrowedGuests) := retrieve
  have found : Found sharedGuests.spmc.records (handleOf { x0 := ffaMemRetrieveReq32, x1 := 1 }) 0
      ⟨1, 1, 2, [(0x48000000, 1)], 1, true, false, false⟩ :=
    ⟨by decide, by decide, fun j low => absurd low (Nat.not_lt_zero j)⟩
  exact ⟨regs, run, success, (retrieve_descriptor (sharedGuests_reach.wf freshGuests_initial.wf) (by decide) found
    run success).mpr (by decide)⟩

/-- VM 0 has shared a page under an address with bit 55 set. -/
def strayGuests : Machine :=
  freshGuests.perform 0 .share { x0 := ffaMemShare32, x3 := 0x0080000048000000, x4 := 1, x5 := 2 } fun _ => 0

/-- VM 1 retrieves the page, which is then marked as donated. -/
theorem retrieve_stray_bit :
    freshGuests.Initial ∧ Reach anyStep freshGuests strayGuests ∧
    strayGuests.spmc.records[0]? = some ⟨1, 1, 2, [(0x0080000048000000, 1)], 1, true, false, false⟩ ∧
    (handleMemRetrieveReq (strayGuests.activate 1) { x0 := ffaMemRetrieveReq32, x1 := 1 }).map
      (fun result => (result.1.x0, result.2.view 1 0x48000)) =
        some (ffaMemRetrieveResp,
          some ⟨0, { (borrowedLeaf 0x48000).translation with sw := PageOwnership.donated.bits }⟩) := by
  refine ⟨freshGuests_initial, .perform .refl ?_ rfl ?_ trivial, ?_, ?_⟩ <;> decide

end Hypervisor
