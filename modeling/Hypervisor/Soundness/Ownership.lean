import Hypervisor.Soundness.Pages

/-! # Who can write a page

`SoleOwner` is the invariant of a page that one VM maps at the start: at most one record covers
it, its owner cannot write it meanwhile, and another VM maps it only under that record. It needs
every page request of the calls to be served, and nothing else. `Marked` is the invariant of all
pages, devices included: the tables of senders and receivers agree with the records. It also needs
every record to be reclaimed by its sender, since a reclaim by another VM retags the caller's pages.
-/

namespace Hypervisor

section SoleOwner

/-- The state of a page that at most one VM mapped in `W₀`. -/
structure SoleOwner (W₀ : View) (a : ℕ) (L : Ledger) : Prop where
  sender : ∀ i record, Covers L.records a i record →
    ∃ (v : VmId) (leaf : Leaf), record.senderId = vmIdToPartitionId v ∧ W₀ v a ≠ none ∧ L.view v a = some leaf ∧
      leaf.translation.sw = 1 ∧ leaf.translation.writable = false ∧
      (record.isLend = true → leaf.translation.s2ap = 0)
  unique : ∀ i j record other, Covers L.records a i record → Covers L.records a j other → i = j
  borrower : ∀ u leaf, W₀ u a = none → L.view u a = some leaf →
    leaf.height = 0 ∧ leaf.translation.sw.getLsbD 1 = true ∧
      ∃ i record, Covers L.records a i record ∧ record.retrieved = true ∧
        record.receiverId = vmIdToPartitionId u
  receiver : ∀ i record (u : VmId), Covers L.records a i record → record.retrieved = true →
    record.receiverId = vmIdToPartitionId u → W₀ u a = none
  kept : ∀ v, W₀ v a ≠ none → L.view v a ≠ none

variable {W₀ W : View} {a i refused : ℕ} {L L' : Ledger} {v : VmId} {call : MemCall} {ctx : GpRegs}
  {R : ℕ → Prop} {change : Translation → Translation} {leaf : Leaf} {record : MemShareRecord}

/-- A page that looks owned belongs to the VM, and no record covers it. -/
theorem SoleOwner.of_owned (own : SoleOwner W₀ a L) (sole : ∀ u v, W₀ u a ≠ none → W₀ v a ≠ none → u = v)
    (mapped : L.view v a = some leaf) (owned : leaf.translation.sw = 0) :
    W₀ v a ≠ none ∧ ∀ i record, ¬Covers L.records a i record := by
  have mine : W₀ v a ≠ none := by
    intro foreign
    obtain ⟨-, tag, -⟩ := own.borrower v leaf foreign mapped
    rw [owned] at tag
    contradiction
  refine ⟨mine, fun i record covers => ?_⟩
  obtain ⟨w, leaf', -, theirs, mapped', shared, -⟩ := own.sender i record covers
  obtain rfl := sole v w mine theirs
  obtain rfl := Option.some.inj (mapped.symm.trans mapped')
  rw [owned] at shared
  contradiction

theorem SoleOwner.kept_of_retyped (own : SoleOwner W₀ a L) (retyped : Retyped v R change L.view W) :
    ∀ u, W₀ u a ≠ none → W u a ≠ none := by
  intro u mine
  obtain ⟨leaf, mapped⟩ := Option.ne_none_iff_exists'.mp (own.kept u mine)
  obtain ⟨leaf', mapped', -⟩ := retyped.forward mapped
  exact Option.ne_none_iff_exists'.mpr ⟨leaf', mapped'⟩

/-- Retagging other pages does not matter. -/
theorem SoleOwner.of_untouched (own : SoleOwner W₀ a L) (retyped : Retyped v R change L.view W)
    (untouched : ¬R a) : SoleOwner W₀ a ⟨W, L.records, refused⟩ where
  sender i record covers := by
    obtain ⟨w, leaf, sender, mine, mapped, marks⟩ := own.sender i record covers
    obtain ⟨leaf', mapped', -, ⟨-, touched, -⟩ | ⟨-, same⟩⟩ := retyped.forward mapped
    · exact absurd touched untouched
    · exact ⟨w, leaf', sender, mine, mapped', same ▸ marks⟩
  unique := own.unique
  borrower u leaf' foreign mapped' := by
    obtain ⟨leaf, mapped, height', ⟨-, touched, -⟩ | ⟨-, same⟩⟩ := retyped.backward mapped'
    · exact absurd touched untouched
    · obtain ⟨height, marks⟩ := own.borrower u leaf foreign mapped
      exact ⟨by omega, same ▸ marks⟩
  receiver := own.receiver
  kept := own.kept_of_retyped retyped

/-- Retagging owned pages keeps the invariant, whether or not the share is recorded. -/
theorem SoleOwner.shares {isLend : Bool} {ranges : List AddrRange} (own : SoleOwner W₀ a L)
    (sole : ∀ u v, W₀ u a ≠ none → W₀ v a ≠ none → u = v) (small : Small L.view v)
    (shares : Shares L v isLend ranges R W refused) : SoleOwner W₀ a ⟨W, L.records, refused⟩ := by
  by_cases touched : R a
  · obtain ⟨leaf, mapped, owned⟩ := shares.owned a (shares.inside small a touched)
    obtain ⟨mine, uncovered⟩ := own.of_owned sole mapped owned
    refine ⟨fun i record covers => absurd covers (uncovered i record),
      fun i j record other covers => absurd covers (uncovered i record), ?_,
      fun i record u covers => absurd covers (uncovered i record), own.kept_of_retyped shares.retyped⟩
    intro u leaf' foreign mapped'
    obtain ⟨before, seen, -⟩ := shares.retyped.backward mapped'
    obtain ⟨-, -, i, record, covers, -⟩ := own.borrower u before foreign seen
    exact absurd covers (uncovered i record)
  · exact own.of_untouched shares.retyped touched

/-- A share in a free slot keeps the invariant if every page of it was retagged. -/
theorem SoleOwner.share {isLend : Bool} {ranges : List AddrRange} {free : MemShareRecord}
    (own : SoleOwner W₀ a L) (sole : ∀ u v, W₀ u a ≠ none → W₀ v a ≠ none → u = v) (small : Small L.view v)
    (shares : Shares L v isLend ranges R W refused) (served : refused = L.refused)
    (sender : record.senderId = vmIdToPartitionId v)
    (stored : record.ranges = ranges.take maxShareRanges) (lends : record.isLend = isLend)
    (idle : record.retrieved = false) (here : L.records[i]? = some free) (inactive : free.active = false) :
    SoleOwner W₀ a ⟨W, L.records.set i record, refused⟩ := by
  have before := own.shares sole small shares
  have new : ∀ j, Covers (L.records.set i record) a j record → j = i →
      (∀ j other, ¬Covers L.records a j other) ∧ W₀ v a ≠ none ∧
      ∃ leaf', W v a = some leaf' ∧ leaf'.translation.sw = 1 ∧ leaf'.translation.writable = false ∧
        (record.isLend = true → leaf'.translation.s2ap = 0) := by
    intro j covers _
    have page := covered_take (stored ▸ covers.page)
    obtain ⟨leaf, mapped, owned⟩ := shares.owned a page
    obtain ⟨mine, uncovered⟩ := own.of_owned sole mapped owned
    obtain ⟨leaf', mapped', -, inside, -⟩ := shares.retyped.mapped a leaf mapped
    refine ⟨uncovered, mine, leaf', mapped', ?_⟩
    rw [inside (shares.complete served a page), lends]
    exact sharedTranslation_marks isLend leaf.translation
  constructor
  · intro j other covers
    rcases covers.of_set with ⟨same, rfl⟩ | ⟨-, old⟩
    · obtain ⟨-, mine, leaf', marks⟩ := new j covers same
      exact ⟨v, leaf', sender, mine, marks⟩
    · exact before.sender j other old
  · intro j k other other' covers covers'
    rcases covers.of_set with ⟨same, rfl⟩ | ⟨-, old⟩
    · rcases covers'.of_set with ⟨same', -⟩ | ⟨-, old'⟩
      · rw [same, same']
      · exact absurd old' ((new j covers same).1 k other')
    · rcases covers'.of_set with ⟨same', rfl⟩ | ⟨-, old'⟩
      · exact absurd old ((new k covers' same').1 j other)
      · exact before.unique j k other other' old old'
  · intro u leaf foreign mapped
    obtain ⟨height, tag, j, other, covers, rest⟩ := before.borrower u leaf foreign mapped
    exact ⟨height, tag, j, other, covers.set_of_ne (covers.ne_of_inactive here inactive), rest⟩
  · intro j other u covers retrieved
    rcases covers.of_set with ⟨-, rfl⟩ | ⟨-, old⟩
    · rw [idle] at retrieved
      contradiction
    · exact before.receiver j other u old retrieved
  · exact before.kept

/-- A reclaim of a record that no receiver holds, by any VM. -/
theorem SoleOwner.reclaim {handle : U64} (own : SoleOwner W₀ a L) (small : Small L.view v)
    (found : Found L.records handle i record) (idle : record.retrieved = false)
    (retyped : Retyped v R change L.view W)
    (inside : Small L.view v → ∀ b, R b → b ∈ covered record.ranges) :
    SoleOwner W₀ a ⟨W, L.records.set i { record with active := false }, refused⟩ := by
  have elsewhere : ∀ j other, Covers L.records a j other → other.retrieved = true → j ≠ i := by
    rintro j other covers retrieved rfl
    obtain rfl := Option.some.inj (covers.here.symm.trans found.here)
    rw [idle] at retrieved
    contradiction
  by_cases touched : R a
  · have here := found.covers (inside small a touched)
    have uncovered : ∀ j other,
        ¬Covers (L.records.set i { record with active := false }) a j other := by
      intro j other covers
      obtain ⟨apart, old⟩ := covers.of_drop
      exact apart (own.unique j i other record old here)
    refine ⟨fun j other covers => absurd covers (uncovered j other),
      fun j k other other' covers => absurd covers (uncovered j other), ?_,
      fun j other u covers => absurd covers (uncovered j other), own.kept_of_retyped retyped⟩
    intro u leaf' foreign mapped'
    obtain ⟨leaf, mapped, -⟩ := retyped.backward mapped'
    obtain ⟨-, -, j, other, covers, retrieved, -⟩ := own.borrower u leaf foreign mapped
    exact absurd (own.unique j i other record covers here) (elsewhere j other covers retrieved)
  · have before : SoleOwner W₀ a ⟨W, L.records, refused⟩ := own.of_untouched retyped touched
    refine ⟨fun j other covers => before.sender j other covers.of_drop.2,
      fun j k other other' covers covers' => before.unique j k other other' covers.of_drop.2 covers'.of_drop.2,
      ?_, fun j other u covers => before.receiver j other u covers.of_drop.2, before.kept⟩
    intro u leaf foreign mapped
    obtain ⟨height, tag, j, other, covers, retrieved, rest⟩ := before.borrower u leaf foreign mapped
    exact ⟨height, tag, j, other, covers.set_of_ne (elsewhere j other covers retrieved), retrieved, rest⟩

/-- Records whose retrieved flag was set have the same sender, pages and slot. -/
theorem SoleOwner.unique_of_flag {flag : Bool} (own : SoleOwner W₀ a L) (here : L.records[i]? = some record)
    (active : record.active = true) :
    ∀ j k other other', Covers (L.records.set i { record with retrieved := flag }) a j other →
      Covers (L.records.set i { record with retrieved := flag }) a k other' → j = k := by
  intro j k other other' covers covers'
  obtain ⟨before, old, -⟩ := covers.of_flag here active
  obtain ⟨before', old', -⟩ := covers'.of_flag here active
  exact own.unique j k before before' old old'

theorem SoleOwner.sender_of_flag {flag : Bool} (own : SoleOwner W₀ a L) (here : L.records[i]? = some record)
    (active : record.active = true) (stays : ∀ w leaf, W₀ w a ≠ none → L.view w a = some leaf → W w a = some leaf) :
    ∀ j other, Covers (L.records.set i { record with retrieved := flag }) a j other →
      ∃ (v : VmId) (leaf : Leaf), other.senderId = vmIdToPartitionId v ∧ W₀ v a ≠ none ∧ W v a = some leaf ∧
        leaf.translation.sw = 1 ∧ leaf.translation.writable = false ∧
        (other.isLend = true → leaf.translation.s2ap = 0) := by
  intro j other covers
  obtain ⟨before, old, same, -⟩ := covers.of_flag here active
  obtain ⟨w, leaf, sender, mine, mapped, marks⟩ := own.sender j before old
  rw [same]
  exact ⟨w, leaf, sender, mine, stays w leaf mine mapped, marks⟩

theorem SoleOwner.retrieve {handle : U64} (own : SoleOwner W₀ a L)
    (found : Found L.records handle i record) (receiver : vmIdToPartitionId v = record.receiverId)
    (idle : record.retrieved = false) (borrows : Borrows v (pages record.ranges) L.view W) :
    SoleOwner W₀ a ⟨W, L.records.set i { record with retrieved := true }, refused⟩ := by
  constructor
  · exact own.sender_of_flag found.here found.active fun _ _ _ mapped => borrows.forward mapped
  · exact own.unique_of_flag found.here found.active
  · intro u leaf foreign mapped
    rcases borrows.backward mapped with ⟨rfl, member, height, -, tag, -⟩ | ⟨-, seen⟩
    · exact ⟨height, tag, i, _, .set_self found.here found.active member, rfl, receiver.symm⟩
    · obtain ⟨height, tag, j, other, covers, retrieved, rest⟩ := own.borrower u leaf foreign seen
      refine ⟨height, tag, j, other, covers.set_of_ne ?_, retrieved, rest⟩
      rintro rfl
      rw [Option.some.inj (covers.here.symm.trans found.here), idle] at retrieved
      contradiction
  · intro j other u covers retrieved target
    obtain ⟨before, old, same, ⟨rfl, -⟩ | ⟨-, rfl⟩⟩ := covers.of_flag found.here found.active
    · obtain rfl := Option.some.inj (old.here.symm.trans found.here)
      rw [same, ← receiver] at target
      obtain rfl := vmIdToPartitionId_injective target
      by_contra mine
      exact own.kept v mine (borrows.fresh a old.page)
    · exact own.receiver j other u old retrieved target
  · intro u mine
    obtain ⟨leaf, mapped⟩ := Option.ne_none_iff_exists'.mp (own.kept u mine)
    exact Option.ne_none_iff_exists'.mpr ⟨leaf, borrows.forward mapped⟩

theorem SoleOwner.relinquish {handle : U64} (own : SoleOwner W₀ a L)
    (found : Found L.records handle i record) (receiver : vmIdToPartitionId v = record.receiverId)
    (held : record.retrieved = true) :
    SoleOwner W₀ a ⟨returned v (covered record.ranges) L.view,
      L.records.set i { record with retrieved := false }, refused⟩ := by
  -- the owner is not the VM that gives the page back
  have owners : ∀ u, W₀ u a ≠ none → returned v (covered record.ranges) L.view u a = L.view u a := by
    intro u mine
    refine if_neg ?_
    rintro ⟨rfl, member⟩
    exact mine (own.receiver i record u (found.covers member) held receiver.symm)
  constructor
  · exact own.sender_of_flag found.here found.active fun w _ mine mapped => (owners w mine).trans mapped
  · exact own.unique_of_flag found.here found.active
  · intro u leaf foreign mapped
    obtain ⟨seen, tall⟩ := of_returned mapped
    obtain ⟨height, tag, j, other, covers, retrieved, target⟩ := own.borrower u leaf foreign seen
    refine ⟨height, tag, j, other, covers.set_of_ne ?_, retrieved, target⟩
    rintro rfl
    obtain rfl := Option.some.inj (covers.here.symm.trans found.here)
    obtain rfl := vmIdToPartitionId_injective (target.symm.trans receiver.symm)
    exact tall rfl covers.page height
  · intro j other u covers retrieved target
    obtain ⟨before, old, same, ⟨-, cleared⟩ | ⟨-, rfl⟩⟩ := covers.of_flag found.here found.active
    · rw [cleared] at retrieved
      contradiction
    · exact own.receiver j other u old retrieved target
  · intro u mine
    exact fun gone => own.kept u mine ((owners u mine).symm.trans gone)

/-- Every call keeps the invariant as long as its page requests are served. -/
theorem Effect.soleOwner (effect : Effect L v ctx call L') (own : SoleOwner W₀ a L)
    (sole : ∀ u v, W₀ u a ≠ none → W₀ v a ≠ none → u = v) (small : Small L.view v)
    (served : L'.refused = L.refused) : SoleOwner W₀ a L' := by
  cases effect with
  | refuse => exact ⟨own.sender, own.unique, own.borrower, own.receiver, own.kept⟩
  | full shares => exact own.shares sole small shares
  | share shares here inactive sender stored _ lends idle =>
    exact own.share sole small shares served sender stored lends idle here inactive
  | reclaim found idle retyped inside => exact own.reclaim small found idle retyped inside
  | retrieve found receiver idle borrows => exact own.retrieve found receiver idle borrows
  | relinquish found receiver held => exact own.relinquish found receiver held

/-- Two VMs do not write the page at once. -/
theorem SoleOwner.writer_unique (own : SoleOwner W₀ a L)
    (sole : ∀ u v, W₀ u a ≠ none → W₀ v a ≠ none → u = v) {u : VmId} {leaf' : Leaf}
    (mapped : L.view v a = some leaf) (mapped' : L.view u a = some leaf')
    (writes : leaf.translation.writable = true) (writes' : leaf'.translation.writable = true) : v = u := by
  -- an owner does not write while another VM borrows
  have separate : ∀ {u w leaf leaf'}, W₀ u a = none → L.view u a = some leaf → W₀ w a ≠ none →
      L.view w a = some leaf' → leaf'.translation.writable = false := by
    intro u w leaf leaf' foreign borrowed mine mapped
    obtain ⟨-, -, i, record, covers, -⟩ := own.borrower u leaf foreign borrowed
    obtain ⟨x, found, -, theirs, sees, -, readOnly, -⟩ := own.sender i record covers
    obtain rfl := sole w x mine theirs
    rwa [Option.some.inj (mapped.symm.trans sees)]
  by_cases mine : W₀ v a = none
  · by_cases theirs : W₀ u a = none
    · obtain ⟨-, -, i, record, covers, -, target⟩ := own.borrower v leaf mine mapped
      obtain ⟨-, -, j, other, covers', -, target'⟩ := own.borrower u leaf' theirs mapped'
      obtain rfl := own.unique i j record other covers covers'
      obtain rfl := covers.record_eq covers'
      exact vmIdToPartitionId_injective (target.symm.trans target')
    · rw [separate mine mapped theirs mapped'] at writes'
      contradiction
  · by_cases theirs : W₀ u a = none
    · rw [separate theirs mapped' mine mapped] at writes
      contradiction
    · exact sole v u mine theirs

end SoleOwner

section Marked

/-- The tables of sender and receiver agree with the records that cover a page. -/
structure Marked (a : ℕ) (L : Ledger) : Prop where
  sender : ∀ i record (v : VmId), Covers L.records a i record → record.senderId = vmIdToPartitionId v →
    ∃ leaf, L.view v a = some leaf ∧ leaf.translation.sw = 1 ∧
      (record.isLend = true → leaf.translation.s2ap = 0)
  senders : ∀ i j record other, Covers L.records a i record → Covers L.records a j other →
    record.senderId = other.senderId → i = j
  receiver : ∀ i record (u : VmId), Covers L.records a i record → record.retrieved = true →
    record.receiverId = vmIdToPartitionId u →
    ∃ leaf, L.view u a = some leaf ∧ leaf.translation.sw.getLsbD 1 = true
  receivers : ∀ i j record other, Covers L.records a i record → Covers L.records a j other →
    record.retrieved = true → other.retrieved = true → record.receiverId = other.receiverId → i = j

variable {W : View} {a i refused : ℕ} {L L' : Ledger} {v : VmId} {call : MemCall} {ctx : GpRegs}
  {R : ℕ → Prop} {change : Translation → Translation} {record : MemShareRecord}

/-- The page is marked as long as nothing happens to the leaves that carry marks. -/
theorem Marked.of_view (marked : Marked a L)
    (same : ∀ u leaf, L.view u a = some leaf → leaf.translation.sw ≠ 0 →
      ∃ leaf', W u a = some leaf' ∧ leaf'.translation = leaf.translation) :
    Marked a ⟨W, L.records, refused⟩ where
  sender i record v covers sender := by
    obtain ⟨leaf, mapped, shared, none⟩ := marked.sender i record v covers sender
    obtain ⟨leaf', mapped', kept⟩ := same v leaf mapped (by rw [shared]; decide)
    exact ⟨leaf', mapped', kept ▸ ⟨shared, none⟩⟩
  senders := marked.senders
  receiver i record u covers retrieved target := by
    obtain ⟨leaf, mapped, tag⟩ := marked.receiver i record u covers retrieved target
    have marks : leaf.translation.sw ≠ 0 := by
      intro zero
      rw [zero] at tag
      contradiction
    obtain ⟨leaf', mapped', kept⟩ := same u leaf mapped marks
    exact ⟨leaf', mapped', kept ▸ tag⟩
  receivers := marked.receivers

theorem Marked.shares {isLend : Bool} {ranges : List AddrRange} (marked : Marked a L) (small : Small L.view v)
    (shares : Shares L v isLend ranges R W refused) : Marked a ⟨W, L.records, refused⟩ := by
  refine marked.of_view fun u leaf mapped marks => shares.retyped.forward_of_miss mapped ?_
  rintro ⟨rfl, touched⟩
  obtain ⟨found, sees, owned⟩ := shares.owned a (shares.inside small a touched)
  obtain rfl := Option.some.inj (mapped.symm.trans sees)
  exact marks owned

theorem Marked.share {isLend : Bool} {ranges : List AddrRange} (marked : Marked a L)
    (small : Small L.view v) (shares : Shares L v isLend ranges R W refused) (served : refused = L.refused)
    (sender : record.senderId = vmIdToPartitionId v)
    (stored : record.ranges = ranges.take maxShareRanges) (lends : record.isLend = isLend)
    (idle : record.retrieved = false) :
    Marked a ⟨W, L.records.set i record, refused⟩ := by
  have before := marked.shares small shares
  -- no older record of this sender covers a page it just shared
  have alone : ∀ j other, a ∈ covered record.ranges → Covers L.records a j other →
      other.senderId ≠ vmIdToPartitionId v := by
    intro j other page covers mine
    obtain ⟨leaf, mapped, owned⟩ := shares.owned a (covered_take (stored ▸ page))
    obtain ⟨leaf', mapped', shared, -⟩ := marked.sender j other v covers mine
    rw [Option.some.inj (mapped'.symm.trans mapped), owned] at shared
    contradiction
  constructor
  · intro j other w covers target
    rcases covers.of_set with ⟨-, rfl⟩ | ⟨-, old⟩
    · obtain rfl := vmIdToPartitionId_injective (target.symm.trans sender)
      have page := covered_take (stored ▸ covers.page)
      obtain ⟨leaf, mapped, -⟩ := shares.owned a page
      obtain ⟨leaf', mapped', -, inside, -⟩ := shares.retyped.mapped a leaf mapped
      obtain ⟨shared, -, none⟩ := sharedTranslation_marks isLend leaf.translation
      exact ⟨leaf', mapped', inside (shares.complete served a page) ▸ ⟨shared, lends ▸ none⟩⟩
    · exact before.sender j other w old target
  · intro j k other other' covers covers' same
    rcases covers.of_set with ⟨rfl, rfl⟩ | ⟨-, old⟩
    · rcases covers'.of_set with ⟨rfl, -⟩ | ⟨-, old'⟩
      · rfl
      · exact absurd (same.symm.trans sender) (alone k other' covers.page old')
    · rcases covers'.of_set with ⟨rfl, rfl⟩ | ⟨-, old'⟩
      · exact absurd (same.trans sender) (alone j other covers'.page old)
      · exact before.senders j k other other' old old' same
  · intro j other u covers retrieved target
    rcases covers.of_set with ⟨-, rfl⟩ | ⟨-, old⟩
    · rw [idle] at retrieved
      contradiction
    · exact before.receiver j other u old retrieved target
  · intro j k other other' covers covers' retrieved retrieved' same
    rcases covers.of_set with ⟨-, rfl⟩ | ⟨-, old⟩
    · rw [idle] at retrieved
      contradiction
    · rcases covers'.of_set with ⟨-, rfl⟩ | ⟨-, old'⟩
      · rw [idle] at retrieved'
        contradiction
      · exact before.receivers j k other other' old old' retrieved retrieved' same

/-- A reclaim by the sender, or by a VM that maps none of the pages. -/
theorem Marked.reclaim {handle : U64} (marked : Marked a L) (small : Small L.view v)
    (found : Found L.records handle i record) (retyped : Retyped v R change L.view W)
    (inside : Small L.view v → ∀ b, R b → b ∈ covered record.ranges)
    (rightful : record.senderId = vmIdToPartitionId v ∨ ∀ b ∈ covered record.ranges, L.view v b = none) :
    Marked a ⟨W, L.records.set i { record with active := false }, refused⟩ := by
  -- a retagged leaf is marked for the reclaimed record only
  have mine : ∀ {leaf}, L.view v a = some leaf → R a →
      Covers L.records a i record ∧ record.senderId = vmIdToPartitionId v := by
    intro leaf mapped touched
    have page := inside small a touched
    refine ⟨found.covers page, rightful.resolve_right fun unmapped => ?_⟩
    rw [unmapped a page] at mapped
    contradiction
  constructor
  · intro j other w covers target
    obtain ⟨apart, old⟩ := covers.of_drop
    obtain ⟨leaf, mapped, marks⟩ := marked.sender j other w old target
    obtain ⟨leaf', mapped', same⟩ := retyped.forward_of_miss mapped (by
      rintro ⟨rfl, touched⟩
      obtain ⟨here, sender⟩ := mine mapped touched
      exact apart (marked.senders j i other record old here (target.trans sender.symm)))
    exact ⟨leaf', mapped', same ▸ marks⟩
  · intro j k other other' covers covers'
    exact marked.senders j k other other' covers.of_drop.2 covers'.of_drop.2
  · intro j other u covers retrieved target
    obtain ⟨leaf, mapped, tag⟩ := marked.receiver j other u covers.of_drop.2 retrieved target
    obtain ⟨leaf', mapped', same⟩ := retyped.forward_of_miss mapped (by
      rintro ⟨rfl, touched⟩
      obtain ⟨here, sender⟩ := mine mapped touched
      obtain ⟨leaf', mapped', shared, -⟩ := marked.sender i record u here sender
      rw [Option.some.inj (mapped.symm.trans mapped'), shared] at tag
      contradiction)
    exact ⟨leaf', mapped', same ▸ tag⟩
  · intro j k other other' covers covers'
    exact marked.receivers j k other other' covers.of_drop.2 covers'.of_drop.2

theorem Marked.senders_of_flag {flag : Bool} (marked : Marked a L) (here : L.records[i]? = some record)
    (active : record.active = true) :
    ∀ j k other other', Covers (L.records.set i { record with retrieved := flag }) a j other →
      Covers (L.records.set i { record with retrieved := flag }) a k other' →
      other.senderId = other'.senderId → j = k := by
  intro j k other other' covers covers' target
  obtain ⟨before, old, same, -⟩ := covers.of_flag here active
  obtain ⟨before', old', same', -⟩ := covers'.of_flag here active
  rw [same, same'] at target
  exact marked.senders j k before before' old old' target

theorem Marked.retrieve {handle : U64} (marked : Marked a L) (found : Found L.records handle i record)
    (receiver : vmIdToPartitionId v = record.receiverId)
    (borrows : Borrows v (pages record.ranges) L.view W) :
    Marked a ⟨W, L.records.set i { record with retrieved := true }, refused⟩ := by
  -- the receiver had not retrieved the page before
  have alone : ∀ j other, a ∈ covered record.ranges → Covers L.records a j other →
      other.retrieved = true → other.receiverId ≠ record.receiverId := by
    intro j other page covers retrieved same
    obtain ⟨leaf, mapped, -⟩ := marked.receiver j other v covers retrieved (same.trans receiver.symm)
    rw [borrows.fresh a page] at mapped
    contradiction
  constructor
  · intro j other w covers target
    obtain ⟨before, old, same, -⟩ := covers.of_flag found.here found.active
    rw [same] at target ⊢
    obtain ⟨leaf, mapped, marks⟩ := marked.sender j before w old target
    exact ⟨leaf, borrows.forward mapped, marks⟩
  · exact marked.senders_of_flag found.here found.active
  · intro j other u covers retrieved target
    rcases covers.of_set with ⟨-, rfl⟩ | ⟨-, old⟩
    · obtain rfl := vmIdToPartitionId_injective (target.symm.trans receiver.symm)
      obtain ⟨tr, mapped, -, tag, -⟩ := borrows.mapped covers.page
      exact ⟨_, mapped, tag⟩
    · obtain ⟨leaf, mapped, tag⟩ := marked.receiver j other u old retrieved target
      exact ⟨leaf, borrows.forward mapped, tag⟩
  · intro j k other other' covers covers' retrieved retrieved' same
    rcases covers.of_set with ⟨rfl, rfl⟩ | ⟨-, old⟩
    · rcases covers'.of_set with ⟨rfl, -⟩ | ⟨-, old'⟩
      · rfl
      · exact absurd same.symm (alone k other' covers.page old' retrieved')
    · rcases covers'.of_set with ⟨rfl, rfl⟩ | ⟨-, old'⟩
      · exact absurd same (alone j other covers'.page old retrieved)
      · exact marked.receivers j k other other' old old' retrieved retrieved' same

theorem Marked.relinquish {handle : U64} (marked : Marked a L) (found : Found L.records handle i record)
    (receiver : vmIdToPartitionId v = record.receiverId) (held : record.retrieved = true) :
    Marked a ⟨returned v (covered record.ranges) L.view,
      L.records.set i { record with retrieved := false }, refused⟩ := by
  constructor
  · intro j other w covers target
    obtain ⟨before, old, same, -⟩ := covers.of_flag found.here found.active
    rw [same] at target ⊢
    obtain ⟨leaf, mapped, shared, none⟩ := marked.sender j before w old target
    refine ⟨leaf, (if_neg ?_).trans mapped, shared, none⟩
    rintro ⟨rfl, member⟩
    obtain ⟨leaf', mapped', tag⟩ := marked.receiver i record w (found.covers member) held receiver.symm
    rw [Option.some.inj (mapped'.symm.trans mapped), shared] at tag
    contradiction
  · exact marked.senders_of_flag found.here found.active
  · intro j other u covers retrieved target
    rcases covers.of_set with ⟨-, rfl⟩ | ⟨apart, old⟩
    · exact absurd retrieved (by simp)
    · obtain ⟨leaf, mapped, tag⟩ := marked.receiver j other u old retrieved target
      refine ⟨leaf, (if_neg ?_).trans mapped, tag⟩
      rintro ⟨rfl, member⟩
      exact apart (marked.receivers j i other record old (found.covers member) retrieved held
        (target.trans receiver))
  · intro j k other other' covers covers' retrieved retrieved'
    rcases covers.of_set with ⟨-, rfl⟩ | ⟨-, old⟩
    · exact absurd retrieved (by simp)
    · rcases covers'.of_set with ⟨-, rfl⟩ | ⟨-, old'⟩
      · exact absurd retrieved' (by simp)
      · exact marked.receivers j k other other' old old' retrieved retrieved'

/-- A reclaim that goes through is made by the sender, or by a VM that maps none of the pages. -/
def Ledger.Rightful (L : Ledger) : Event → Prop
  | .call v .reclaim ctx _ => ∀ i record, Found L.records (handleOf ctx) i record →
      record.retrieved = false →
      record.senderId = vmIdToPartitionId v ∨ ∀ b ∈ covered record.ranges, L.view v b = none
  | _ => True

/-- Calls keep pages marked as long as page requests are served and reclaims are rightful. -/
theorem Effect.marked {ram : GuestRam} (effect : Effect L v ctx call L') (marked : Marked a L)
    (small : Small L.view v) (served : L'.refused = L.refused) (rightful : L.Rightful (.call v call ctx ram)) :
    Marked a L' := by
  cases effect with
  | refuse => exact ⟨marked.sender, marked.senders, marked.receiver, marked.receivers⟩
  | full shares => exact marked.shares small shares
  | share shares _ _ sender stored _ lends idle =>
    exact marked.share small shares served sender stored lends idle
  | reclaim found idle retyped inside =>
    exact marked.reclaim small found retyped inside (rightful _ _ found idle)
  | retrieve found receiver _ borrows => exact marked.retrieve found receiver borrows
  | relinquish found receiver held => exact marked.relinquish found receiver held

end Marked

end Hypervisor
