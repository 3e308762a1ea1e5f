import Hypervisor.Soundness.Snapshot

/-! # What a share or lend leaves behind

`handle_mem_share_or_lend` retags the pages before it asks for a record slot and ignores pages whose
block it cannot split. Both orders matter: with a full record table the caller sees an error and
keeps retagged pages, and with too few heap pages it sees success and keeps pages that are not
protected. For each, the exact condition under which that happens, as a property of the state before
the call.
-/

namespace Hypervisor

namespace Machine

/-- What a stage-2 walk sees of page `a` of VM `v`. -/
def translation (m : Machine) (v : VmId) (a : ℕ) : Option Translation := (m.view v a).map Leaf.translation

/-- A 2MB block maps page `a` of VM `v`. -/
def inBlock (m : Machine) (v : VmId) (a : ℕ) : Bool := (m.view v a).any fun leaf => leaf.height == 1

/-- Retagging the pages changes at least one of them: one is not in a 2MB block, or the heap has a
page for the first split. -/
def CanRetag (m : Machine) (v : VmId) (pages : List ℕ) : Prop :=
  (∃ a ∈ pages, m.inBlock v a = false) ∨ pages ≠ [] ∧ m.phys.canAlloc 1 = true

variable {m : Machine} {v : VmId} {room : ℕ} {role : U64 → Option (Radix.Role VmId)}

theorem heightAt_eq_one_iff {a : ℕ} : (m.space room).heightAt v a = some 1 ↔ m.inBlock v a = true := by
  simp [Space.heightAt, inBlock, space, Option.any_eq_true]

theorem able_iff (tables : Tables m.perVmVttbr m.phys role room) {pages : List ℕ} :
    (m.space room).Able v pages ↔ m.CanRetag v pages := by
  have one : m.phys.canAlloc 1 = true ↔ room ≠ 0 := by
    rw [Phys.canAlloc_iff tables.heap]
    omega
  have block : ∀ a, (m.space room).heightAt v a ≠ some 1 ↔ m.inBlock v a = false := by
    intro a
    rw [ne_eq, heightAt_eq_one_iff, Bool.not_eq_true]
  simp only [Space.Able, CanRetag, one, block]
  rfl

end Machine

/-- The active share records. -/
def StubSpmc.active (spmc : StubSpmc) : List MemShareRecord := spmc.records.filter (·.active)

section Calls

variable {m m' : Machine} {v : VmId} {ctx regs : GpRegs} {ram : GuestRam} {isLend : Bool}
  {request : ShareRequest}

theorem Machine.Accepts.eq {other : ShareRequest} (accepts : m.Accepts v ctx ram request)
    (asked : shareRequest ctx (m.mailbox v) ram = .ok other) : request = other :=
  Except.ok.inj (accepts.asked.symm.trans asked)

theorem shareSuccess_ne_error {handle : U64} : (shareSuccess ctx handle).x0 ≠ ffaErrorId := by
  change ffaSuccess32 ≠ ffaErrorId
  decide

/-- An owned page that was retagged looks different. -/
theorem translation_ne_of_reached {W W' : View} {R : ℕ → Prop} {a : ℕ} {leaf : Leaf}
    (retyped : Retyped v R (sharedTranslation isLend) W W') (reached : R a) (mapped : W v a = some leaf)
    (owned : leaf.translation.sw = 0) : (W' v a).map Leaf.translation ≠ (W v a).map Leaf.translation := by
  obtain ⟨leaf', mapped', -, inside, -⟩ := retyped.mapped a leaf mapped
  rw [mapped', mapped, Option.map_some, Option.map_some, inside reached]
  intro same
  have tags := congrArg Translation.sw (Option.some.inj same)
  rw [owned, (sharedTranslation_marks isLend leaf.translation).1] at tags
  contradiction

/-- A share that fails changes nothing, except when the request is good, the record table is full and
some page can be retagged. -/
theorem share_error_atomic (wf : m.Wf) (booted : m.perVmVttbr v ≠ 0)
    (run : handleMemShareOrLend (m.activate v) ctx ram isLend = some (regs, m')) :
    (regs.x0 = ffaErrorId →
      (∀ u a, m'.translation u a = m.translation u a) ∧ m'.spmc.active = m.spmc.active) ↔
    ¬((∀ record ∈ m.spmc.records, record.active = true) ∧
      ∃ request, m.Accepts v ctx ram request ∧ m.CanRetag v (covered request.ranges)) := by
  obtain ⟨role, room, tables⟩ := wf.tables
  rcases share_cases wf booted run with ⟨code, refused, rfl, rfl⟩ | ⟨request, phys, accepts, retag, outcome⟩
  · refine iff_of_true (fun _ => ⟨fun _ _ => rfl, rfl⟩) ?_
    rintro ⟨-, request, accepts, -⟩
    exact refused request accepts
  · have refines := retag room ⟨⟨role, tables⟩, rfl, rfl⟩
    rcases outcome with ⟨full, rfl, rfl⟩ | ⟨i, free, here, inactive, rfl, rfl⟩
    · have retyped : Retyped v (Space.Reached v _ _ (covered request.ranges) (m.space room))
          (sharedTranslation isLend) m.view _ := Space.retagAll_retyped
      rw [← Machine.after_view refines] at retyped
      constructor
      · rintro kept ⟨-, other, accepts', able⟩
        obtain rfl := accepts.eq accepts'.asked
        have mapped : ∀ a ∈ covered request.ranges, ∃ h, (m.space room).heightAt v a = some h := by
          intro a member
          obtain ⟨leaf, sees, -⟩ := accepts.owned a member
          exact ⟨leaf.height, Space.heightAt_eq_some.mpr ⟨leaf, sees, rfl⟩⟩
        obtain ⟨a, member, reached⟩ := ((Machine.able_iff tables).mpr able).exists_reached mapped
        obtain ⟨leaf, sees, owned⟩ := accepts.owned a member
        exact translation_ne_of_reached retyped reached sees owned ((kept rfl).1 v a)
      · intro unable _
        refine ⟨fun u a => retyped.translation_eq ?_, rfl⟩
        rintro ⟨-, reached⟩
        refine Space.not_reached (fun able => unable ⟨full, request, accepts, ?_⟩) reached
        exact (Machine.able_iff tables).mp able
    · refine iff_of_true (fun failed => absurd failed shareSuccess_ne_error) ?_
      rintro ⟨full, -⟩
      rw [full free (List.mem_of_getElem? here)] at inactive
      contradiction

end Calls

/-- VM 0 shares a page it does not map. -/
theorem share_error_atomic_unmapped : ∃ regs m',
    handleMemShareOrLend (freshGuests.activate 0) { x3 := 0x50000000, x4 := 1, x5 := 2 } (fun _ => 0) false =
      some (regs, m') ∧ regs.x0 = ffaErrorId ∧ (∀ u a, m'.translation u a = freshGuests.translation u a) ∧
      m'.spmc.active = freshGuests.spmc.active := by
  obtain ⟨⟨regs, m'⟩, run, failed⟩ := Option.map_eq_some_iff.mp
    (by decide : (handleMemShareOrLend (freshGuests.activate 0)
      { x3 := 0x50000000, x4 := 1, x5 := 2 } (fun _ => 0) false).map (·.1.x0) = some ffaErrorId)
  refine ⟨regs, m', run, failed,
    (share_error_atomic freshGuests_initial.wf (by decide) run).mpr (fun bad => ?_) failed⟩
  exact absurd bad.1 (by decide)

/-- VM 1 has filled the record table with shares of no page. -/
def crowdedGuests : Machine := (Snapshot.twoGuests 0x42000000).machine
  ⟨(List.range 16).map fun i => ⟨BitVec.ofNat 64 (i + 1), 2, 1, [(0, 0)], 0, true, false, false⟩, 17⟩

/-- The seventeenth share fails, and its page is shared and read-only all the same. -/
theorem failed_share_retags : crowdedGuests.Wf ∧ ∃ regs m',
    handleMemShareOrLend (crowdedGuests.activate 0) { x3 := 0x48010000, x4 := 1, x5 := 2 } (fun _ => 0) false =
      some (regs, m') ∧ regs.x0 = ffaErrorId ∧
      crowdedGuests.translation 0 0x48010 = some ⟨0x48010000, 0x73C, 0, 3⟩ ∧
      m'.translation 0 0x48010 = some ⟨0x48010000, 0x73C, 1, 1⟩ := by
  obtain ⟨⟨regs, m'⟩, run, outcome⟩ := Option.map_eq_some_iff.mp
    (by decide : (handleMemShareOrLend (crowdedGuests.activate 0)
      { x3 := 0x48010000, x4 := 1, x5 := 2 } (fun _ => 0) false).map
        (fun result => (result.1.x0, result.2.translation 0 0x48010)) =
      some (ffaErrorId, some ⟨0x48010000, 0x73C, 1, 1⟩))
  obtain ⟨failed, retagged⟩ := Prod.mk.inj outcome
  exact ⟨Snapshot.twoGuests_sound.wf, regs, m', run, failed, by decide, retagged⟩

section Protection

variable {m m' : Machine} {v : VmId} {ctx regs : GpRegs} {ram : GuestRam} {isLend : Bool}
  {request : ShareRequest}

/-- The pages of a list that the transition loop gets to: all but those in blocks that it cannot split
because the heap has run out. -/
def Machine.retagged (m : Machine) (v : VmId) (pages : List ℕ) : List ℕ :=
  transitioned (m.inBlock v) (m.phys.canAlloc ·) [] pages

theorem reached_iff {role : U64 → Option (Radix.Role VmId)} {room : ℕ}
    (tables : Tables m.perVmVttbr m.phys role room) (small : Small m.view v)
    (accepts : m.Accepts v ctx ram request) (sw s2ap : U8) (b : ℕ) :
    Space.Reached v sw s2ap (covered request.ranges) (m.space room) b ↔
      b ∈ m.retagged v (covered request.ranges) := by
  refine Space.reached_iff_transitioned (fun c member => ?_) fun k => ?_
  · obtain ⟨leaf, mapped, -⟩ := accepts.owned c member
    have height := small c leaf mapped
    refine Space.heightAt_eq_some.mpr ⟨leaf, mapped, ?_⟩
    rw [Machine.inBlock, mapped]
    by_cases block : leaf.height = 1
    · simp [block]
    · simp [block]
      omega
  · rw [List.length_nil, Nat.zero_add]
    exact Phys.canAlloc_iff tables.heap

/-- A successful share in tables of pages and 2MB blocks. -/
theorem share_success (wf : m.Wf) (booted : m.perVmVttbr v ≠ 0) (small : Small m.view v)
    (run : handleMemShareOrLend (m.activate v) ctx ram isLend = some (regs, m'))
    (success : regs.x0 = ffaSuccess32) :
    ∃ request i free, m.Accepts v ctx ram request ∧ m.spmc.records[i]? = some free ∧ free.active = false ∧
      regs = shareSuccess ctx m.spmc.nextHandle ∧
      m'.spmc.records = m.spmc.records.set i (shareRecord m v request isLend) ∧
      Retyped v (· ∈ m.retagged v (covered request.ranges)) (sharedTranslation isLend) m.view m'.view ∧
      ∀ a ∈ m.retagged v (covered request.ranges), ∃ leaf, m'.view v a = some leaf ∧ leaf.height = 0 := by
  obtain ⟨role, room, tables⟩ := wf.tables
  rcases share_cases wf booted run with ⟨code, -, rfl, -⟩ | ⟨request, phys, accepts, retag, outcome⟩
  · exact absurd success (ffaError_x0_ne (by decide))
  · have refines := retag room ⟨⟨role, tables⟩, rfl, rfl⟩
    rcases outcome with ⟨-, rfl, -⟩ | ⟨i, free, here, inactive, rfl, rfl⟩
    · exact absurd success (ffaError_x0_ne (by decide))
    · have reached := reached_iff tables small accepts PageOwnership.sharedOwned.bits (senderS2ap isLend)
      refine ⟨request, i, free, accepts, here, inactive, rfl, rfl, ?_, ?_⟩
      · rw [Machine.after_view refines]
        exact Space.retagAll_retyped.congr reached
      · intro a member
        rw [Machine.after_view refines]
        exact Space.heightAt_eq_some.mp (Space.heightAt_of_reached small ((reached a).mpr member))

/-- A successful share protects all its pages exactly when the heap can serve a table for every 2MB
block that the pages lie in. -/
theorem share_protects (wf : m.Wf) (booted : m.perVmVttbr v ≠ 0) (small : Small m.view v)
    (asked : shareRequest ctx (m.mailbox v) ram = .ok request)
    (run : handleMemShareOrLend (m.activate v) ctx ram isLend = some (regs, m'))
    (success : regs.x0 = ffaSuccess32) :
    (∀ a ∈ covered request.ranges, ∃ tr, m'.translation v a = some tr ∧
      tr.sw = PageOwnership.sharedOwned.bits ∧ tr.s2ap = if isLend then 0b00 else 0b01) ↔
    m.phys.canAlloc (blocksToSplit (m.inBlock v) [] (covered request.ranges)).length = true := by
  obtain ⟨found, i, free, accepts, -, -, -, -, retyped, -⟩ := share_success wf booted small run success
  obtain rfl := accepts.eq asked
  obtain ⟨role, room, tables⟩ := wf.tables
  constructor
  · intro guarded
    by_contra short
    have missing : ∃ a ∈ covered found.ranges, (m.inBlock v a && !([].contains (a / 512))) = true ∧
        a ∉ m.retagged v (covered found.ranges) := exists_not_transitioned rfl (by simpa using short)
    obtain ⟨a, member, -, missed⟩ := missing
    obtain ⟨tr, sees, shared, -⟩ := guarded a member
    obtain ⟨leaf, mapped, owned⟩ := accepts.owned a member
    have same : m'.translation v a = some leaf.translation := by
      rw [Machine.translation, retyped.translation_eq fun hit => missed hit.2, mapped, Option.map_some]
    rw [← Option.some.inj (same.symm.trans sees), owned] at shared
    contradiction
  · intro fits a member
    have all : m.retagged v (covered found.ranges) = covered found.ranges := by
      refine transitioned_eq_self (fun k l le served => ?_) (by simpa using fits)
      rw [Phys.canAlloc_iff tables.heap] at served ⊢
      exact le.trans served
    rw [← all] at member
    obtain ⟨leaf, mapped, -⟩ := accepts.owned a (all ▸ member)
    obtain ⟨leaf', mapped', -, inside, -⟩ := retyped.mapped a leaf mapped
    refine ⟨leaf'.translation, by rw [Machine.translation, mapped', Option.map_some], ?_⟩
    rw [inside member]
    cases isLend with
    | false => exact ⟨rfl, rfl⟩
    | true => exact ⟨rfl, rfl⟩

end Protection

/-- VM 0 shares a page of its RAM block. -/
theorem share_protects_freshGuests : ∃ regs m',
    handleMemShareOrLend (freshGuests.activate 0) { x3 := 0x48000000, x4 := 1, x5 := 2 } (fun _ => 0) false =
      some (regs, m') ∧ ∀ a ∈ covered [(0x48000000, 1)], ∃ tr, m'.translation 0 a = some tr ∧
        tr.sw = PageOwnership.sharedOwned.bits ∧ tr.s2ap = 0b01 := by
  obtain ⟨⟨regs, m'⟩, run, success⟩ := Option.map_eq_some_iff.mp
    (by decide : (handleMemShareOrLend (freshGuests.activate 0)
      { x3 := 0x48000000, x4 := 1, x5 := 2 } (fun _ => 0) false).map (·.1.x0) = some ffaSuccess32)
  have asked : shareRequest { x3 := 0x48000000, x4 := 1, x5 := 2 } (freshGuests.mailbox 0) (fun _ => 0) =
      .ok ⟨0, 2, [(0x48000000, 1)], 1⟩ := by decide
  refine ⟨regs, m', run, (share_protects freshGuests_initial.wf (by decide) (freshGuests_initial.small 0) asked
    run success).mpr ?_⟩
  decide

/-- Two guests over a heap without a page left. -/
def starvedGuests : Machine := (Snapshot.twoGuests 0x4100A000).machine .init

theorem starvedGuests_initial : starvedGuests.Initial :=
  Snapshot.Sound.initial (by decide) (by decide)

/-- VM 0 shares a page of its RAM block, is told that it did, and can still write the page. -/
theorem share_without_protection : starvedGuests.Initial ∧ ∃ regs m',
    handleMemShareOrLend (starvedGuests.activate 0) { x3 := 0x48000000, x4 := 1, x5 := 2 } (fun _ => 0) false =
      some (regs, m') ∧ regs.x0 = ffaSuccess32 ∧
      m'.translation 0 0x48000 = some ⟨0x48000000, 0x73C, PageOwnership.owned.bits, 0b11⟩ := by
  obtain ⟨⟨regs, m'⟩, run, outcome⟩ := Option.map_eq_some_iff.mp
    (by decide : (handleMemShareOrLend (starvedGuests.activate 0)
      { x3 := 0x48000000, x4 := 1, x5 := 2 } (fun _ => 0) false).map
        (fun result => (result.1.x0, result.2.translation 0 0x48000)) =
      some (ffaSuccess32, some ⟨0x48000000, 0x73C, PageOwnership.owned.bits, 0b11⟩))
  obtain ⟨success, unprotected⟩ := Prod.mk.inj outcome
  exact ⟨starvedGuests_initial, regs, m', run, success, unprotected⟩

end Hypervisor
