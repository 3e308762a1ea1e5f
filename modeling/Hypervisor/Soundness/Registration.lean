import Hypervisor.Proofs.Mailbox
import Hypervisor.Soundness.Borrow
import Hypervisor.Soundness.Confinement

/-! # Registered buffers and the tables of their VM

RXTX_MAP compares the buffers with one window for all VMs and not with the tables of the caller. What
a VM can access is known without a walk: it maps the pages that boot gave it and the pages that a
record has brought, and the tags say which of them it has given out. So the buffers of a VM are its
own memory exactly when they are such pages and not given out.
-/

namespace Hypervisor

/-! ## Tags and permissions -/

/-- A page is given out, without stores, or permits all accesses. -/
def Translation.Tagged (tr : Translation) : Prop :=
  tr.sw = 1 ∧ (tr.s2ap = 0 ∨ tr.s2ap = 1) ∨ tr.sw ≠ 1 ∧ tr.s2ap = 3

def Ledger.Tagged (L : Ledger) : Prop := ∀ u a leaf, L.view u a = some leaf → leaf.translation.Tagged

theorem Translation.Tagged.writable_iff {tr : Translation} (tagged : tr.Tagged) : tr.writable = true ↔ tr.sw ≠ 1 := by
  rw [Translation.writable]
  rcases tagged with ⟨given, none | ro⟩ | ⟨kept, full⟩
  · simp [none, given]
  · simp [ro, given]
  · rw [full]
    exact iff_of_true rfl kept

theorem Translation.Tagged.readable_iff {tr : Translation} (tagged : tr.Tagged) :
    tr.readable = true ↔ ¬(tr.sw = 1 ∧ tr.s2ap = 0) := by
  rw [Translation.readable]
  rcases tagged with ⟨given, none | ro⟩ | ⟨-, full⟩
  · simp [none, given]
  · simp [ro]
  · simp [full]

theorem sharedTranslation_tagged (isLend : Bool) (tr : Translation) : (sharedTranslation isLend tr).Tagged := by
  have closed : ∀ lend : Bool, PageOwnership.sharedOwned.bits &&& 3 = 1 ∧
      (senderS2ap lend &&& 3 = 0 ∨ senderS2ap lend &&& 3 = 1) := by decide
  exact .inl (closed isLend)

theorem reclaimedTranslation_tagged (tr : Translation) : (reclaimedTranslation tr).Tagged := by
  have closed : PageOwnership.owned.bits &&& 3 ≠ 1 ∧ ((s2apRw >>> s2apShift).setWidth 8 : U8) &&& 3 = 3 := by decide
  exact .inr closed

section Steps

variable {L L' : Ledger} {r v : VmId} {a : ℕ} {call : MemCall} {ctx : GpRegs}

theorem Ledger.Tagged.retyped (tagged : L.Tagged) {R : ℕ → Prop} {change : Translation → Translation} {W : View}
    (retyped : Retyped v R change L.view W) (marks : ∀ tr, (change tr).Tagged) :
    ∀ u a leaf, W u a = some leaf → leaf.translation.Tagged := by
  intro u a leaf' mapped'
  obtain ⟨leaf, mapped, -, ⟨-, -, changed⟩ | ⟨-, same⟩⟩ := retyped.backward mapped'
  · rw [changed]
    exact marks _
  · rw [same]
    exact tagged u a leaf mapped

/-- The calls write the tag and the permissions of a page together. -/
theorem Effect.tagged (effect : Effect L v ctx call L') (tagged : L.Tagged) : L'.Tagged := by
  cases effect with
  | refuse => exact tagged
  | full shares => exact tagged.retyped shares.retyped (sharedTranslation_tagged _)
  | share shares => exact tagged.retyped shares.retyped (sharedTranslation_tagged _)
  | reclaim _ _ retyped => exact tagged.retyped retyped reclaimedTranslation_tagged
  | retrieve _ _ _ borrows =>
    intro u a leaf mapped
    rcases borrows.backward mapped with ⟨-, -, -, -, tag, access⟩ | ⟨-, old⟩
    · refine .inr ⟨fun given => ?_, access⟩
      rw [given] at tag
      contradiction
    · exact tagged u a leaf old
  | relinquish =>
    intro u a leaf mapped
    exact tagged u a leaf (of_returned mapped).1

/-! ## Pages that a VM keeps -/

/-- Page `a` is mapped for VM `r`, and not because a record brought it. -/
structure Kept (r : VmId) (a : ℕ) (L : Ledger) : Prop where
  mapped : L.view r a ≠ none
  own : ∀ i record, ¬Brought L.records r a i record

theorem Kept.retyped (kept : Kept r a L) {R : ℕ → Prop} {change : Translation → Translation} {W : View}
    {refused : ℕ} {records : List MemShareRecord} (retyped : Retyped v R change L.view W)
    (own : ∀ i record, ¬Brought records r a i record) : Kept r a ⟨W, records, refused⟩ := by
  refine ⟨fun gone => ?_, own⟩
  obtain ⟨leaf, mapped⟩ := Option.ne_none_iff_exists'.mp kept.mapped
  obtain ⟨leaf', mapped', -⟩ := retyped.forward mapped
  exact nomatch gone.symm.trans mapped'

/-- A VM cannot retrieve a page it maps, so relinquishing takes no such page away. -/
theorem Effect.kept (effect : Effect L v ctx call L') (kept : Kept r a L) : Kept r a L' := by
  cases effect with
  | refuse => exact ⟨kept.mapped, kept.own⟩
  | full shares => exact kept.retyped shares.retyped kept.own
  | share shares _ _ _ _ _ _ idle =>
    refine kept.retyped shares.retyped fun i record brought => ?_
    rcases brought.of_set with ⟨-, rfl⟩ | old
    · exact absurd brought.retrieved (by simp [idle])
    · exact kept.own i record old
  | reclaim _ _ retyped =>
    refine kept.retyped retyped fun i record brought => ?_
    exact kept.own i record ⟨brought.toCovers.of_drop.2, brought.receiver, brought.retrieved⟩
  | retrieve _ receiver _ borrows =>
    refine ⟨fun gone => ?_, fun i record brought => ?_⟩
    · obtain ⟨leaf, mapped⟩ := Option.ne_none_iff_exists'.mp kept.mapped
      exact nomatch gone.symm.trans (borrows.forward mapped)
    · rcases brought.of_set with ⟨-, rfl⟩ | old
      · obtain rfl := vmIdToPartitionId_injective (brought.receiver.symm.trans receiver.symm)
        exact kept.mapped (borrows.fresh a brought.page)
      · exact kept.own i record old
  | @relinquish _ i record found receiver held =>
    refine ⟨fun gone => ?_, fun j other brought => ?_⟩
    · have miss : ¬(r = v ∧ a ∈ covered record.ranges) := by
        rintro ⟨rfl, member⟩
        exact kept.own i record ⟨found.covers member, receiver.symm, held⟩
      exact kept.mapped ((if_neg miss).symm.trans gone)
    · rcases brought.of_set with ⟨-, rfl⟩ | old
      · exact absurd brought.retrieved (by simp)
      · exact kept.own j other old

end Steps

section Runs

variable {m₀ m m' later : Machine} {v : VmId} {a : ℕ} {ipa : U64} {ctx regs : GpRegs}

/-- Boot owns every page it maps, for all accesses. -/
theorem Machine.Booted.tagged (booted : m₀.Booted) : m₀.ledger.Tagged := by
  induction booted with
  | bare start =>
    intro u a leaf mapped
    cases (start.view_eq_none u a).symm.trans mapped
  | @initMemory m m' vm vm' info start size before addressable run ih =>
    rcases eq_or_boots_of_initMemory before.confined.1 addressable run with rfl | boots
    · exact ih
    · intro u a leaf mapped
      rcases boots.backward mapped with old | ⟨attr, planned, h, -, rfl⟩
      · exact ih u a leaf old
      · -- the plan uses no read-only attribute
        refine .inr ⟨(by decide : (0 : U8) ≠ 1), ?_⟩
        rw [initPlan] at planned
        rcases bootPlan_cases info _ _ a with none | device | normal
        · cases none.symm.trans planned
        · obtain rfl := Option.some.inj (device.symm.trans planned)
          rfl
        · obtain rfl := Option.some.inj (normal.symm.trans planned)
          rfl
  | other _ _ _ same ih => exact same ▸ ih

/-- The pages that a VM maps are those that boot gave it and those that records have brought. -/
theorem Reach.maps_iff (initial : m₀.Initial) (reach : Reach anyStep m₀ m) :
    m.view v a ≠ none ↔ m₀.view v a ≠ none ∨ ∃ i record, Brought m.spmc.records v a i record := by
  cases start : m₀.view v a with
  | none =>
    have borrowed := reach.borrowed initial.wf initial.unshared start
    constructor
    · intro maps
      exact .inr (borrowed.record maps)
    · rintro (given | ⟨i, record, brought⟩)
      · exact absurd rfl given
      · exact borrowed.mapped i record brought
  | some leaf =>
    have first : Kept v a m₀.ledger :=
      ⟨fun gone => (nomatch start.symm.trans gone), fun _ _ brought => initial.not_covers brought.toCovers⟩
    have kept : Kept v a m.ledger := reach.invariant initial.wf first fun _ _ _ _ _ _ kept effect _ => effect.kept kept
    exact iff_of_true kept.mapped (.inl nofun)

/-! ## Accesses to a buffer -/

/-- The tables of VM `v` permit an access to the byte at physical address `addr`, at that address. -/
def Machine.Access (m : Machine) (v : VmId) (permits : Translation → Bool) (addr : ℕ) : Prop :=
  ∃ leaf, m.view v (addr / 4096) = some leaf ∧ leaf.translation.output = pageAddr (addr / 4096) ∧
    permits leaf.translation = true

/-- Every byte of the page at an address can be loaded, or stored to. -/
def Machine.Loads (m : Machine) (v : VmId) (ipa : U64) : Prop :=
  ∀ i < 4096, m.Access v Translation.readable (ipa.toNat + i)

def Machine.Stores (m : Machine) (v : VmId) (ipa : U64) : Prop :=
  ∀ i < 4096, m.Access v Translation.writable (ipa.toNat + i)

/-- VM `v` has given the page of an address out: `read_sw_bits` reports SharedOwned. -/
def Machine.GivenOut (m : Machine) (v : VmId) (ipa : U64) : Prop :=
  (⟨m.perVmVttbr v⟩ : Stage2Walker).readSwBits m.phys.mem ipa = some PageOwnership.sharedOwned.bits

/-- VM `v` has lent the page of an address: it is given out, and `read_s2ap` reports no access. -/
def Machine.LentOut (m : Machine) (v : VmId) (ipa : U64) : Prop :=
  m.GivenOut v ipa ∧
    (⟨m.perVmVttbr v⟩ : Stage2Walker).readS2ap m.phys.mem ipa = some ((s2apNone >>> s2apShift).setWidth 8)

/-- VM `v` got the page of an address at boot, or holds it under a record it has retrieved. -/
def Machine.Has (m₀ m : Machine) (v : VmId) (ipa : U64) : Prop :=
  m₀.view v (pageOf ipa) ≠ none ∨ ∃ i record, Brought m.spmc.records v (pageOf ipa) i record

/-- All bytes of a registered page are in one page. -/
theorem RamPage.page_eq (page : RamPage ipa) {i : ℕ} (bound : i < 4096) : (ipa.toNat + i) / 4096 = pageOf ipa := by
  have zero := congrArg BitVec.toNat page.aligned
  rw [BitVec.toNat_and, show (0xFFF : U64).toNat = 2 ^ 12 - 1 by rfl, Nat.and_two_pow_sub_one_eq_mod] at zero
  have window := isGuestRam_page page.inside
  rw [pageOf]
  have low : (0 : U64).toNat = 0 := rfl
  omega

theorem RamPage.access_iff (page : RamPage ipa) (identity : m.ledger.Identity) {permits : Translation → Bool} :
    (∀ i < 4096, m.Access v permits (ipa.toNat + i)) ↔
      ∃ leaf, m.view v (pageOf ipa) = some leaf ∧ permits leaf.translation = true := by
  constructor
  · intro all
    obtain ⟨leaf, mapped, -, permitted⟩ := all 0 (by decide)
    rw [page.page_eq (by decide)] at mapped
    exact ⟨leaf, mapped, permitted⟩
  · rintro ⟨leaf, mapped, permitted⟩ i bound
    rw [Machine.Access, page.page_eq bound]
    exact ⟨leaf, mapped, identity v _ leaf mapped, permitted⟩

theorem RamPage.loads_iff (page : RamPage ipa) (identity : m.ledger.Identity) (tagged : m.ledger.Tagged)
    (served : m.perVmVttbr v ≠ 0) : m.Loads v ipa ↔ m.view v (pageOf ipa) ≠ none ∧ ¬m.LentOut v ipa := by
  rw [Machine.Loads, page.access_iff identity, Machine.LentOut, Machine.GivenOut, readSwBits_eq served,
    readS2ap_eq served]
  change _ ↔ m.view v (pageOf ipa) ≠ none ∧
    ¬((m.view v (pageOf ipa)).map (·.translation.sw) = _ ∧ (m.view v (pageOf ipa)).map (·.translation.s2ap) = _)
  cases sees : m.view v (pageOf ipa) with
  | none => simp
  | some leaf =>
    simp only [Option.some.injEq, exists_eq_left', Option.map_some, ne_eq, reduceCtorEq, not_false_eq_true, true_and]
    exact (tagged v _ leaf sees).readable_iff

theorem RamPage.stores_iff (page : RamPage ipa) (identity : m.ledger.Identity) (tagged : m.ledger.Tagged)
    (served : m.perVmVttbr v ≠ 0) : m.Stores v ipa ↔ m.view v (pageOf ipa) ≠ none ∧ ¬m.GivenOut v ipa := by
  rw [Machine.Stores, page.access_iff identity, Machine.GivenOut, readSwBits_eq served]
  change _ ↔ m.view v (pageOf ipa) ≠ none ∧ ¬(m.view v (pageOf ipa)).map (·.translation.sw) = _
  cases sees : m.view v (pageOf ipa) with
  | none => simp
  | some leaf =>
    simp only [Option.some.injEq, exists_eq_left', Option.map_some, ne_eq, reduceCtorEq, not_false_eq_true, true_and]
    exact (tagged v _ leaf sees).writable_iff

/-- A write to a mailbox is no event of the sharing protocol. -/
theorem Machine.Wf.setMailbox (wf : m.Wf) (vmId : ℕ) (mbox : FfaMailbox) :
    m.Step .other ((m.activate v).setMailbox vmId mbox) := .other ⟨wf.tables, wf.vttbr⟩ rfl rfl

theorem initMemory_mailboxes {vm vm' : Vm} {info : PlatformInfo} {start size : U64}
    (run : vm.initMemory info start size m = some (vm', m')) : m'.mailboxes = m.mailboxes := by
  rw [Vm.initMemory] at run
  split_ifs at run
  · obtain ⟨-, rfl⟩ := Prod.mk.inj (Option.some.inj run)
    rfl
  · obtain ⟨_, -, run⟩ := Option.bind_eq_some_iff.mp run
    obtain ⟨_, -, run⟩ := Option.bind_eq_some_iff.mp run
    obtain ⟨_, -, run⟩ := Option.bind_eq_some_iff.mp run
    obtain ⟨-, rfl⟩ := Prod.mk.inj (Option.some.inj run)
    rfl

theorem served_of_view {leaf : Leaf} (mapped : m.view v a = some leaf) : m.perVmVttbr v ≠ 0 := by
  intro zero
  rw [Machine.view, view, if_neg (fun served => served.1 zero)] at mapped
  contradiction

/-- A VM has not given out what it owns. -/
theorem not_givenOut {leaf : Leaf} (mapped : m.view v (pageOf ipa) = some leaf) (owned : leaf.translation.sw ≠ 1) :
    ¬m.GivenOut v ipa := by
  intro given
  have tag := (readSwBits_eq (served_of_view mapped) ipa).symm.trans given
  rw [show view m.perVmVttbr m.phys.mem v (pageOf ipa) = some leaf from mapped] at tag
  exact owned (Option.some.inj tag)

/-- Booting the two guests leaves the mailboxes alone. -/
theorem booted_of_runMultiVmGuests {info : PlatformInfo} (bare : m.Bare)
    (run : runMultiVmGuests info m = some m') : m'.Booted ∧ m'.mailboxes = m.mailboxes := by
  rw [runMultiVmGuests] at run
  obtain ⟨vm0, -, run⟩ := Option.bind_eq_some_iff.mp run
  obtain ⟨⟨_, m₁⟩, boot0, run⟩ := Option.bind_eq_some_iff.mp run
  obtain ⟨vm1, -, run⟩ := Option.bind_eq_some_iff.mp run
  obtain ⟨⟨_, m₂⟩, boot1, run⟩ := Option.bind_eq_some_iff.mp run
  obtain rfl := Option.some.inj run
  have second : m₂.Booted := .initMemory (.initMemory (.bare bare) (by decide) boot0) (by decide) boot1
  refine ⟨.other second ⟨second.confined.1.tables, second.confined.1.vttbr⟩ rfl rfl, ?_⟩
  exact (initMemory_mailboxes boot1).trans (initMemory_mailboxes boot0)

/-- In every state after VM `v` has registered its buffers, it can load every byte of the TX buffer and
store to every byte of the RX buffer exactly when it has both pages, has not lent the first and has
not given the second out. -/
theorem rxtxMap_confined (booted : m₀.Booted) (reach : Reach anyStep m₀ m) (served : m.perVmVttbr v ≠ 0)
    (run : handleRxtxMap (m.activate v) ctx = some (regs, m')) (accepted : regs.x0 = ffaSuccess32)
    (reach' : Reach anyStep m' later) :
    later.Loads v (m'.mailbox v).txIpa ∧ later.Stores v (m'.mailbox v).rxIpa ↔
      (Machine.Has m₀ later v (m'.mailbox v).txIpa ∧ ¬later.LentOut v (m'.mailbox v).txIpa) ∧
        Machine.Has m₀ later v (m'.mailbox v).rxIpa ∧ ¬later.GivenOut v (m'.mailbox v).rxIpa := by
  have initial := booted.initial
  rcases rxtxMap_cases run with ⟨code, rfl, -⟩ | ⟨tx, rx, -, -, rfl⟩
  · exact absurd accepted (ffaError_x0_ne (by decide))
  rw [Machine.setMailbox_self]
  have whole : Reach anyStep m₀ later :=
    (reach.tail ⟨.other, (reach.wf initial.wf).setMailbox v _, trivial⟩).trans reach'
  have identity := (whole.identity initial).2
  have tagged : later.ledger.Tagged := whole.invariant initial.wf booted.tagged
    fun _ _ _ _ _ _ tagged effect _ => effect.tagged tagged
  have served' : later.perVmVttbr v ≠ 0 := by
    rw [whole.perVmVttbr_eq initial.wf, ← reach.perVmVttbr_eq initial.wf]
    exact served
  rw [tx.loads_iff identity tagged served', rx.stores_iff identity tagged served', whole.maps_iff initial,
    whole.maps_iff initial, Machine.Has, Machine.Has]

theorem rxtxMap_confined_guests : ∃ m₀ m' regs, runMultiVmGuests .default bareMachine = some m₀ ∧
    handleRxtxMap (m₀.activate 0) { x0 := ffaRxtxMap, x1 := 0x50000000, x2 := 0x50001000, x3 := 1 } =
      some (regs, m') ∧ regs.x0 = ffaSuccess32 ∧ m'.Loads 0 0x50000000 ∧ m'.Stores 0 0x50001000 := by
  obtain ⟨m₀, run⟩ := exists_guests
  obtain ⟨booted, mailboxes⟩ := booted_of_runMultiVmGuests bareMachine_bare run
  obtain ⟨-, follows, -⟩ := runMultiVmGuests_follows bareMachine_bare.wf run
  have free : (m₀.mailbox 0).mapped = false := by
    rw [Machine.mailbox, mailboxes]
    rfl
  have registers : handleRxtxMap (m₀.activate 0) { x0 := ffaRxtxMap, x1 := 0x50000000, x2 := 0x50001000, x3 := 1 } =
      some (_, _) := rxtxMap_of_ramPage ⟨by decide, by decide⟩ ⟨by decide, by decide⟩ (by decide) free
  obtain ⟨h, -, tx⟩ : ∃ h ≤ 1, m₀.view 0 (pageOf 0x50000000) = some ⟨h, mappedAs .normal 0x50000⟩ := follows 0x50000
  obtain ⟨k, -, rx⟩ : ∃ k ≤ 1, m₀.view 0 (pageOf 0x50001000) = some ⟨k, mappedAs .normal 0x50001⟩ := follows 0x50001
  have confined := rxtxMap_confined booted .refl (served_of_view tx) registers rfl .refl
  rw [Machine.setMailbox_self] at confined
  refine ⟨m₀, _, _, run, registers, rfl, confined.mpr ⟨⟨.inl ?_, fun lent => ?_⟩, .inl ?_, ?_⟩⟩
  · exact Option.ne_none_iff_exists'.mpr ⟨_, tx⟩
  · exact not_givenOut (m := m₀) tx (by decide : (0 : U8) ≠ 1) lent.1
  · exact Option.ne_none_iff_exists'.mpr ⟨_, rx⟩
  · exact not_givenOut (m := m₀) rx (by decide : (0 : U8) ≠ 1)

/-- VM 1 registers a page of VM 0 that it does not map. -/
theorem rxtxMap_accepts_foreign_page : ∃ m₀ m' regs, runMultiVmGuests .default bareMachine = some m₀ ∧
    handleRxtxMap (m₀.activate 1) { x0 := ffaRxtxMap, x1 := 0x48000000, x2 := 0x48001000, x3 := 1 } =
      some (regs, m') ∧ regs.x0 = ffaSuccess32 ∧ (m'.mailbox 1).txIpa = 0x48000000 ∧
      ¬m'.Loads 1 0x48000000 ∧ ¬m'.Stores 1 0x48001000 := by
  obtain ⟨m₀, run⟩ := exists_guests
  obtain ⟨-, mailboxes⟩ := booted_of_runMultiVmGuests bareMachine_bare run
  obtain ⟨-, -, follows⟩ := runMultiVmGuests_follows bareMachine_bare.wf run
  have free : (m₀.mailbox 1).mapped = false := by
    rw [Machine.mailbox, mailboxes]
    rfl
  have registers : handleRxtxMap (m₀.activate 1) { x0 := ffaRxtxMap, x1 := 0x48000000, x2 := 0x48001000, x3 := 1 } =
      some (_, _) := rxtxMap_of_ramPage ⟨by decide, by decide⟩ ⟨by decide, by decide⟩ (by decide) free
  have tx : m₀.view 1 0x48000 = none := follows 0x48000
  have rx : m₀.view 1 0x48001 = none := follows 0x48001
  refine ⟨m₀, _, _, run, registers, rfl, rfl, fun loads => ?_, fun stores => ?_⟩
  · obtain ⟨leaf, mapped, -⟩ := loads 0 (by decide)
    exact nomatch tx.symm.trans mapped
  · obtain ⟨leaf, mapped, -⟩ := stores 0 (by decide)
    exact nomatch rx.symm.trans mapped

end Runs

end Hypervisor
