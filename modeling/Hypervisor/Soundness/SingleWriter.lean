import Hypervisor.Soundness.Ownership
import Hypervisor.Soundness.Snapshot

/-! # Guest RAM has a single writer

The invariants of the protocol, lifted to runs from a state where guest RAM is mapped by one VM
only. Physical pages are told apart by output addresses, which stay equal to the page numbers.
-/

namespace Hypervisor

/-- No page request of the step was refused. -/
def tablesServed : Ledger → Event → Ledger → Prop := fun L _ L' => L'.refused = L.refused

namespace Machine

/-- A physical page of guest RAM: a VM maps it as Normal memory. -/
def Ram (m : Machine) (p : ℕ) : Prop :=
  ∃ v leaf, m.view v p = some leaf ∧ leaf.translation.isNormal = true

/-- VM `v` can store to physical page `p`. -/
def Writes (m : Machine) (v : VmId) (p : ℕ) : Prop :=
  ∃ a leaf, m.view v a = some leaf ∧ leaf.translation.output = pageAddr p ∧ leaf.translation.writable = true

/-- An active record of a lend by VM `v` covers page `a`. -/
def Lends (m : Machine) (v : VmId) (a : ℕ) : Prop :=
  ∃ i record, Covers m.spmc.records a i record ∧ record.isLend = true ∧ record.senderId = vmIdToPartitionId v

/-- VM `v` can neither load from page `a` nor store to it. -/
def NoAccess (m : Machine) (v : VmId) (a : ℕ) : Prop :=
  ∀ leaf, m.view v a = some leaf → leaf.translation.s2ap = 0

end Machine

section Runs

variable {m₀ m : Machine}

theorem Machine.Initial.soleOwner (initial : m₀.Initial) (a : ℕ) : SoleOwner m₀.view a m₀.ledger where
  sender _ _ covers := absurd covers initial.not_covers
  unique _ _ _ _ covers := absurd covers initial.not_covers
  borrower u leaf foreign mapped := by
    rw [show m₀.ledger.view u a = none from foreign] at mapped
    contradiction
  receiver _ _ _ covers := absurd covers initial.not_covers
  kept _ mapped := mapped

theorem Machine.Initial.marked (initial : m₀.Initial) (a : ℕ) : Marked a m₀.ledger where
  sender _ _ _ covers := absurd covers initial.not_covers
  senders _ _ _ _ covers := absurd covers initial.not_covers
  receiver _ _ _ covers := absurd covers initial.not_covers
  receivers _ _ _ _ covers := absurd covers initial.not_covers

/-- Leaves stay small and map their pages to themselves in every run. -/
theorem Reach.identity {allowed : Ledger → Event → Ledger → Prop} (initial : m₀.Initial)
    (reach : Reach allowed m₀ m) : (∀ v, Small m.ledger.view v) ∧ m.ledger.Identity :=
  reach.invariant (I := fun L => (∀ v, Small L.view v) ∧ L.Identity) initial.wf
    ⟨initial.small, initial.identity⟩
    fun _ _ _ _ _ _ kept effect _ => ⟨effect.small kept.1, effect.identity kept.2⟩

theorem Reach.soleOwner (initial : m₀.Initial) {a : ℕ}
    (sole : ∀ u v, m₀.view u a ≠ none → m₀.view v a ≠ none → u = v) (reach : Reach tablesServed m₀ m) :
    SoleOwner m₀.view a m.ledger :=
  (reach.invariant (I := fun L => (∀ v, Small L.view v) ∧ SoleOwner m₀.view a L) initial.wf
    ⟨initial.small, initial.soleOwner a⟩
    fun _ _ _ _ _ _ kept effect served =>
      ⟨effect.small kept.1, effect.soleOwner kept.2 sole (kept.1 _) served⟩).2

theorem Reach.marked (initial : m₀.Initial) (a : ℕ)
    (reach : Reach (fun L event L' => tablesServed L event L' ∧ L.Rightful event) m₀ m) :
    Marked a m.ledger :=
  (reach.invariant (I := fun L => (∀ v, Small L.view v) ∧ Marked a L) initial.wf
    ⟨initial.small, initial.marked a⟩
    fun _ _ _ _ _ _ kept effect ⟨served, rightful⟩ =>
      ⟨effect.small kept.1, effect.marked kept.2 (kept.1 _) served rightful⟩).2

/-- Under the identity map, a store to a physical page goes through that page. -/
theorem Machine.Writes.leaf {v : VmId} {p : ℕ} (writes : m.Writes v p) (bound : p < 2 ^ 36)
    (identity : m.ledger.Identity) : ∃ leaf, m.view v p = some leaf ∧ leaf.translation.writable = true := by
  obtain ⟨a, leaf, mapped, output, writable⟩ := writes
  obtain rfl := pageAddr_injective a (lt_of_view mapped) bound ((identity v a leaf mapped).symm.trans output)
  exact ⟨leaf, mapped, writable⟩

/-- When every page request is served, guest RAM has a single writer and no lender has access to RAM
it lent. When moreover every reclaim is rightful, no lender has access to anything it lent. -/
theorem single_writer (initial : m₀.Initial)
    (exclusive : ∀ u v a leaf, m₀.view u a = some leaf → leaf.translation.isNormal = true →
      m₀.view v a ≠ none → v = u) :
    (∀ m, Reach tablesServed m₀ m →
      (∀ p, m₀.Ram p → ∀ u v, m.Writes u p → m.Writes v p → u = v) ∧
      ∀ p, m₀.Ram p → ∀ v, m.Lends v p → m.NoAccess v p) ∧
    ∀ m, Reach (fun L event L' => tablesServed L event L' ∧ L.Rightful event) m₀ m →
      ∀ a v, m.Lends v a → m.NoAccess v a := by
  have sole : ∀ p, m₀.Ram p → ∀ u v, m₀.view u p ≠ none → m₀.view v p ≠ none → u = v := by
    rintro p ⟨w, leaf, mapped, normal⟩ u v maps maps'
    rw [exclusive w u p leaf mapped normal maps, exclusive w v p leaf mapped normal maps']
  refine ⟨fun m reach => ⟨?_, ?_⟩, ?_⟩
  · intro p ram u v writes writes'
    have own := reach.soleOwner initial (sole p ram)
    have identity := (reach.identity initial).2
    have bound : p < 2 ^ 36 := by
      obtain ⟨w, leaf, mapped, -⟩ := ram
      exact lt_of_view mapped
    obtain ⟨leaf, mapped, writable⟩ := writes.leaf bound identity
    obtain ⟨leaf', mapped', writable'⟩ := writes'.leaf bound identity
    exact own.writer_unique (sole p ram) mapped mapped' writable writable'
  · rintro p ram v ⟨i, record, covers, lends, sender⟩ leaf mapped
    have own := reach.soleOwner initial (sole p ram)
    obtain ⟨w, found, sender', -, sees, -, -, revoked⟩ := own.sender i record covers
    obtain rfl := vmIdToPartitionId_injective (sender.symm.trans sender')
    rw [Option.some.inj (Eq.trans mapped.symm sees)]
    exact revoked lends
  · rintro m reach a v ⟨i, record, covers, lends, sender⟩ leaf mapped
    obtain ⟨found, sees, -, revoked⟩ := (reach.marked initial a).sender i record v covers sender
    rw [Option.some.inj (Eq.trans mapped.symm sees)]
    exact revoked lends

end Runs

/-! ## A lender that gets its page back

Both guests map the GIC page at 0x08080000. VM 0 lends it, VM 1 shares it, and VM 0 reclaims the
record of VM 1: the pages retagged are those of the caller. -/

theorem freshGuests_exclusive (u v : VmId) (a : ℕ) (leaf : Leaf) (mapped : freshGuests.view u a = some leaf)
    (normal : leaf.translation.isNormal = true) (maps : freshGuests.view v a ≠ none) : v = u :=
  Snapshot.twoGuests_sound.exclusive (by decide) u v a leaf mapped normal maps

/-- VM 0 has lent the GIC page to VM 1. -/
def lentGuests : Machine :=
  freshGuests.perform 0 .lend { x0 := ffaMemLend32, x3 := 0x08080000, x4 := 1, x5 := 2 } fun _ => 0

theorem lentGuests_lends : lentGuests.Lends 0 0x8080 :=
  ⟨0, ⟨1, 1, 2, [(0x08080000, 1)], 1, true, true, false⟩, ⟨by decide, rfl, by decide⟩, rfl, rfl⟩

theorem single_writer_lentGuests : lentGuests.Lends 0 0x8080 ∧ lentGuests.NoAccess 0 0x8080 := by
  have reach : Reach (fun L event L' => tablesServed L event L' ∧ L.Rightful event) freshGuests lentGuests :=
    .perform .refl (by decide) rfl (by decide) ⟨by unfold tablesServed; decide, trivial⟩
  exact ⟨lentGuests_lends,
    (single_writer freshGuests_initial freshGuests_exclusive).2 _ reach _ _ lentGuests_lends⟩

/-- VM 1 has shared the page with VM 0, and VM 0 has reclaimed that share. -/
def reclaimedGuests : Machine :=
  (lentGuests.perform 1 .share { x0 := ffaMemShare32, x3 := 0x08080000, x4 := 1, x5 := 1 } fun _ => 0).perform 0
    .reclaim { x0 := ffaMemReclaim, x1 := 2 } fun _ => 0

/-- VM 0 has access to a page while its lend of that page is active. -/
theorem reclaim_restores_lent_page :
    freshGuests.Initial ∧
    (∀ u v a leaf, freshGuests.view u a = some leaf → leaf.translation.isNormal = true →
      freshGuests.view v a ≠ none → v = u) ∧
    Reach tablesServed freshGuests reclaimedGuests ∧
    reclaimedGuests.Lends 0 0x8080 ∧ ¬reclaimedGuests.NoAccess 0 0x8080 := by
  refine ⟨freshGuests_initial, freshGuests_exclusive, ?_, ?_, ?_⟩
  · unfold tablesServed
    refine .perform (.perform (.perform .refl ?_ rfl ?_ ?_) ?_ rfl ?_ ?_) ?_ rfl ?_ ?_ <;> decide +kernel
  · exact ⟨0, ⟨1, 1, 2, [(0x08080000, 1)], 1, true, true, false⟩,
      ⟨by decide +kernel, rfl, by decide +kernel⟩, rfl, rfl⟩
  · intro revoked
    have mapped : reclaimedGuests.view 0 0x8080 = some ⟨0, 0x08080000, 0x400, 0, 3⟩ := by decide +kernel
    exact absurd (revoked _ mapped) (by decide)

end Hypervisor
