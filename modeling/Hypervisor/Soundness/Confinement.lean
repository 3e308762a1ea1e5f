import Hypervisor.Soundness.Isolation

/-! # No new physical reach

The memory calls move pages between VMs but do not make new ones reachable. A run starts from tables
that `init_memory` built for some VMs; every page that a VM maps later was mapped by one of them
then, at the same address, and is not on the heap. So the page tables stay out of reach.
-/

namespace Hypervisor

open Radix

/-- The states that boot can end in: from a new heap, some VMs got their memory. The regions lie in
the first 512GB, as those of all guest configurations do. -/
inductive Machine.Booted : Machine → Prop
  | bare {m : Machine} : m.Bare → Booted m
  | initMemory {m m' : Machine} {vm vm' : Vm} {info : PlatformInfo} {start size : U64} :
      Booted m → Addressable start size → vm.initMemory info start size m = some (vm', m') → Booted m'
  | other {m m' : Machine} :
      Booted m → m'.Wf → m'.perVmVttbr = m.perVmVttbr → m'.ledger = m.ledger → Booted m'

/-- A page table that the walks of some VM pass through. -/
def Machine.TablePage (m : Machine) (t : U64) : Prop :=
  ∃ w k a, m.perVmVttbr w ≠ 0 ∧ a < 2 ^ 36 ∧ tableAt nextTable 512 m.phys.mem k 3 (m.perVmVttbr w) a = some t

/-- Page tables are pages of the heap. -/
theorem Machine.Wf.heapPage {m : Machine} (wf : m.Wf) {t : U64} (table : m.TablePage t) : HeapPage t := by
  obtain ⟨w, k, a, booted, bound, reach⟩ := table
  obtain ⟨⟨role, room, tables⟩, -⟩ := wf
  exact tables.page (tables.layout.tableAt_role (by decide) (tables.start booted bound) reach)

theorem onHeap_of_heapPage {a : ℕ} (bound : a < 2 ^ 36) (heap : HeapPage (pageAddr a)) : OnHeap a := by
  obtain ⟨-, low, high⟩ := heap
  rw [pageAddr_toNat a bound] at low high
  rw [heapEnd] at high
  rw [OnHeap, InRegion]
  dsimp only
  omega

/-- Boot leaves the heap out. -/
theorem not_onHeap_of_bootPlan {info : PlatformInfo} {start size : U64} {a : ℕ}
    (planned : bootPlan info start size a ≠ none) : ¬OnHeap a := by
  rw [ne_eq, bootPlan_eq_none_iff, inGic_iff, not_or, not_and_or, not_not, not_not] at planned
  rcases planned.1 with ram | gic
  · exact ram.2
  · rw [onHeap_iff]
    omega

/-- After boot every page maps to itself, through a page or a 2MB block, the heap is not mapped, and
nothing is shared. -/
structure Ledger.Confined (L : Ledger) : Prop where
  small : ∀ v, Small L.view v
  identity : L.Identity
  off : ∀ v a leaf, L.view v a = some leaf → ¬OnHeap a
  unshared : ∀ record ∈ L.records, record.active = false

section Boot

variable {m m' : Machine}

/-- A leaf after boot is an old one of another VM or a planned one. -/
theorem Machine.Boots.backward {v u : VmId} {plan : Plan} (boots : m.Boots v plan m') {a : ℕ} {leaf : Leaf}
    (mapped : m'.view u a = some leaf) :
    m.view u a = some leaf ∨ ∃ attr, plan a = some attr ∧ ∃ h ≤ 1, leaf = ⟨h, mappedAs attr a⟩ := by
  by_cases other : u = v
  · subst other
    have planned := boots.pages a
    rw [mapped] at planned
    cases plan_a : plan a with
    | none =>
      rw [plan_a] at planned
      exact nomatch planned
    | some attr =>
      rw [plan_a] at planned
      obtain ⟨h, height, same⟩ := planned
      exact .inr ⟨attr, rfl, h, height, Option.some.inj same⟩
  · rw [boots.others u other] at mapped
    exact .inl mapped

/-- Booting one more VM keeps what boot establishes. -/
theorem Machine.Boots.confined {v : VmId} {info : PlatformInfo} {start size : U64}
    (boots : m.Boots v (initPlan info start size) m') (confined : m.ledger.Confined) : m'.ledger.Confined where
  small u a leaf mapped := by
    rcases boots.backward mapped with old | ⟨attr, -, h, height, rfl⟩
    · exact confined.small u a leaf old
    · exact height
  identity u a leaf mapped := by
    rcases boots.backward mapped with old | ⟨attr, -, h, -, rfl⟩
    · exact confined.identity u a leaf old
    · rfl
  off u a leaf mapped := by
    rcases boots.backward mapped with old | ⟨attr, planned, -⟩
    · exact confined.off u a leaf old
    · exact not_onHeap_of_bootPlan (planned ▸ Option.some_ne_none attr)
  unshared := by
    rw [show m'.ledger.records = m.ledger.records from congrArg StubSpmc.records boots.spmc]
    exact confined.unshared

theorem Machine.Bare.confined (bare : m.Bare) : m.ledger.Confined where
  small v a _ mapped := nomatch (bare.view_eq_none v a).symm.trans mapped
  identity v a _ mapped := nomatch (bare.view_eq_none v a).symm.trans mapped
  off v a _ mapped := nomatch (bare.view_eq_none v a).symm.trans mapped
  unshared := bare.unshared

/-- What holds of every state that boot can end in. -/
theorem Machine.Booted.confined (booted : m.Booted) : m.Wf ∧ m.ledger.Confined := by
  induction booted with
  | bare start => exact ⟨start.wf, start.confined⟩
  | @initMemory m m' vm vm' info start size _ addressable run ih =>
    rcases eq_or_boots_of_initMemory ih.1 addressable run with rfl | boots
    · exact ih
    · exact ⟨boots.wf, boots.confined ih.2⟩
  | other _ wf _ same ih => exact ⟨wf, same ▸ ih.2⟩

theorem Machine.Booted.initial (booted : m.Booted) : m.Initial :=
  ⟨booted.confined.1, booted.confined.2.small, booted.confined.2.identity, booted.confined.2.unshared⟩

end Boot

/-- Pages that are mapped or shared in a run were mapped at its start. -/
theorem Reach.origin {allowed : Ledger → Event → Ledger → Prop} {m₀ m : Machine} (initial : m₀.Initial)
    (reach : Reach allowed m₀ m) : m.ledger.Origin m₀.view :=
  reach.invariant (I := Ledger.Origin m₀.view) initial.wf
    ⟨fun u _ _ mapped => ⟨u, fun none => nomatch none.symm.trans mapped⟩,
      fun _ _ _ covers => absurd covers initial.not_covers⟩
    fun _ _ _ _ _ _ origin effect _ => effect.origin origin

/-- Two small guests boot, and VM 1 retrieves a page that VM 0 shared. -/
def smallRun (m : Machine) : Option (Machine × Machine × Machine) := do
  let (_, m) ← (⟨0, false⟩ : Vm).initMemory ⟨0x08000000, 0x080A0000, 1⟩ 0x48000000 0x200000 m
  let (_, m₀) ← (⟨1, false⟩ : Vm).initMemory ⟨0x08000000, 0x080A0000, 1⟩ 0x68000000 0x200000 m
  let (_, m₁) ← MemCall.share.handle (m₀.activate 0)
    { x0 := ffaMemShare32, x3 := 0x48000000, x4 := 1, x5 := 2 } fun _ => 0
  let (_, m₂) ← MemCall.retrieveReq.handle (m₁.activate 1) { x0 := ffaMemRetrieveReq32, x1 := 1 } fun _ => 0
  return (m₀, m₁, m₂)

theorem smallRun_reach {m m₀ m₁ m₂ : Machine} (bare : m.Bare) (run : smallRun m = some (m₀, m₁, m₂))
    (booted : m₀.perVmVttbr 0 ≠ 0 ∧ m₁.perVmVttbr 1 ≠ 0) : m₀.Booted ∧ Reach anyStep m₀ m₂ := by
  obtain ⟨⟨_, _⟩, boot0, run⟩ := Option.bind_eq_some_iff.mp run
  obtain ⟨⟨_, _⟩, boot1, run⟩ := Option.bind_eq_some_iff.mp run
  obtain ⟨⟨_, _⟩, share, run⟩ := Option.bind_eq_some_iff.mp run
  obtain ⟨⟨_, _⟩, retrieve, run⟩ := Option.bind_eq_some_iff.mp run
  cases run
  refine ⟨.initMemory (.initMemory (.bare bare) (by decide) boot0) (by decide) boot1, ?_⟩
  exact (Relation.ReflTransGen.single ⟨_, .call booted.1 (by decide) share, trivial⟩).tail
    ⟨_, .call booted.2 (by decide) retrieve, trivial⟩

theorem smallRun_returns : (smallRun bareMachine).map (fun (m₀, m₁, m₂) =>
    (decide (m₀.perVmVttbr 0 ≠ 0 ∧ m₁.perVmVttbr 1 ≠ 0), m₂.view 1 0x48000)) =
      some (true, some ⟨0, ⟨0x48000000, 0x73C, 2, 3⟩⟩) := by decide +kernel

/-- Whatever a VM maps in a run was mapped by some VM after boot, is mapped at its own address, and is
neither a page of the heap nor a page table. -/
theorem no_new_reach {m₀ m : Machine} (booted : m₀.Booted) (reach : Reach anyStep m₀ m) {v : VmId} {a : ℕ}
    {leaf : Leaf} (mapped : m.view v a = some leaf) :
    (∃ w b old, m₀.view w b = some old ∧ old.translation.output = leaf.translation.output) ∧
      leaf.translation.output = pageAddr a ∧
      ¬HeapPage leaf.translation.output ∧ ¬m.TablePage leaf.translation.output := by
  have initial := booted.initial
  have output := (reach.identity initial).2 v a leaf mapped
  obtain ⟨w, before⟩ := (reach.origin initial).mapped v a leaf mapped
  obtain ⟨old, known⟩ := Option.ne_none_iff_exists'.mp before
  have off : ¬HeapPage leaf.translation.output := by
    rw [output]
    intro heap
    exact booted.confined.2.off w a old known (onHeap_of_heapPage (lt_of_view mapped) heap)
  refine ⟨⟨w, a, old, known, ?_⟩, output, off, fun table => off ((reach.wf initial.wf).heapPage table)⟩
  exact (initial.identity w a old known).trans output.symm

theorem no_new_reach_smallRun : ∃ m₀ m : Machine, m₀.Booted ∧ Reach anyStep m₀ m ∧
    ∃ leaf, m.view 1 0x48000 = some leaf ∧ leaf.translation.output = pageAddr 0x48000 ∧
      ∃ w b old, m₀.view w b = some old ∧ old.translation.output = leaf.translation.output := by
  obtain ⟨⟨m₀, m₁, m₂⟩, run, ends⟩ := Option.map_eq_some_iff.mp smallRun_returns
  obtain ⟨served, mapped⟩ := Prod.mk.inj ends
  obtain ⟨booted, reach⟩ := smallRun_reach bareMachine_bare run (of_decide_eq_true served)
  obtain ⟨origin, output, -⟩ := no_new_reach booted reach mapped
  exact ⟨m₀, m₂, booted, reach, _, mapped, output, origin⟩

end Hypervisor
