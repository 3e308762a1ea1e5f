import Hypervisor.Proofs.Mapper

/-! # What the mapper builds

A plan says which pages are mapped to themselves, and with which attribute. `Builds` says that the
tables of the mapper follow a plan. Mapping a region, mapping a page and unmapping a page change the
plan at their pages, whatever was there before.
-/

namespace Hypervisor

open Radix

/-- A region of the first 512GB in whole 2MB blocks. -/
structure InBlocks (start size : U64) : Prop where
  aligned : start.toNat % 2 ^ 21 = 0
  whole : size.toNat % 2 ^ 21 = 0
  bound : start.toNat + size.toNat ≤ 2 ^ 39

/-- Which pages are mapped, and how. -/
abbrev Plan := ℕ → Option MemoryAttribute

/-- `count` pages from `first` on get an attribute. -/
def Plan.fill (plan : Plan) (first count : ℕ) (attr : MemoryAttribute) : Plan :=
  fun a => if first ≤ a ∧ a < first + count then some attr else plan a

/-- The pages are not mapped any more. -/
def Plan.without (plan : Plan) (pages : List ℕ) : Plan := fun a => if a ∈ pages then none else plan a

/-- The leaf of page `a` is as planned, a page or a 2MB block. -/
def Planned (attr : Option MemoryAttribute) (a : ℕ) (leaf : Option Leaf) : Prop :=
  match attr with
  | none => leaf = none
  | some attr => ∃ h ≤ 1, leaf = some ⟨h, mappedAs attr a⟩

/-- The mapper builds tables of VM `v` after a plan; other VMs see `W`. -/
structure Builds (root : VmId → U64) (v : VmId) (W : View) (mapper : DynamicIdentityMapper) (s : Phys)
    (plan : Plan) (room : ℕ) : Prop where
  tables : ∃ role, Tables root s role room
  booted : root v ≠ 0
  l0 : root v = mapper.l0Table
  l1 : nextTable (s.mem ⟨mapper.l0Table, 0⟩) = some mapper.l1Table
  links : ∀ i < 512, s.mem ⟨mapper.l1Table, i⟩ = 0 ∨
    ∃ t, HeapPage t ∧ s.mem ⟨mapper.l1Table, i⟩ = tableDesc t
  pages : ∀ a, Planned (plan a) a (view root s.mem v a)
  others : ∀ u, u ≠ v → view root s.mem u = W u

/-- Page `a` has an L3 table or is in a block that can be split, and `spare` pages are left after that. -/
def Ready (root : VmId → U64) (v : VmId) (s : Phys) (plan : Plan) (room spare a : ℕ) : Prop :=
  HasL3 root v s a ∧ spare ≤ room ∨ (∃ b, b / 512 = a / 512 ∧ plan b ≠ none) ∧ spare < room

section Planned

variable {attr : Option MemoryAttribute} {a : ℕ} {leaf leaf' : Option Leaf}

theorem Planned.eq_none_iff (planned : Planned attr a leaf) : leaf = none ↔ attr = none := by
  cases attr with
  | none => exact ⟨fun _ => rfl, fun _ => planned⟩
  | some attr =>
    obtain ⟨h, -, rfl⟩ := planned
    simp

theorem Planned.height_le {leaf : Leaf} (planned : Planned attr a (some leaf)) : leaf.height ≤ 1 := by
  cases attr with
  | none => cases planned
  | some attr =>
    obtain ⟨h, le, same⟩ := planned
    rwa [Option.some.inj same]

/-- A planned page stays as planned when its block is split. -/
theorem Planned.finer (planned : Planned attr a leaf) (finer : Finer leaf leaf') : Planned attr a leaf' := by
  rcases finer with rfl | rfl
  · exact planned
  · cases attr with
    | none =>
      rw [planned.eq_none_iff.mpr rfl]
      rfl
    | some attr =>
      obtain ⟨h, le, rfl⟩ := planned
      refine ⟨if h = 1 then 0 else h, ?_, rfl⟩
      split_ifs <;> omega

end Planned

section Building

variable {root : VmId → U64} {v : VmId} {W : View} {mapper mapper' : DynamicIdentityMapper} {s s' : Phys}
  {plan plan' : Plan} {room room' : ℕ}

theorem Builds.drives (builds : Builds root v W mapper s plan room) : Drives root v mapper s room :=
  ⟨builds.tables, builds.booted, builds.l0, builds.l1, builds.links⟩

/-- An operation of the mapper that follows the new plan. -/
theorem Builds.next (builds : Builds root v W mapper s plan room) (drives : Drives root v mapper' s' room')
    (others : ∀ u, u ≠ v → view root s'.mem u = view root s.mem u)
    (pages : ∀ a, Planned (plan' a) a (view root s'.mem v a)) : Builds root v W mapper' s' plan' room' :=
  ⟨drives.tables, drives.booted, drives.l0, drives.l1, drives.links, pages,
    fun u other => (others u other).trans (builds.others u other)⟩

/-- `map_region` on a region in whole blocks. -/
theorem Builds.mapRegion (builds : Builds root v W mapper s plan room) (spare : ℕ) {ipa size : U64}
    (attr : MemoryAttribute) (blocks : InBlocks ipa size) :
    ∃ result mapper' s' room', mapper.mapRegion ipa size attr s = some (result, mapper', s') ∧
      (result = .ok () →
        Builds root v W mapper' s' (plan.fill (ipa.toNat / 4096) (size.toNat / 4096) attr) room') ∧
      (Fits mapper s room spare → ipa.toNat + size.toNat ≤ 2 ^ 32 → result = .ok () ∧ Fits mapper' s' room' spare) := by
  obtain ⟨aligned, whole, bound⟩ := blocks
  have count : blocksOf size = size.toNat / 2 ^ 21 := by
    rw [blocksOf]
    omega
  have mapped := builds.drives.mapRegion spare ipa size attr
  rw [count] at mapped
  rcases mapped with ⟨-, far⟩ | ⟨result, mapper', s', room', run, drives, high, exact', enough⟩
  · omega
  · refine ⟨result, mapper', s', room', run, fun ok => ?_, fun fits low => enough fits (by omega)⟩
    refine builds.next drives (fun u other => funext fun b => high u b fun same => absurd same other) fun a => ?_
    rw [exact' (by omega) ok a, Plan.fill]
    by_cases inside : ipa.toNat / 4096 ≤ a ∧ a < ipa.toNat / 4096 + size.toNat / 4096
    · rw [if_pos inside, if_pos (by omega)]
      exact ⟨1, le_rfl, rfl⟩
    · rw [if_neg inside, if_neg (by omega)]
      exact builds.pages a

/-- `map_4kb_page` in the first 512GB. -/
theorem Builds.map4kbPage (builds : Builds root v W mapper s plan room) {ipa : U64} (attr : MemoryAttribute)
    (bound : ipa.toNat < 2 ^ 39) :
    ∃ result mapper' s' room', mapper.map4kbPage ipa attr s = some (result, mapper', s') ∧
      (result = .ok () → Builds root v W mapper' s' (plan.fill (ipa.toNat / 4096) 1 attr) room') := by
  obtain ⟨result, mapper', s', room', run, drives, others, pages, here, -⟩ := builds.drives.map4kbPage ipa attr
  rw [unmapTarget_of_lt bound] at pages here
  refine ⟨result, mapper', s', room', run, fun ok => builds.next drives others fun a => ?_⟩
  rw [Plan.fill]
  by_cases target : a = ipa.toNat / 4096
  · subst target
    rw [if_pos (by omega), here ok, translate_makePageEntry attr (by omega) rfl]
    exact ⟨0, Nat.zero_le 1, rfl⟩
  · rw [if_neg (by omega)]
    exact (builds.pages a).finer (pages a fun _ => target)

/-- `unmap_4kb_page` removes one page. -/
theorem Builds.unmap4kbPage (builds : Builds root v W mapper s plan room) (spare : ℕ) (ipa : U64) :
    ∃ result s' room', mapper.unmap4kbPage ipa s = some (result, s') ∧
      (result = .ok () → Builds root v W mapper s' (plan.without [unmapTarget ipa]) room' ∧
        HasL3 root v s' (unmapTarget ipa)) ∧
      (Ready root v s plan room spare (unmapTarget ipa) → result = .ok () ∧ spare ≤ room') := by
  obtain ⟨result, s', room', run, drives, others, pages, gone, enough⟩ := builds.drives.unmap4kbPage spare ipa
  refine ⟨result, s', room', run, fun ok => ⟨builds.next drives others fun a => ?_, (gone ok).2⟩, fun ready => ?_⟩
  · rw [Plan.without]
    by_cases target : a = unmapTarget ipa
    · rw [if_pos (List.mem_singleton.mpr target), target]
      exact (gone ok).1
    · rw [if_neg fun member => target (List.mem_singleton.mp member)]
      exact (builds.pages a).finer (pages a fun _ => target)
  · refine enough (ready.imp_right fun planned => ⟨?_, planned.2⟩)
    obtain ⟨⟨b, same, planned⟩, -⟩ := planned
    exact ⟨b, same, (builds.pages b).eq_none_iff.not.mpr planned⟩

/-- A new mapper maps nothing. It takes two pages and panics if there are not as many. -/
theorem Builds.new {role : U64 → Option (Role VmId)} (tables : Tables root s role room) (v : VmId) :
    room < 2 ∧ DynamicIdentityMapper.new s = none ∨
      ∃ n mapper s', room = n + 2 ∧ DynamicIdentityMapper.new s = some (mapper, s') ∧ HeapPage mapper.l0Table ∧
        mapper.l2Count = 0 ∧
        Builds (Function.update root v mapper.l0Table) v (view root s.mem) mapper s' (fun _ => none) n := by
  rcases Phys.allocPage_cases tables.heap with ⟨empty, refused⟩ | ⟨n₁, l0, s₁, left₁, taken₁⟩
  · exact .inl ⟨by omega, bind_of_eq_some _ refused⟩
  rcases Phys.allocPage_cases (taken₁.heap _ fun q used => used) with ⟨empty, refused⟩ | ⟨n, l1, s₂, left₂, taken₂⟩
  · refine .inl ⟨by omega, ?_⟩
    rw [DynamicIdentityMapper.new, bind_of_eq_some _ taken₁.result]
    exact bind_of_eq_some _ refused
  obtain ⟨distinct, fresh₁⟩ := not_or.mp taken₂.unused
  have apart : l0 ≠ l1 := Ne.symm distinct
  have desc : l1 ||| (pteValid ||| pteTable) = tableDesc l1 := (BitVec.or_assoc ..).symm
  have frame : ∀ slot : PtePtr, slot.table ≠ l0 → slot.table ≠ l1 →
      Function.update (zeroPage (zeroPage s₂.mem l0) l1) ⟨l0, 0⟩ (tableDesc l1) slot = s.mem slot := by
    intro slot notL0 notL1
    rw [Function.update_of_ne fun same => notL0 (congrArg Slot.table same), ← taken₁.frame slot notL0,
      ← taken₂.frame slot notL1]
    exact (if_neg fun hit => notL1 hit.1).trans (if_neg fun hit => notL0 hit.1)
  have link : Function.update (zeroPage (zeroPage s₂.mem l0) l1) ⟨l0, 0⟩ (tableDesc l1) ⟨l0, 0⟩ = tableDesc l1 :=
    Function.update_self ..
  have zeros₀ : ∀ i < 512, i ≠ 0 →
      Function.update (zeroPage (zeroPage s₂.mem l0) l1) ⟨l0, 0⟩ (tableDesc l1) ⟨l0, i⟩ = 0 := by
    intro i index other
    rw [Function.update_of_ne fun same => other (congrArg Slot.index same)]
    exact (if_neg fun hit => apart hit.1).trans (if_pos ⟨rfl, index⟩)
  have zeros₁ : ∀ i < 512,
      Function.update (zeroPage (zeroPage s₂.mem l0) l1) ⟨l0, 0⟩ (tableDesc l1) ⟨l1, i⟩ = 0 := by
    intro i index
    rw [Function.update_of_ne fun same => distinct (congrArg Slot.table same)]
    exact if_pos ⟨rfl, index⟩
  have heap : HeapSound s₂.heap (Function.update (zeroPage (zeroPage s₂.mem l0) l1) ⟨l0, 0⟩ (tableDesc l1))
      (fun q => q = l1 ∨ q = l0 ∨ role q ≠ none) n := by
    refine (taken₂.heap _ fun q used => used).frame fun q unused => ?_
    obtain ⟨notL1, rest⟩ := not_or.mp unused
    obtain ⟨notL0, -⟩ := not_or.mp rest
    rw [Function.update_of_ne fun same => notL0 (congrArg Slot.table same)]
    exact (if_neg fun hit => notL1 hit.1).trans (if_neg fun hit => notL0 hit.1)
  obtain ⟨tables', others, empty⟩ := tables.newRoot
    (({ s₂ with mem := zeroPage (zeroPage s₂.mem l0) l1 } : Phys).write ⟨l0, 0⟩ (tableDesc l1)) v taken₁.heapPage
    taken₂.heapPage (not_not.mp taken₁.unused) (not_not.mp fresh₁) apart frame link zeros₀ zeros₁ heap
  refine .inr ⟨n, ⟨l0, l1, 0⟩, _, by omega, ?_, taken₁.heapPage, rfl, tables', ?_, ?_, ?_, ?_, empty, others⟩
  · rw [DynamicIdentityMapper.new, bind_of_eq_some _ taken₁.result]
    refine (bind_of_eq_some _ taken₂.result).trans ?_
    rw [← desc]
    rfl
  · rw [Function.update_self]
    exact taken₁.heapPage.ne_zero
  · exact Function.update_self ..
  · rw [Phys.write_mem, link, nextTable_tableDesc taken₂.heapPage.table]
  · intro i index
    rw [Phys.write_mem]
    exact .inl (zeros₁ i index)

end Building

end Hypervisor
