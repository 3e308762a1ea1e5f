import Hypervisor.Proofs.Tables

/-! # Address spaces without tables

The abstract state behind the walker: which leaf maps each page of each VM, how many pages the
heap has left, and how many requests it has refused. `Space.edit`, `Space.map` and `Space.unmap`
are what the walker's operations are for; `Refines` connects a space to the tables that hold it.
-/

namespace Hypervisor

open Radix

/-- The leaf a page has after its 2MB block was split. -/
def Leaf.toPage (leaf : Leaf) : Leaf :=
  { leaf with height := if leaf.height = 1 then 0 else leaf.height }

/-- Change the translation of a leaf. -/
def Leaf.retype (change : Translation → Translation) (leaf : Leaf) : Leaf :=
  { leaf with translation := change leaf.translation }

/-- The leaf of every page of every VM. -/
abbrev View := VmId → ℕ → Option Leaf

structure Space where
  view : View
  room : ℕ
  refused : ℕ

namespace Space

/-- Replace the 2MB block of page `a` by pages, at the cost of one table. -/
def split (space : Space) (v : VmId) (a : ℕ) : Space :=
  { space with
    view := fun u b =>
      if u = v ∧ b / 512 = a / 512 then (space.view u b).map Leaf.toPage else space.view u b
    room := space.room - 1 }

/-- Change the leaf at height `k` that maps page `a`. -/
def retype (space : Space) (v : VmId) (k a : ℕ) (change : Translation → Translation) : Space :=
  { space with
    view := fun u b =>
      if u = v ∧ b / 512 ^ k = a / 512 ^ k then (space.view u b).map (Leaf.retype change)
      else space.view u b }

/-- Change the translation of page `a`, splitting its 2MB block if a table can be had. -/
def edit (space : Space) (v : VmId) (a : ℕ) (change : Translation → Translation) : Space :=
  match space.view v a with
  | none => space
  | some leaf =>
      if leaf.height = 1 then
        if space.room = 0 then { space with refused := space.refused + 1 }
        else (space.split v a).retype v 0 a change
      else space.retype v leaf.height a change

/-- Map page `a` as a 4KB page. -/
def map (space : Space) (v : VmId) (a : ℕ) (tr : Translation) : Space :=
  { space with view := fun u b => if u = v ∧ b = a then some ⟨0, tr⟩ else space.view u b }

/-- Remove page `a`, if it is mapped as a 4KB page. -/
def unmap (space : Space) (v : VmId) (a : ℕ) : Space :=
  { space with
    view := fun u b =>
      if u = v ∧ b = a then (space.view u b).filter (fun leaf => leaf.height ≠ 0) else space.view u b }

theorem unmap_of_not_page {space : Space} {v : VmId} {a : ℕ}
    (high : ∀ leaf, space.view v a = some leaf → leaf.height ≠ 0) : space.unmap v a = space := by
  obtain ⟨view, room, refused⟩ := space
  rw [unmap, mk.injEq]
  refine ⟨?_, rfl, rfl⟩
  funext u b
  split_ifs with hit
  · obtain ⟨rfl, rfl⟩ := hit
    dsimp only at high ⊢
    cases sees : view u b with
    | none => rfl
    | some leaf =>
      have page := high leaf sees
      simp [page]
  · rfl

end Space

/-- Sound tables that map what the space says. -/
def Refines (root : VmId → U64) (s : Phys) (space : Space) : Prop :=
  (∃ role, Tables root s role space.room) ∧ view root s.mem = space.view ∧ s.refused = space.refused

section Leaves

variable {mem : PhysMem} {l0Table : U64} {a b : ℕ} {leaf : Leaf}

theorem leafAt_eq_some_iff : leafAt mem l0Table a = some leaf ↔
    (walk mem l0Table a).height < 3 ∧ (mem (walk mem l0Table a).slot).getLsbD 0 = true ∧
      leaf = ⟨(walk mem l0Table a).height,
        translate (walk mem l0Table a).height a (mem (walk mem l0Table a).slot)⟩ := by
  simp only [leafAt, entryLeaf]
  split_ifs with height valid
  · rw [Option.some.injEq]
    constructor
    · exact fun same => ⟨height, valid, same.symm⟩
    · rintro ⟨-, -, same⟩
      exact same.symm
  · simp only [reduceCtorEq, valid, false_and, and_false]
  · simp only [height, false_and]

/-- The pages of one leaf share its descriptor. -/
theorem leafAt_congr (height : (walk mem l0Table a).height < 3)
    (same : b / 512 ^ (walk mem l0Table a).height = a / 512 ^ (walk mem l0Table a).height) :
    leafAt mem l0Table b =
      entryLeaf (walk mem l0Table a).height b (mem (walk mem l0Table a).slot) := by
  have stop : walk mem l0Table b = walk mem l0Table a := descend_congr same
  rw [leafAt, stop]
  exact if_pos height

end Leaves

end Hypervisor
