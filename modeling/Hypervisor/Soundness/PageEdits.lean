import Hypervisor.Soundness.Mapping

/-! # Edits of single pages

The FF-A proxy changes the tables of a VM one page at a time. `edit_frame`: writing the SW or the S2AP
field changes that field of one 4KB page, also where a 2MB block has to be split first, and an error
changes no translation. `map_unmap_inverse`: `unmap_page` undoes `map_page`, whatever tables had to be
made on the way.
-/

namespace Hypervisor

/-- The fields of a descriptor that the walker edits. -/
inductive PageField where
  | sw
  | s2ap
deriving DecidableEq, Repr

namespace PageField

/-- `write_sw_bits` and `set_s2ap`. -/
def edit (walker : Stage2Walker) (ipa : U64) (value : U8) (s : Phys) : PageField → Option (Except String Unit × Phys)
  | sw => walker.writeSwBits ipa value s
  | s2ap => walker.setS2ap ipa value s

/-- The translation with the two low bits of a value in a field. -/
def set (value : U8) (tr : Translation) : PageField → Translation
  | sw => { tr with sw := value &&& 3 }
  | s2ap => { tr with s2ap := value &&& 3 }

/-- Both edit the leaf, after a split. -/
theorem edit_eq (walker : Stage2Walker) (ipa : U64) (value : U8) (s : Phys) (field : PageField) :
    ∃ edit, field.edit walker ipa value s = walker.editLeaf ipa edit s ∧ FieldEdit edit (field.set value ·) := by
  cases field with
  | sw =>
    refine ⟨(withSwBits · value), ?_, ?_⟩
    · rw [edit, Stage2Walker.writeSwBits]
    · simp only [set]
      exact .withSwBits value
  | s2ap =>
    refine ⟨(withS2ap · value), ?_, ?_⟩
    · rw [edit, Stage2Walker.setS2ap]
    · simp only [set]
      exact .withS2ap value

end PageField

/-- The translation of every page of every VM. -/
def translations (root : VmId → U64) (mem : PhysMem) (v : VmId) (a : ℕ) : Option Translation :=
  (view root mem v a).map Leaf.translation

section Edit

variable {root : VmId → U64} {s s' : Phys} {space : Space} {v : VmId} {ipa : U64} {result : Except String Unit}

theorem Refines.translations_eq (refines : Refines root s space) (u : VmId) (b : ℕ) :
    translations root s.mem u b = (space.view u b).map Leaf.translation := by
  rw [translations, refines.2.1]

/-- Splitting a block changes no translation, with or without an error. -/
theorem Refines.splitBlockIfNeeded (refines : Refines root s space) (booted : root v ≠ 0)
    (run : (⟨root v⟩ : Stage2Walker).splitBlockIfNeeded ipa s = some (result, s')) :
    translations root s'.mem = translations root s.mem := by
  rw [Stage2Walker.splitBlockIfNeeded_eq] at run
  split_ifs at run with block
  · obtain ⟨result₁, s₁, run₁, effect⟩ := refines.split booted block.1 block.2
    cases run₁.symm.trans run
    funext u b
    split_ifs at effect with empty
    · rw [effect.2.translations_eq, refines.translations_eq]
    · rw [effect.2.translations_eq, refines.translations_eq, Space.split]
      dsimp only
      split_ifs
      · rw [Option.map_map]
        rfl
      · rfl
  · cases run
    rfl

/-- An error changes no translation. -/
theorem Refines.editLeaf_error (refines : Refines root s space) (booted : root v ≠ 0) {edit : U64 → U64} {text : String}
    (run : (⟨root v⟩ : Stage2Walker).editLeaf ipa edit s = some (.error text, s')) :
    translations root s'.mem = translations root s.mem := by
  obtain ⟨⟨split, s₁⟩, first, run⟩ := Option.bind_eq_some_iff.mp run
  have same := refines.splitBlockIfNeeded booted first
  cases split with
  | error text =>
    cases run
    exact same
  | ok =>
    dsimp only at run
    cases leaf : (⟨root v⟩ : Stage2Walker).walkToLeafPtr s₁.mem ipa with
    | none =>
      rw [leaf] at run
      cases run
      exact same
    | some ptr =>
      rw [leaf] at run
      cases run

/-- An edit of a page that is not in a 1GB block changes the translation of that page only. -/
theorem Space.edit_translation {a : ℕ} {change : Translation → Translation} {u : VmId} {b : ℕ}
    (small : ∀ leaf, space.view v a = some leaf → leaf.height ≤ 1) (other : ¬(u = v ∧ b = a)) :
    ((space.edit v a change).view u b).map Leaf.translation = (space.view u b).map Leaf.translation := by
  cases mapped : space.view v a with
  | none => rw [Space.edit, mapped]
  | some leaf =>
    have height := small leaf mapped
    rw [Space.edit, mapped]
    dsimp only
    split_ifs with block empty
    · rfl
    · simp only [Space.retype, Space.split, pow_zero, Nat.div_one, if_neg other]
      split_ifs
      · rw [Option.map_map]
        rfl
      · rfl
    · have page : leaf.height = 0 := by omega
      simp only [Space.retype, page, pow_zero, Nat.div_one, if_neg other]

/-- An edit of one field, on tables without 1GB blocks. -/
theorem Refines.editLeaf_frame (refines : Refines root s space) (booted : root v ≠ 0) (ipa : U64)
    (small : ∀ leaf, space.view v (pageOf ipa) = some leaf → leaf.height ≤ 1) {edit : U64 → U64}
    {change : Translation → Translation} (field : FieldEdit edit change) :
    ∃ result s', (⟨root v⟩ : Stage2Walker).editLeaf ipa edit s = some (result, s') ∧
      (result = .ok () → translations root s.mem v (pageOf ipa) ≠ none ∧ ∀ u b, translations root s'.mem u b =
        if u = v ∧ b = pageOf ipa then (translations root s.mem u b).map change else translations root s.mem u b) ∧
      ∀ text, result = .error text → translations root s'.mem = translations root s.mem := by
  obtain ⟨result, s', run, refines', edited⟩ := refines.editLeaf booted ipa field
  refine ⟨result, s', run, fun ok => ?_, fun text failed => ?_⟩
  · obtain ⟨leaf, mapped, after⟩ := edited ok
    refine ⟨by simp [refines.translations_eq, mapped], fun u b => ?_⟩
    rw [refines'.translations_eq, refines.translations_eq]
    split_ifs with hit
    · obtain ⟨rfl, rfl⟩ := hit
      rw [after, mapped]
      rfl
    · exact Space.edit_translation small hit
  · subst failed
    exact refines.editLeaf_error booted run

end Edit

/-- `write_sw_bits` and `set_s2ap` on tables made of 2MB blocks and 4KB pages. They return; without an
error, the two low bits of the value are in that field of the page of `ipa` and nothing else has changed
for any page of any VM; with one, no translation has changed. -/
theorem edit_frame {root : VmId → U64} {s : Phys} {role : U64 → Option (Radix.Role VmId)} {room : ℕ} {v : VmId}
    (tables : Tables root s role room) (booted : root v ≠ 0)
    (small : ∀ a leaf, view root s.mem v a = some leaf → leaf.height ≤ 1) (field : PageField) (ipa : U64) (value : U8) :
    ∃ result s', field.edit ⟨root v⟩ ipa value s = some (result, s') ∧
      (result = .ok () → translations root s.mem v (pageOf ipa) ≠ none ∧ ∀ u b, translations root s'.mem u b =
        if u = v ∧ b = pageOf ipa then (translations root s.mem u b).map (field.set value ·)
        else translations root s.mem u b) ∧
      ∀ text, result = .error text → translations root s'.mem = translations root s.mem := by
  obtain ⟨edit, same, fieldEdit⟩ := field.edit_eq ⟨root v⟩ ipa value s
  have refines : Refines root s ⟨view root s.mem, room, s.refused⟩ := ⟨⟨role, tables⟩, rfl, rfl⟩
  rw [same]
  exact refines.editLeaf_frame booted ipa (small _) fieldEdit

/-- Tables with one 2MB block of Normal memory at 1GB. -/
theorem exists_block : ∃ root W mapper s room,
    Builds root 0 W mapper s (Plan.fill (fun _ => none) 0x40000 512 .normal) room := by
  have heap : HeapSound initialPhys.heap initialPhys.mem (fun _ => False) 4096 := heapSound_new _
  have tables : Tables (fun _ => 0) initialPhys (fun _ => none) 4096 := heap.tables fun _ => rfl
  rcases Builds.new tables 0 with ⟨few, -⟩ | ⟨n, mapper, s, left, -, -, count, builds⟩
  · omega
  have most : unlinked s.mem mapper.l1Table ≤ 4 := by
    refine (Finset.card_filter_le _ _).trans ?_
    rw [Finset.card_range]
  have block : InBlocks 0x40000000 0x200000 := ⟨by decide, by decide, by decide⟩
  obtain ⟨result, mapper', s', room, -, good, enough⟩ := builds.mapRegion 0 .normal block
  have filled := good (enough ⟨by omega, by omega⟩ (by decide)).1
  exact ⟨_, _, mapper', s', room, filled⟩

theorem edit_frame_block : ∃ (root : VmId → U64) (s : Phys),
    translations root s.mem 0 0x40001 = some (mappedAs .normal 0x40001) ∧
    ∃ result s', PageField.sw.edit ⟨root 0⟩ 0x40001000 1 s = some (result, s') ∧
      (result = .ok () → translations root s'.mem 0 0x40001 = some { mappedAs .normal 0x40001 with sw := 1 }) := by
  obtain ⟨root, W, mapper, s, room, builds⟩ := exists_block
  obtain ⟨role, tables⟩ := builds.tables
  have small : ∀ a leaf, view root s.mem 0 a = some leaf → leaf.height ≤ 1 := by
    intro a leaf mapped
    have planned := builds.pages a
    rw [mapped] at planned
    exact planned.height_le
  have page : translations root s.mem 0 0x40001 = some (mappedAs .normal 0x40001) := by
    obtain ⟨h, -, mapped⟩ := builds.pages 0x40001
    rw [translations, mapped, Option.map_some]
  obtain ⟨result, s', run, changed, -⟩ := edit_frame tables builds.booted small .sw 0x40001000 1
  refine ⟨root, s, page, result, s', run, fun ok => ?_⟩
  rw [(changed ok).2, if_pos (by decide), page]
  rfl

/-! ## Mapping and unmapping -/

section Inverse

variable {root : VmId → U64} {s s' : Phys} {space : Space} {v : VmId} {ipa : U64}

/-- `unmap_page` succeeds on 4KB pages. -/
theorem Refines.unmapPage_ok (refines : Refines root s space) (booted : root v ≠ 0) {tr : Translation}
    (mapped : space.view v (pageOf ipa) = some ⟨0, tr⟩) : ((⟨root v⟩ : Stage2Walker).unmapPage ipa s).1 = .ok () := by
  obtain ⟨-, valid, same⟩ := (refines.view_eq_some booted ipa).mp mapped
  rw [Stage2Walker.unmapPage, Stage2Walker.walkToL3Ptr_eq, if_pos ⟨(congrArg Leaf.height same).symm, valid⟩]

/-- A page that is mapped is not mapped again. -/
theorem Refines.mapPage_again (refines : Refines root s space) (booted : root v ≠ 0) (ipa : U64) (s2ap sw : U8)
    (mapped : space.view v (pageOf ipa) ≠ none) :
    ∃ text s', (⟨root v⟩ : Stage2Walker).mapPage ipa s2ap sw s = some (.error text, s') := by
  obtain ⟨result, s', space', run, -, ⟨⟨text, rfl⟩, -⟩ | ⟨-, unmapped, -⟩⟩ := refines.mapPage booted ipa s2ap sw
  · exact ⟨text, s', run⟩
  · exact absurd unmapped mapped

/-- Unmapping a page that was not mapped before gives back every leaf. -/
theorem Space.unmap_of_map {space' : Space} {a : ℕ} {tr : Translation} (unmapped : space.view v a = none)
    (mapped : space'.view = (space.map v a tr).view) : (space'.unmap v a).view = space.view := by
  funext u b
  simp only [Space.unmap, mapped, Space.map]
  split_ifs with hit
  · obtain ⟨rfl, rfl⟩ := hit
    rw [unmapped]
    rfl
  · rfl

end Inverse

/-- `map_page` returns. An error changes no leaf of any page. Without one, the page of `ipa` was not
mapped and is now, as a 4KB page, and no other page has changed; a second `map_page` fails; and
`unmap_page` succeeds and restores every leaf. Besides, `unmap_page` never changes a page in a 2MB or 1GB
block. -/
theorem map_unmap_inverse {root : VmId → U64} {s : Phys} {role : U64 → Option (Radix.Role VmId)} {room : ℕ} {v : VmId}
    (tables : Tables root s role room) (booted : root v ≠ 0) (ipa : U64) (s2ap sw : U8) :
    (∃ result s', (⟨root v⟩ : Stage2Walker).mapPage ipa s2ap sw s = some (result, s') ∧
      (∀ text, result = .error text → view root s'.mem = view root s.mem) ∧
      (result = .ok () →
        view root s.mem v (pageOf ipa) = none ∧ (∃ tr, view root s'.mem v (pageOf ipa) = some ⟨0, tr⟩) ∧
        (∀ u b, ¬(u = v ∧ b = pageOf ipa) → view root s'.mem u b = view root s.mem u b) ∧
        (∀ s2ap' sw', ∃ text s'', (⟨root v⟩ : Stage2Walker).mapPage ipa s2ap' sw' s' = some (.error text, s'')) ∧
        ∃ s'', (⟨root v⟩ : Stage2Walker).unmapPage ipa s' = (.ok (), s'') ∧ view root s''.mem = view root s.mem)) ∧
    ∀ u b leaf, view root s.mem u b = some leaf → leaf.height ≠ 0 →
      view root ((⟨root v⟩ : Stage2Walker).unmapPage ipa s).2.mem u b = some leaf := by
  have refines : Refines root s ⟨view root s.mem, room, s.refused⟩ := ⟨⟨role, tables⟩, rfl, rfl⟩
  refine ⟨?_, fun u b leaf mapped block => ?_⟩
  · obtain ⟨result, s', space', run, refines', effect⟩ := refines.mapPage booted ipa s2ap sw
    refine ⟨result, s', run, fun text failed => ?_, fun ok => ?_⟩
    · subst failed
      rcases effect with ⟨-, same⟩ | ⟨ok, -⟩
      · rw [refines'.2.1, same]
      · cases ok
    · subst ok
      rcases effect with ⟨⟨text, ok⟩, -⟩ | ⟨-, unmapped, mapped⟩
      · cases ok
      have here : space'.view v (pageOf ipa) = some ⟨0, borrowed ipa s2ap sw⟩ := by
        rw [mapped]
        exact if_pos ⟨rfl, rfl⟩
      refine ⟨unmapped, ⟨_, by rw [refines'.2.1, here]⟩, fun u b other => ?_, fun s2ap' sw' => ?_, ?_⟩
      · rw [refines'.2.1, mapped]
        exact if_neg other
      · exact refines'.mapPage_again booted ipa s2ap' sw' (by simp [here])
      · have ok := refines'.unmapPage_ok booted here
        refine ⟨_, Prod.ext ok rfl, ?_⟩
        rw [(refines'.unmapPage booted ipa).2.1]
        exact Space.unmap_of_map unmapped mapped
  · rw [(refines.unmapPage booted ipa).2.1, Space.unmap]
    dsimp only
    rw [mapped]
    split_ifs
    · simp [block]
    · rfl

theorem map_unmap_inverse_block : ∃ (root : VmId → U64) (s : Phys) (leaf : Leaf),
    view root s.mem 0 0x40001 = some leaf ∧ ∃ result s',
      (⟨root 0⟩ : Stage2Walker).mapPage 0x40200000 3 2 s = some (result, s') ∧
      (result = .ok () → ∃ s'', (⟨root 0⟩ : Stage2Walker).unmapPage 0x40200000 s' = (.ok (), s'') ∧
        view root s''.mem 0 0x40001 = some leaf) := by
  obtain ⟨root, W, mapper, s, room, builds⟩ := exists_block
  obtain ⟨role, tables⟩ := builds.tables
  obtain ⟨h, -, mapped⟩ := builds.pages 0x40001
  obtain ⟨⟨result, s', run, -, good⟩, -⟩ := map_unmap_inverse tables builds.booted 0x40200000 3 2
  refine ⟨root, s, _, mapped, result, s', run, fun ok => ?_⟩
  obtain ⟨-, -, -, -, s'', undone, same⟩ := good ok
  exact ⟨s'', undone, by rw [same, mapped]⟩

end Hypervisor
