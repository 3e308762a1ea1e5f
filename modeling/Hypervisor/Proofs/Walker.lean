import Hypervisor.Proofs.Space

/-! # The walker refines the address spaces

Each walk of the source is the radix walk of `pageOf ipa`, stopped at a different condition. With
that, `write_sw_bits` and `set_s2ap` refine `Space.edit`, `unmap_page` refines `Space.unmap`, and
`map_page` either refines `Space.map` or leaves every view as it was.
-/

namespace Hypervisor

open Radix

/-- The radix walk in the words of the source. -/
theorem walk_eq (mem : PhysMem) (l0Table : U64) (a : ℕ) : walk mem l0Table a =
    let l0Entry := mem ⟨l0Table, digit 512 3 a⟩
    let l1Entry := mem ⟨l0Entry &&& pteAddrMask, digit 512 2 a⟩
    let l2Entry := mem ⟨l1Entry &&& pteAddrMask, digit 512 1 a⟩
    if isTable l0Entry then
      if isTable l1Entry then
        if isTable l2Entry then ⟨0, l2Entry &&& pteAddrMask, digit 512 0 a⟩
        else ⟨1, l1Entry &&& pteAddrMask, digit 512 1 a⟩
      else ⟨2, l0Entry &&& pteAddrMask, digit 512 2 a⟩
    else ⟨3, l0Table, digit 512 3 a⟩ := by
  simp only [walk, descend, nextTable]
  split_ifs with l0 l1 l2
  · simp only [l1, l2, if_true]
  · simp only [l1, l2, if_true]
    rfl
  · simp only [l1]
    rfl
  · rfl

namespace Stage2Walker

variable (walker : Stage2Walker) (mem : PhysMem) (ipa : U64)

theorem walkToLeafPtr_eq : walker.walkToLeafPtr mem ipa =
    if (walk mem walker.l0Table (pageOf ipa)).height < 3 ∧
        (mem (walk mem walker.l0Table (pageOf ipa)).slot).getLsbD 0 = true then
      some (walk mem walker.l0Table (pageOf ipa)).slot
    else none := by
  simp only [walkToLeafPtr, walk_eq, l0Idx_eq, l1Idx_eq, l2Idx_eq, l3Idx_eq,
    and_pteValid_eq_zero, and_pteTable_eq_zero, isTable_eq]
  grind

theorem walkToL3Ptr_eq : walker.walkToL3Ptr mem ipa =
    if (walk mem walker.l0Table (pageOf ipa)).height = 0 ∧
        (mem (walk mem walker.l0Table (pageOf ipa)).slot).getLsbD 0 = true then
      some (walk mem walker.l0Table (pageOf ipa)).slot
    else none := by
  simp only [walkToL3Ptr, walk_eq, l0Idx_eq, l1Idx_eq, l2Idx_eq, l3Idx_eq,
    and_pteValid_eq_zero, isTable_eq]
  grind

theorem splitBlockIfNeeded_eq (s : Phys) : walker.splitBlockIfNeeded ipa s =
    if (walk s.mem walker.l0Table (pageOf ipa)).height = 1 ∧
        (s.mem (walk s.mem walker.l0Table (pageOf ipa)).slot).getLsbD 0 = true then
      split2mbBlockAtL2 (walk s.mem walker.l0Table (pageOf ipa)).slot
        (s.mem (walk s.mem walker.l0Table (pageOf ipa)).slot) s
    else some (.ok (), s) := by
  simp only [splitBlockIfNeeded, walk_eq, l0Idx_eq, l1Idx_eq, l2Idx_eq, ne_eq,
    and_pteValid_eq_zero, and_pteTable_eq_zero, isTable_eq]
  grind

end Stage2Walker

section Grow

variable {root : VmId → U64} {s s₁ : Phys} {role : U64 → Option (Role VmId)} {room : ℕ}
  {v : VmId} {a k : ℕ} {t p : U64} {new : ℕ → U64}

theorem fillPage_of_ne {mem : PhysMem} {slot : PtePtr} (other : slot.table ≠ p) :
    fillPage mem p new slot = mem slot := if_neg fun same => other same.1

theorem fillPage_zeroPage (mem : PhysMem) : fillPage (zeroPage mem p) p new = fillPage mem p new := by
  funext slot
  simp only [fillPage, zeroPage]
  split_ifs <;> rfl

theorem Phys.write_write (ptr : PtePtr) (x y : U64) : (s.write ptr x).write ptr y = s.write ptr y := by
  simp only [Phys.write, Function.update_idem]

/-- A page from the heap, filled with leaves, becomes the table under a slot. -/
theorem Tables.grow (tables : Tables root s role room) (new : ℕ → U64) (booted : root v ≠ 0)
    (bound : a < 2 ^ 36) (low : k < 2) (reach : tableAt nextTable 512 s.mem (k + 1) 3 (root v) a = some t)
    (leaf : k = 0 ∨ ∀ i < 512, new i = 0) {n : ℕ}
    (taken : s.Allocated (fun q => role q ≠ none) n p s₁) :
    (∃ role', Tables root
      (({ s₁ with mem := fillPage s₁.mem p new } : Phys).write ⟨t, digit 512 (k + 1) a⟩ (tableDesc p))
        role' n) ∧
      walk (Function.update (fillPage s₁.mem p new) ⟨t, digit 512 (k + 1) a⟩ (tableDesc p)) (root v) a =
        ⟨k, p, digit 512 k a⟩ ∧
      ∀ u b, view root (Function.update (fillPage s₁.mem p new) ⟨t, digit 512 (k + 1) a⟩ (tableDesc p)) u b =
        if u = v ∧ b / 512 ^ (k + 1) = a / 512 ^ (k + 1) then entryLeaf k b (new (digit 512 k b))
        else view root s.mem u b := by
  have fresh : role p = none := not_not.mp taken.unused
  have here := tables.layout.tableAt_role (by decide) (tables.start booted bound) reach
  have apart : t ≠ p := by
    rintro rfl
    rw [here] at fresh
    contradiction
  refine tables.attach (({ s₁ with mem := fillPage s₁.mem p new } : Phys).write
    ⟨t, digit 512 (k + 1) a⟩ (tableDesc p)) booted bound low reach fresh taken.heapPage ?_ ?_ ?_ leaf ?_
  · intro slot otherSlot otherPage
    rw [Phys.write_mem, Function.update_of_ne otherSlot]
    exact (fillPage_of_ne otherPage).trans (taken.frame slot otherPage)
  · rw [Phys.write_mem, Function.update_self]
  · intro i index
    rw [Phys.write_mem, Function.update_of_ne]
    · exact if_pos ⟨rfl, index⟩
    · intro same
      exact apart (Slot.mk.inj same).1.symm
  · refine (taken.heap _ fun q inUse => inUse).frame fun q free => ?_
    obtain ⟨otherPage, unused⟩ := not_or.mp free
    rw [Phys.write_mem, Function.update_of_ne]
    · exact fillPage_of_ne otherPage
    · intro same
      rw [(Slot.mk.inj same).1, here] at unused
      exact unused (by simp)

end Grow

section Refinement

variable {root : VmId → U64} {s : Phys} {space : Space} {v : VmId} {ipa : U64}

theorem view_booted {mem : PhysMem} (booted : root v ≠ 0) :
    view root mem v (pageOf ipa) = leafAt mem (root v) (pageOf ipa) :=
  if_pos ⟨booted, pageOf_lt ipa⟩

/-- A view as a condition on the walk of the source. -/
theorem Refines.view_eq_some (refines : Refines root s space) (booted : root v ≠ 0) (ipa : U64)
    {leaf : Leaf} :
    space.view v (pageOf ipa) = some leaf ↔
      (walk s.mem (root v) (pageOf ipa)).height < 3 ∧
      (s.mem (walk s.mem (root v) (pageOf ipa)).slot).getLsbD 0 = true ∧
      leaf = ⟨(walk s.mem (root v) (pageOf ipa)).height, translate (walk s.mem (root v) (pageOf ipa)).height
        (pageOf ipa) (s.mem (walk s.mem (root v) (pageOf ipa)).slot)⟩ := by
  rw [← refines.2.1, view_booted booted, leafAt_eq_some_iff]

/-- `walk_to_leaf` returns the descriptor of the leaf that maps an address. -/
theorem map_walkToLeaf {mem : PhysMem} (booted : root v ≠ 0) (ipa : U64) {α : Type} (field : U64 → α)
    (read : Leaf → α) (same : ∀ k entry, read ⟨k, translate k (pageOf ipa) entry⟩ = field entry) :
    ((⟨root v⟩ : Stage2Walker).walkToLeaf mem ipa).map field = (view root mem v (pageOf ipa)).map read := by
  rw [Stage2Walker.walkToLeaf, Stage2Walker.walkToLeafPtr_eq, view_booted booted, leafAt, entryLeaf]
  dsimp only
  split_ifs with leaf height valid height valid
  · exact congrArg some (same _ _).symm
  · exact absurd leaf.2 valid
  · exact absurd leaf.1 height
  · exact absurd ⟨height, valid⟩ leaf
  · rfl
  · rfl

theorem readSwBits_eq {mem : PhysMem} (booted : root v ≠ 0) (ipa : U64) :
    (⟨root v⟩ : Stage2Walker).readSwBits mem ipa = (view root mem v (pageOf ipa)).map (·.translation.sw) :=
  map_walkToLeaf booted ipa _ _ fun _ _ => rfl

theorem readS2ap_eq {mem : PhysMem} (booted : root v ≠ 0) (ipa : U64) :
    (⟨root v⟩ : Stage2Walker).readS2ap mem ipa = (view root mem v (pageOf ipa)).map (·.translation.s2ap) :=
  map_walkToLeaf booted ipa _ _ fun _ _ => rfl

/-- The pages of a leaf, seen through the space. -/
theorem Refines.view_same (refines : Refines root s space) (booted : root v ≠ 0) (ipa : U64)
    (height : (walk s.mem (root v) (pageOf ipa)).height < 3) {b : ℕ}
    (same : b / 512 ^ (walk s.mem (root v) (pageOf ipa)).height =
      pageOf ipa / 512 ^ (walk s.mem (root v) (pageOf ipa)).height) :
    space.view v b = entryLeaf (walk s.mem (root v) (pageOf ipa)).height b
      (s.mem (walk s.mem (root v) (pageOf ipa)).slot) := by
  rw [← refines.2.1, view, if_pos ⟨booted, page_lt_of_same height (pageOf_lt ipa) same⟩,
    leafAt_congr height same]

/-- A change of one field of a leaf descriptor, as a change of the translation. -/
structure FieldEdit (edit : U64 → U64) (change : Translation → Translation) : Prop where
  valid : ∀ e, (edit e).getLsbD 0 = e.getLsbD 0
  table : ∀ e, (edit e).getLsbD 1 = e.getLsbD 1
  block : ∀ e, edit e &&& BitVec.mask 12 9 = e &&& BitVec.mask 12 9
  translate : ∀ h a e, h ≤ 2 → translate h a (edit e) = change (translate h a e)

theorem FieldEdit.withSwBits (bits : U8) :
    FieldEdit (withSwBits · bits) fun tr => { tr with sw := bits &&& 3 } where
  valid e := by rw [getLsbD_withSwBits]; rfl
  table e := by rw [getLsbD_withSwBits]; rfl
  block e := by
    apply BitVec.eq_of_getLsbD_eq
    intro i _
    simp only [BitVec.getLsbD_and, BitVec.getLsbD_mask, getLsbD_withSwBits]
    grind
  translate h a e height := translate_withSwBits a e height bits

theorem FieldEdit.withS2ap (s2ap : U8) :
    FieldEdit (withS2ap · s2ap) fun tr => { tr with s2ap := s2ap &&& 3 } where
  valid e := by rw [getLsbD_withS2ap]; rfl
  table e := by rw [getLsbD_withS2ap]; rfl
  block e := by
    apply BitVec.eq_of_getLsbD_eq
    intro i _
    simp only [BitVec.getLsbD_and, BitVec.getLsbD_mask, getLsbD_withS2ap]
    grind
  translate h a e height := translate_withS2ap a e height s2ap

/-- Storing an edited leaf changes the translation of the pages it maps. -/
theorem Refines.retype (refines : Refines root s space) (booted : root v ≠ 0)
    (height : (walk s.mem (root v) (pageOf ipa)).height < 3)
    {edit : U64 → U64} {change : Translation → Translation} (field : FieldEdit edit change) :
    Refines root
      (s.write (walk s.mem (root v) (pageOf ipa)).slot
        (edit (s.mem (walk s.mem (root v) (pageOf ipa)).slot)))
      (space.retype v (walk s.mem (root v) (pageOf ipa)).height (pageOf ipa) change) := by
  have pages := fun b => refines.view_same (b := b) booted ipa height
  obtain ⟨⟨role, tables⟩, sees, count⟩ := refines
  obtain ⟨reach, index, stops⟩ :=
    tableAt_of_descend (rfl : walk s.mem (root v) (pageOf ipa) = walk s.mem (root v) (pageOf ipa))
  generalize walk s.mem (root v) (pageOf ipa) = stop at *
  obtain ⟨k, t, i⟩ := stop
  dsimp only at reach index stops height pages ⊢
  subst index
  have leaf : k = 0 ∨ nextTable (edit (s.mem ⟨t, digit 512 k (pageOf ipa)⟩)) = none := by
    rw [nextTable_eq_none, field.valid, field.table, ← nextTable_eq_none]
    exact stops
  have blocked : k = 1 → (edit (s.mem ⟨t, digit 512 k (pageOf ipa)⟩)).getLsbD 0 = true →
      edit (s.mem ⟨t, digit 512 k (pageOf ipa)⟩) &&& BitVec.mask 12 9 = 0 := by
    rintro rfl valid
    rw [field.valid] at valid
    rw [field.block]
    have served := tables.layout.tableAt_role (by decide) (tables.start booted (pageOf_lt ipa)) reach
    have bits := (nextTable_eq_none _).mp (stops.resolve_left (by decide))
    exact tables.blocks served (digit_lt (by decide) 1 _) valid (bits.resolve_left (by simp [valid]))
  obtain ⟨tables', sees'⟩ := tables.store booted (pageOf_lt ipa) height reach leaf blocked
  refine ⟨⟨role, tables'⟩, ?_, count⟩
  funext u b
  rw [sees' u b, Space.retype]
  by_cases hit : u = v ∧ b / 512 ^ k = pageOf ipa / 512 ^ k
  · obtain ⟨rfl, same⟩ := hit
    rw [if_pos ⟨rfl, same⟩]
    simp only [same, and_self, if_true, pages b same, entryLeaf, field.valid]
    split_ifs with valid
    · rw [field.translate k b _ (by omega)]
      rfl
    · rfl
  · rw [if_neg hit, sees]
    exact (if_neg hit).symm

/-- Refusing a page changes nothing but the count. -/
theorem Refines.refuse (refines : Refines root s space) :
    Refines root { s with refused := s.refused + 1 } { space with refused := space.refused + 1 } := by
  obtain ⟨⟨role, tables⟩, sees, count⟩ := refines
  exact ⟨⟨role, tables.layout, tables.page, tables.blocks, tables.heap, tables.roots⟩, sees,
    congrArg (· + 1) count⟩

/-- A split keeps every translation and costs one page. -/
theorem Refines.split (refines : Refines root s space) (booted : root v ≠ 0)
    (block : (walk s.mem (root v) (pageOf ipa)).height = 1)
    (valid : (s.mem (walk s.mem (root v) (pageOf ipa)).slot).getLsbD 0 = true) :
    ∃ result s', Stage2Walker.split2mbBlockAtL2 (walk s.mem (root v) (pageOf ipa)).slot
        (s.mem (walk s.mem (root v) (pageOf ipa)).slot) s = some (result, s') ∧
      if space.room = 0 then
        (∃ text, result = .error text) ∧ Refines root s' { space with refused := space.refused + 1 }
      else result = .ok () ∧ Refines root s' (space.split v (pageOf ipa)) := by
  have pages := fun b => refines.view_same (b := b) booted ipa (by omega)
  have refusal := refines.refuse
  obtain ⟨⟨role, tables⟩, sees, count⟩ := refines
  obtain ⟨reach, index, stops⟩ :=
    tableAt_of_descend (rfl : walk s.mem (root v) (pageOf ipa) = walk s.mem (root v) (pageOf ipa))
  generalize walk s.mem (root v) (pageOf ipa) = stop at *
  obtain ⟨k, t, i⟩ := stop
  dsimp only at reach index stops block pages valid ⊢
  subst index block
  have served := tables.layout.tableAt_role (by decide) (tables.start booted (pageOf_lt ipa)) reach
  have bits := (nextTable_eq_none _).mp (stops.resolve_left (by decide))
  have blocked := tables.blocks served (digit_lt (by decide) 1 _) valid (bits.resolve_left (by simp [valid]))
  rcases Phys.allocPage_cases tables.heap with ⟨empty, refused⟩ | ⟨n, page, s₁, left, taken⟩
  · refine ⟨_, _, bind_of_eq_some _ refused, ?_⟩
    rw [if_pos empty]
    exact ⟨⟨_, rfl⟩, refusal⟩
  · refine ⟨_, _, bind_of_eq_some _ taken.result, ?_⟩
    rw [if_neg (by omega)]
    refine ⟨rfl, ?_⟩
    obtain ⟨tables', -, sees'⟩ := tables.grow (splitEntry (s.mem ⟨t, digit 512 1 (pageOf ipa)⟩))
      booted (pageOf_lt ipa) (by decide) reach (.inl rfl) taken
    simp only [Phys.write_write, fillPage_zeroPage]
    refine ⟨by simpa [Space.split, left] using tables', ?_, taken.refused.trans count⟩
    funext u b
    refine (sees' u b).trans ?_
    simp only [Space.split, zero_add, pow_one]
    by_cases hit : u = v ∧ b / 512 = pageOf ipa / 512
    · obtain ⟨rfl, same⟩ := hit
      rw [if_pos ⟨rfl, same⟩, if_pos ⟨rfl, same⟩, pages b (by simpa using same), entryLeaf, entryLeaf,
        if_pos valid, if_pos, Option.map_some, digit_zero, translate_splitEntry b _ blocked]
      · rfl
      · rw [getLsbD_splitEntry _ _ blocked _ (digit_lt (by decide) 0 b)]
        rfl
    · rw [if_neg hit, if_neg hit, sees]

theorem Space.split_view_self {leaf : Leaf} {a : ℕ} (mapped : space.view v a = some leaf) :
    (space.split v a).view v a = some leaf.toPage := by
  simp [Space.split, mapped]

theorem Space.retype_view_self {k a : ℕ} {change : Translation → Translation} :
    (space.retype v k a change).view v a = (space.view v a).map (Leaf.retype change) := if_pos ⟨rfl, rfl⟩

/-- `write_sw_bits` and `set_s2ap` edit one page, unless its block cannot be split. -/
theorem Refines.editLeaf (refines : Refines root s space) (booted : root v ≠ 0) (ipa : U64)
    {edit : U64 → U64} {change : Translation → Translation} (field : FieldEdit edit change) :
    ∃ result s', (⟨root v⟩ : Stage2Walker).editLeaf ipa edit s = some (result, s') ∧
      Refines root s' (space.edit v (pageOf ipa) change) ∧
      (result = .ok () → ∃ leaf, space.view v (pageOf ipa) = some leaf ∧
        (space.edit v (pageOf ipa) change).view v (pageOf ipa) = some (leaf.toPage.retype change)) := by
  rw [Stage2Walker.editLeaf, Stage2Walker.splitBlockIfNeeded_eq]
  by_cases block : (walk s.mem (root v) (pageOf ipa)).height = 1 ∧
      (s.mem (walk s.mem (root v) (pageOf ipa)).slot).getLsbD 0 = true
  · have mapped := (refines.view_eq_some booted ipa).mpr ⟨by omega, block.2, rfl⟩
    obtain ⟨result, s', run, effect⟩ := refines.split booted block.1 block.2
    rw [if_pos block, bind_of_eq_some _ run, Space.edit, mapped]
    simp only [block.1, if_true]
    split_ifs at effect ⊢ with empty
    · obtain ⟨⟨text, rfl⟩, refines'⟩ := effect
      exact ⟨_, _, rfl, refines', nofun⟩
    · obtain ⟨rfl, refines'⟩ := effect
      obtain ⟨height, valid, same⟩ :=
        (refines'.view_eq_some booted ipa).mp (Space.split_view_self mapped)
      have zero : (walk s'.mem (root v) (pageOf ipa)).height = 0 := by
        simpa [Leaf.toPage, block.1] using (congrArg Leaf.height same).symm
      have edited := refines'.retype booted height field
      rw [zero] at edited
      refine ⟨.ok (), _, ?_, edited, fun _ => ⟨_, rfl, ?_⟩⟩
      · simp only [Stage2Walker.walkToLeafPtr_eq, height, valid, and_self, if_true]
        rfl
      · simp only [Space.retype_view_self, Space.split_view_self mapped, Option.map_some, block.1]
  · rw [if_neg block, bind_of_eq_some _ rfl]
    by_cases leaf : (walk s.mem (root v) (pageOf ipa)).height < 3 ∧
        (s.mem (walk s.mem (root v) (pageOf ipa)).slot).getLsbD 0 = true
    · have mapped := (refines.view_eq_some booted ipa).mpr ⟨leaf.1, leaf.2, rfl⟩
      have page : (walk s.mem (root v) (pageOf ipa)).height ≠ 1 := fun one => block ⟨one, leaf.2⟩
      simp only [Space.edit, mapped, page, if_false, Stage2Walker.walkToLeafPtr_eq, if_pos leaf]
      refine ⟨_, _, rfl, refines.retype booted leaf.1 field, fun _ => ⟨_, rfl, ?_⟩⟩
      rw [Space.retype_view_self, mapped, Option.map_some, Leaf.toPage]
      simp only [page, if_false]
    · have unmapped : space.view v (pageOf ipa) = none := by
        cases sees : space.view v (pageOf ipa) with
        | none => rfl
        | some found =>
          obtain ⟨height, valid, -⟩ := (refines.view_eq_some booted ipa).mp sees
          exact absurd ⟨height, valid⟩ leaf
      simp only [Space.edit, unmapped, Stage2Walker.walkToLeafPtr_eq, if_neg leaf]
      exact ⟨_, _, rfl, refines, nofun⟩

/-- `unmap_page` removes a 4KB page and leaves everything else alone. -/
theorem Refines.unmapPage (refines : Refines root s space) (booted : root v ≠ 0) (ipa : U64) :
    Refines root ((⟨root v⟩ : Stage2Walker).unmapPage ipa s).2 (space.unmap v (pageOf ipa)) := by
  rw [Stage2Walker.unmapPage, Stage2Walker.walkToL3Ptr_eq]
  by_cases page : (walk s.mem (root v) (pageOf ipa)).height = 0 ∧
      (s.mem (walk s.mem (root v) (pageOf ipa)).slot).getLsbD 0 = true
  · rw [if_pos page]
    have mapped := (refines.view_eq_some booted ipa).mpr ⟨by omega, page.2, rfl⟩
    obtain ⟨⟨role, tables⟩, sees, count⟩ := refines
    obtain ⟨reach, index, -⟩ :=
      tableAt_of_descend (rfl : walk s.mem (root v) (pageOf ipa) = walk s.mem (root v) (pageOf ipa))
    generalize walk s.mem (root v) (pageOf ipa) = stop at *
    obtain ⟨k, t, i⟩ := stop
    dsimp only at reach index page mapped ⊢
    obtain ⟨rfl, valid⟩ := page
    subst index
    obtain ⟨tables', sees'⟩ := tables.store (e := 0) booted (pageOf_lt ipa) (by decide) reach
      (.inl rfl) (by decide)
    refine ⟨⟨role, tables'⟩, ?_, count⟩
    funext u b
    rw [sees' u b]
    simp only [pow_zero, Nat.div_one, Space.unmap, sees]
    split_ifs with hit
    · obtain ⟨rfl, rfl⟩ := hit
      rw [mapped]
      rfl
    · rfl
  · rw [if_neg page]
    rw [Space.unmap_of_not_page]
    · exact refines
    · intro leaf sees zero
      obtain ⟨-, valid, rfl⟩ := (refines.view_eq_some booted ipa).mp sees
      exact page ⟨zero, valid⟩

/-- A slot with an invalid entry maps none of the pages it serves. -/
theorem Tables.view_of_invalid {role : U64 → Option (Role VmId)} {room a b k : ℕ} {t : U64}
    (tables : Tables root s role room) (booted : root v ≠ 0) (bound : b < 2 ^ 36) (height : k < 3)
    (reach : tableAt nextTable 512 s.mem k 3 (root v) a = some t)
    (same : b / 512 ^ k = a / 512 ^ k)
    (invalid : (s.mem ⟨t, digit 512 k a⟩).getLsbD 0 = false) : view root s.mem v b = none := by
  rw [tables.view_of_stop booted bound height reach same (.inr ((nextTable_eq_none _).mpr (.inl invalid))),
    entryLeaf, invalid]
  rfl

/-- Making sure of a table changes no view, and the walk then passes through the table. -/
theorem Refines.tableOrAlloc {a j : ℕ} {t : U64} (refines : Refines root s space) (booted : root v ≠ 0)
    (bound : a < 2 ^ 36) (low : j < 2)
    (reach : tableAt nextTable 512 s.mem (j + 1) 3 (root v) a = some t) (failed block : String) :
    ∃ result s' space', Stage2Walker.tableOrAlloc ⟨t, digit 512 (j + 1) a⟩ failed block s =
        some (result, s') ∧ Refines root s' space' ∧ space'.view = space.view ∧
      ∀ table, result = .ok table → tableAt nextTable 512 s'.mem j 3 (root v) a = some table := by
  have refusal := refines.refuse
  rw [Stage2Walker.tableOrAlloc]
  by_cases invalid : s.mem ⟨t, digit 512 (j + 1) a⟩ &&& pteValid = 0
  · obtain ⟨⟨role, tables⟩, sees, count⟩ := refines
    rw [if_pos invalid]
    rcases Phys.allocPage_cases tables.heap with ⟨-, refused⟩ | ⟨n, page, s₁, left, taken⟩
    · exact ⟨_, _, _, bind_of_eq_some _ refused, refusal, rfl, fun table ok => nomatch ok⟩
    · obtain ⟨tables', stop, sees'⟩ := tables.grow (fun _ => 0) booted bound low reach
        (.inr fun _ _ => rfl) taken
      refine ⟨_, _, { space with room := n }, bind_of_eq_some _ taken.result,
        ⟨tables', ?_, taken.refused.trans count⟩, rfl, ?_⟩
      · rw [← sees]
        funext u b
        refine (sees' u b).trans ?_
        split_ifs with hit
        · obtain ⟨rfl, same⟩ := hit
          rw [tables.view_of_invalid booted (page_lt_of_same (by omega) bound same) (by omega) reach same
            ((and_pteValid_eq_zero _).mp invalid)]
          rfl
        · rfl
      · rintro table ⟨⟩
        exact (tableAt_of_descend stop).1
  · rw [if_neg invalid]
    by_cases link : s.mem ⟨t, digit 512 (j + 1) a⟩ &&& pteTable ≠ 0
    · rw [if_pos link]
      refine ⟨_, _, space, rfl, refines, rfl, ?_⟩
      rintro table ⟨⟩
      refine tableAt_next reach ((nextTable_eq_some _).mpr ⟨?_, ?_, rfl⟩)
      · simpa only [and_pteValid_eq_zero, Bool.not_eq_false] using invalid
      · simpa only [ne_eq, and_pteTable_eq_zero, Bool.not_eq_false] using link
    · rw [if_neg link]
      exact ⟨_, _, space, rfl, refines, rfl, fun table ok => nomatch ok⟩

/-- The translation that `map_page` installs. -/
def borrowed (ipa : U64) (s2ap sw : U8) : Translation :=
  translate 0 (pageOf ipa) (borrowEntry ipa s2ap sw)

/-- `map_page` maps a page that was not mapped, or changes no view. -/
theorem Refines.mapPage (refines : Refines root s space) (booted : root v ≠ 0) (ipa : U64) (s2ap sw : U8) :
    ∃ result s' space', (⟨root v⟩ : Stage2Walker).mapPage ipa s2ap sw s = some (result, s') ∧
      Refines root s' space' ∧
      ((∃ text, result = .error text) ∧ space'.view = space.view ∨
        result = .ok () ∧ space.view v (pageOf ipa) = none ∧
          space'.view = (space.map v (pageOf ipa) (borrowed ipa s2ap sw)).view) := by
  have bound := pageOf_lt ipa
  simp only [Stage2Walker.mapPage, l0Idx_eq, l1Idx_eq, l2Idx_eq, l3Idx_eq]
  by_cases link : isTable (s.mem ⟨root v, digit 512 3 (pageOf ipa)⟩) = true
  · have reach₂ : tableAt nextTable 512 s.mem 2 3 (root v) (pageOf ipa) =
        some (s.mem ⟨root v, digit 512 3 (pageOf ipa)⟩ &&& pteAddrMask) :=
      tableAt_next tableAt_self (if_pos link)
    obtain ⟨l2Table, s₁, space₁, run₁, refines₁, view₁, reach₁⟩ :=
      refines.tableOrAlloc booted bound (by decide) reach₂ "Failed to allocate L2 table"
        "L1 entry is a 1GB block"
    simp only [link, Bool.not_true, Bool.false_eq_true, if_false]
    rw [bind_of_eq_some _ run₁]
    cases l2Table with
    | error text => exact ⟨_, _, space₁, rfl, refines₁, .inl ⟨⟨text, rfl⟩, view₁⟩⟩
    | ok l2Table =>
      obtain ⟨l3Table, s₂, space₂, run₂, refines₂, view₂, reach₀⟩ :=
        refines₁.tableOrAlloc booted bound (by decide) (reach₁ l2Table rfl)
          "Failed to allocate L3 table" "L2 entry is a 2MB block"
      dsimp only
      rw [bind_of_eq_some _ run₂]
      have view' := view₂.trans view₁
      cases l3Table with
      | error text => exact ⟨_, _, space₂, rfl, refines₂, .inl ⟨⟨text, rfl⟩, view'⟩⟩
      | ok l3Table =>
        dsimp only
        by_cases mapped : s₂.mem ⟨l3Table, digit 512 0 (pageOf ipa)⟩ &&& pteValid ≠ 0
        · rw [if_pos mapped]
          exact ⟨_, _, space₂, rfl, refines₂, .inl ⟨⟨_, rfl⟩, view'⟩⟩
        · rw [if_neg mapped]
          rw [ne_eq, not_not, and_pteValid_eq_zero] at mapped
          obtain ⟨⟨role, tables⟩, sees, count⟩ := refines₂
          have reach := reach₀ l3Table rfl
          have unmapped := tables.view_of_invalid booted bound (by decide) reach rfl mapped
          obtain ⟨tables', sees'⟩ := tables.store (e := borrowEntry ipa s2ap sw) booted bound (by decide)
            reach (.inl rfl) (fun zero => absurd zero (by decide))
          refine ⟨_, _, { space₂ with view := (space.map v (pageOf ipa) (borrowed ipa s2ap sw)).view }, rfl,
            ⟨⟨role, tables'⟩, ?_, count⟩, .inr ⟨rfl, ?_, rfl⟩⟩
          · funext u b
            rw [sees' u b, sees, view']
            simp only [pow_zero, Nat.div_one, Space.map]
            split_ifs with hit
            · rw [hit.2, entryLeaf, if_pos (by rw [getLsbD_borrowEntry]; rfl)]
              rfl
            · rfl
          · rw [← view', ← sees]
            exact unmapped
  · rw [if_pos (by simp [link])]
    exact ⟨_, s, space, rfl, refines, .inl ⟨⟨_, rfl⟩, rfl⟩⟩

end Refinement

end Hypervisor
