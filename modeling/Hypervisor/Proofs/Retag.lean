import Hypervisor.Proofs.Space

/-! # Retagging a list of pages

MEM_SHARE, MEM_LEND and MEM_RECLAIM set the SW and S2AP fields of every page of their ranges and
ignore failures. Here is what that does to an address space: `Retyped` says which translations
changed, `Space.reached` which pages the loop got to. A page is missed only when it lies in a
2MB block and the heap has no page left for the table, so the missed pages are known in advance:
`transitioned` computes the others from the blocks and the number of pages the heap can serve.
-/

namespace Hypervisor

/-- The fields that one iteration sets. -/
def Translation.retag (sw s2ap : U8) (tr : Translation) : Translation :=
  { tr with sw := sw &&& 3, s2ap := s2ap &&& 3 }

/-- Translations of VM `v` changed on the pages in `R`; blocks may have been split, and nothing
else happened. -/
structure Retyped (v : VmId) (R : ℕ → Prop) (change : Translation → Translation) (W W' : View) :
    Prop where
  other : ∀ u b, u ≠ v → W' u b = W u b
  unmapped : ∀ b, W v b = none → W' v b = none
  mapped : ∀ b leaf, W v b = some leaf → ∃ leaf', W' v b = some leaf' ∧
    (leaf'.height = leaf.height ∨ leaf.height = 1 ∧ leaf'.height = 0) ∧
    (R b → leaf'.translation = change leaf.translation) ∧
    (¬R b → leaf'.translation = leaf.translation)

namespace Retyped

variable {v : VmId} {R R' : ℕ → Prop} {change change' : Translation → Translation} {W W' W'' : View}

theorem refl (none : ∀ b, ¬R b) : Retyped v R change W W where
  other _ _ _ := rfl
  unmapped _ unmapped := unmapped
  mapped b leaf mapped := ⟨leaf, mapped, .inl rfl, fun inside => absurd inside (none b), fun _ => rfl⟩

/-- Two changes of the same pages compose. -/
theorem comp (first : Retyped v R change W W') (second : Retyped v R change' W' W'') :
    Retyped v R (change' ∘ change) W W'' where
  other u b apart := (second.other u b apart).trans (first.other u b apart)
  unmapped b unmapped := second.unmapped b (first.unmapped b unmapped)
  mapped b leaf mapped := by
    obtain ⟨leaf', mapped', height', inside', outside'⟩ := first.mapped b leaf mapped
    obtain ⟨leaf'', mapped'', height'', inside'', outside''⟩ := second.mapped b leaf' mapped'
    refine ⟨leaf'', mapped'', by omega, fun inside => ?_, fun outside => ?_⟩
    · rw [inside'' inside, inside' inside, Function.comp]
    · rw [outside'' outside, outside' outside]

/-- The same change of two sets of pages is one change of their union. -/
theorem union (idempotent : ∀ tr, change (change tr) = change tr)
    (first : Retyped v R change W W') (second : Retyped v R' change W' W'') :
    Retyped v (fun b => R b ∨ R' b) change W W'' where
  other u b apart := (second.other u b apart).trans (first.other u b apart)
  unmapped b unmapped := second.unmapped b (first.unmapped b unmapped)
  mapped b leaf mapped := by
    obtain ⟨leaf', mapped', height', inside', outside'⟩ := first.mapped b leaf mapped
    obtain ⟨leaf'', mapped'', height'', inside'', outside''⟩ := second.mapped b leaf' mapped'
    refine ⟨leaf'', mapped'', by omega, fun inside => ?_, fun outside => ?_⟩
    · by_cases left : R b
      · by_cases right : R' b
        · rw [inside'' right, inside' left, idempotent]
        · rw [outside'' right, inside' left]
      · rw [inside'' (inside.resolve_left left), outside' left]
    · obtain ⟨left, right⟩ := not_or.mp outside
      rw [outside'' right, outside' left]

/-- What became of the leaf of a page of any VM. -/
def LeafStep (v : VmId) (R : ℕ → Prop) (change : Translation → Translation) (u : VmId) (b : ℕ)
    (leaf leaf' : Leaf) : Prop :=
  (leaf'.height = leaf.height ∨ leaf.height = 1 ∧ leaf'.height = 0) ∧
    (u = v ∧ R b ∧ leaf'.translation = change leaf.translation ∨
      ¬(u = v ∧ R b) ∧ leaf'.translation = leaf.translation)

theorem forward (retyped : Retyped v R change W W') {u : VmId} {b : ℕ} {leaf : Leaf}
    (mapped : W u b = some leaf) : ∃ leaf', W' u b = some leaf' ∧ LeafStep v R change u b leaf leaf' := by
  by_cases owner : u = v
  · subst owner
    obtain ⟨leaf', mapped', height, inside, outside⟩ := retyped.mapped b leaf mapped
    refine ⟨leaf', mapped', height, ?_⟩
    by_cases touched : R b
    · exact .inl ⟨rfl, touched, inside touched⟩
    · exact .inr ⟨fun hit => touched hit.2, outside touched⟩
  · exact ⟨leaf, (retyped.other u b owner).trans mapped, .inl rfl, .inr ⟨fun hit => owner hit.1, rfl⟩⟩

theorem forward_of_miss (retyped : Retyped v R change W W') {u : VmId} {b : ℕ} {leaf : Leaf}
    (mapped : W u b = some leaf) (miss : ¬(u = v ∧ R b)) :
    ∃ leaf', W' u b = some leaf' ∧ leaf'.translation = leaf.translation := by
  obtain ⟨leaf', mapped', -, ⟨owner, touched, -⟩ | ⟨-, same⟩⟩ := retyped.forward mapped
  · exact absurd ⟨owner, touched⟩ miss
  · exact ⟨leaf', mapped', same⟩

theorem eq_none (retyped : Retyped v R change W W') {u : VmId} {b : ℕ} (unmapped : W u b = none) :
    W' u b = none := by
  by_cases owner : u = v
  · subst owner
    exact retyped.unmapped b unmapped
  · rw [retyped.other u b owner, unmapped]

theorem backward (retyped : Retyped v R change W W') {u : VmId} {b : ℕ} {leaf' : Leaf}
    (mapped' : W' u b = some leaf') : ∃ leaf, W u b = some leaf ∧ LeafStep v R change u b leaf leaf' := by
  cases sees : W u b with
  | none =>
    rw [retyped.eq_none sees] at mapped'
    contradiction
  | some leaf =>
    obtain ⟨found, mapped, step⟩ := retyped.forward sees
    obtain rfl := Option.some.inj (mapped.symm.trans mapped')
    exact ⟨leaf, rfl, step⟩

/-- The translation of a page that the change misses. -/
theorem translation_eq (retyped : Retyped v R change W W') {u : VmId} {b : ℕ} (miss : ¬(u = v ∧ R b)) :
    (W' u b).map Leaf.translation = (W u b).map Leaf.translation := by
  cases sees : W u b with
  | none => rw [retyped.eq_none sees]
  | some leaf =>
    obtain ⟨leaf', mapped', same⟩ := retyped.forward_of_miss sees miss
    rw [mapped', Option.map_some, Option.map_some, same]

theorem congr (same : ∀ b, R b ↔ R' b) (retyped : Retyped v R change W W') : Retyped v R' change W W' := by
  obtain rfl : R = R' := funext fun b => propext (same b)
  exact retyped

end Retyped

/-- The leaves of VM `v` are pages and 2MB blocks. -/
def Small (W : View) (v : VmId) : Prop := ∀ a leaf, W v a = some leaf → leaf.height ≤ 1

theorem Small.retyped {v : VmId} {R : ℕ → Prop} {change : Translation → Translation} {W W' : View}
    (small : Small W v) (retyped : Retyped v R change W W') : Small W' v := by
  intro a leaf' mapped'
  obtain ⟨leaf, mapped, height, -⟩ := retyped.backward mapped'
  have bound := small a leaf mapped
  omega

namespace Space

variable {space : Space} {v : VmId} {a b : ℕ} {change change' : Translation → Translation} {leaf : Leaf}

/-- Editing page `a` changes page `b`. -/
def Reaches (space : Space) (v : VmId) (a b : ℕ) : Prop :=
  ∃ leaf, space.view v a = some leaf ∧
    if leaf.height = 1 then space.room ≠ 0 ∧ b = a else b / 512 ^ leaf.height = a / 512 ^ leaf.height

theorem edit_of_unmapped (unmapped : space.view v a = none) : space.edit v a change = space := by
  simp only [edit, unmapped]

theorem edit_of_refused (mapped : space.view v a = some leaf) (block : leaf.height = 1)
    (empty : space.room = 0) : space.edit v a change = { space with refused := space.refused + 1 } := by
  simp only [edit, mapped, block, empty, if_true]

theorem edit_of_block (mapped : space.view v a = some leaf) (block : leaf.height = 1)
    (left : space.room ≠ 0) : space.edit v a change = (space.split v a).retype v 0 a change := by
  simp only [edit, mapped, block, left, if_true, if_false]

theorem edit_of_page (mapped : space.view v a = some leaf) (page : leaf.height ≠ 1) :
    space.edit v a change = space.retype v leaf.height a change := by
  simp only [edit, mapped, page, if_false]

theorem retype_retyped (k : ℕ) :
    Retyped v (fun b => b / 512 ^ k = a / 512 ^ k) change space.view (space.retype v k a change).view where
  other u b apart := if_neg fun hit => apart hit.1
  unmapped b unmapped := by
    simp only [retype, unmapped, Option.map_none, ite_self]
  mapped b leaf mapped := by
    by_cases hit : b / 512 ^ k = a / 512 ^ k
    · exact ⟨leaf.retype change, by simp [retype, hit, mapped], .inl rfl, fun _ => rfl, absurd hit⟩
    · exact ⟨leaf, by simp [retype, hit, mapped], .inl rfl, fun inside => absurd inside hit, fun _ => rfl⟩

theorem split_retyped : Retyped v (fun _ => False) change space.view (space.split v a).view where
  other u b apart := if_neg fun hit => apart hit.1
  unmapped b unmapped := by
    simp only [split, unmapped, Option.map_none, ite_self]
  mapped b leaf mapped := by
    by_cases hit : b / 512 = a / 512
    · refine ⟨leaf.toPage, by simp [split, hit, mapped], ?_, False.elim, fun _ => rfl⟩
      by_cases block : leaf.height = 1
      · exact .inr ⟨block, by simp [Leaf.toPage, block]⟩
      · exact .inl (by simp [Leaf.toPage, block])
    · exact ⟨leaf, by simp [split, hit, mapped], .inl rfl, False.elim, fun _ => rfl⟩

/-- An edit changes exactly the pages it reaches. -/
theorem edit_retyped (space : Space) (v : VmId) (a : ℕ)
    (idempotent : ∀ tr, change (change tr) = change tr) :
    Retyped v (space.Reaches v a) change space.view (space.edit v a change).view := by
  cases sees : space.view v a with
  | none =>
    rw [edit_of_unmapped sees]
    exact .refl fun b reaches => by simp [Reaches, sees] at reaches
  | some leaf =>
    by_cases block : leaf.height = 1
    · by_cases empty : space.room = 0
      · rw [edit_of_refused sees block empty]
        exact .refl fun b reaches => by simp [Reaches, sees, block, empty] at reaches
      · rw [edit_of_block sees block empty]
        refine (split_retyped.union idempotent (retype_retyped 0)).congr fun b => ?_
        simp [Reaches, sees, block, empty]
    · rw [edit_of_page sees block]
      refine (retype_retyped leaf.height).congr fun b => ?_
      simp [Reaches, sees, block]

/-- The page that one edit reached is in reach of the next. -/
theorem reaches_edit : (space.edit v a change).Reaches v a b ↔ space.Reaches v a b := by
  cases sees : space.view v a with
  | none => rw [edit_of_unmapped sees]
  | some leaf =>
    by_cases block : leaf.height = 1
    · by_cases empty : space.room = 0
      · rw [edit_of_refused sees block empty]
        rfl
      · rw [edit_of_block sees block empty]
        simp [Reaches, sees, block, empty, retype, split, Leaf.retype, Leaf.toPage]
    · rw [edit_of_page sees block]
      simp [Reaches, sees, block, retype, Leaf.retype]

/-- An edit of a mapped page reaches it, or a page request is refused and nothing else happens. -/
theorem edit_cases (change : Translation → Translation) (mapped : space.view v a = some leaf) :
    leaf.height = 1 ∧ space.room = 0 ∧
      space.edit v a change = { space with refused := space.refused + 1 } ∨
    space.Reaches v a a ∧ (space.edit v a change).refused = space.refused ∧
      (space.edit v a change).room = (if leaf.height = 1 then space.room - 1 else space.room) ∧
      ∃ leaf', (space.edit v a change).view v a = some leaf' ∧ leaf'.height ≠ 1 := by
  by_cases block : leaf.height = 1
  · by_cases empty : space.room = 0
    · exact .inl ⟨block, empty, edit_of_refused mapped block empty⟩
    · rw [edit_of_block mapped block empty, if_pos block]
      exact .inr ⟨⟨leaf, mapped, by simp [block, empty]⟩, rfl, rfl, leaf.toPage.retype change,
        by simp [retype, split, mapped], by simp [Leaf.retype, Leaf.toPage, block]⟩
  · rw [edit_of_page mapped block, if_neg block]
    exact .inr ⟨⟨leaf, mapped, by simp [block]⟩, rfl, rfl, leaf.retype change, by simp [retype, mapped], block⟩

/-- One iteration of the loop: `write_sw_bits`, then `set_s2ap`. -/
def retag (space : Space) (v : VmId) (sw s2ap : U8) (a : ℕ) : Space :=
  (space.edit v a fun tr => { tr with sw := sw &&& 3 }).edit v a fun tr => { tr with s2ap := s2ap &&& 3 }

/-- The whole loop. -/
def retagAll (v : VmId) (sw s2ap : U8) : List ℕ → Space → Space
  | [], space => space
  | a :: rest, space => retagAll v sw s2ap rest (space.retag v sw s2ap a)

/-- The loop over the pages changes page `b`. -/
def Reached (v : VmId) (sw s2ap : U8) : List ℕ → Space → ℕ → Prop
  | [], _, _ => False
  | a :: rest, space, b => space.Reaches v a b ∨ Reached v sw s2ap rest (space.retag v sw s2ap a) b

section Loop

variable {sw s2ap : U8} {pages : List ℕ}

variable (space v sw s2ap a) in
theorem retag_retyped : Retyped v (space.Reaches v a) (Translation.retag sw s2ap) space.view
    (space.retag v sw s2ap a).view := by
  have first : Retyped v (space.Reaches v a) (fun tr => { tr with sw := sw &&& 3 }) _ _ :=
    edit_retyped space v a fun _ => rfl
  have second : Retyped v _ (fun tr => { tr with s2ap := s2ap &&& 3 }) _ _ :=
    edit_retyped (space.edit v a fun tr => { tr with sw := sw &&& 3 }) v a fun _ => rfl
  exact first.comp (second.congr fun b => reaches_edit)

theorem retagAll_retyped : Retyped v (Reached v sw s2ap pages space) (Translation.retag sw s2ap)
    space.view (retagAll v sw s2ap pages space).view := by
  induction pages generalizing space with
  | nil => exact .refl fun _ => id
  | cons a rest ih => exact (retag_retyped space v a sw s2ap).union (fun _ => rfl) ih

variable (sw s2ap) in
/-- A mapped page is reached, or a page request is refused and nothing else happens. -/
theorem retag_cases (mapped : space.view v a = some leaf) :
    leaf.height = 1 ∧ space.room = 0 ∧
      space.retag v sw s2ap a = { space with refused := space.refused + 2 } ∨
    space.Reaches v a a ∧ (space.retag v sw s2ap a).refused = space.refused ∧
      (space.retag v sw s2ap a).room = if leaf.height = 1 then space.room - 1 else space.room := by
  rcases edit_cases (fun tr => { tr with sw := sw &&& 3 }) mapped with
    ⟨block, empty, same⟩ | ⟨reaches, refused, room, leaf', mapped', page⟩
  · refine .inl ⟨block, empty, ?_⟩
    rw [retag, same, edit_of_refused (by exact mapped) block (by exact empty)]
  · refine .inr ⟨reaches, ?_⟩
    rw [retag, edit_of_page mapped' page]
    exact ⟨refused, room⟩

theorem retag_of_unmapped (unmapped : space.view v a = none) : space.retag v sw s2ap a = space := by
  rw [retag, edit_of_unmapped unmapped, edit_of_unmapped unmapped]

variable (space v sw s2ap pages) in
theorem refused_le_retagAll : space.refused ≤ (retagAll v sw s2ap pages space).refused := by
  induction pages generalizing space with
  | nil => exact le_rfl
  | cons a rest ih =>
    refine le_trans ?_ (ih _)
    cases sees : space.view v a with
    | none => rw [retag_of_unmapped sees]
    | some leaf =>
      rcases retag_cases sw s2ap sees with ⟨-, -, same⟩ | ⟨-, same, -⟩
      · rw [same]
        exact Nat.le_add_right _ _
      · rw [same]

/-- Without a refusal the loop reaches every mapped page. -/
theorem reached_of_mapped (kept : (retagAll v sw s2ap pages space).refused = space.refused)
    (member : a ∈ pages) (mapped : space.view v a = some leaf) : Reached v sw s2ap pages space a := by
  induction pages generalizing space leaf with
  | nil => exact absurd member List.not_mem_nil
  | cons c rest ih =>
    have first : (space.retag v sw s2ap c).refused = space.refused := by
      have later := refused_le_retagAll (space.retag v sw s2ap c) v sw s2ap rest
      have before := refused_le_retagAll space v sw s2ap [c]
      simp only [retagAll] at later before kept
      omega
    rcases List.mem_cons.mp member with rfl | inRest
    · rcases retag_cases sw s2ap mapped with ⟨-, -, same⟩ | ⟨reaches, -, -⟩
      · rw [same] at first
        exact absurd first (by simp)
      · exact .inl reaches
    · obtain ⟨leaf', mapped', -⟩ := (retag_retyped space v c sw s2ap).mapped a leaf mapped
      exact .inr (ih (kept.trans first.symm) inRest mapped')

theorem eq_of_reaches (small : Small space.view v) (reaches : space.Reaches v a b) : b = a := by
  obtain ⟨leaf, mapped, hit⟩ := reaches
  have height := small a leaf mapped
  split_ifs at hit with block
  · exact hit.2
  · obtain zero : leaf.height = 0 := by omega
    simpa [zero] using hit

/-- Without 1GB blocks the loop changes no page outside its list. -/
theorem Reached.mem (small : Small space.view v) (reached : Reached v sw s2ap pages space b) : b ∈ pages := by
  induction pages generalizing space with
  | nil => exact reached.elim
  | cons a rest ih =>
    rcases reached with reaches | later
    · exact List.mem_cons.mpr (.inl (eq_of_reaches small reaches))
    · exact List.mem_cons.mpr (.inr (ih (small.retyped (retag_retyped ..)) later))

end Loop

end Space

/-! ## Which pages the loop gets to -/

section Transitioned

variable (inBlock : ℕ → Bool) (canAlloc : ℕ → Bool)

/-- The pages the loop changes, when `inBlock` tells which pages lay in 2MB blocks, `canAlloc` how
many tables can be had, and `split` which blocks were split so far. -/
def transitioned : List ℕ → List ℕ → List ℕ
  | _, [] => []
  | split, a :: rest =>
      if inBlock a && !split.contains (a / 512) then
        if canAlloc (split.length + 1) then a :: transitioned (a / 512 :: split) rest
        else transitioned split rest
      else a :: transitioned split rest

/-- The 2MB blocks that the loop has to split, each once. -/
def blocksToSplit : List ℕ → List ℕ → List ℕ
  | _, [] => []
  | split, a :: rest =>
      if inBlock a && !split.contains (a / 512) then a / 512 :: blocksToSplit (a / 512 :: split) rest
      else blocksToSplit split rest

variable {inBlock canAlloc} {split pages : List ℕ}

theorem mem_of_transitioned {a : ℕ} (member : a ∈ transitioned inBlock canAlloc split pages) : a ∈ pages := by
  induction pages generalizing split with
  | nil => exact absurd member List.not_mem_nil
  | cons c rest ih =>
    rw [transitioned] at member
    split_ifs at member
    · exact List.mem_cons.mpr ((List.mem_cons.mp member).imp_right ih)
    · exact List.mem_cons_of_mem c (ih member)
    · exact List.mem_cons.mpr ((List.mem_cons.mp member).imp_right ih)

/-- With a table for every block the loop gets to every page. -/
theorem transitioned_eq_self (mono : ∀ k l, k ≤ l → canAlloc l = true → canAlloc k = true)
    (room : canAlloc (split.length + (blocksToSplit inBlock split pages).length) = true) :
    transitioned inBlock canAlloc split pages = pages := by
  induction pages generalizing split with
  | nil => rfl
  | cons a rest ih =>
    rw [transitioned]
    rw [blocksToSplit] at room
    split_ifs at room ⊢ with new table
    · rw [ih]
      simpa [Nat.add_assoc, Nat.add_comm 1] using room
    · exact absurd (mono _ _ (by simp only [List.length_cons]; omega) room) table
    · rw [ih room]

private theorem not_new_of_transitioned (stuck : canAlloc (split.length + 1) = false) {x : ℕ}
    (member : x ∈ transitioned inBlock canAlloc split pages) :
    ¬(inBlock x && !split.contains (x / 512)) = true := by
  induction pages with
  | nil => exact absurd member List.not_mem_nil
  | cons a rest ih =>
    simp only [transitioned, stuck, Bool.false_eq_true, if_false] at member
    split_ifs at member with new
    · exact ih member
    · rcases List.mem_cons.mp member with rfl | later
      · exact new
      · exact ih later

/-- With too few tables the loop misses a page of a block it had to split. -/
theorem exists_not_transitioned (fits : canAlloc split.length = true)
    (short : canAlloc (split.length + (blocksToSplit inBlock split pages).length) = false) :
    ∃ a ∈ pages, (inBlock a && !split.contains (a / 512)) = true ∧
      a ∉ transitioned inBlock canAlloc split pages := by
  induction pages generalizing split with
  | nil => simp [blocksToSplit, fits] at short
  | cons a rest ih =>
    rw [transitioned]
    rw [blocksToSplit] at short
    by_cases new : (inBlock a && !split.contains (a / 512)) = true
    · rw [if_pos new] at short ⊢
      cases table : canAlloc (split.length + 1) with
      | false =>
        refine ⟨a, List.mem_cons_self, new, fun member => ?_⟩
        exact not_new_of_transitioned table (by simpa using member) new
      | true =>
        obtain ⟨x, member, fresh, missed⟩ := ih
          (by simpa using table : canAlloc (a / 512 :: split).length = true)
          (by simpa [Nat.add_assoc, Nat.add_comm 1] using short)
        have apart : x / 512 ≠ a / 512 := by
          intro same
          simp [same] at fresh
        refine ⟨x, List.mem_cons_of_mem a member, ?_, ?_⟩
        · simp only [List.contains_cons, Bool.not_or, Bool.and_eq_true] at fresh ⊢
          exact ⟨fresh.1, fresh.2.2⟩
        · simp only [if_true, List.mem_cons, not_or]
          exact ⟨fun same => apart (by rw [same]), missed⟩
    · rw [if_neg new] at short ⊢
      obtain ⟨x, member, fresh, missed⟩ := ih fits short
      refine ⟨x, List.mem_cons_of_mem a member, fresh, ?_⟩
      simp only [List.mem_cons, not_or]
      exact ⟨fun same => new (same ▸ fresh), missed⟩

namespace Space

variable {space : Space} {v : VmId} {sw s2ap : U8} {a b c : ℕ}

/-- The height of the leaf that maps a page. -/
def heightAt (space : Space) (v : VmId) (a : ℕ) : Option ℕ := (space.view v a).map Leaf.height

theorem heightAt_retype (k : ℕ) (change : Translation → Translation) :
    (space.retype v k a change).heightAt v c = space.heightAt v c := by
  simp only [heightAt, retype]
  split_ifs
  · rw [Option.map_map]
    rfl
  · rfl

theorem heightAt_split : (space.split v a).heightAt v c =
    if c / 512 = a / 512 then (space.heightAt v c).map fun h => if h = 1 then 0 else h
    else space.heightAt v c := by
  simp only [heightAt, split, true_and]
  split_ifs
  · rw [Option.map_map, Option.map_map]
    rfl
  · rfl

theorem heightAt_eq_some {h : ℕ} :
    space.heightAt v a = some h ↔ ∃ leaf, space.view v a = some leaf ∧ leaf.height = h := by
  simp [heightAt]

variable (sw s2ap) in
/-- Retagging a page of a block splits the block. -/
theorem retag_of_block (block : space.heightAt v a = some 1) (left : space.room ≠ 0) :
    (∀ c, (space.retag v sw s2ap a).heightAt v c = (space.split v a).heightAt v c) ∧
      (space.retag v sw s2ap a).room = space.room - 1 ∧ ∀ b, space.Reaches v a b ↔ b = a := by
  obtain ⟨leaf, mapped, height⟩ := heightAt_eq_some.mp block
  rcases edit_cases (fun tr => { tr with sw := sw &&& 3 }) mapped with ⟨-, empty, -⟩ | ⟨-, -, -, leaf', edited⟩
  · exact absurd empty left
  · rw [retag, edit_of_page edited.1 edited.2, edit_of_block mapped height left]
    refine ⟨fun c => ?_, rfl, fun b => by simp [Reaches, mapped, height, left]⟩
    rw [heightAt_retype, heightAt_retype]

variable (sw s2ap) in
/-- Retagging a 4KB page keeps all heights. -/
theorem retag_of_page (page : space.heightAt v a = some 0) :
    (∀ c, (space.retag v sw s2ap a).heightAt v c = space.heightAt v c) ∧
      (space.retag v sw s2ap a).room = space.room ∧ ∀ b, space.Reaches v a b ↔ b = a := by
  obtain ⟨leaf, mapped, height⟩ := heightAt_eq_some.mp page
  rcases edit_cases (fun tr => { tr with sw := sw &&& 3 }) mapped with ⟨block, -⟩ | ⟨-, -, -, leaf', edited⟩
  · omega
  · rw [retag, edit_of_page edited.1 edited.2, edit_of_page mapped (by omega)]
    refine ⟨fun c => ?_, rfl, fun b => by simp [Reaches, mapped, height]⟩
    rw [heightAt_retype, heightAt_retype]

/-- The pages that the loop changes are known in advance. -/
theorem reached_iff_transitioned
    (heights : ∀ c ∈ pages, space.heightAt v c =
      some (if (inBlock c && !split.contains (c / 512)) = true then 1 else 0))
    (room : ∀ k, canAlloc (split.length + k) = true ↔ k ≤ space.room) :
    Reached v sw s2ap pages space b ↔ b ∈ transitioned inBlock canAlloc split pages := by
  induction pages generalizing space split with
  | nil => simp [Reached, transitioned]
  | cons a rest ih =>
    have here := heights a List.mem_cons_self
    have later := fun c member => heights c (List.mem_cons_of_mem a member)
    have one := room 1
    rw [Reached, transitioned]
    by_cases new : (inBlock a && !split.contains (a / 512)) = true
    · rw [if_pos new] at here ⊢
      by_cases left : space.room = 0
      · -- the request is refused and the next page finds the same state
        obtain ⟨leaf, mapped, height⟩ := heightAt_eq_some.mp here
        rcases retag_cases sw s2ap mapped with ⟨-, -, same⟩ | ⟨⟨found, mapped', hit⟩, -⟩
        · have unreached : ¬space.Reaches v a b := by simp [Reaches, mapped, height, left]
          rw [if_neg (by rw [one]; omega), same, or_iff_right unreached]
          exact ih later room
        · obtain rfl := Option.some.inj (mapped.symm.trans mapped')
          simp [height, left] at hit
      · obtain ⟨heights', less, reaches⟩ := retag_of_block sw s2ap here left
        rw [if_pos (by rw [one]; omega), reaches, List.mem_cons, ih]
        · intro c member
          rw [heights', heightAt_split, later c member, List.contains_cons]
          by_cases same : c / 512 = a / 512
          · simp only [same, if_true, Option.map_some, beq_self_eq_true]
            grind
          · simp [same]
        · intro k
          rw [less, List.length_cons, Nat.add_assoc, Nat.add_comm 1 k, room]
          omega
    · rw [if_neg new] at here ⊢
      obtain ⟨heights', same, reaches⟩ := retag_of_page sw s2ap here
      rw [reaches, List.mem_cons, ih]
      · intro c member
        rw [heights', later c member]
      · intro k
        rw [same, room]

/-- What the loop reached is mapped by 4KB pages afterwards. -/
theorem heightAt_of_reached (small : Small space.view v) (reached : Reached v sw s2ap pages space b) :
    (retagAll v sw s2ap pages space).heightAt v b = some 0 := by
  -- a page stays a page, whatever else is retagged
  have stays : ∀ (rest : List ℕ) (space : Space), space.heightAt v b = some 0 →
      (retagAll v sw s2ap rest space).heightAt v b = some 0 := by
    intro rest space page
    obtain ⟨leaf, mapped, height⟩ := heightAt_eq_some.mp page
    have retyped : Retyped v (Reached v sw s2ap rest space) _ space.view _ := retagAll_retyped
    obtain ⟨leaf', mapped', height', -⟩ := retyped.mapped b leaf mapped
    exact heightAt_eq_some.mpr ⟨leaf', mapped', by omega⟩
  induction pages generalizing space with
  | nil => exact reached.elim
  | cons a rest ih =>
    rcases reached with ⟨leaf, mapped, hit⟩ | later
    · obtain rfl := eq_of_reaches small ⟨leaf, mapped, hit⟩
      refine stays rest _ ?_
      have height := small b leaf mapped
      by_cases block : leaf.height = 1
      · rw [if_pos block] at hit
        have here : space.heightAt v b = some 1 := heightAt_eq_some.mpr ⟨leaf, mapped, block⟩
        rw [(retag_of_block sw s2ap here hit.1).1, heightAt_split, if_pos rfl, here]
        rfl
      · have here : space.heightAt v b = some 0 := heightAt_eq_some.mpr ⟨leaf, mapped, by omega⟩
        rw [(retag_of_page sw s2ap here).1, here]
    · exact ih (small.retyped (retag_retyped ..)) later

/-- A page that is not in a 2MB block is reached whatever the heap does. -/
theorem reached_of_not_block {h : ℕ} (member : a ∈ pages) (mapped : space.heightAt v a = some h)
    (page : h ≠ 1) : Reached v sw s2ap pages space a := by
  induction pages generalizing space with
  | nil => exact absurd member List.not_mem_nil
  | cons c rest ih =>
    obtain ⟨leaf, sees, height⟩ := heightAt_eq_some.mp mapped
    rcases List.mem_cons.mp member with rfl | inRest
    · exact .inl ⟨leaf, sees, by simp [height, page]⟩
    · obtain ⟨leaf', sees', height', -⟩ := (retag_retyped space v c sw s2ap).mapped a leaf sees
      exact .inr (ih inRest (heightAt_eq_some.mpr ⟨leaf', sees', by omega⟩))

/-- Nothing is reached in blocks that cannot be split. -/
theorem not_reached_of_stuck (blocks : ∀ a ∈ pages, space.heightAt v a = some 1) (empty : space.room = 0) :
    ¬Reached v sw s2ap pages space b := by
  induction pages generalizing space with
  | nil => exact id
  | cons a rest ih =>
    obtain ⟨leaf, mapped, height⟩ := heightAt_eq_some.mp (blocks a List.mem_cons_self)
    rcases retag_cases sw s2ap mapped with ⟨-, -, same⟩ | ⟨⟨found, mapped', hit⟩, -⟩
    · rw [Reached, same, not_or]
      refine ⟨by simp [Reaches, mapped, height, empty], ih ?_ empty⟩
      exact fun c member => blocks c (List.mem_cons_of_mem a member)
    · obtain rfl := Option.some.inj (mapped.symm.trans mapped')
      simp [height, empty] at hit

/-- The loop can change something: a page is not in a block, or a table can be had. -/
def Able (space : Space) (v : VmId) (pages : List ℕ) : Prop :=
  (∃ a ∈ pages, space.heightAt v a ≠ some 1) ∨ pages ≠ [] ∧ space.room ≠ 0

theorem Able.exists_reached (able : space.Able v pages)
    (mapped : ∀ a ∈ pages, ∃ h, space.heightAt v a = some h) :
    ∃ a ∈ pages, Reached v sw s2ap pages space a := by
  rcases able with ⟨a, member, page⟩ | ⟨nonempty, left⟩
  · obtain ⟨h, height⟩ := mapped a member
    exact ⟨a, member, reached_of_not_block member height fun one => page (one ▸ height)⟩
  · cases pages with
    | nil => exact absurd rfl nonempty
    | cons a rest =>
      obtain ⟨h, height⟩ := mapped a List.mem_cons_self
      by_cases block : h = 1
      · subst block
        exact ⟨a, List.mem_cons_self, .inl (((retag_of_block sw s2ap height left).2.2 a).mpr rfl)⟩
      · exact ⟨a, List.mem_cons_self, reached_of_not_block List.mem_cons_self height block⟩

theorem not_reached (unable : ¬space.Able v pages) : ¬Reached v sw s2ap pages space b := by
  obtain ⟨blocks, rest⟩ := not_or.mp unable
  have all : ∀ a ∈ pages, space.heightAt v a = some 1 := by simpa using blocks
  by_cases empty : space.room = 0
  · exact not_reached_of_stuck all empty
  · cases pages with
    | nil => exact id
    | cons a rest' => exact absurd ⟨List.cons_ne_nil a rest', empty⟩ rest

end Space

end Transitioned

end Hypervisor
