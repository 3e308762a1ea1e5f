import Hypervisor.Model.Proxy
import Hypervisor.Proofs.Retag
import Hypervisor.Proofs.Walker

/-! # The page loops of the handlers

Each loop of `ffa/proxy.rs` visits the pages of a list of ranges. Validation reads the view, the
transition loops refine `Space.retagAll`, the unmap loop refines `Space.unmapAll`, and the map loop
with its rollback either borrows every page or leaves the view as it found it.
-/

namespace Hypervisor

/-- The IPA that one iteration visits. -/
def visitedIpa (page : U64 × ℕ) : U64 := page.1 + BitVec.ofNat 64 page.2 * pageSize4kb

/-- The page that one iteration visits. -/
def pageIndex (page : U64 × ℕ) : ℕ := pageOf (page.1 + BitVec.ofNat 64 page.2 * pageSize4kb)

/-- The pages that a list of ranges covers. -/
def covered (ranges : List AddrRange) : List ℕ := (pages ranges).map pageIndex

theorem visitedIpa_of_pageIpa {page : U64 × ℕ} {ipa : U64} (inRange : pageIpa page = some ipa) :
    visitedIpa page = ipa := by
  rw [pageIpa, checkedAdd] at inRange
  split_ifs at inRange
  exact Option.some.inj inRange

theorem pageOf_of_pageIpa {page : U64 × ℕ} {ipa : U64} (inRange : pageIpa page = some ipa) :
    pageOf ipa = pageIndex page := by
  rw [← visitedIpa_of_pageIpa inRange]
  rfl

section Loops

variable {root : VmId → U64} {s s' : Phys} {space : Space} {v : VmId} {list : List (U64 × ℕ)}
  {sw s2ap : U8}

/-- The transition loop retags its pages. -/
theorem Refines.transitionPages (refines : Refines root s space) (booted : root v ≠ 0)
    (run : transitionPages ⟨root v⟩ sw s2ap list s = some s') :
    Refines root s' (Space.retagAll v sw s2ap (list.map pageIndex) space) := by
  induction list generalizing s space with
  | nil =>
    obtain rfl := Option.some.inj run
    exact refines
  | cons page rest ih =>
    rw [Hypervisor.transitionPages] at run
    obtain ⟨ipa, inRange, run⟩ := Option.bind_eq_some_iff.mp run
    obtain ⟨_, s₁, first, refines₁, -⟩ := refines.editLeaf booted ipa (.withSwBits sw)
    obtain ⟨_, s₂, second, refines₂, -⟩ := refines₁.editLeaf booted ipa (.withS2ap s2ap)
    rw [Stage2Walker.writeSwBits, bind_of_eq_some _ first] at run
    dsimp only at run
    rw [Stage2Walker.setS2ap, bind_of_eq_some _ second] at run
    rw [pageOf_of_pageIpa inRange] at refines₂
    exact ih refines₂ run

/-- A descriptor passes `validate_page_for_share` when its SW field is zero, and fails otherwise. -/
theorem validatePageForShare_swBits (e : U64) :
    validatePageForShare (swBits e) = if swBits e = 0 then .ok () else .error ffaDenied := by
  have small : swBits e &&& ~~~0x3 = 0 := by
    rw [show (~~~0x3 : U8) = BitVec.mask 2 6 by decide, BitVec.and_mask_eq_zero_iff]
    intro i low _
    rw [getLsbD_swBits, decide_eq_false (by omega), Bool.false_and]
  revert small
  generalize swBits e = bits
  revert bits
  decide

/-- Validation accepts exactly the lists of owned pages. -/
theorem Refines.validatePages {result : Except I32 Unit} (refines : Refines root s space) (booted : root v ≠ 0)
    (run : validatePages ⟨root v⟩ s.mem list = some result) :
    result = .ok () ↔
      ∀ a ∈ list.map pageIndex, ∃ leaf, space.view v a = some leaf ∧ leaf.translation.sw = 0 := by
  induction list with
  | nil =>
    obtain rfl := Option.some.inj run
    simp
  | cons page rest ih =>
    rw [Hypervisor.validatePages] at run
    obtain ⟨ipa, inRange, run⟩ := Option.bind_eq_some_iff.mp run
    rw [List.map_cons, List.forall_mem_cons, ← pageOf_of_pageIpa inRange]
    rw [Stage2Walker.readSwBits, Stage2Walker.walkToLeaf, Stage2Walker.walkToLeafPtr_eq] at run
    split_ifs at run with leaf
    · dsimp only [Option.map_some] at run
      have sees := (refines.view_eq_some booted ipa).mpr ⟨leaf.1, leaf.2, rfl⟩
      rw [validatePageForShare_swBits] at run
      split_ifs at run with owned
      · rw [ih run]
        exact (and_iff_right ⟨_, sees, owned⟩).symm
      · obtain rfl := Option.some.inj run
        refine iff_of_false (by rintro ⟨⟩) ?_
        rintro ⟨⟨found, mapped, zero⟩, -⟩
        rw [← Option.some.inj (sees.symm.trans mapped)] at zero
        exact owned zero
    · obtain rfl := Option.some.inj run
      refine iff_of_false (by rintro ⟨⟩) ?_
      rintro ⟨⟨found, mapped, -⟩, -⟩
      obtain ⟨height, valid, -⟩ := (refines.view_eq_some booted ipa).mp mapped
      exact leaf ⟨height, valid⟩

/-- The view after VM `v` gave up the 4KB pages in a list. -/
def returned (v : VmId) (pages : List ℕ) (W : View) : View := fun u b =>
  if u = v ∧ b ∈ pages then (W u b).filter (fun leaf => leaf.height ≠ 0) else W u b

/-- Unmapping a list of pages. -/
def Space.unmapAll (v : VmId) (pages : List ℕ) (space : Space) : Space :=
  { space with view := returned v pages space.view }

theorem returned_nil (W : View) : returned v [] W = W := by
  funext u b
  simp [returned]

theorem Space.unmapAll_nil : space.unmapAll v [] = space := by
  rw [unmapAll, returned_nil]

theorem Space.unmapAll_cons (a : ℕ) (rest : List ℕ) :
    space.unmapAll v (a :: rest) = (space.unmap v a).unmapAll v rest := by
  simp only [unmapAll, unmap, mk.injEq, and_self, and_true]
  funext u b
  simp only [returned]
  by_cases owner : u = v
  · by_cases here : b = a
    · by_cases later : a ∈ rest
      · simp [owner, here, later, Option.filter_filter]
      · simp [owner, here, later]
    · simp [owner, here]
  · simp [owner]

/-- The unmap loop removes its 4KB pages. -/
theorem Refines.unmapPages (refines : Refines root s space) (booted : root v ≠ 0)
    (run : unmapPages ⟨root v⟩ list s = some s') :
    Refines root s' (space.unmapAll v (list.map pageIndex)) := by
  induction list generalizing s space with
  | nil =>
    obtain rfl := Option.some.inj run
    rwa [List.map_nil, Space.unmapAll_nil]
  | cons page rest ih =>
    rw [Hypervisor.unmapPages] at run
    obtain ⟨ipa, inRange, run⟩ := Option.bind_eq_some_iff.mp run
    have first := refines.unmapPage booted ipa
    rw [pageOf_of_pageIpa inRange] at first
    have rest := ih first run
    rwa [List.map_cons, Space.unmapAll_cons]

/-- The map loop over one list of pages, with the pages to roll back. -/
def mapPages (walker : Stage2Walker) (s2ap sw : U8) (done : List (U64 × ℕ)) :
    List (U64 × ℕ) → Phys → Option (Except I32 Unit × Phys)
  | [], s => some (.ok (), s)
  | page :: rest, s => do
      let ipa ← pageIpa page
      let (mapped, s) ← walker.mapPage ipa s2ap sw s
      match mapped with
      | .ok _ => mapPages walker s2ap sw (done ++ [page]) rest s
      | .error _ =>
          let s ← unmapPages walker done s
          return (.error ffaDenied, s)

theorem mapPages_append (walker : Stage2Walker) (done front back : List (U64 × ℕ)) :
    mapPages walker s2ap sw done (front ++ back) s =
      (mapPages walker s2ap sw done front s).bind fun (mapped, s) =>
        match mapped with
        | .error code => some (.error code, s)
        | .ok _ => mapPages walker s2ap sw (done ++ front) back s := by
  induction front generalizing done s with
  | nil => simp [mapPages]
  | cons page rest ih =>
    rw [List.cons_append, mapPages, mapPages]
    cases pageIpa page with
    | none => rfl
    | some ipa =>
      simp only [Option.bind_eq_bind, Option.bind_some]
      cases walker.mapPage ipa s2ap sw s with
      | none => rfl
      | some outcome =>
        obtain ⟨mapped, s₁⟩ := outcome
        cases mapped with
        | ok => simp only [Option.bind_some, ih, List.append_assoc, List.singleton_append]
        | error text =>
          simp only [Option.bind_some]
          cases unmapPages walker done s₁ <;> rfl

theorem mapRange_eq (walker : Stage2Walker) (before : List AddrRange) (base : U64) (count p : ℕ) :
    mapRange walker s2ap sw before base count p s =
      mapPages walker s2ap sw (pages before ++ (List.range p).map (base, ·))
        ((List.range' p count).map (base, ·)) s := by
  induction count generalizing p s with
  | zero => rfl
  | succ count ih =>
    rw [mapRange, List.range'_succ, List.map_cons, mapPages]
    simp only [ih, List.range_succ, List.map_append, List.map_cons, List.map_nil, List.append_assoc] <;> rfl

/-- The nested loops are one loop over the pages of all ranges. -/
theorem mapRanges_eq (walker : Stage2Walker) (before ranges : List AddrRange) :
    mapRanges walker s2ap sw before ranges s =
      mapPages walker s2ap sw (pages before) (pages ranges) s := by
  induction ranges generalizing before s with
  | nil => rfl
  | cons range rest ih =>
    obtain ⟨base, count⟩ := range
    have first : pages ((base, count) :: rest) = (List.range count.toNat).map (base, ·) ++ pages rest := by
      simp [pages]
    have sofar : pages (before ++ [(base, count)]) = pages before ++ (List.range count.toNat).map (base, ·) := by
      simp [pages]
    rw [mapRanges, first, mapPages_append, mapRange_eq, ← List.range_eq_range', ← sofar]
    simp only [ih, List.range_zero, List.map_nil, List.append_nil]
    rfl

/-- The translation of a page that a VM borrows. -/
def borrowedPage (page : U64 × ℕ) : Translation :=
  borrowed (visitedIpa page) ((s2apRw >>> s2apShift).setWidth 8) PageOwnership.sharedBorrowed.bits

theorem borrowedPage_marks (page : U64 × ℕ) :
    (borrowedPage page).output = pageAddr (pageIndex page) ∧ (borrowedPage page).sw.getLsbD 1 = true ∧
      (borrowedPage page).s2ap = 3 :=
  ⟨borrowEntry_output _ _ _ _, borrowEntry_sw _ _ _ _ (by decide), borrowEntry_s2ap _ _ _⟩

/-- VM `v` maps the pages of a list: each was unmapped before, and nothing else changes. -/
structure Borrows (v : VmId) (list : List (U64 × ℕ)) (W W' : View) : Prop where
  fresh : ∀ a ∈ list.map pageIndex, W v a = none
  entry : ∀ page ∈ list, W' v (pageIndex page) = some ⟨0, borrowedPage page⟩
  other : ∀ u b, ¬(u = v ∧ b ∈ list.map pageIndex) → W' u b = W u b

/-- A borrowed page maps to itself, permits all accesses and does not look owned. -/
theorem Borrows.mapped {W W' : View} (borrows : Borrows v list W W') {a : ℕ} (member : a ∈ list.map pageIndex) :
    ∃ tr, W' v a = some ⟨0, tr⟩ ∧ tr.output = pageAddr a ∧ tr.sw.getLsbD 1 = true ∧ tr.s2ap = 3 := by
  obtain ⟨page, visited, rfl⟩ := List.mem_map.mp member
  exact ⟨borrowedPage page, borrows.entry page visited, borrowedPage_marks page⟩

/-- What a VM sees after borrowing is borrowed, or it saw it before. -/
theorem Borrows.backward {W W' : View} (borrows : Borrows v list W W') {u : VmId} {b : ℕ}
    {leaf : Leaf} (mapped : W' u b = some leaf) :
    u = v ∧ b ∈ list.map pageIndex ∧ leaf.height = 0 ∧ leaf.translation.output = pageAddr b ∧
        leaf.translation.sw.getLsbD 1 = true ∧ leaf.translation.s2ap = 3 ∨
      ¬(u = v ∧ b ∈ list.map pageIndex) ∧ W u b = some leaf := by
  by_cases hit : u = v ∧ b ∈ list.map pageIndex
  · obtain ⟨rfl, member⟩ := hit
    obtain ⟨tr, sees, output, tag, access⟩ := borrows.mapped member
    obtain rfl := Option.some.inj (sees.symm.trans mapped)
    exact .inl ⟨rfl, member, rfl, output, tag, access⟩
  · exact .inr ⟨hit, (borrows.other u b hit).symm.trans mapped⟩

/-- Borrowing changes no page that was mapped. -/
theorem Borrows.forward {W W' : View} (borrows : Borrows v list W W') {u : VmId} {b : ℕ}
    {leaf : Leaf} (mapped : W u b = some leaf) : W' u b = some leaf := by
  rw [borrows.other u b, mapped]
  rintro ⟨rfl, member⟩
  rw [borrows.fresh b member] at mapped
  contradiction

theorem Borrows.nil (W : View) : Borrows v [] W W :=
  ⟨fun _ member => absurd member List.not_mem_nil, fun _ member => absurd member List.not_mem_nil,
    fun _ _ _ => rfl⟩

theorem Borrows.snoc {W : View} {done : List (U64 × ℕ)} (borrows : Borrows v done W space.view) {page : U64 × ℕ}
    (unmapped : space.view v (pageIndex page) = none) :
    Borrows v (done ++ [page]) W (space.map v (pageIndex page) (borrowedPage page)).view := by
  have absent : pageIndex page ∉ done.map pageIndex := by
    intro member
    obtain ⟨tr, mapped, -⟩ := borrows.mapped member
    rw [unmapped] at mapped
    contradiction
  refine ⟨?_, ?_, ?_⟩
  · intro a member
    rw [List.map_append, List.mem_append] at member
    rcases member with old | new
    · exact borrows.fresh a old
    · obtain rfl := List.mem_singleton.mp new
      rw [← borrows.other v (pageIndex page) fun hit => absent hit.2]
      exact unmapped
  · intro visited member
    rcases List.mem_append.mp member with old | new
    · have apart : pageIndex visited ≠ pageIndex page := fun same =>
        absent (same ▸ List.mem_map_of_mem old)
      simpa [Space.map, apart] using borrows.entry visited old
    · obtain rfl := List.mem_singleton.mp new
      simp [Space.map]
  · intro u b miss
    simp only [List.map_append, List.map_cons, List.map_nil, List.mem_append, List.mem_singleton, not_and,
      not_or] at miss
    rw [← borrows.other u b fun hit => (miss hit.1).1 hit.2]
    exact if_neg fun hit => (miss hit.1).2 hit.2

/-- Unmapping what was borrowed gives the view before. -/
theorem Borrows.rollback {W : View} (borrows : Borrows v list W space.view) :
    (space.unmapAll v (list.map pageIndex)).view = W := by
  funext u b
  by_cases hit : u = v ∧ b ∈ list.map pageIndex
  · obtain ⟨tr, mapped, -⟩ := borrows.mapped hit.2
    rw [hit.1, borrows.fresh b hit.2]
    change returned v (list.map pageIndex) space.view v b = none
    rw [returned, if_pos ⟨rfl, hit.2⟩, mapped]
    rfl
  · rw [← borrows.other u b hit]
    exact if_neg hit

/-- The map loop borrows every page, or rolls back to the view before. -/
theorem Refines.mapPages {W : View} {done : List (U64 × ℕ)} {result : Except I32 Unit}
    (refines : Refines root s space) (booted : root v ≠ 0) (borrows : Borrows v done W space.view)
    (run : mapPages ⟨root v⟩ ((s2apRw >>> s2apShift).setWidth 8) PageOwnership.sharedBorrowed.bits done list s =
      some (result, s')) :
    ∃ space', Refines root s' space' ∧
      (result = .ok () ∧ Borrows v (done ++ list) W space'.view ∨
        result = .error ffaDenied ∧ space'.view = W) := by
  induction list generalizing s space done with
  | nil =>
    obtain ⟨rfl, rfl⟩ := Prod.mk.inj (Option.some.inj run)
    exact ⟨space, refines, .inl ⟨rfl, by simpa using borrows⟩⟩
  | cons page rest ih =>
    rw [Hypervisor.mapPages] at run
    obtain ⟨ipa, inRange, run⟩ := Option.bind_eq_some_iff.mp run
    obtain ⟨mapped, s₁, space₁, step, refines₁, effect⟩ := refines.mapPage booted ipa
      ((s2apRw >>> s2apShift).setWidth 8) PageOwnership.sharedBorrowed.bits
    rw [bind_of_eq_some _ step] at run
    rcases effect with ⟨⟨text, rfl⟩, same⟩ | ⟨rfl, unmapped, sees⟩
    · obtain ⟨s₂, rollback, run⟩ := Option.bind_eq_some_iff.mp run
      obtain ⟨rfl, rfl⟩ := Prod.mk.inj (Option.some.inj run)
      rw [← same] at borrows
      exact ⟨_, refines₁.unmapPages booted rollback, .inr ⟨rfl, borrows.rollback⟩⟩
    · obtain rfl := visitedIpa_of_pageIpa inRange
      have next : Borrows v (done ++ [page]) W space₁.view := by
        rw [sees]
        exact borrows.snoc unmapped
      simpa using ih refines₁ next run

end Loops

end Hypervisor
