import Hypervisor.Radix.Update
import Hypervisor.Proofs.Descriptor
import Hypervisor.Proofs.Heap

/-! # Sound tables and the view of a VM

`Tables` is the invariant of the memory that holds page tables: a radix layout in which each table
belongs to one VM, on pages of a heap that still has `room` pages. `view` is what the MMU makes of
it: the leaf that maps a page of a VM. The two lemmas about stores, `Tables.store` and
`Tables.attach`, say what an edit of a leaf and a new table do to the view of every VM.
-/

namespace Hypervisor

open Radix

/-- What maps a page: the height of the leaf (0 for a 4KB page, 1 for a 2MB block, 2 for a 1GB
block) and the translation. -/
structure Leaf where
  height : ℕ
  translation : Translation
deriving DecidableEq, Repr

/-- The leaf that an entry of a table at height `k` is for page `a`. -/
def entryLeaf (k a : ℕ) (entry : U64) : Option Leaf :=
  if entry.getLsbD 0 then some ⟨k, translate k a entry⟩ else none

/-- Where the walk of page `a` ends. -/
def walk (mem : PhysMem) (l0Table : U64) (a : ℕ) : Stop U64 := descend nextTable 512 mem 3 l0Table a

/-- The leaf of page `a` under an L0 table; an L0 entry is never a leaf. -/
def leafAt (mem : PhysMem) (l0Table : U64) (a : ℕ) : Option Leaf :=
  let stop := walk mem l0Table a
  if stop.height < 3 then entryLeaf stop.height a (mem stop.slot) else none

/-- The leaf of page `a` in the tables of VM `v`; there is none before the VM has tables, and none
beyond the 36 bits of a page number. -/
def view (root : VmId → U64) (mem : PhysMem) (v : VmId) (a : ℕ) : Option Leaf :=
  if root v ≠ 0 ∧ a < 2 ^ 36 then leafAt mem (root v) a else none

theorem lt_of_view {root : VmId → U64} {mem : PhysMem} {v : VmId} {a : ℕ} {leaf : Leaf}
    (mapped : view root mem v a = some leaf) : a < 2 ^ 36 := by
  rw [view] at mapped
  split_ifs at mapped with served
  exact served.2

/-- Sound tables of all VMs, and a heap with `room` pages left. -/
structure Tables (root : VmId → U64) (s : Phys) (role : U64 → Option (Role VmId)) (room : ℕ) :
    Prop where
  layout : Layout nextTable 512 s.mem role
  page : ∀ {t r}, role t = some r → HeapPage t
  /-- The address of a 2MB block is aligned. -/
  blocks : ∀ {t v b i}, role t = some ⟨v, 1, b⟩ → i < 512 → (s.mem ⟨t, i⟩).getLsbD 0 = true →
    (s.mem ⟨t, i⟩).getLsbD 1 = false → s.mem ⟨t, i⟩ &&& BitVec.mask 12 9 = 0
  heap : HeapSound s.heap s.mem (fun t => role t ≠ none) room
  roots : ∀ v, root v ≠ 0 → role (root v) = some ⟨v, 3, 0⟩

section Stores

variable {root : VmId → U64} {s s' : Phys} {role : U64 → Option (Role VmId)} {room room' : ℕ}
  {v u : VmId} {a b k : ℕ} {t p e : U64}

/-- No tables, on a heap of which nothing is in use yet. -/
theorem HeapSound.tables (heap : HeapSound s.heap s.mem (fun _ => False) room) (unused : ∀ v, root v = 0) :
    Tables root s (fun _ => none) room where
  layout := nofun
  page := nofun
  blocks := nofun
  heap := by simpa using heap
  roots v booted := absurd (unused v) booted

theorem Tables.start (tables : Tables root s role room) (booted : root v ≠ 0) (bound : a < 2 ^ 36) :
    role (root v) = some ⟨v, 3, a / 512 ^ (3 + 1)⟩ := by
  rw [tables.roots v booted, Nat.div_eq_of_lt (by simpa using bound)]

theorem page_lt_of_same {k : ℕ} (height : k < 3) (bound : a < 2 ^ 36)
    (same : b / 512 ^ k = a / 512 ^ k) : b < 2 ^ 36 := by
  interval_cases k <;> norm_num at same <;> omega

/-- The entry behind a leaf, in the table that serves its page. -/
theorem Tables.of_view (tables : Tables root s role room) {leaf : Leaf}
    (mapped : view root s.mem v a = some leaf) :
    ∃ t, role t = some ⟨v, leaf.height, a / 512 ^ (leaf.height + 1)⟩ ∧ a < 2 ^ 36 ∧ leaf.height < 3 ∧
      (s.mem ⟨t, digit 512 leaf.height a⟩).getLsbD 0 = true ∧
      (leaf.height = 0 ∨ nextTable (s.mem ⟨t, digit 512 leaf.height a⟩) = none) ∧
      leaf.translation = translate leaf.height a (s.mem ⟨t, digit 512 leaf.height a⟩) := by
  rw [view] at mapped
  split_ifs at mapped with served
  obtain ⟨booted, bound⟩ := served
  obtain ⟨⟨k, t, i⟩, stop⟩ : ∃ stop, walk s.mem (root v) a = stop := ⟨_, rfl⟩
  obtain ⟨reach, index, ends⟩ := tableAt_of_descend stop
  dsimp only at reach index ends
  subst index
  simp only [leafAt, entryLeaf, stop] at mapped
  split_ifs at mapped with height valid
  obtain rfl := Option.some.inj mapped
  exact ⟨t, tables.layout.tableAt_role (by decide) (tables.start booted bound) reach, bound, height, valid,
    ends, rfl⟩

/-- An entry that is not a link maps the pages it serves. -/
theorem Tables.view_of_stop (tables : Tables root s role room) (booted : root v ≠ 0) (bound : b < 2 ^ 36)
    (height : k < 3) (reach : tableAt nextTable 512 s.mem k 3 (root v) a = some t)
    (same : b / 512 ^ k = a / 512 ^ k) (ends : k = 0 ∨ nextTable (s.mem ⟨t, digit 512 k a⟩) = none) :
    view root s.mem v b = entryLeaf k b (s.mem ⟨t, digit 512 k a⟩) := by
  have reach' : tableAt nextTable 512 s.mem k 3 (root v) b = some t := by
    rw [tableAt_congr (above_mono (Nat.le_succ k) same), reach]
  have stop : walk s.mem (root v) b = ⟨k, t, digit 512 k a⟩ := by
    rw [walk, tables.layout.descend_from (by decide) (tables.start booted bound) reach' fun _ _ _ _ => rfl]
    cases k with
    | zero => rw [descend, digit_congr le_rfl same]
    | succ k => rw [descend, digit_congr le_rfl same, ends.resolve_left (Nat.succ_ne_zero k)]
  rw [view, if_pos ⟨booted, bound⟩, leafAt, stop]
  exact if_pos height

/-- A store to a slot that serves page `a` changes the pages served by that slot, and no others. -/
theorem Tables.store (tables : Tables root s role room) (booted : root v ≠ 0) (bound : a < 2 ^ 36)
    (height : k < 3) (reach : tableAt nextTable 512 s.mem k 3 (root v) a = some t)
    (leaf : k = 0 ∨ nextTable e = none)
    (blocked : k = 1 → e.getLsbD 0 = true → e &&& BitVec.mask 12 9 = 0) :
    Tables root (s.write ⟨t, digit 512 k a⟩ e) role room ∧
      ∀ u b, view root (s.write ⟨t, digit 512 k a⟩ e).mem u b =
        if u = v ∧ b / 512 ^ k = a / 512 ^ k then entryLeaf k b e else view root s.mem u b := by
  have start := tables.start booted bound
  have here := tables.layout.tableAt_role (by decide) start reach
  refine ⟨⟨tables.layout.overwrite (by decide) start reach leaf, tables.page, ?_, ?_, tables.roots⟩, ?_⟩
  · intro t' w c i serves index valid isBlock
    by_cases same : (⟨t', i⟩ : PtePtr) = ⟨t, digit 512 k a⟩
    · obtain ⟨rfl, -⟩ := Slot.mk.injEq .. ▸ same
      rw [here] at serves
      obtain ⟨-, rfl, -⟩ := Role.mk.injEq .. ▸ Option.some.inj serves
      simp only [Phys.write_mem, same, Function.update_self] at valid ⊢
      exact blocked rfl valid
    · simp only [Phys.write_mem, Function.update_of_ne same] at valid isBlock ⊢
      exact tables.blocks serves index valid isBlock
  · refine tables.heap.frame fun q free => ?_
    rw [Phys.write_mem, Function.update_of_ne]
    intro meets
    obtain ⟨rfl, -⟩ := Slot.mk.injEq .. ▸ meets
    exact free (by simp [here])
  · intro u b
    by_cases hit : u = v ∧ b / 512 ^ k = a / 512 ^ k
    · obtain ⟨rfl, same⟩ := hit
      have bound' := page_lt_of_same height bound same
      rw [if_pos ⟨rfl, same⟩, view, if_pos ⟨booted, bound'⟩, leafAt, walk, Phys.write_mem,
        tables.layout.overwrite_hit (by decide) start reach leaf (tables.start booted bound') same]
      simp only [height, if_true, Function.update_self]
    · rw [if_neg hit, view, view]
      split_ifs with mapped
      · obtain ⟨stop, entry⟩ := tables.layout.overwrite_miss (e := e) (by decide) start reach
          (tables.start mapped.1 mapped.2) fun owner same => hit ⟨owner, same⟩
        simp only [leafAt, walk, Phys.write_mem, stop, entry]
        rfl
      · rfl

/-- A new table under a slot that serves page `a` maps the pages served by that slot. -/
theorem Tables.attach {new : ℕ → U64} (tables : Tables root s role room) (s' : Phys)
    (booted : root v ≠ 0) (bound : a < 2 ^ 36) (low : k < 2)
    (reach : tableAt nextTable 512 s.mem (k + 1) 3 (root v) a = some t)
    (fresh : role p = none) (page : HeapPage p)
    (frame : ∀ slot : PtePtr, slot ≠ ⟨t, digit 512 (k + 1) a⟩ → slot.table ≠ p →
      s'.mem slot = s.mem slot)
    (entry : s'.mem ⟨t, digit 512 (k + 1) a⟩ = tableDesc p)
    (entries : ∀ i < 512, s'.mem ⟨p, i⟩ = new i) (leaf : k = 0 ∨ ∀ i < 512, new i = 0)
    (heap : HeapSound s'.heap s'.mem (fun q => q = p ∨ role q ≠ none) room') :
    (∃ role', Tables root s' role' room') ∧ walk s'.mem (root v) a = ⟨k, p, digit 512 k a⟩ ∧
      ∀ u b, view root s'.mem u b =
        if u = v ∧ b / 512 ^ (k + 1) = a / 512 ^ (k + 1) then entryLeaf k b (new (digit 512 k b))
        else view root s.mem u b := by
  have start := tables.start booted bound
  have link : nextTable (s'.mem ⟨t, digit 512 (k + 1) a⟩) = some p := by
    rw [entry, nextTable_tableDesc page.table]
  have leaf' : ∀ i < 512, k = 0 ∨ nextTable (s'.mem ⟨p, i⟩) = none := by
    intro i index
    rcases leaf with zero | zeros
    · exact .inl zero
    · rw [entries i index, zeros i index]
      exact .inr (by decide)
  refine ⟨⟨Function.update role p (some ⟨v, k, a / 512 ^ (k + 1)⟩), ?_⟩,
    tables.layout.link_hit (by decide) start reach fresh frame link leaf' start rfl, ?_⟩
  · refine ⟨tables.layout.link (by decide) start reach fresh frame link leaf', ?_, ?_, ?_, ?_⟩
    · intro q r served
      by_cases new : q = p
      · exact new ▸ page
      · rw [Function.update_of_ne new] at served
        exact tables.page served
    · intro q w c i serves index valid isBlock
      by_cases isNew : q = p
      · subst isNew
        rw [Function.update_self] at serves
        obtain ⟨-, rfl, -⟩ := Role.mk.injEq .. ▸ Option.some.inj serves
        rw [entries i index, (leaf.resolve_left (by decide)) i index] at valid
        exact absurd valid (by decide)
      · rw [Function.update_of_ne isNew] at serves
        have other : (⟨q, i⟩ : PtePtr) ≠ ⟨t, digit 512 (k + 1) a⟩ := by
          intro same
          rw [same] at isBlock
          rw [(nextTable_eq_none _).mpr (.inr isBlock)] at link
          contradiction
        rw [frame _ other isNew] at valid isBlock ⊢
        exact tables.blocks serves index valid isBlock
    · convert heap using 2 with q
      by_cases isNew : q = p
      · simp [isNew]
      · simp [isNew]
    · intro w rooted
      rw [Function.update_of_ne, tables.roots w rooted]
      rintro rfl
      rw [tables.roots w rooted] at fresh
      contradiction
  · intro u b
    by_cases hit : u = v ∧ b / 512 ^ (k + 1) = a / 512 ^ (k + 1)
    · obtain ⟨rfl, same⟩ := hit
      have bound' := page_lt_of_same (by omega) bound same
      have stop := tables.layout.link_hit (by decide) start reach fresh frame link leaf'
        (tables.start booted bound') same
      rw [if_pos ⟨rfl, same⟩, view, if_pos ⟨booted, bound'⟩, leafAt, walk, stop]
      simp only [show k < 3 by omega, if_true, entries _ (digit_lt (by decide) k b)]
    · rw [if_neg hit, view, view]
      split_ifs with mapped
      · obtain ⟨stop, same⟩ := tables.layout.link_miss (by decide) start reach fresh frame link
          (tables.start mapped.1 mapped.2) fun owner same => hit ⟨owner, same⟩
        simp only [leafAt, walk, stop, same]
        rfl
      · rfl

/-- Two pages from the heap become the L0 and the L1 table of a VM that maps nothing yet. -/
theorem Tables.newRoot (tables : Tables root s role room) (s' : Phys) (v : VmId) {l0 l1 : U64}
    (page₀ : HeapPage l0) (page₁ : HeapPage l1) (fresh₀ : role l0 = none) (fresh₁ : role l1 = none)
    (apart : l0 ≠ l1)
    (frame : ∀ slot : PtePtr, slot.table ≠ l0 → slot.table ≠ l1 → s'.mem slot = s.mem slot)
    (link : s'.mem ⟨l0, 0⟩ = tableDesc l1) (zeros₀ : ∀ i < 512, i ≠ 0 → s'.mem ⟨l0, i⟩ = 0)
    (zeros₁ : ∀ i < 512, s'.mem ⟨l1, i⟩ = 0)
    (heap : HeapSound s'.heap s'.mem (fun q => q = l1 ∨ q = l0 ∨ role q ≠ none) room') :
    (∃ role', Tables (Function.update root v l0) s' role' room') ∧
      (∀ u, u ≠ v → view (Function.update root v l0) s'.mem u = view root s.mem u) ∧
      ∀ a, view (Function.update root v l0) s'.mem v a = none := by
  have used : ∀ {q r}, role q = some r → q ≠ l0 ∧ q ≠ l1 := by
    intro q r serves
    constructor
    · rintro rfl
      rw [fresh₀] at serves
      contradiction
    · rintro rfl
      rw [fresh₁] at serves
      contradiction
  have frame' : ∀ q i, role q ≠ none → s'.mem ⟨q, i⟩ = s.mem ⟨q, i⟩ := by
    intro q i serves
    obtain ⟨r, serves⟩ := Option.ne_none_iff_exists'.mp serves
    exact frame _ (used serves).1 (used serves).2
  have empty : nextTable 0 = none := by decide
  have layout₁ : Layout nextTable 512 s'.mem (Function.update role l1 (some ⟨v, 2, 0⟩)) := by
    refine tables.layout.plant fresh₁ frame' fun i index t' target => ?_
    rw [zeros₁ i index, empty] at target
    contradiction
  have layout₀ : Layout nextTable 512 s'.mem
      (Function.update (Function.update role l1 (some ⟨v, 2, 0⟩)) l0 (some ⟨v, 3, 0⟩)) := by
    refine layout₁.plant (by rw [Function.update_of_ne apart, fresh₀]) (fun _ _ _ => rfl) fun i index t' target => ?_
    rintro j ⟨⟩
    by_cases zero : i = 0
    · subst zero
      rw [link, nextTable_tableDesc page₁.table] at target
      obtain rfl := Option.some.inj target
      rw [Function.update_self]
    · rw [zeros₀ i index zero, empty] at target
      contradiction
  refine ⟨⟨_, layout₀, ?_, ?_, ?_, ?_⟩, ?_, ?_⟩
  · intro q r serves
    by_cases isL0 : q = l0
    · exact isL0 ▸ page₀
    · rw [Function.update_of_ne isL0] at serves
      by_cases isL1 : q = l1
      · exact isL1 ▸ page₁
      · rw [Function.update_of_ne isL1] at serves
        exact tables.page serves
  · intro q w c i serves index valid block
    have old : role q = some ⟨w, 1, c⟩ := by
      by_cases isL0 : q = l0
      · subst isL0
        simp at serves
      · rw [Function.update_of_ne isL0] at serves
        by_cases isL1 : q = l1
        · subst isL1
          simp at serves
        · rwa [Function.update_of_ne isL1] at serves
    rw [frame' q i (by simp [old])] at valid block ⊢
    exact tables.blocks old index valid block
  · convert heap using 2 with q
    by_cases isL0 : q = l0
    · simp [isL0]
    · by_cases isL1 : q = l1
      · simp [isL1, Function.update_of_ne (Ne.symm apart)]
      · simp [isL0, isL1]
  · intro u rooted
    by_cases owner : u = v
    · subst owner
      rw [Function.update_self, Function.update_self]
    · rw [Function.update_of_ne owner] at rooted ⊢
      have serves := tables.roots u rooted
      rw [Function.update_of_ne (used serves).1, Function.update_of_ne (used serves).2, serves]
  · intro u other
    funext b
    rw [view, view, Function.update_of_ne other]
    split_ifs with mapped
    · obtain ⟨stop, entry⟩ := tables.layout.descend_agree (by decide) (tables.start mapped.1 mapped.2)
        fun q j serves => frame' q _ (by simp [serves])
      simp only [leafAt, walk, stop, entry]
      rfl
    · rfl
  · intro a
    rw [view, Function.update_self]
    split_ifs
    · by_cases first : digit 512 3 a = 0
      · simp only [leafAt, walk, descend, first, link, nextTable_tableDesc page₁.table,
          zeros₁ _ (digit_lt (by decide) 2 a), empty]
        rfl
      · simp only [leafAt, walk, descend, zeros₀ _ (digit_lt (by decide) 3 a) first, empty, lt_irrefl, if_false]
    · rfl

end Stores

end Hypervisor
