import Mathlib.Data.List.FinRange
import Mathlib.Logic.Function.Basic

/-! # Filling the first free slots

Items are put into a bank of slots one after the other, each into the first slot that is free; whether it
is may depend on the slot. The free slots are filled in order, and the items for which there is none are
left over, in order as well.
-/

namespace FirstFit

variable {n : ℕ} {S A : Type*} {free : Fin n → S → Bool} {make : A → S} {slots : Fin n → S}

def firstFree (free : Fin n → S → Bool) (slots : Fin n → S) : Option (Fin n) :=
  (List.finRange n).find? fun i => free i (slots i)

/-- The free slots, in order. -/
def freeSlots (free : Fin n → S → Bool) (slots : Fin n → S) : List (Fin n) :=
  (List.finRange n).filter fun i => free i (slots i)

/-- Put items into the first free slots; the items that find none are returned. -/
def fill (free : Fin n → S → Bool) (make : A → S) : List A → (Fin n → S) → (Fin n → S) × List A
  | [], slots => (slots, [])
  | item :: rest, slots =>
      match firstFree free slots with
      | some i => fill free make rest (Function.update slots i (make item))
      | none => ((fill free make rest slots).1, item :: (fill free make rest slots).2)

theorem firstFree_eq_head? : firstFree free slots = (freeSlots free slots).head? := (List.head?_filter ..).symm

theorem firstFree_eq_none : firstFree free slots = none ↔ ∀ i, free i (slots i) = false := by
  rw [firstFree, ← Fin.find?_eq_find?_finRange, Fin.find?_eq_none_iff]

theorem firstFree_eq_some {i : Fin n} :
    firstFree free slots = some i ↔ free i (slots i) = true ∧ ∀ j < i, free j (slots j) = false := by
  rw [firstFree, ← Fin.find?_eq_find?_finRange, Fin.find?_eq_some_iff]

theorem mem_freeSlots {i : Fin n} : i ∈ freeSlots free slots ↔ free i (slots i) = true := by
  rw [freeSlots, List.mem_filter]
  exact and_iff_right (List.mem_finRange i)

theorem nodup_freeSlots : (freeSlots free slots).Nodup := (List.nodup_finRange n).filter _

/-- A slot that is filled is no longer free. -/
theorem freeSlots_update {i : Fin n} {rest : List (Fin n)} {s : S} (busy : free i s = false)
    (first : freeSlots free slots = i :: rest) : freeSlots free (Function.update slots i s) = rest := by
  have others : freeSlots free (Function.update slots i s) = (freeSlots free slots).filter (· ≠ i) := by
    rw [freeSlots, freeSlots, List.filter_filter]
    apply List.filter_congr
    intro j _
    by_cases same : j = i
    · rw [same, Function.update_self, busy]
      simp
    · rw [Function.update_of_ne same]
      simp [same]
  have apart : i ∉ rest := (List.nodup_cons.mp (first ▸ nodup_freeSlots)).1
  rw [others, first, List.filter_cons_of_neg (by simp), List.filter_eq_self]
  intro j member
  exact decide_eq_true fun same => apart (same ▸ member)

/-- The slots after items were put into them: the k-th free one has the k-th item. -/
structure Filled (free : Fin n → S → Bool) (make : A → S) (items : List A) (before after : Fin n → S) : Prop where
  kept : ∀ i, free i (before i) = false → after i = before i
  placed : ∀ (k : ℕ) (i : Fin n), (freeSlots free before)[k]? = some i → after i = (items[k]?).elim (before i) make

theorem fill_of_freeSlots_nil (none : freeSlots free slots = []) (items : List A) :
    fill free make items slots = (slots, items) := by
  induction items with
  | nil => rfl
  | cons item rest ih => rw [fill, firstFree_eq_head?, none, List.head?_nil, ih]

/-- What `fill` does. -/
theorem filled_fill (busy : ∀ i item, free i (make item) = false) (items : List A) (slots : Fin n → S) :
    Filled free make items slots (fill free make items slots).1 ∧
      (fill free make items slots).2 = items.drop (freeSlots free slots).length := by
  induction items generalizing slots with
  | nil => exact ⟨⟨fun _ _ => rfl, fun _ _ _ => rfl⟩, List.drop_nil.symm⟩
  | cons item rest ih =>
      cases slots' : freeSlots free slots with
      | nil =>
          rw [fill_of_freeSlots_nil slots']
          refine ⟨⟨fun _ _ => rfl, ?_⟩, rfl⟩
          intro k i here
          rw [slots'] at here
          cases here
      | cons first others =>
          rw [fill, firstFree_eq_head?, slots', List.head?_cons]
          obtain ⟨⟨kept, placed⟩, left⟩ := ih (Function.update slots first (make item))
          rw [freeSlots_update (busy first item) slots'] at placed left
          refine ⟨⟨?_, ?_⟩, left⟩
          · intro i used
            have other : i ≠ first := by
              rintro rfl
              have unused : free i (slots i) = true := mem_freeSlots.mp (slots' ▸ List.mem_cons_self)
              cases used.symm.trans unused
            rw [← Function.update_of_ne other (make item) slots] at used ⊢
            exact kept i used
          · intro k i here
            rw [slots'] at here
            cases k with
            | zero =>
                cases here
                have last := kept first
                rw [Function.update_self] at last
                exact last (busy first item)
            | succ k =>
                have other : i ≠ first := by
                  rintro rfl
                  have nodup : (i :: others).Nodup := slots' ▸ nodup_freeSlots
                  exact (List.nodup_cons.mp nodup).1 (List.mem_of_getElem? here)
                have later := placed k i here
                rw [Function.update_of_ne other] at later
                exact later

namespace Filled

variable {items : List A} {before after : Fin n → S} {i : Fin n} {item : A}

/-- A slot with something new in it is a free one, in the place of an item. -/
theorem place_of_new (filled : Filled free make items before after) (new : after i ≠ before i) :
    ∃ k : ℕ, (freeSlots free before)[k]? = some i ∧ ∃ item, items[k]? = some item ∧ after i = make item := by
  have unused : free i (before i) = true := by
    by_contra used
    exact new (filled.kept i (Bool.not_eq_true _ ▸ used))
  obtain ⟨k, here⟩ := List.mem_iff_getElem?.mp (mem_freeSlots.mpr unused)
  have after := filled.placed k i here
  cases there : items[k]? with
  | none =>
      rw [there] at after
      exact absurd after new
  | some item =>
      rw [there] at after
      exact ⟨k, here, item, there, after⟩

/-- As many slots change as there are items and free slots. -/
theorem length_changed [DecidableEq S] (filled : Filled free make items before after)
    (busy : ∀ i item, free i (make item) = false) :
    ((List.finRange n).filter fun i => after i ≠ before i).length =
      min items.length (freeSlots free before).length := by
  rw [← List.length_take]
  refine List.Perm.length_eq ((List.perm_ext_iff_of_nodup ((List.nodup_finRange n).filter _)
    (nodup_freeSlots.sublist (List.take_sublist ..))).mpr fun i => ?_)
  rw [List.mem_filter, and_iff_right (List.mem_finRange i), decide_eq_true_iff]
  constructor
  · intro new
    obtain ⟨k, here, item, there, -⟩ := filled.place_of_new new
    refine List.mem_of_getElem? (i := k) ?_
    rw [List.getElem?_take, if_pos (List.getElem?_eq_some_iff.mp there).1, here]
  · intro member
    obtain ⟨k, here⟩ := List.mem_iff_getElem?.mp member
    rw [List.getElem?_take] at here
    split_ifs at here with inside
    have placed := filled.placed k i here
    rw [List.getElem?_eq_getElem inside, Option.elim_some] at placed
    intro same
    have unused := mem_freeSlots.mp (List.mem_of_getElem? here)
    rw [← same, placed, busy] at unused
    cases unused

section Distinct

variable (filled : Filled free make items before after) (busy : ∀ i item, free i (make item) = false)
  (injective : ∀ item ∈ items, ∀ item' ∈ items, make item = make item' → item = item')

include filled busy injective

/-- The place of an item is that of the slot which holds it. -/
theorem place_of_holds (member : item ∈ items) (unused : free i (before i) = true) (holds : after i = make item) :
    ∃ k : ℕ, (freeSlots free before)[k]? = some i ∧ items[k]? = some item := by
  have new : after i ≠ before i := by
    intro same
    rw [← same, holds, busy] at unused
    cases unused
  obtain ⟨k, here, other, there, placed⟩ := filled.place_of_new new
  have same := injective item member other (List.mem_of_getElem? there) (holds.symm.trans placed)
  exact ⟨k, here, same ▸ there⟩

/-- The items for which there is a free slot are each in one of them. -/
theorem existsUnique_of_mem_take (nodup : items.Nodup) (first : item ∈ items.take (freeSlots free before).length) :
    ∃! i, free i (before i) = true ∧ after i = make item := by
  obtain ⟨k, there⟩ := List.mem_iff_getElem?.mp first
  rw [List.getElem?_take] at there
  split_ifs at there with inside
  have here := List.getElem?_eq_getElem inside
  refine ⟨_, ⟨mem_freeSlots.mp (List.mem_of_getElem? here), ?_⟩, ?_⟩
  · rw [filled.placed k _ here, there, Option.elim_some]
  · rintro j ⟨unused, holds⟩
    obtain ⟨k', here', there'⟩ :=
      filled.place_of_holds busy injective (List.mem_of_getElem? there) unused holds
    have bound := (List.getElem?_eq_some_iff.mp there).1
    obtain rfl := (List.getElem?_inj bound nodup).mp (there.trans there'.symm)
    exact (Option.some.inj (here.symm.trans here')).symm

/-- The others are in none. -/
theorem not_holds_of_mem_drop (nodup : items.Nodup) (last : item ∈ items.drop (freeSlots free before).length)
    (unused : free i (before i) = true) : after i ≠ make item := by
  intro holds
  obtain ⟨k, there⟩ := List.mem_iff_getElem?.mp last
  rw [List.getElem?_drop] at there
  obtain ⟨k', here', there'⟩ :=
    filled.place_of_holds busy injective (List.mem_of_getElem? there) unused holds
  have inside := (List.getElem?_eq_some_iff.mp here').1
  have same := (List.getElem?_inj (List.getElem?_eq_some_iff.mp there').1 nodup).mp (there'.trans there.symm)
  omega

end Distinct

end Filled

/-! ## Keys -/

variable {K : Type*} {used : S → Prop} {key : S → K}

/-- No key is in two slots that are in use. -/
def Unique (used : S → Prop) (key : S → K) (slots : Fin n → S) : Prop :=
  ∀ i j, used (slots i) → used (slots j) → key (slots i) = key (slots j) → i = j

/-- Slots that go out of use leave the keys unique. -/
theorem Unique.of_used {before after : Fin n → S} (unique : Unique used key before)
    (fewer : ∀ i, used (after i) → used (before i) ∧ key (after i) = key (before i)) : Unique used key after := by
  intro i j usei usej same
  obtain ⟨wasi, keyi⟩ := fewer i usei
  obtain ⟨wasj, keyj⟩ := fewer j usej
  exact unique i j wasi wasj (keyi.symm.trans (same.trans keyj))

/-- Filling keeps the keys unique exactly if no item that finds a slot has a key in use. -/
theorem Filled.unique_iff {items : List A} {before after : Fin n → S} (filled : Filled free make items before after)
    (unique : Unique used key before) (unused : ∀ i s, free i s = true → ¬used s) (busy : ∀ item, used (make item))
    (distinct : (items.map fun item => key (make item)).Nodup) :
    Unique used key after ↔ ∀ item ∈ items.take (freeSlots free before).length,
      ∀ i, used (before i) → key (before i) ≠ key (make item) := by
  have keeps {i : Fin n} (use : used (before i)) : after i = before i :=
    filled.kept i (Bool.eq_false_iff.mpr fun free => unused i _ free use)
  have old_or_new {i : Fin n} : after i = before i ∨
      ∃ k : ℕ, (freeSlots free before)[k]? = some i ∧ ∃ item, items[k]? = some item ∧ after i = make item := by
    by_cases same : after i = before i
    · exact .inl same
    · exact .inr (filled.place_of_new same)
  constructor
  · intro after_unique item member i use same
    obtain ⟨k, there⟩ := List.mem_iff_getElem?.mp member
    rw [List.getElem?_take] at there
    split_ifs at there with inside
    have here := List.getElem?_eq_getElem inside
    have placed := filled.placed k _ here
    rw [there, Option.elim_some] at placed
    have one := after_unique i _ (keeps use ▸ use) (placed ▸ busy item) (by rw [keeps use, placed, same])
    exact unused _ _ (mem_freeSlots.mp (List.mem_of_getElem? here)) (one ▸ use)
  · intro fresh i j usei usej same
    -- an item in slot `i` has a key that slot `j` does not have, unless it has the same item
    have placed_ne {i j : Fin n} {k : ℕ} {item : A} (here : (freeSlots free before)[k]? = some i)
        (there : items[k]? = some item) (usej : used (after j)) (same : key (make item) = key (after j)) : i = j := by
      rcases old_or_new (i := j) with old | ⟨k', here', item', there', placed'⟩
      · have first : item ∈ items.take (freeSlots free before).length := by
          refine List.mem_of_getElem? (i := k) ?_
          rw [List.getElem?_take, if_pos (List.getElem?_eq_some_iff.mp here).1, there]
        exact absurd (old ▸ same.symm) (fresh item first j (old ▸ usej))
      · have keys : (items.map fun item => key (make item))[k]? = (items.map fun item => key (make item))[k']? := by
          rw [List.getElem?_map, List.getElem?_map, there, there', Option.map_some, Option.map_some, same, placed']
        have bound : k < (items.map fun item => key (make item)).length := by
          rw [List.length_map]
          exact (List.getElem?_eq_some_iff.mp there).1
        obtain rfl := (List.getElem?_inj bound distinct).mp keys
        exact Option.some.inj (here.symm.trans here')
    rcases old_or_new (i := i) with old | ⟨k, here, item, there, placed⟩
    · rcases old_or_new (i := j) with old' | ⟨k, here, item, there, placed⟩
      · exact unique i j (old ▸ usei) (old' ▸ usej) (old ▸ old' ▸ same)
      · exact (placed_ne here there usei (placed ▸ same.symm)).symm
    · exact placed_ne here there usej (placed ▸ same)

end FirstFit
