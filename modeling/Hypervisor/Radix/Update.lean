import Hypervisor.Radix.Walk

/-! # What one store does to every walk

Two stores to tables in use occur in table code. `overwrite` puts an entry that ends walks into a slot that a walk
passes through; the keys served by that slot now stop there. `link` makes such a slot point to a
table that was not in use; the keys served by the slot now stop one height lower. All other keys
and all other owners keep their walks, because a slot serves one owner and one prefix.
-/

namespace Radix

variable {T E V : Type} [DecidableEq T] {next : E → Option T} {fan : ℕ}
  {mem mem' : Slot T → E} {role : T → Option (Role V)} {v w : V} {h k a b hs : ℕ} {t s t₀ t₁ : T} {e : E}

namespace Layout

omit [DecidableEq T] in
/-- A slot on one walk is met by another walk only for the same owner and prefix. -/
private theorem slot_served {t' : T} {j : ℕ} (here : role t₀ = some ⟨v, k, a / fan ^ (k + 1)⟩)
    (there : role t' = some ⟨w, j, b / fan ^ (j + 1)⟩)
    (same : (⟨t', digit fan j b⟩ : Slot T) = ⟨t₀, digit fan k a⟩) :
    w = v ∧ j = k ∧ b / fan ^ k = a / fan ^ k := by
  obtain ⟨rfl, index⟩ := Slot.mk.injEq .. ▸ same
  rw [here] at there
  obtain ⟨rfl, rfl, above⟩ := Role.mk.injEq .. ▸ Option.some.inj there
  refine ⟨rfl, rfl, ?_⟩
  rw [← above_digit k b, ← above_digit k a, ← above, index]

/-- A table that was not in use takes a role that its entries respect, whatever happens outside the
tables in use. -/
theorem plant (layout : Layout next fan mem role) (fresh : role t = none)
    (frame : ∀ t' i, role t' ≠ none → mem' ⟨t', i⟩ = mem ⟨t', i⟩)
    (entries : ∀ i < fan, ∀ t', next (mem' ⟨t, i⟩) = some t' → ∀ j, h = j + 1 → role t' = some ⟨v, j, b * fan + i⟩) :
    Layout next fan mem' (Function.update role t (some ⟨v, h, b⟩)) := by
  -- no table in use points to the new one
  have keep : ∀ {t' r}, role t' = some r → Function.update role t (some ⟨v, h, b⟩) t' = some r := by
    intro t' r used
    rw [Function.update_of_ne, used]
    rintro rfl
    rw [fresh] at used
    contradiction
  intro t₁ t₂ w j c i serves bound target
  by_cases new : t₁ = t
  · subst new
    rw [Function.update_self] at serves
    obtain ⟨rfl, rfl, rfl⟩ := Role.mk.injEq .. ▸ Option.some.inj serves
    exact keep (entries i bound t₂ target j rfl)
  · rw [Function.update_of_ne new] at serves
    rw [frame t₁ i (by simp [serves])] at target
    exact keep (layout serves bound target)

section Overwrite

variable (layout : Layout next fan mem role) (positive : 0 < fan)
  (start : role t = some ⟨v, h, a / fan ^ (h + 1)⟩)
  (reach : tableAt next fan mem k h t a = some t₀)
include layout positive start reach

/-- An entry that is not a table keeps the layout. -/
theorem overwrite (leaf : k = 0 ∨ next e = none) :
    Layout next fan (Function.update mem ⟨t₀, digit fan k a⟩ e) role := by
  intro t₁ t₂ w j c i serves bound entry
  have here := layout.tableAt_role positive start reach
  by_cases same : (⟨t₁, i⟩ : Slot T) = ⟨t₀, digit fan k a⟩
  · rw [same, Function.update_self] at entry
    obtain ⟨rfl, -⟩ := Slot.mk.injEq .. ▸ same
    rw [here] at serves
    obtain ⟨-, rfl, -⟩ := Role.mk.injEq .. ▸ Option.some.inj serves
    rcases leaf with zero | none
    · omega
    · rw [none] at entry; contradiction
  · rw [Function.update_of_ne same] at entry
    exact layout serves bound entry

/-- The keys served by the slot stop in it. -/
theorem overwrite_hit (leaf : k = 0 ∨ next e = none)
    (start' : role t = some ⟨v, h, b / fan ^ (h + 1)⟩) (same : b / fan ^ k = a / fan ^ k) :
    descend next fan (Function.update mem ⟨t₀, digit fan k a⟩ e) h t b =
      ⟨k, t₀, digit fan k a⟩ := by
  have here := layout.tableAt_role positive start reach
  have reach' : tableAt next fan mem k h t b = some t₀ := by
    rw [tableAt_congr (above_mono (Nat.le_succ k) same), reach]
  have index : digit fan k b = digit fan k a := digit_congr le_rfl same
  rw [layout.descend_from positive start' reach' ?_]
  · cases k with
    | zero => rw [descend, index]
    | succ k =>
      have none : next e = none := leaf.resolve_left (by omega)
      rw [descend, index, Function.update_self, none]
  · intro t' j above serves
    rw [Function.update_of_ne]
    intro meets
    exact absurd (slot_served here serves meets).2.1 (by omega)

/-- Every other key and every other owner keep their walks. -/
theorem overwrite_miss (start' : role s = some ⟨w, hs, b / fan ^ (hs + 1)⟩)
    (apart : w = v → b / fan ^ k ≠ a / fan ^ k) :
    descend next fan (Function.update mem ⟨t₀, digit fan k a⟩ e) hs s b = descend next fan mem hs s b ∧
      Function.update mem ⟨t₀, digit fan k a⟩ e (descend next fan mem hs s b).slot =
        mem (descend next fan mem hs s b).slot := by
  apply layout.descend_agree positive start'
  intro t' j serves
  rw [Function.update_of_ne]
  intro meets
  obtain ⟨owner, -, above⟩ := slot_served (layout.tableAt_role positive start reach) serves meets
  exact apart owner above

end Overwrite

section Link

variable (layout : Layout next fan mem role) (positive : 0 < fan)
  (start : role t = some ⟨v, h, a / fan ^ (h + 1)⟩)
  (reach : tableAt next fan mem (k + 1) h t a = some t₀)
  (fresh : role t₁ = none)
  (frame : ∀ slot : Slot T, slot ≠ ⟨t₀, digit fan (k + 1) a⟩ → slot.table ≠ t₁ → mem' slot = mem slot)
  (entry : next (mem' ⟨t₀, digit fan (k + 1) a⟩) = some t₁)
include layout positive start reach fresh frame entry

/-- The new table takes the role of the slot that points to it. -/
theorem link (leaf : ∀ i < fan, k = 0 ∨ next (mem' ⟨t₁, i⟩) = none) :
    Layout next fan mem' (Function.update role t₁ (some ⟨v, k, a / fan ^ (k + 1)⟩)) := by
  intro t₂ t₃ w j c i serves bound target
  have here := layout.tableAt_role positive start reach
  by_cases new : t₂ = t₁
  · subst new
    rw [Function.update_self] at serves
    obtain ⟨-, rfl, -⟩ := Role.mk.injEq .. ▸ Option.some.inj serves
    rcases leaf i bound with zero | none
    · omega
    · rw [none] at target; contradiction
  · rw [Function.update_of_ne new] at serves
    by_cases same : (⟨t₂, i⟩ : Slot T) = ⟨t₀, digit fan (k + 1) a⟩
    · rw [same, entry] at target
      obtain ⟨rfl, index⟩ := Slot.mk.injEq .. ▸ same
      rw [here] at serves
      obtain ⟨rfl, height, above⟩ := Role.mk.injEq .. ▸ Option.some.inj serves
      obtain rfl : k = j := Nat.succ.inj height
      rw [← Option.some.inj target, Function.update_self, ← above, index, above_digit]
    · rw [frame _ same new] at target
      have served := layout serves bound target
      rw [Function.update_of_ne]
      · exact served
      · rintro rfl
        rw [fresh] at served
        contradiction

omit [DecidableEq T] in
/-- The keys served by the slot stop in the new table. -/
theorem link_hit (leaf : ∀ i < fan, k = 0 ∨ next (mem' ⟨t₁, i⟩) = none)
    (start' : role t = some ⟨v, h, b / fan ^ (h + 1)⟩) (same : b / fan ^ (k + 1) = a / fan ^ (k + 1)) :
    descend next fan mem' h t b = ⟨k, t₁, digit fan k b⟩ := by
  have here := layout.tableAt_role positive start reach
  have reach' : tableAt next fan mem (k + 1) h t b = some t₀ := by
    rw [tableAt_congr (above_mono (Nat.le_succ (k + 1)) same), reach]
  rw [layout.descend_from positive start' reach' ?_]
  · rw [descend, digit_congr le_rfl same, entry]
    cases k with
    | zero => rfl
    | succ k =>
      have none := (leaf _ (digit_lt positive (k + 1) b)).resolve_left (by omega)
      simp only [descend, none]
  · intro t' j above serves
    apply frame
    · intro meets
      exact absurd (slot_served here serves meets).2.1 (by omega)
    · rintro rfl
      rw [fresh] at serves
      contradiction

omit [DecidableEq T] in
/-- Every other key and every other owner keep their walks. -/
theorem link_miss (start' : role s = some ⟨w, hs, b / fan ^ (hs + 1)⟩)
    (apart : w = v → b / fan ^ (k + 1) ≠ a / fan ^ (k + 1)) :
    descend next fan mem' hs s b = descend next fan mem hs s b ∧
      mem' (descend next fan mem hs s b).slot = mem (descend next fan mem hs s b).slot := by
  apply layout.descend_agree positive start'
  intro t' j serves
  apply frame
  · intro meets
    obtain ⟨owner, -, above⟩ := slot_served (layout.tableAt_role positive start reach) serves meets
    exact apart owner above
  · rintro rfl
    rw [fresh] at serves
    contradiction

end Link

end Layout

end Radix
