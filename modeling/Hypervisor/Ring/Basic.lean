import Mathlib.Data.Nat.ModEq
import Mathlib.Logic.Function.Basic

/-! # Rings of cells

A ring of `size` cells holds a list from the cell of a running counter on. The counter may be kept
modulo the size of the ring, or modulo any multiple of it.
-/

namespace Ring

variable {α : Type*} {cells cells' : ℕ → α} {size start : ℕ} {x : α} {xs : List α}

/-- The cells from that of the counter `start` on hold `xs`. -/
def Holds (cells : ℕ → α) (size start : ℕ) (xs : List α) : Prop :=
  ∀ i x, xs[i]? = some x → cells ((start + i) % size) = x

/-- Entries that are less than one round apart have different cells. -/
theorem slot_injective {i j : ℕ} (low : i < size) (high : j < size) (same : (start + i) % size = (start + j) % size) :
    i = j := by
  have := Nat.ModEq.add_left_cancel' start same
  rwa [Nat.ModEq, Nat.mod_eq_of_lt low, Nat.mod_eq_of_lt high] at this

theorem holds_nil : Holds cells size start [] := by
  rintro i x ⟨⟩

/-- A counter modulo a multiple of the size names the same cells. -/
theorem holds_mod {bound : ℕ} (divides : size ∣ bound) :
    Holds cells size (start % bound) xs ↔ Holds cells size start xs := by
  have same (i : ℕ) : (start % bound + i) % size = (start + i) % size := by
    rw [Nat.add_mod, Nat.mod_mod_of_dvd _ divides, ← Nat.add_mod]
  simp only [Holds, same]

theorem Holds.head (holds : Holds cells size start (x :: xs)) : cells (start % size) = x := holds 0 x rfl

theorem Holds.tail (holds : Holds cells size start (x :: xs)) : Holds cells size (start + 1) xs := by
  intro i y here
  rw [Nat.add_assoc, Nat.add_comm 1]
  exact holds (i + 1) y here

/-- Only the cells of the ring matter. -/
theorem Holds.congr (holds : Holds cells size start xs) (positive : 0 < size)
    (same : ∀ slot < size, cells' slot = cells slot) : Holds cells' size start xs := fun i y here =>
  (same _ (Nat.mod_lt _ positive)).trans (holds i y here)

/-- A write to the cell behind the last entry adds an entry, as long as there is a free cell. -/
theorem Holds.concat (holds : Holds cells size start xs) (room : xs.length < size) :
    Holds (Function.update cells ((start + xs.length) % size) x) size start (xs ++ [x]) := by
  intro i y here
  rcases Nat.lt_trichotomy i xs.length with old | rfl | beyond
  · rw [List.getElem?_append_left old] at here
    rw [Function.update_of_ne fun same => absurd (slot_injective (Nat.lt_trans old room) room same) (Nat.ne_of_lt old)]
    exact holds i y here
  · rw [List.getElem?_concat_length] at here
    rw [Function.update_self]
    exact Option.some.inj here
  · rw [List.getElem?_eq_none (by rw [List.length_append, List.length_singleton]; omega)] at here
    cases here

/-- The `n` cells from that of the counter on. -/
def read (cells : ℕ → α) (size start n : ℕ) : List α :=
  (List.range n).map fun i => cells ((start + i) % size)

@[simp] theorem length_read (n : ℕ) : (read cells size start n).length = n := by
  rw [read, List.length_map, List.length_range]

/-- A list that the ring holds is what is read from it. -/
theorem holds_iff_eq_read : Holds cells size start xs ↔ xs = read cells size start xs.length := by
  constructor
  · intro holds
    apply List.ext_getElem (length_read _).symm
    intro i inside _
    simp only [read, List.getElem_map, List.getElem_range]
    exact (holds i xs[i] (List.getElem?_eq_getElem inside)).symm
  · intro same i x here
    obtain ⟨inside, rfl⟩ := List.getElem?_eq_some_iff.mp here
    rw [List.getElem_of_eq same]
    simp only [read, List.getElem_map, List.getElem_range]

end Ring
