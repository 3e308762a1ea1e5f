import Mathlib.Data.List.Basic

/-! # Statements about every prefix of a list

A run is often described by the list of its operations, and its states by the prefixes of that list. If the
last operation of a prefix keeps a property exactly under a condition, then the property holds all along
the list exactly if every operation meets the condition where it stands.
-/

namespace List

variable {A : Type*} {P : List A → Prop} {C : List A → A → Prop}

theorem forall_take_iff (nil : P []) (step : ∀ past a, P past → (P (past ++ [a]) ↔ C past a)) (l : List A) :
    (∀ k ≤ l.length, P (l.take k)) ↔ ∀ (k : ℕ) (a : A), l[k]? = some a → C (l.take k) a := by
  have grow {k : ℕ} {a : A} (here : l[k]? = some a) : l.take (k + 1) = l.take k ++ [a] := by
    rw [take_add_one, here, Option.toList_some]
  constructor
  · intro always k a here
    have inside : k < l.length := (getElem?_eq_some_iff.mp here).1
    have next := always (k + 1) inside
    rw [grow here] at next
    exact (step _ a (always k (Nat.le_of_lt inside))).mp next
  · intro meets k inside
    induction k with
    | zero => exact nil
    | succ k ih =>
        have here : l[k]? = some l[k] := getElem?_eq_getElem inside
        rw [grow here]
        exact (step _ _ (ih (Nat.le_of_succ_le inside))).mpr (meets k _ here)

end List
