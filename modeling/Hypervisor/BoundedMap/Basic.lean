import Mathlib.Data.Finset.Card

/-! # Maps with a bounded number of keys

A list of keys with their values that learns a new value for a key it has, and a new key as long as it
has fewer than `capacity` of them. No key is ever given up, so the keys are the first ones that were
seen.
-/

namespace BoundedMap

variable {K V : Type*} [DecidableEq K] {capacity : ℕ} {table : List (K × V)} {k key : K} {v : V}

/-- The keys of the table, oldest first. -/
def keys (table : List (K × V)) : List K := table.map Prod.fst

/-- The value of a key. -/
def lookup (table : List (K × V)) (k : K) : Option V := (table.find? fun entry => decide (entry.1 = k)).map Prod.snd

/-- Give the first entry for a key a new value. -/
def update : List (K × V) → K → V → List (K × V)
  | [], _, _ => []
  | entry :: rest, k, v => if entry.1 = k then (k, v) :: rest else entry :: update rest k v

def learn (capacity : ℕ) (table : List (K × V)) (k : K) (v : V) : List (K × V) :=
  if (lookup table k).isSome then update table k v
  else if table.length < capacity then table ++ [(k, v)]
  else table

/-- The table after a history of keys and values, latest last. -/
def ofHistory (capacity : ℕ) (history : List (K × V)) : List (K × V) :=
  history.foldl (fun table entry => learn capacity table entry.1 entry.2) []

/-- The key is one of the first `n` different ones. -/
def FirstDistinct (n : ℕ) (seen : List K) (k : K) : Prop :=
  ∃ before later, seen = before ++ k :: later ∧ k ∉ before ∧ before.toFinset.card < n

/-- The last value that came with a key. -/
def lastValue (history : List (K × V)) (k : K) : Option V := lookup history.reverse k

/-! ## One step -/

omit [DecidableEq K] in
@[simp] theorem length_keys : (keys table).length = table.length := List.length_map _

theorem lookup_cons (entry : K × V) (rest : List (K × V)) :
    lookup (entry :: rest) k = if entry.1 = k then some entry.2 else lookup rest k := by
  rw [lookup, List.find?_cons]
  by_cases same : entry.1 = k
  · rw [decide_eq_true same, if_pos same]
    rfl
  · rw [decide_eq_false same, if_neg same]
    rfl

theorem lookup_eq_none_iff : lookup table k = none ↔ k ∉ keys table := by
  rw [lookup, Option.map_eq_none_iff, List.find?_eq_none, keys, List.mem_map]
  simp only [decide_eq_true_eq, not_exists, not_and]

theorem isSome_lookup : (lookup table k).isSome ↔ k ∈ keys table := by
  rw [← not_iff_not, ← lookup_eq_none_iff, Option.not_isSome_iff_eq_none]

@[simp] theorem keys_update : keys (update table k v) = keys table := by
  induction table with
  | nil => rfl
  | cons entry rest ih =>
      rw [update]
      split_ifs with same
      · exact congrArg (· :: keys rest) same.symm
      · exact congrArg (entry.1 :: ·) ih

theorem lookup_update (known : k ∈ keys table) :
    lookup (update table k v) key = if key = k then some v else lookup table key := by
  induction table with
  | nil => cases known
  | cons entry rest ih =>
      rw [update]
      by_cases same : entry.1 = k
      · rw [if_pos same, lookup_cons, lookup_cons, same]
        simp only [eq_comm]
        split_ifs <;> rfl
      · have later := ih ((List.mem_cons.mp known).resolve_left (Ne.symm same))
        rw [if_neg same, lookup_cons, later, lookup_cons]
        split_ifs with here asked
        · exact absurd (here.trans asked) same
        all_goals rfl

theorem lookup_concat (fresh : k ∉ keys table) :
    lookup (table ++ [(k, v)]) key = if key = k then some v else lookup table key := by
  induction table with
  | nil => simp only [List.nil_append, lookup_cons, eq_comm]
  | cons entry rest ih =>
      have apart : entry.1 ≠ k := fun same => fresh (List.mem_cons.mpr (.inl same.symm))
      rw [List.cons_append, lookup_cons, lookup_cons, ih fun known => fresh (List.mem_cons_of_mem _ known)]
      split_ifs with here asked
      · exact absurd (here.trans asked) apart
      all_goals rfl

theorem keys_learn : keys (learn capacity table k v) =
    if k ∉ keys table ∧ table.length < capacity then keys table ++ [k] else keys table := by
  rw [learn, if_congr isSome_lookup rfl rfl]
  by_cases known : k ∈ keys table
  · rw [if_pos known, if_neg fun fresh => fresh.1 known, keys_update]
  · simp only [known, if_false, not_false_eq_true, true_and]
    split_ifs
    · rw [keys, List.map_append]
      rfl
    · rfl

theorem mem_keys_learn : key ∈ keys (learn capacity table k v) ↔
    key ∈ keys table ∨ key = k ∧ k ∉ keys table ∧ table.length < capacity := by
  rw [keys_learn]
  split_ifs with new
  · rw [List.mem_append, List.mem_singleton, and_iff_left new]
  · rw [iff_false_intro new, and_false, or_false]

theorem length_learn : (learn capacity table k v).length =
    if k ∉ keys table ∧ table.length < capacity then table.length + 1 else table.length := by
  rw [← length_keys, keys_learn]
  split_ifs
  · rw [List.length_append, length_keys, List.length_singleton]
  · exact length_keys

/-- A key that the table has, or has room for, gets the value. -/
theorem lookup_learn : lookup (learn capacity table k v) key =
    if key = k ∧ (k ∈ keys table ∨ table.length < capacity) then some v else lookup table key := by
  rw [learn, if_congr isSome_lookup rfl rfl]
  by_cases known : k ∈ keys table
  · simp only [known, if_true, true_or, and_true, lookup_update]
  · simp only [known, if_false, false_or]
    by_cases room : table.length < capacity
    · simp only [room, if_true, and_true, lookup_concat known]
    · simp only [room, if_false, and_false]

/-! ## The keys that were seen -/

theorem FirstDistinct.mem {n : ℕ} {seen : List K} (first : FirstDistinct n seen k) : k ∈ seen := by
  obtain ⟨before, later, rfl, -, -⟩ := first
  exact List.mem_append_right _ List.mem_cons_self

/-- A key that comes last is one of the first `n` if it was before, or if it is new and fewer than `n`
different ones came before it. -/
theorem firstDistinct_concat {n : ℕ} {seen : List K} : FirstDistinct n (seen ++ [k]) key ↔
    FirstDistinct n seen key ∨ key = k ∧ k ∉ seen ∧ seen.toFinset.card < n := by
  constructor
  · rintro ⟨before, later, parts, fresh, few⟩
    rcases List.eq_nil_or_concat later with rfl | ⟨later, last, rfl⟩
    · obtain ⟨rfl, same⟩ := List.append_inj' parts rfl
      cases same
      exact .inr ⟨rfl, fresh, few⟩
    · rw [List.concat_eq_append, ← List.cons_append, ← List.append_assoc] at parts
      exact .inl ⟨before, later, (List.append_inj' parts rfl).1, fresh, few⟩
  · rintro (⟨before, later, rfl, fresh, few⟩ | ⟨rfl, fresh, few⟩)
    · exact ⟨before, later ++ [k], by rw [List.append_assoc, List.cons_append], fresh, few⟩
    · exact ⟨seen, [], rfl, fresh, few⟩

/-- The table is what a history makes of it: its keys are the first that were seen, and each has its
last value. -/
structure Reflects (capacity : ℕ) (table history : List (K × V)) : Prop where
  nodup : (keys table).Nodup
  bound : table.length ≤ capacity
  seen : ∀ k, k ∈ keys table ↔ FirstDistinct capacity (keys history) k
  /-- While there is room, all keys are in the table. -/
  room : table.length < capacity → ∀ k ∈ keys history, k ∈ keys table
  value : ∀ k ∈ keys table, lookup table k = lastValue history k

variable {history : List (K × V)}

theorem Reflects.card (reflects : Reflects capacity table history) (room : table.length < capacity) :
    (keys history).toFinset.card = table.length := by
  have same : (keys history).toFinset = (keys table).toFinset := by
    ext k
    rw [List.mem_toFinset, List.mem_toFinset]
    exact ⟨reflects.room room k, fun known => ((reflects.seen k).mp known).mem⟩
  rw [same, List.toFinset_card_of_nodup reflects.nodup, length_keys]

/-- A full table has the capacity in different keys behind it. -/
theorem Reflects.le_card (reflects : Reflects capacity table history) (full : ¬table.length < capacity) :
    capacity ≤ (keys history).toFinset.card := by
  have inside : (keys table).toFinset ⊆ (keys history).toFinset := by
    intro k known
    rw [List.mem_toFinset] at known ⊢
    exact ((reflects.seen k).mp known).mem
  have := Finset.card_le_card inside
  rw [List.toFinset_card_of_nodup reflects.nodup, length_keys] at this
  omega

theorem reflects_nil : Reflects capacity ([] : List (K × V)) [] where
  nodup := List.nodup_nil
  bound := Nat.zero_le _
  seen k := by
    constructor
    · rintro ⟨⟩
    · intro first
      cases first.mem
  room := by
    rintro - k ⟨⟩
  value := by
    rintro k ⟨⟩

theorem lastValue_concat : lastValue (history ++ [(k, v)]) key = if key = k then some v else lastValue history key := by
  rw [lastValue, List.reverse_append, List.reverse_singleton, List.singleton_append, lookup_cons]
  simp only [eq_comm]
  rfl

omit [DecidableEq K] in
@[simp] theorem keys_concat : keys (history ++ [(k, v)]) = keys history ++ [k] := by
  rw [keys, List.map_append]
  rfl

/-- New keys and room in the table, in terms of the history. -/
theorem Reflects.fresh_iff (reflects : Reflects capacity table history) :
    k ∉ keys table ∧ table.length < capacity ↔ k ∉ keys history ∧ (keys history).toFinset.card < capacity := by
  constructor
  · rintro ⟨fresh, room⟩
    exact ⟨fun seen => fresh (reflects.room room k seen), reflects.card room ▸ room⟩
  · rintro ⟨fresh, few⟩
    refine ⟨fun known => fresh ((reflects.seen k).mp known).mem, ?_⟩
    by_contra full
    exact absurd few (Nat.not_lt.mpr (reflects.le_card full))

theorem Reflects.learn (reflects : Reflects capacity table history) (k : K) (v : V) :
    Reflects capacity (learn capacity table k v) (history ++ [(k, v)]) where
  nodup := by
    rw [keys_learn]
    split_ifs with new
    · refine List.nodup_append.mpr ⟨reflects.nodup, List.nodup_singleton k, ?_⟩
      intro key known other same
      rw [List.mem_singleton.mp same]
      exact fun here => new.1 (here ▸ known)
    · exact reflects.nodup
  bound := by
    rw [length_learn]
    split_ifs with new
    · exact new.2
    · exact reflects.bound
  seen key := by
    rw [mem_keys_learn, keys_concat, firstDistinct_concat, reflects.fresh_iff, reflects.seen key]
  room := by
    intro room key seen
    have before : table.length < capacity := by
      rw [length_learn] at room
      split_ifs at room <;> omega
    rw [keys_concat, List.mem_append, List.mem_singleton] at seen
    rw [mem_keys_learn]
    rcases seen with old | rfl
    · exact .inl (reflects.room before key old)
    · by_cases known : key ∈ keys table
      · exact .inl known
      · exact .inr ⟨rfl, known, before⟩
  value := by
    intro key known
    rw [lookup_learn, lastValue_concat]
    rcases mem_keys_learn.mp known with old | ⟨rfl, -, room⟩
    · rw [reflects.value key old]
      split_ifs with learned asked asked
      · rfl
      · exact absurd learned.1 asked
      · exact absurd ⟨asked, .inl (asked ▸ old)⟩ learned
      · rfl
    · rw [if_pos ⟨rfl, .inr room⟩, if_pos rfl]

/-- The table after a history. -/
theorem reflects_ofHistory (history : List (K × V)) : Reflects capacity (ofHistory capacity history) history := by
  induction history using List.reverseRecOn with
  | nil => exact reflects_nil
  | append_singleton history entry ih =>
      rw [ofHistory, List.foldl_append]
      exact ih.learn entry.1 entry.2

end BoundedMap
