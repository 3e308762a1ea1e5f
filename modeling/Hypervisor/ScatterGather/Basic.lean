import Mathlib.Data.Set.Function
import Mathlib.Order.CompletePartialOrder
import Mathlib.Order.Interval.Set.Disjoint

/-! # Scatter and gather

A list of ranges of a memory is one logical buffer. Gathering reads it as one list, and scattering
writes a list into it from the front, over as many ranges as the list needs.
-/

namespace ScatterGather

variable {β : Type*}

/-- A range of addresses: the first one, and how many there are. -/
abbrev Range := ℕ × ℕ

/-- The addresses of a range. -/
def Range.addrs (r : Range) : Set ℕ := Set.Ico r.1 (r.1 + r.2)

/-- The addresses of some ranges. -/
def addrs (ranges : List Range) : Set ℕ := {a | ∃ r ∈ ranges, a ∈ Range.addrs r}

/-- How many addresses the ranges have together. -/
def total : List Range → ℕ
  | [] => 0
  | r :: rest => r.2 + total rest

/-- Read a range. -/
def fetch (mem : ℕ → β) (addr len : ℕ) : List β := (List.range len).map fun i => mem (addr + i)

/-- Write a list from an address on. -/
def put (mem : ℕ → β) (addr : ℕ) (bytes : List β) : ℕ → β := fun a =>
  if a < addr then mem a else bytes[a - addr]?.getD (mem a)

def gather (mem : ℕ → β) (ranges : List Range) : List β := ranges.flatMap fun r => fetch mem r.1 r.2

def scatter : (ℕ → β) → List Range → List β → ℕ → β
  | mem, [], _ => mem
  | mem, r :: rest, bytes => scatter (put mem r.1 (bytes.take r.2)) rest (bytes.drop r.2)

@[simp] theorem total_nil : total [] = 0 := rfl

@[simp] theorem total_cons (r : Range) (ranges : List Range) : total (r :: ranges) = r.2 + total ranges := rfl

theorem addrs_cons (r : Range) (ranges : List Range) : addrs (r :: ranges) = r.addrs ∪ addrs ranges := by
  ext a
  simp [addrs]

/-! ## One range -/

section Fetch

variable {mem mem' : ℕ → β} {addr len : ℕ} {bytes : List β}

@[simp] theorem length_fetch : (fetch mem addr len).length = len := by
  rw [fetch, List.length_map, List.length_range]

theorem getElem?_fetch {i : ℕ} (inside : i < len) : (fetch mem addr len)[i]? = some (mem (addr + i)) := by
  rw [fetch, List.getElem?_map, List.getElem?_range inside]
  rfl

theorem fetch_add (mem : ℕ → β) (addr m n : ℕ) : fetch mem addr (m + n) = fetch mem addr m ++ fetch mem (addr + m) n := by
  simp only [fetch, List.range_add, List.map_append, List.map_map, Function.comp_def, Nat.add_assoc]

theorem fetch_congr (same : Set.EqOn mem' mem (Set.Ico addr (addr + len))) : fetch mem' addr len = fetch mem addr len := by
  refine List.map_congr_left fun i inside => same ⟨Nat.le_add_right _ _, ?_⟩
  rw [List.mem_range] at inside
  omega

theorem put_inside {i : ℕ} (inside : i < bytes.length) : put mem addr bytes (addr + i) = bytes[i] := by
  rw [put, if_neg (by omega), Nat.add_sub_cancel_left, List.getElem?_eq_getElem inside, Option.getD_some]

theorem eqOn_put (mem : ℕ → β) (addr : ℕ) (bytes : List β) :
    Set.EqOn (put mem addr bytes) mem (Set.Ico addr (addr + bytes.length))ᶜ := by
  intro a outside
  rw [put]
  split_ifs with before
  · rfl
  · have beyond : bytes.length ≤ a - addr := by
      by_contra inside
      exact outside ⟨by omega, by omega⟩
    rw [List.getElem?_eq_none beyond, Option.getD_none]

/-- What is written is read back, and the rest of the range is as before. -/
theorem fetch_put (fits : bytes.length ≤ len) :
    fetch (put mem addr bytes) addr len = bytes ++ (fetch mem addr len).drop bytes.length := by
  refine List.ext_getElem? fun i => ?_
  rcases Nat.lt_or_ge i bytes.length with front | back
  · rw [getElem?_fetch (by omega), put_inside front, List.getElem?_append_left front, List.getElem?_eq_getElem front]
  · rw [List.getElem?_append_right back, List.getElem?_drop, Nat.add_sub_cancel' back]
    rcases Nat.lt_or_ge i len with inside | beyond
    · rw [getElem?_fetch inside, getElem?_fetch inside, eqOn_put mem addr bytes fun found => ?_]
      have := found.2
      omega
    · rw [List.getElem?_eq_none (by rwa [length_fetch]), List.getElem?_eq_none (by rwa [length_fetch])]

theorem put_put_append (mem : ℕ → β) (addr : ℕ) (first second : List β) :
    put (put mem addr first) (addr + first.length) second = put mem addr (first ++ second) := by
  funext a
  rcases Nat.lt_or_ge a addr with before | behind
  · rw [put, if_pos (by omega), put, put, if_pos before, if_pos before]
  rcases Nat.lt_or_ge a (addr + first.length) with early | late
  · rw [put, if_pos early, put, put, if_neg (by omega), if_neg (by omega), List.getElem?_append_left (by omega)]
  · have index : a - (addr + first.length) = a - addr - first.length := by omega
    have beyond : first[a - addr]? = none := List.getElem?_eq_none (by omega)
    rw [put, if_neg (by omega), put, put, if_neg (by omega), if_neg (by omega), List.getElem?_append_right (by omega),
      index, beyond, Option.getD_none]

end Fetch

/-! ## Several ranges -/

section Ranges

variable {mem mem' : ℕ → β} {ranges : List Range} {bytes : List β}

@[simp] theorem gather_cons (r : Range) : gather mem (r :: ranges) = fetch mem r.1 r.2 ++ gather mem ranges := rfl

@[simp] theorem length_gather : (gather mem ranges).length = total ranges := by
  induction ranges with
  | nil => rfl
  | cons r rest ih => rw [gather_cons, List.length_append, length_fetch, ih, total_cons]

theorem gather_congr (same : Set.EqOn mem' mem (addrs ranges)) : gather mem' ranges = gather mem ranges := by
  induction ranges with
  | nil => rfl
  | cons r rest ih =>
    rw [addrs_cons] at same
    rw [gather_cons, gather_cons, fetch_congr (same.mono Set.subset_union_left), ih (same.mono Set.subset_union_right)]

theorem eqOn_scatter (mem : ℕ → β) (ranges : List Range) (bytes : List β) :
    Set.EqOn (scatter mem ranges bytes) mem (addrs ranges)ᶜ := by
  induction ranges generalizing mem bytes with
  | nil => exact Set.eqOn_refl _ _
  | cons r rest ih =>
    rw [addrs_cons, Set.compl_union]
    refine ((ih _ _).mono Set.inter_subset_right).trans ((eqOn_put mem r.1 (bytes.take r.2)).mono ?_)
    refine Set.inter_subset_left.trans (Set.compl_subset_compl.mpr (Set.Ico_subset_Ico_right ?_))
    rw [List.length_take]
    omega

/-- The ranges after a scatter hold the list, and behind it what they held before. -/
theorem gather_scatter (apart : ranges.Pairwise fun r r' => Disjoint r.addrs r'.addrs)
    (fits : bytes.length ≤ total ranges) :
    gather (scatter mem ranges bytes) ranges = bytes ++ (gather mem ranges).drop bytes.length := by
  induction ranges generalizing mem bytes with
  | nil =>
    obtain rfl := List.eq_nil_of_length_eq_zero (Nat.le_zero.mp fits)
    rfl
  | cons r rest ih =>
    obtain ⟨first, others⟩ := List.pairwise_cons.mp apart
    rw [total_cons] at fits
    have outside : r.addrs ⊆ (addrs rest)ᶜ := by
      rintro a here ⟨r', member, there⟩
      exact Set.disjoint_left.mp (first r' member) here there
    have short : (bytes.take r.2).length ≤ r.2 := by
      rw [List.length_take]
      omega
    -- the first range keeps what it got, and the others have not changed yet
    have front := fetch_congr ((eqOn_scatter (put mem r.1 (bytes.take r.2)) rest (bytes.drop r.2)).mono outside)
    have back : gather (put mem r.1 (bytes.take r.2)) rest = gather mem rest := by
      have beside : addrs rest ⊆ (Set.Ico r.1 (r.1 + (bytes.take r.2).length))ᶜ := fun a member here =>
        outside (Set.Ico_subset_Ico_right (by omega) here) member
      exact gather_congr ((eqOn_put mem r.1 (bytes.take r.2)).mono beside)
    rw [scatter, gather_cons, front, fetch_put short, ih others (by rw [List.length_drop]; omega), back, gather_cons,
      List.drop_append, length_fetch, List.length_take, List.length_drop]
    rcases Nat.le_total bytes.length r.2 with all | part
    · rw [List.take_of_length_le all, List.drop_of_length_le all, Nat.min_eq_right all, Nat.sub_eq_zero_of_le all,
        List.nil_append, List.append_assoc]
    · have whole : (fetch mem r.1 r.2).drop r.2 = [] := List.drop_of_length_le (by rw [length_fetch])
      have beyond : (fetch mem r.1 r.2).drop bytes.length = [] := List.drop_of_length_le (by rwa [length_fetch])
      rw [Nat.min_eq_left part, whole, beyond, List.append_nil, List.nil_append, ← List.append_assoc,
        List.take_append_drop]

end Ranges

end ScatterGather
