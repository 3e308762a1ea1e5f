import Hypervisor.Model.StubSpmc

/-! # Share records by slot

Handles are not unique for ever, since `NEXT_HANDLE` wraps, but all operations on a handle agree on
the first active record that holds it. `Found` names that slot, and each operation is a change of
that one slot.
-/

namespace Hypervisor

section UpdateFirst

variable {test : MemShareRecord → Bool} {update : MemShareRecord → MemShareRecord}
  {records : List MemShareRecord} {record : MemShareRecord} {i : ℕ}

/-- `updateFirst` changes the slot of the first record that passes the test. -/
theorem updateFirst_of_first (here : records[i]? = some record) (passes : test record = true)
    (first : ∀ j < i, ∀ other, records[j]? = some other → test other = false) :
    updateFirst test update records = some (records.set i (update record)) := by
  induction records generalizing i with
  | nil => simp at here
  | cons head rest ih =>
    rw [updateFirst]
    cases i with
    | zero =>
      obtain rfl : head = record := by simpa using here
      simp [passes]
    | succ i =>
      have skip : test head = false := first 0 (Nat.succ_pos i) head rfl
      rw [skip, ih (by simpa using here) fun j before other at_ =>
        first (j + 1) (Nat.succ_lt_succ before) other (by simpa using at_)]
      rfl

theorem updateFirst_eq_none : updateFirst test update records = none ↔ ∀ r ∈ records, test r = false := by
  induction records with
  | nil => simp [updateFirst]
  | cons head rest ih =>
    rw [updateFirst, List.forall_mem_cons]
    cases passes : test head with
    | true => simp
    | false => simpa using ih

/-- The record that `find?` returns, by its slot. -/
theorem exists_first_of_find? (found : records.find? test = some record) :
    ∃ i : ℕ, records[i]? = some record ∧ test record = true ∧
      ∀ j < i, ∀ other, records[j]? = some other → test other = false := by
  obtain ⟨passes, i, bound, rfl, first⟩ := List.find?_eq_some_iff_getElem.mp found
  refine ⟨i, List.getElem?_eq_getElem bound, passes, ?_⟩
  intro j before other at_
  obtain ⟨_, rfl⟩ := List.getElem?_eq_some_iff.mp at_
  simpa using first j before

end UpdateFirst

/-- Slot `i` is the first that holds the handle. -/
structure Found (records : List MemShareRecord) (handle : U64) (i : ℕ) (record : MemShareRecord) :
    Prop where
  here : records[i]? = some record
  holds : record.holds handle = true
  first : ∀ j < i, ∀ other, records[j]? = some other → other.holds handle = false

theorem Found.active {records : List MemShareRecord} {handle : U64} {i : ℕ} {record : MemShareRecord}
    (found : Found records handle i record) : record.active = true := by
  have holds := found.holds
  simp only [MemShareRecord.holds, Bool.and_eq_true] at holds
  exact holds.1

/-- A handle names one slot. -/
theorem Found.unique {records : List MemShareRecord} {handle : U64} {i j : ℕ} {record other : MemShareRecord}
    (one : Found records handle i record) (two : Found records handle j other) : i = j ∧ record = other := by
  have least : ∀ {k l : ℕ} {r s : MemShareRecord}, Found records handle k r → Found records handle l s → ¬k < l := by
    intro k l r s here there before
    exact absurd here.holds (by simp [there.first k before r here.here])
  obtain rfl : i = j := by
    have := least one two
    have := least two one
    omega
  exact ⟨rfl, Option.some.inj (one.here.symm.trans two.here)⟩

/-- A slot that is rewritten keeps its handle. -/
theorem Found.set {records : List MemShareRecord} {handle : U64} {i : ℕ} {record new : MemShareRecord}
    (found : Found records handle i record) (holds : new.holds handle = true) :
    Found (records.set i new) handle i new := by
  obtain ⟨bound, -⟩ := List.getElem?_eq_some_iff.mp found.here
  refine ⟨List.getElem?_set_self bound, holds, fun j before other here => ?_⟩
  rw [List.getElem?_set_ne (by omega)] at here
  exact found.first j before other here

namespace StubSpmc

variable {spmc : StubSpmc} {handle : U64} {record : MemShareRecord} {i : ℕ}

/-- `lookup_share_full` reports the first record that holds the handle. -/
theorem exists_found_of_lookup {info : ShareInfoFull} (lookup : spmc.lookupShareFull handle = some info) :
    ∃ i record, Found spmc.records handle i record ∧ record.info = info := by
  rw [lookupShareFull, Option.map_eq_some_iff] at lookup
  obtain ⟨record, search, rfl⟩ := lookup
  obtain ⟨i, here, holds, first⟩ := exists_first_of_find? search
  exact ⟨i, record, ⟨here, holds, first⟩, rfl⟩

theorem lookup_cases (spmc : StubSpmc) (handle : U64) : spmc.lookupShareFull handle = none ∨
    ∃ i record, Found spmc.records handle i record ∧ spmc.lookupShareFull handle = some record.info := by
  cases lookup : spmc.lookupShareFull handle with
  | none => exact .inl rfl
  | some info =>
    obtain ⟨i, record, found, rfl⟩ := exists_found_of_lookup lookup
    exact .inr ⟨i, record, found, rfl⟩

/-- An operation on a handle changes the slot found under it. -/
theorem updateByHandle_of_found (found : Found spmc.records handle i record) {test : MemShareRecord → Bool}
    (passes : test record = true) (update : MemShareRecord → MemShareRecord) :
    spmc.updateByHandle test update handle =
      (true, { spmc with records := spmc.records.set i (update record) }) := by
  rw [StubSpmc.updateByHandle, updateFirst_of_first found.here]
  · simp [found.holds, passes]
  · intro j before other at_
    simp [found.first j before other at_]

/-- `record_share` writes one free slot, and only a full table refuses. -/
theorem recordShare_cases (spmc : StubSpmc) (senderId receiverId : U16) (ranges : List AddrRange)
    (totalPageCount : U32) (isLend : Bool) :
    (∀ r ∈ spmc.records, r.active = true) ∧
      spmc.recordShare senderId receiverId ranges totalPageCount isLend =
        (none, { spmc with nextHandle := spmc.nextHandle + 1 }) ∨
    ∃ i free, spmc.records[i]? = some free ∧ free.active = false ∧
      spmc.recordShare senderId receiverId ranges totalPageCount isLend =
        (some spmc.nextHandle,
          { records := spmc.records.set i ⟨spmc.nextHandle, senderId, receiverId,
              ranges.take maxShareRanges, totalPageCount, true, isLend, false⟩
            nextHandle := spmc.nextHandle + 1 }) := by
  simp only [recordShare, allocHandle]
  cases search : spmc.records.find? (fun r => !r.active) with
  | none =>
    have full : ∀ r ∈ spmc.records, r.active = true := by simpa using search
    rw [updateFirst_eq_none.mpr (by simpa using full)]
    exact .inl ⟨full, rfl⟩
  | some free =>
    obtain ⟨i, here, passes, first⟩ := exists_first_of_find? search
    rw [updateFirst_of_first here passes first]
    exact .inr ⟨i, free, here, by simpa using passes, rfl⟩

end StubSpmc

end Hypervisor
