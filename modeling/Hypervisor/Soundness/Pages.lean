import Hypervisor.Soundness.Ledger

/-! # One page under the calls

The invariants of the protocol are about one page at a time: the leaves that map it and the active
records that cover it. `Covers` names the records by their slot. Three facts hold of all pages
whatever the calls are: no 1GB block appears, every page maps to itself, and a page that a VM maps
or a record covers was mapped by some VM at the start.
-/

namespace Hypervisor

/-- Slot `i` holds an active record that covers page `a`. -/
structure Covers (records : List MemShareRecord) (a i : ℕ) (record : MemShareRecord) : Prop where
  here : records[i]? = some record
  active : record.active = true
  page : a ∈ covered record.ranges

section Slots

variable {records : List MemShareRecord} {a i j : ℕ} {record other new : MemShareRecord} {handle : U64}

theorem Covers.record_eq (one : Covers records a i record) (two : Covers records a i other) :
    record = other := Option.some.inj (one.here.symm.trans two.here)

theorem Found.covers (found : Found records handle i record) (page : a ∈ covered record.ranges) :
    Covers records a i record := ⟨found.here, found.active, page⟩

/-- A record in a table where slot `i` was written is the new one or an old one. -/
theorem Covers.of_set (covers : Covers (records.set i new) a j other) :
    j = i ∧ other = new ∨ j ≠ i ∧ Covers records a j other := by
  obtain ⟨here, active, page⟩ := covers
  rw [List.getElem?_set] at here
  split_ifs at here with same
  · exact .inl ⟨same.symm, (Option.some.inj here).symm⟩
  · exact .inr ⟨fun same' => same same'.symm, here, active, page⟩

theorem Covers.set_of_ne (covers : Covers records a j other) (apart : j ≠ i) :
    Covers (records.set i new) a j other :=
  ⟨by rw [List.getElem?_set_ne (Ne.symm apart)]; exact covers.here, covers.active, covers.page⟩

theorem Covers.set_self (here : records[i]? = some record) (active : new.active = true)
    (page : a ∈ covered new.ranges) : Covers (records.set i new) a i new := by
  obtain ⟨bound, -⟩ := List.getElem?_eq_some_iff.mp here
  exact ⟨List.getElem?_set_self bound, active, page⟩

theorem Covers.ne_of_inactive (covers : Covers records a j other) (here : records[i]? = some record)
    (inactive : record.active = false) : j ≠ i := by
  rintro rfl
  obtain rfl := Option.some.inj (covers.here.symm.trans here)
  rw [covers.active] at inactive
  contradiction

/-- Dropping the record of a slot leaves the records of the other slots. -/
theorem Covers.of_drop (covers : Covers (records.set i { record with active := false }) a j other) :
    j ≠ i ∧ Covers records a j other := by
  rcases covers.of_set with ⟨rfl, rfl⟩ | old
  · exact absurd covers.active (by simp)
  · exact old

/-- Setting the retrieved flag of a slot leaves everything else. -/
theorem Covers.of_flag {flag : Bool} (here : records[i]? = some record) (active : record.active = true)
    (covers : Covers (records.set i { record with retrieved := flag }) a j other) :
    ∃ before, Covers records a j before ∧ other = { before with retrieved := other.retrieved } ∧
      (j = i ∧ other.retrieved = flag ∨ j ≠ i ∧ other = before) := by
  rcases covers.of_set with ⟨rfl, rfl⟩ | ⟨apart, old⟩
  · exact ⟨record, ⟨here, active, covers.page⟩, rfl, .inl ⟨rfl, rfl⟩⟩
  · exact ⟨other, old, rfl, .inr ⟨apart, rfl⟩⟩

end Slots

theorem covered_take {ranges : List AddrRange} {n a : ℕ} (member : a ∈ covered (ranges.take n)) :
    a ∈ covered ranges := by
  simp only [covered, pages, List.mem_map, List.mem_flatMap] at member ⊢
  obtain ⟨page, ⟨range, inside, visited⟩, rfl⟩ := member
  exact ⟨page, ⟨range, List.mem_of_mem_take inside, visited⟩, rfl⟩

section Kept

variable {L L' : Ledger} {v : VmId} {call : MemCall} {ctx : GpRegs}

/-- What a VM sees after giving pages back it saw before. -/
theorem of_returned {W : View} {u : VmId} {pages : List ℕ} {b : ℕ} {leaf : Leaf}
    (mapped : returned v pages W u b = some leaf) :
    W u b = some leaf ∧ (u = v → b ∈ pages → leaf.height ≠ 0) := by
  rw [returned] at mapped
  split_ifs at mapped with hit
  · rw [Option.filter_eq_some_iff] at mapped
    exact ⟨mapped.1, fun _ _ => by simpa using mapped.2⟩
  · exact ⟨mapped, fun owner member => absurd ⟨owner, member⟩ hit⟩

/-- The operation a call was made for, on the record it found in slot `i`. -/
inductive Update (v : VmId) (record : MemShareRecord) : MemCall → MemShareRecord → Prop
  | reclaim : record.retrieved = false → Update v record .reclaim { record with active := false }
  | retrieve : vmIdToPartitionId v = record.receiverId → record.retrieved = false →
      Update v record .retrieveReq { record with retrieved := true }
  | relinquish : vmIdToPartitionId v = record.receiverId → record.retrieved = true →
      Update v record .relinquish { record with retrieved := false }

/-- A call leaves the active record of a slot as it is, or it was made for that record. -/
theorem Effect.slot (effect : Effect L v ctx call L') {i : ℕ} {record : MemShareRecord}
    (here : L.records[i]? = some record) (active : record.active = true) :
    L'.records[i]? = some record ∨
      Found L.records (handleOf ctx) i record ∧ ∃ new, Update v record call new ∧ L'.records[i]? = some new := by
  have set : ∀ {j found new}, Found L.records (handleOf ctx) j found → Update v found call new →
      (L.records.set j new)[i]? = some record ∨ Found L.records (handleOf ctx) i record ∧
        ∃ new', Update v record call new' ∧ (L.records.set j new)[i]? = some new' := by
    intro j found new search update
    by_cases same : j = i
    · subst same
      obtain ⟨bound, -⟩ := List.getElem?_eq_some_iff.mp here
      obtain rfl := Option.some.inj (search.here.symm.trans here)
      exact .inr ⟨search, new, update, List.getElem?_set_self bound⟩
    · exact .inl ((List.getElem?_set_ne same).trans here)
  cases effect with
  | refuse => exact .inl here
  | full => exact .inl here
  | @share _ _ _ _ _ j _ _ _ free inactive =>
    refine .inl ((List.getElem?_set_ne ?_).trans here)
    rintro rfl
    obtain rfl := Option.some.inj (free.symm.trans here)
    rw [active] at inactive
    contradiction
  | reclaim found idle => exact set found (.reclaim idle)
  | retrieve found receiver idle => exact set found (.retrieve receiver idle)
  | relinquish found receiver held => exact set found (.relinquish receiver held)

/-- Calls keep what holds of the height and the output address of every leaf. -/
theorem Effect.forall_leaf {P : ℕ → Leaf → Prop}
    (lower : ∀ a leaf leaf', P a leaf → leaf'.height ≤ leaf.height →
      leaf'.translation.output = leaf.translation.output → P a leaf')
    (borrow : ∀ a leaf, leaf.height = 0 → leaf.translation.output = pageAddr a → P a leaf)
    (effect : Effect L v ctx call L') (all : ∀ u a leaf, L.view u a = some leaf → P a leaf) :
    ∀ u a leaf, L'.view u a = some leaf → P a leaf := by
  have retype : ∀ {R sw s2ap W}, Retyped v R (Translation.retag sw s2ap) L.view W →
      ∀ u a leaf, W u a = some leaf → P a leaf := by
    intro R sw s2ap W retyped u a leaf' mapped'
    obtain ⟨leaf, mapped, height, change⟩ := retyped.backward mapped'
    refine lower a leaf leaf' (all u a leaf mapped) (by omega) ?_
    rcases change with ⟨-, -, retagged⟩ | ⟨-, same⟩
    · rw [retagged]
      rfl
    · rw [same]
  cases effect with
  | refuse => exact all
  | full shares => exact retype shares.retyped
  | share shares => exact retype shares.retyped
  | reclaim _ _ retyped => exact retype retyped
  | retrieve _ _ _ borrows =>
    intro u a leaf mapped
    rcases borrows.backward mapped with ⟨-, -, height, output, -⟩ | ⟨-, old⟩
    · exact borrow a leaf height output
    · exact all u a leaf old
  | relinquish =>
    intro u a leaf mapped
    exact all u a leaf (of_returned mapped).1

/-- Calls create no 1GB block. -/
theorem Effect.small (effect : Effect L v ctx call L') (small : ∀ u, Small L.view u) :
    ∀ u, Small L'.view u :=
  effect.forall_leaf (fun _ _ _ bound lower _ => lower.trans bound)
    (fun _ _ height _ => height ▸ Nat.zero_le 1) small

/-- Every page maps to itself. -/
def Ledger.Identity (L : Ledger) : Prop :=
  ∀ u a leaf, L.view u a = some leaf → leaf.translation.output = pageAddr a

theorem Effect.identity (effect : Effect L v ctx call L') (identity : L.Identity) : L'.Identity :=
  effect.forall_leaf (fun _ _ _ output _ same => same.trans output) (fun _ _ _ output => output) identity

/-- Pages that are mapped or covered were mapped in the view `W₀`. -/
structure Ledger.Origin (W₀ : View) (L : Ledger) : Prop where
  mapped : ∀ u a leaf, L.view u a = some leaf → ∃ w, W₀ w a ≠ none
  recorded : ∀ a i record, Covers L.records a i record → ∃ w, W₀ w a ≠ none

theorem Effect.origin {W₀ : View} (effect : Effect L v ctx call L') (origin : L.Origin W₀) :
    L'.Origin W₀ := by
  have retype : ∀ {R change W}, Retyped v R change L.view W →
      ∀ u a leaf, W u a = some leaf → ∃ w, W₀ w a ≠ none := by
    intro R change W retyped u a leaf' mapped'
    obtain ⟨leaf, mapped, -⟩ := retyped.backward mapped'
    exact origin.mapped u a leaf mapped
  cases effect with
  | refuse => exact ⟨origin.mapped, origin.recorded⟩
  | full shares => exact ⟨retype shares.retyped, origin.recorded⟩
  | share shares _ _ _ ranges =>
    refine ⟨retype shares.retyped, fun a i record covers => ?_⟩
    rcases covers.of_set with ⟨-, rfl⟩ | ⟨-, old⟩
    · have page := covers.page
      rw [ranges] at page
      obtain ⟨leaf, mapped, -⟩ := shares.owned a (covered_take page)
      exact origin.mapped v a leaf mapped
    · exact origin.recorded a i record old
  | reclaim _ _ retyped =>
    exact ⟨retype retyped, fun a i record covers => origin.recorded a i record covers.of_drop.2⟩
  | retrieve found _ _ borrows =>
    refine ⟨fun u a leaf mapped => ?_, fun a i record covers => ?_⟩
    · rcases borrows.backward mapped with ⟨-, member, -⟩ | ⟨-, old⟩
      · exact origin.recorded a _ _ (found.covers member)
      · exact origin.mapped u a leaf old
    · obtain ⟨before, old, -⟩ := covers.of_flag found.here found.active
      exact origin.recorded a i before old
  | relinquish found =>
    refine ⟨fun u a leaf mapped => origin.mapped u a leaf (of_returned mapped).1, fun a i record covers => ?_⟩
    obtain ⟨before, old, -⟩ := covers.of_flag found.here found.active
    exact origin.recorded a i before old

end Kept

/-- The state before the first call: every page maps to itself, through a page or a 2MB block, and
nothing is shared. -/
structure Machine.Initial (m : Machine) : Prop where
  wf : m.Wf
  small : ∀ v, Small m.view v
  identity : m.ledger.Identity
  unshared : ∀ record ∈ m.spmc.records, record.active = false

theorem Machine.Initial.not_covers {m : Machine} (initial : m.Initial) {a i : ℕ} {record : MemShareRecord} :
    ¬Covers m.ledger.records a i record := by
  intro covers
  have inactive := initial.unshared record (List.mem_of_getElem? covers.here)
  rw [covers.active] at inactive
  contradiction

end Hypervisor
