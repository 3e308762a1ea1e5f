import Hypervisor.Model.SecureStage2
import Hypervisor.Proofs.Plan

/-! # The tables of a secure partition

The mapper on a heap that only grows: the tables it makes are apart from each other, so the memory
they hold can be written down. There is one L0 and one L1 table, at most one L2 table for each
gigabyte, and the entry of each 2MB is the last one that was stored for it. Regions need not start or
end with a block here, nor stay below 512GB.
-/

namespace Hypervisor

open Radix

/-! ## A heap that only grows -/

/-- Nothing is on the free list, and the next page starts at `next` or above. -/
def BumpHeap (heap : Option BumpAllocator) (next : ℕ) : Prop :=
  ∃ alloc, heap = some alloc ∧ alloc.freeHead = 0 ∧ alloc.next.toNat = next ∧ alloc.endAddr.toNat ≤ 2 ^ 48

/-- A page below `next`. -/
structure Below (page : U64) (next : ℕ) : Prop where
  aligned : page.toNat % 4096 = 0
  low : page.toNat + 4096 ≤ next
  bound : page.toNat + 4096 ≤ 2 ^ 48

theorem Below.mono {page : U64} {next next' : ℕ} (below : Below page next) (le : next ≤ next') : Below page next' :=
  ⟨below.aligned, below.low.trans le, below.bound⟩

theorem Below.table {page : U64} {next : ℕ} (below : Below page next) : page &&& pteAddrMask = page := by
  obtain ⟨aligned, -, bound⟩ := below
  exact and_pteAddrMask_of_aligned aligned (by omega)

/-- A page that the bump pointer serves. -/
theorem allocAligned_eq_some {alloc alloc' : BumpAllocator} {page : U64} (bound : alloc.endAddr.toNat ≤ 2 ^ 48)
    (run : alloc.allocAligned 4096 4096 = some (some page, alloc')) :
    Below page alloc'.next.toNat ∧ alloc.next.toNat ≤ page.toNat ∧ alloc'.next.toNat = page.toNat + 4096 ∧
      alloc'.freeHead = alloc.freeHead ∧ alloc'.endAddr = alloc.endAddr := by
  obtain ⟨-, ⟨refusal, -⟩ | ⟨addr, same, bumped⟩⟩ := BumpAllocator.allocAligned_cases isPowerOfTwo_4096 run
  · cases refusal
  · cases same
    have next := bumped.next_eq
    have last := bumped.next_le
    have aligned : page.toNat % 4096 = 0 := by
      rw [bumped.addr_eq, toNat_4096]
      exact Nat.alignUp_mod _ _
    rw [toNat_4096] at next
    exact ⟨⟨aligned, by omega, by omega⟩, bumped.le_addr isPowerOfTwo_4096, next, bumped.freeHead_eq, bumped.endAddr_eq⟩

theorem BumpHeap.allocPage {s s' : Phys} {next : ℕ} {page : U64} (heap : BumpHeap s.heap next)
    (run : s.allocPage = some (some page, s')) :
    ∃ next', BumpHeap s'.heap next' ∧ Below page next' ∧ next ≤ page.toNat ∧ s'.mem = s.mem := by
  obtain ⟨alloc, here, empty, rfl, bound⟩ := heap
  rw [Phys.allocPage, here] at run
  obtain ⟨⟨page', alloc', mem⟩, taken, run⟩ := Option.bind_eq_some_iff.mp run
  rw [BumpAllocator.allocPage, if_neg (not_not.mpr empty)] at taken
  obtain ⟨⟨page'', alloc''⟩, bumped, taken⟩ := Option.bind_eq_some_iff.mp taken
  cases taken
  cases page' with
  | none => cases run
  | some page' =>
      cases run
      obtain ⟨below, above, -, head, last⟩ := allocAligned_eq_some bound bumped
      exact ⟨_, ⟨alloc', rfl, by rw [head, empty], rfl, by rwa [last]⟩, below, above, rfl⟩

/-! ## The tables -/

/-- The L2 table of each gigabyte, if there is one, and the entry of each 2MB. -/
structure SpTables (mapper : DynamicIdentityMapper) (s : Phys) (next : ℕ) (l2 : ℕ → Option U64) (slots : ℕ → U64) :
    Prop where
  heap : BumpHeap s.heap next
  l0 : Below mapper.l0Table next
  l1 : Below mapper.l1Table next
  apart : mapper.l0Table ≠ mapper.l1Table
  root : s.mem ⟨mapper.l0Table, 0⟩ = tableDesc mapper.l1Table
  rest : ∀ i, i ≠ 0 → i < 512 → s.mem ⟨mapper.l0Table, i⟩ = 0
  links : ∀ i < 512, s.mem ⟨mapper.l1Table, i⟩ = (l2 i).elim 0 tableDesc
  table : ∀ i t, l2 i = some t → Below t next ∧ t ≠ mapper.l0Table ∧ t ≠ mapper.l1Table
  distinct : ∀ i j t, l2 i = some t → l2 j = some t → i = j
  filled : ∀ i j t, l2 i = some t → j < 512 → s.mem ⟨t, j⟩ = slots (512 * i + j)
  unfilled : ∀ i j, l2 i = none → j < 512 → slots (512 * i + j) = 0

section Tables

variable {mapper mapper' : DynamicIdentityMapper} {s s' : Phys} {next : ℕ} {l2 : ℕ → Option U64} {slots : ℕ → U64}

theorem zeroPage_inside (mem : PhysMem) {page : U64} {i : ℕ} (index : i < 512) : zeroPage mem page ⟨page, i⟩ = 0 :=
  if_pos ⟨rfl, index⟩

theorem zeroPage_outside (mem : PhysMem) {page t : U64} {i : ℕ} (other : t ≠ page) :
    zeroPage mem page ⟨t, i⟩ = mem ⟨t, i⟩ := if_neg fun hit => other hit.1

theorem update_table_ne (mem : PhysMem) {t t' : U64} {i j : ℕ} {e : U64} (other : t' ≠ t) :
    Function.update mem ⟨t, i⟩ e ⟨t', j⟩ = mem ⟨t', j⟩ :=
  Function.update_of_ne (fun same => other (congrArg Slot.table same)) ..

theorem update_index_ne (mem : PhysMem) {t t' : U64} {i j : ℕ} {e : U64} (other : j ≠ i) :
    Function.update mem ⟨t, i⟩ e ⟨t', j⟩ = mem ⟨t', j⟩ :=
  Function.update_of_ne (fun same => other (congrArg Slot.index same)) ..

/-- A new mapper has an L0 and an L1 table. -/
theorem spTables_new (heap : BumpHeap s.heap next) (run : DynamicIdentityMapper.new s = some (mapper, s')) :
    ∃ next', SpTables mapper s' next' (fun _ => none) (fun _ => 0) := by
  simp only [DynamicIdentityMapper.new, Option.bind_eq_bind, Option.bind_eq_some_iff, Prod.exists, Option.pure_def,
    Option.some.injEq, Prod.mk.injEq] at run
  obtain ⟨_, s₀, taken₀, l0, rfl, _, s₁, taken₁, l1, rfl, rfl, rfl⟩ := run
  obtain ⟨next₀, heap₀, below₀, -, -⟩ := heap.allocPage taken₀
  obtain ⟨next₁, heap₁, below₁, above, -⟩ := heap₀.allocPage taken₁
  have low := below₀.low
  have apart : l0 ≠ l1 := by
    rintro rfl
    omega
  have low₁ := below₁.low
  exact ⟨next₁, {
    heap := heap₁
    l0 := below₀.mono (by omega)
    l1 := below₁
    apart := apart
    root := by
      rw [Phys.write_mem, Function.update_self]
      exact (BitVec.or_assoc ..).symm
    rest := fun i other index => by
      rw [Phys.write_mem, update_index_ne _ other]
      exact (zeroPage_outside _ apart).trans (zeroPage_inside _ index)
    links := fun i index => by
      rw [Phys.write_mem, update_table_ne _ apart.symm]
      exact zeroPage_inside _ index
    table := fun _ _ some => (by cases some)
    distinct := fun _ _ _ some => (by cases some)
    filled := fun _ _ _ some => (by cases some)
    unfilled := fun _ _ _ _ => rfl }⟩

/-- A store to an entry of an L2 table. -/
theorem SpTables.store (tables : SpTables mapper s next l2 slots) {i j : ℕ} {t : U64} (linked : l2 i = some t)
    (index : j < 512) (e : U64) :
    SpTables mapper (s.write ⟨t, j⟩ e) next l2 (Function.update slots (512 * i + j) e) := by
  obtain ⟨-, notL0, notL1⟩ := tables.table i t linked
  exact {
    heap := tables.heap
    l0 := tables.l0
    l1 := tables.l1
    apart := tables.apart
    root := by rw [Phys.write_mem, update_table_ne _ notL0.symm, tables.root]
    rest := fun k other bound => by rw [Phys.write_mem, update_table_ne _ notL0.symm, tables.rest k other bound]
    links := fun k bound => by rw [Phys.write_mem, update_table_ne _ notL1.symm, tables.links k bound]
    table := tables.table
    distinct := tables.distinct
    filled := fun i' j' t' linked' index' => by
      rw [Phys.write_mem]
      by_cases same : i' = i
      · subst same
        obtain rfl := Option.some.inj (linked.symm.trans linked')
        by_cases here : j' = j
        · rw [here, Function.update_self, Function.update_self]
        · rw [update_index_ne _ here, Function.update_of_ne (by omega), tables.filled i' j' t linked' index']
      · have other : t' ≠ t := by
          rintro rfl
          exact same (tables.distinct i' i t' linked' linked)
        rw [update_table_ne _ other, Function.update_of_ne (by omega), tables.filled i' j' t' linked' index']
    unfilled := fun i' j' none index' => by
      have other : i' ≠ i := by
        rintro rfl
        cases none.symm.trans linked
      rw [Function.update_of_ne (by omega), tables.unfilled i' j' none index'] }

/-- A new L2 table. -/
theorem SpTables.link (tables : SpTables mapper s next l2 slots) {i : ℕ} {t : U64} (index : i < 512) (free : l2 i = none)
    (taken : s.allocPage = some (some t, s')) (count : ℕ) :
    ∃ next', SpTables { mapper with l2Count := count }
      ((⟨zeroPage s'.mem t, s'.heap, s'.refused⟩ : Phys).write ⟨mapper.l1Table, i⟩ (tableDesc t)) next'
      (Function.update l2 i (some t)) slots := by
  obtain ⟨next', heap, below, above, same⟩ := tables.heap.allocPage taken
  have lowT := below.low
  have fresh {page : U64} (old : Below page next) : page ≠ t := by
    rintro rfl
    have low := old.low
    omega
  have mono {page : U64} (old : Below page next) : Below page next' := by
    refine old.mono ?_
    omega
  have frame {page : U64} {k : ℕ} (old : Below page next) (other : page ≠ mapper.l1Table) :
      Function.update (zeroPage s'.mem t) ⟨mapper.l1Table, i⟩ (tableDesc t) ⟨page, k⟩ = s.mem ⟨page, k⟩ := by
    rw [update_table_ne _ other, zeroPage_outside _ (fresh old), same]
  have old {i' : ℕ} {t' : U64} (linked : l2 i' = some t') := tables.table i' t' linked
  have cases_of {i' : ℕ} {t' : U64} (linked : Function.update l2 i (some t) i' = some t') :
      i' = i ∧ t' = t ∨ i' ≠ i ∧ l2 i' = some t' := by
    by_cases here : i' = i
    · subst here
      rw [Function.update_self] at linked
      exact .inl ⟨rfl, (Option.some.inj linked).symm⟩
    · rw [Function.update_of_ne here] at linked
      exact .inr ⟨here, linked⟩
  exact ⟨next', {
    heap := heap
    l0 := mono tables.l0
    l1 := mono tables.l1
    apart := tables.apart
    root := (frame tables.l0 tables.apart).trans tables.root
    rest := fun k other bound => (frame tables.l0 tables.apart).trans (tables.rest k other bound)
    links := fun k bound => by
      rw [Phys.write_mem]
      by_cases here : k = i
      · rw [here, Function.update_self, Function.update_self]
        rfl
      · rw [update_index_ne _ here, Function.update_of_ne here, ← tables.links k bound, ← same]
        exact zeroPage_outside _ (fresh tables.l1)
    table := fun i' t' linked => by
      rcases cases_of linked with ⟨-, rfl⟩ | ⟨-, linked⟩
      · exact ⟨below, (fresh tables.l0).symm, (fresh tables.l1).symm⟩
      · exact ⟨mono (old linked).1, (old linked).2⟩
    distinct := fun i' j' t' linked linked' => by
      rcases cases_of linked with ⟨here, new⟩ | ⟨-, before⟩
      · rcases cases_of linked' with ⟨here', -⟩ | ⟨-, before'⟩
        · rw [here, here']
        · exact absurd new (fresh (old before').1)
      · rcases cases_of linked' with ⟨-, new'⟩ | ⟨-, before'⟩
        · exact absurd new' (fresh (old before).1)
        · exact tables.distinct i' j' t' before before'
    filled := fun i' j' t' linked index' => by
      rcases cases_of linked with ⟨rfl, rfl⟩ | ⟨-, linked⟩
      · rw [Phys.write_mem, update_table_ne _ (fresh tables.l1).symm, tables.unfilled i' j' free index']
        exact zeroPage_inside _ index'
      · exact (frame (old linked).1 (old linked).2.2).trans (tables.filled i' j' t' linked index')
    unfilled := fun i' j' none index' => by
      by_cases here : i' = i
      · rw [here, Function.update_self] at none
        cases none
      · rw [Function.update_of_ne here] at none
        exact tables.unfilled i' j' none index' }⟩

theorem SpTables.getOrCreateL2 (tables : SpTables mapper s next l2 slots) {i : ℕ} {t : U64} (index : i < 512)
    (run : mapper.getOrCreateL2 i s = some (.ok t, mapper', s')) :
    ∃ next' l2', SpTables mapper' s' next' l2' slots ∧ l2' i = some t := by
  have entry := tables.links i index
  rw [DynamicIdentityMapper.getOrCreateL2] at run
  cases linked : l2 i with
  | some t' =>
      rw [linked] at entry
      obtain ⟨below, -, -⟩ := tables.table i t' linked
      have same : s.mem ⟨mapper.l1Table, i⟩ &&& ~~~pageOffsetMask = t' := by
        rw [entry]
        exact tableDesc_and_not_offset below.table
      rw [same, if_pos (by rw [entry]; exact isTable_tableDesc t')] at run
      obtain ⟨ok, rfl, rfl⟩ := by simpa only [Option.pure_def, Option.some.injEq, Prod.mk.injEq] using run
      cases ok
      exact ⟨next, l2, tables, linked⟩
  | none =>
      rw [linked] at entry
      rw [if_neg (by rw [entry]; decide)] at run
      split_ifs at run with full
      · cases run
      obtain ⟨⟨page, s₁⟩, taken, run⟩ := Option.bind_eq_some_iff.mp run
      cases page with
      | none => cases run
      | some page =>
          obtain ⟨ok, rfl, rfl⟩ := by simpa only [Option.pure_def, Option.some.injEq, Prod.mk.injEq] using run
          cases ok
          obtain ⟨next', linked'⟩ := tables.link index linked taken (mapper.l2Count + 1)
          rw [show t ||| (pteValid ||| pteTable) = tableDesc t from (BitVec.or_assoc ..).symm]
          exact ⟨next', _, linked', Function.update_self ..⟩

/-! ## Regions -/

/-- The entries after `count` blocks from number `first` on; there are 2^18 of them. -/
def fillBlocks (attr : MemoryAttribute) : ℕ → ℕ → (ℕ → U64) → ℕ → U64
  | _, 0, slots => slots
  | first, count + 1, slots =>
      fillBlocks attr (first + 1) count
        (Function.update slots (first % 2 ^ 18) (makeBlockEntry (pageAddr (512 * first)) attr))

theorem fillBlocks_apply (attr : MemoryAttribute) {first count : ℕ} (bound : first + count ≤ 2 ^ 18) (slots : ℕ → U64)
    (k : ℕ) : fillBlocks attr first count slots k =
      if first ≤ k ∧ k < first + count then makeBlockEntry (pageAddr (512 * k)) attr else slots k := by
  induction count generalizing first slots with
  | zero => exact (if_neg (by omega)).symm
  | succ count ih =>
      rw [fillBlocks, ih (by omega), Nat.mod_eq_of_lt (by omega)]
      by_cases here : k = first
      · subst here
        rw [if_neg (by omega), Function.update_self, if_pos (by omega)]
      · rw [Function.update_of_ne here]
        exact if_congr (by omega) rfl rfl

/-- A block is that of the 2MB around an address. -/
theorem makeBlockEntry_eq {x : U64} (bound : x.toNat < 2 ^ 48) (attr : MemoryAttribute) :
    makeBlockEntry x attr = makeBlockEntry (pageAddr (512 * (x.toNat / 2 ^ 21))) attr := by
  have same : x &&& ~~~blockMask2mb = pageAddr (512 * (x.toNat / 2 ^ 21)) &&& ~~~blockMask2mb := by
    apply BitVec.eq_of_toNat_eq
    rw [show blockMask2mb = BitVec.mask 0 21 by decide, BitVec.toNat_and_not_mask, BitVec.toNat_and_not_mask,
      pageAddr_toNat _ (by omega)]
    omega
  rw [makeBlockEntry, makeBlockEntry, same]

/-- The entry of an address. -/
theorem slot_of_address {x : U64} (bound : x.toNat < 2 ^ 48) : 512 * l1Idx x + l2Idx x = x.toNat / 2 ^ 21 % 2 ^ 18 := by
  have page : pageOf x = x.toNat / 4096 := Nat.mod_eq_of_lt (by omega)
  have block : x.toNat / 2 ^ 21 = x.toNat / 4096 / 512 := by omega
  rw [l1Idx_eq, l2Idx_eq, page, block, digit, digit, pow_one, pow_two, ← Nat.div_div_eq_div_mul]
  generalize x.toNat / 4096 / 512 = q
  omega

theorem SpTables.mapBlocks (tables : SpTables mapper s next l2 slots) {ipa offset : U64} {attr : MemoryAttribute}
    {count : ℕ} (bound : ipa.toNat + offset.toNat + 2 ^ 21 * count < 2 ^ 48)
    (run : DynamicIdentityMapper.mapBlocks ipa attr count offset mapper s = some (.ok (), mapper', s')) :
    ∃ next' l2', SpTables mapper' s' next' l2' (fillBlocks attr ((ipa.toNat + offset.toNat) / 2 ^ 21) count slots) := by
  induction count generalizing mapper s next l2 slots offset with
  | zero =>
      cases run
      exact ⟨next, l2, tables⟩
  | succ count ih =>
      obtain ⟨current, sum, run⟩ := Option.bind_eq_some_iff.mp run
      rw [checkedAdd_eq_some_iff] at sum
      obtain ⟨⟨result, mapper₁, s₁⟩, linked, run⟩ := Option.bind_eq_some_iff.mp run
      cases result with
      | error text => cases run
      | ok t =>
          obtain ⟨offset', past, run⟩ := Option.bind_eq_some_iff.mp run
          rw [checkedAdd_eq_some_iff, show blockSize2mb.toNat = 2 ^ 21 by decide] at past
          have index₁ : l1Idx current < 512 := by
            rw [l1Idx_eq]
            exact digit_lt (by decide) 2 _
          have index₂ : l2Idx current < 512 := by
            rw [l2Idx_eq]
            exact digit_lt (by decide) 1 _
          obtain ⟨next₁, l2₁, tables₁, here⟩ := tables.getOrCreateL2 index₁ linked
          have stored := tables₁.store here index₂ (makeBlockEntry current attr)
          have small : current.toNat < 2 ^ 48 := by omega
          have same : Function.update slots (512 * l1Idx current + l2Idx current) (makeBlockEntry current attr) =
              Function.update slots ((ipa.toNat + offset.toNat) / 2 ^ 21 % 2 ^ 18)
                (makeBlockEntry (pageAddr (512 * ((ipa.toNat + offset.toNat) / 2 ^ 21))) attr) := by
            rw [slot_of_address small, makeBlockEntry_eq small, sum]
          rw [same] at stored
          obtain ⟨next', l2', done⟩ := ih stored (by omega) run
          have step : (ipa.toNat + offset'.toNat) / 2 ^ 21 = (ipa.toNat + offset.toNat) / 2 ^ 21 + 1 := by omega
          rw [step] at done
          exact ⟨next', l2', done⟩

theorem SpTables.mapRegion (tables : SpTables mapper s next l2 slots) {ipa size : U64} {attr : MemoryAttribute}
    (bound : ipa.toNat + size.toNat < 2 ^ 47) (run : mapper.mapRegion ipa size attr s = some (.ok (), mapper', s')) :
    ∃ next' l2', SpTables mapper' s' next' l2' (fillBlocks attr (ipa.toNat / 2 ^ 21) (blocksOf size) slots) := by
  rw [DynamicIdentityMapper.mapRegion, show blockMask2mb.toNat = 2 ^ 21 - 1 by decide,
    show blockSize2mb.toNat = 2 ^ 21 by decide] at run
  have zero : (0 : U64).toNat = 0 := by decide
  have done := tables.mapBlocks (by rw [zero]; omega) run
  rwa [zero, Nat.add_zero] at done

/-! ## What the tables map -/

/-- Pages beyond 512GB are not mapped. -/
theorem SpTables.leafAt_high (tables : SpTables mapper s next l2 slots) {a : ℕ} (high : 2 ^ 27 ≤ a) (bound : a < 2 ^ 36) :
    leafAt s.mem mapper.l0Table a = none := by
  have index : digit 512 3 a ≠ 0 := by
    rw [digit]
    norm_num
    omega
  have entry := tables.rest (digit 512 3 a) index (digit_lt (by decide) 3 a)
  have stop : walk s.mem mapper.l0Table a = ⟨3, mapper.l0Table, digit 512 3 a⟩ := by
    rw [walk, descend, entry]
    rfl
  rw [leafAt, stop]
  rfl

/-- The leaf of a page is the entry of its 2MB. -/
theorem SpTables.leafAt_low (tables : SpTables mapper s next l2 slots) {a : ℕ} (bound : a < 2 ^ 27)
    (leaf : nextTable (slots (a / 512)) = none) : leafAt s.mem mapper.l0Table a = entryLeaf 1 a (slots (a / 512)) := by
  have first : digit 512 3 a = 0 := by
    rw [digit, Nat.div_eq_of_lt (by simpa using bound)]
  have entry := tables.links (digit 512 2 a) (digit_lt (by decide) 2 a)
  have slot : 512 * digit 512 2 a + digit 512 1 a = a / 512 := by
    rw [digit, digit]
    norm_num
    omega
  have root : nextTable (s.mem ⟨mapper.l0Table, digit 512 3 a⟩) = some mapper.l1Table := by
    rw [first, tables.root, nextTable_tableDesc tables.l1.table]
  cases linked : l2 (digit 512 2 a) with
  | none =>
      rw [linked] at entry
      have unmapped : slots (a / 512) = 0 := by
        rw [← slot]
        exact tables.unfilled _ _ linked (digit_lt (by decide) 1 a)
      have stop : walk s.mem mapper.l0Table a = ⟨2, mapper.l1Table, digit 512 2 a⟩ := by
        rw [walk, descend, root]
        simp only [descend, entry]
        rfl
      rw [leafAt, stop, unmapped]
      simp only [entry]
      rfl
  | some t =>
      rw [linked] at entry
      obtain ⟨below, -, -⟩ := tables.table _ t linked
      have here : s.mem ⟨t, digit 512 1 a⟩ = slots (a / 512) := by
        rw [tables.filled _ _ t linked (digit_lt (by decide) 1 a), slot]
      have stop : walk s.mem mapper.l0Table a = ⟨1, t, digit 512 1 a⟩ := by
        rw [walk, descend, root]
        simp only [descend, entry, Option.elim_some, nextTable_tableDesc below.table, here, leaf]
      rw [leafAt, stop]
      simp only [here]
      rfl

end Tables

end Hypervisor
