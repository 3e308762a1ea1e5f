import Hypervisor.Model.Mmu
import Hypervisor.Soundness.Pages

/-! # Tables given by their entries

A snapshot lists the tables in use with their roles, the entries that are not zero, the roots and
the heap. Whether its tables are sound and map every page to itself is decided by looking at each
entry once, since a role says which pages the table serves.
-/

namespace Hypervisor

open Radix

structure Snapshot where
  root : VmId → U64
  tables : List (U64 × Role VmId)
  entries : List (PtePtr × U64)
  heap : BumpAllocator

namespace Snapshot

def role (snap : Snapshot) (table : U64) : Option (Role VmId) :=
  (snap.tables.find? (·.1 = table)).map Prod.snd

/-- Memory that is zero but for the entries. -/
def mem (snap : Snapshot) : PhysMem := fun ptr =>
  ((snap.entries.find? (·.1 = ptr)).map Prod.snd).getD 0

/-- The machine with these tables; no mailbox is mapped. -/
def machine (snap : Snapshot) (spmc : StubSpmc) : Machine where
  phys := ⟨snap.mem, some snap.heap, 0⟩
  vmVttbr := snap.root
  perVmVttbr := snap.root
  currentVmId := 0
  vttbrEl2 := 0
  spmc := spmc
  mailboxes := fun _ => .new

/-- The first of the pages that an entry serves. -/
def firstPage (role : Role VmId) (i : ℕ) : ℕ := (role.base * 512 + i) * 512 ^ role.height

/-- An entry of a table with the given role: a link to the table that serves its pages, or a leaf
that maps them to themselves. -/
def entrySound (snap : Snapshot) (role : Role VmId) (i : ℕ) (entry : U64) : Bool :=
  match role.height, nextTable entry with
  | h + 1, some table => snap.role table = some ⟨role.owner, h, role.base * 512 + i⟩
  | h, _ => entry.getLsbD 0 →
      h ≤ 1 ∧ entry &&& pteAddrMask = pageAddr (firstPage role i) ∧ (h = 1 → entry &&& BitVec.mask 12 9 = 0)

/-- Sound tables on pages below the bump pointer of a heap with an empty free list. -/
structure Sound (snap : Snapshot) : Prop where
  pages : ∀ table ∈ snap.tables, table.1.toNat % 4096 = 0 ∧ heapStart.toNat ≤ table.1.toNat ∧
    table.1.toNat + 4096 ≤ heapEnd ∧ table.1.toNat < snap.heap.next.toNat
  entries : ∀ entry ∈ snap.entries, ∀ role ∈ snap.role entry.1.table,
    snap.entrySound role entry.1.index entry.2 = true
  roots : ∀ v, snap.root v ≠ 0 → snap.role (snap.root v) = some ⟨v, 3, 0⟩
  heap : snap.heap.freeHead = 0 ∧ heapStart.toNat ≤ snap.heap.next.toNat ∧
    snap.heap.next.toNat ≤ heapEnd ∧ snap.heap.endAddr.toNat ≤ heapEnd ∧
    snap.heap.allocated.toNat + 4096 * snap.heap.bumpRoom < 2 ^ 64

instance (snap : Snapshot) : Decidable snap.Sound :=
  decidable_of_iff (_ ∧ _ ∧ _ ∧ _)
    ⟨fun ⟨pages, entries, roots, heap⟩ => ⟨pages, entries, roots, heap⟩,
      fun sound => ⟨sound.pages, sound.entries, sound.roots, sound.heap⟩⟩

/-- The leaves: the role of the table, the index and the descriptor. -/
def leaves (snap : Snapshot) : List (Role VmId × ℕ × U64) :=
  snap.entries.filterMap fun (ptr, entry) => (snap.role ptr.table).bind fun role =>
    if entry.getLsbD 0 = true ∧ (role.height = 0 ∨ nextTable entry = none) then some (role, ptr.index, entry)
    else none

variable {snap : Snapshot}

theorem mem_tables {table : U64} {role : Role VmId} (known : snap.role table = some role) :
    (table, role) ∈ snap.tables := by
  obtain ⟨⟨found, _⟩, search, rfl⟩ := Option.map_eq_some_iff.mp known
  obtain rfl : found = table := by simpa using List.find?_some search
  exact List.mem_of_find?_eq_some search

/-- A valid descriptor is one of the entries. -/
theorem mem_entries {ptr : PtePtr} (valid : (snap.mem ptr).getLsbD 0 = true) :
    (ptr, snap.mem ptr) ∈ snap.entries := by
  rw [mem] at valid ⊢
  cases search : snap.entries.find? (·.1 = ptr) with
  | none =>
    rw [search] at valid
    exact absurd valid (by decide)
  | some entry =>
    obtain ⟨found, value⟩ := entry
    obtain rfl : found = ptr := by simpa using List.find?_some search
    exact List.mem_of_find?_eq_some search

namespace Sound

variable (sound : snap.Sound)
include sound

theorem entry {t : U64} {role : Role VmId} {i : ℕ} (known : snap.role t = some role)
    (valid : (snap.mem ⟨t, i⟩).getLsbD 0 = true) : snap.entrySound role i (snap.mem ⟨t, i⟩) = true :=
  sound.entries _ (mem_entries valid) role known

/-- A leaf maps its pages to themselves. -/
theorem leaf {t : U64} {role : Role VmId} {i : ℕ} (known : snap.role t = some role)
    (valid : (snap.mem ⟨t, i⟩).getLsbD 0 = true)
    (ends : role.height = 0 ∨ nextTable (snap.mem ⟨t, i⟩) = none) :
    role.height ≤ 1 ∧ snap.mem ⟨t, i⟩ &&& pteAddrMask = pageAddr (firstPage role i) ∧
      (role.height = 1 → snap.mem ⟨t, i⟩ &&& BitVec.mask 12 9 = 0) := by
  have checked := sound.entry known valid
  obtain ⟨owner, height, base⟩ := role
  rw [entrySound] at checked
  split at checked
  · rename_i h table up link
    rcases ends with zero | none
    · dsimp only at up zero
      omega
    · rw [none] at link
      contradiction
  · simpa [valid, imp_iff_not_or] using checked

theorem tables : Tables snap.root ⟨snap.mem, some snap.heap, 0⟩ snap.role snap.heap.bumpRoom where
  layout := by
    intro t t' v h b i known _ link
    have checked := sound.entry known ((nextTable_eq_some _).mp link).1
    rw [entrySound] at checked
    simp only [link, decide_eq_true_eq] at checked
    exact checked
  page known := by
    obtain ⟨aligned, low, high, -⟩ := sound.pages _ (mem_tables known)
    exact ⟨aligned, low, high⟩
  blocks known _ valid block :=
    (sound.leaf known valid (.inr ((nextTable_eq_none _).mpr (.inr block)))).2.2 rfl
  heap := by
    obtain ⟨empty, low, next, last, budget⟩ := sound.heap
    refine ⟨[], ⟨?_, List.nodup_nil, fun _ member => absurd member List.not_mem_nil, ?_, low, next, last, ?_⟩, ?_⟩
    · rw [empty]
      exact .nil
    · intro page above used
      obtain ⟨role, known⟩ := Option.ne_none_iff_exists'.mp used
      have below := (sound.pages _ (mem_tables known)).2.2.2
      dsimp only at below
      omega
    · simpa using budget
    · simp
  roots := sound.roots

theorem wf {spmc : StubSpmc} : (snap.machine spmc).Wf := by
  refine ⟨⟨snap.role, snap.heap.bumpRoom, sound.tables⟩, fun v => ?_⟩
  by_cases rooted : snap.root v = 0
  · exact (congrArg (· &&& pteAddrMask) rooted).trans rooted.symm
  · exact (sound.tables.page (sound.roots v rooted)).table

theorem initial {spmc : StubSpmc} (unshared : ∀ record ∈ spmc.records, record.active = false) :
    (snap.machine spmc).Initial where
  wf := sound.wf
  small v a leaf mapped := by
    obtain ⟨t, known, -, -, valid, ends, -⟩ := sound.tables.of_view mapped
    exact (sound.leaf known valid ends).1
  identity v a leaf mapped := by
    obtain ⟨t, known, bound, -, valid, ends, same⟩ := sound.tables.of_view mapped
    obtain ⟨height, first, -⟩ := sound.leaf known valid ends
    rw [same]
    refine translate_output_eq _ _ (Nat.le_succ_of_le height) bound (first.trans ?_)
    rw [firstPage, above_digit]
  unshared := unshared

/-- The entry behind a page, with the pages it serves. -/
theorem of_view {spmc : StubSpmc} {v : VmId} {a : ℕ} {leaf : Leaf}
    (mapped : (snap.machine spmc).view v a = some leaf) :
    ∃ entry ∈ snap.leaves, entry.1.owner = v ∧ firstPage entry.1 entry.2.1 ≤ a ∧
      a < firstPage entry.1 entry.2.1 + 512 ^ entry.1.height ∧
      leaf.translation.isNormal = (translate 0 0 entry.2.2).isNormal := by
  obtain ⟨t, known, -, -, valid, ends, same⟩ := sound.tables.of_view mapped
  refine ⟨(⟨v, leaf.height, a / 512 ^ (leaf.height + 1)⟩, digit 512 leaf.height a,
    snap.mem ⟨t, digit 512 leaf.height a⟩), ?_, rfl, ?_⟩
  · rw [leaves, List.mem_filterMap]
    refine ⟨_, mem_entries valid, ?_⟩
    simp [known, valid, ends]
  · dsimp only [firstPage]
    rw [above_digit, same]
    have positive : 0 < 512 ^ leaf.height := Nat.pow_pos (by decide)
    exact ⟨Nat.div_mul_le_self a _, Nat.lt_div_mul_add positive, by simp only [Translation.isNormal, translate]⟩

/-- RAM that no other VM maps, from the leaves. -/
theorem exclusive {spmc : StubSpmc}
    (apart : ∀ one ∈ snap.leaves, ∀ two ∈ snap.leaves, (translate 0 0 one.2.2).isNormal = true →
      two.1.owner ≠ one.1.owner →
      firstPage one.1 one.2.1 + 512 ^ one.1.height ≤ firstPage two.1 two.2.1 ∨
      firstPage two.1 two.2.1 + 512 ^ two.1.height ≤ firstPage one.1 one.2.1)
    (u v : VmId) (a : ℕ) (leaf : Leaf) (mapped : (snap.machine spmc).view u a = some leaf)
    (normal : leaf.translation.isNormal = true) (maps : (snap.machine spmc).view v a ≠ none) : v = u := by
  obtain ⟨leaf', mapped'⟩ := Option.ne_none_iff_exists'.mp maps
  obtain ⟨one, member, rfl, low, high, attrs⟩ := sound.of_view mapped
  obtain ⟨two, member', rfl, low', high', -⟩ := sound.of_view mapped'
  by_contra other
  have split := apart one member two member' (attrs ▸ normal) other
  omega

end Sound

/-! ## Two small guests

Each guest has one 2MB block of RAM of its own and one page of the GIC region, which both map. -/

/-- Five tables from a base address on: L0, L1, the L2 tables of RAM and of the GIC, and the L3
table of the GIC. -/
def guestTables (v : VmId) (base : U64) : List (U64 × Role VmId) :=
  [(base, ⟨v, 3, 0⟩), (base + 0x1000, ⟨v, 2, 0⟩), (base + 0x2000, ⟨v, 1, 1⟩), (base + 0x3000, ⟨v, 1, 0⟩),
    (base + 0x4000, ⟨v, 0, 64⟩)]

/-- The entries of a guest whose RAM is block `ramIdx` of the second gigabyte. -/
def guestEntries (base : U64) (ramIdx : ℕ) : List (PtePtr × U64) :=
  [(⟨base, 0⟩, tableDesc (base + 0x1000)), (⟨base + 0x1000, 1⟩, tableDesc (base + 0x2000)),
    (⟨base + 0x1000, 0⟩, tableDesc (base + 0x3000)),
    (⟨base + 0x2000, ramIdx⟩, makeBlockEntry (0x40000000 + BitVec.ofNat 64 ramIdx * blockSize2mb) .normal),
    (⟨base + 0x3000, 64⟩, tableDesc (base + 0x4000)),
    (⟨base + 0x4000, 128⟩, makePageEntry 0x08080000 .device)]

/-- RAM at 0x48000000 for VM 0 and at 0x68000000 for VM 1, over a heap that ends at `last`. -/
def twoGuests (last : U64) : Snapshot where
  root v := if v = 0 then 0x41000000 else 0x41005000
  tables := guestTables 0 0x41000000 ++ guestTables 1 0x41005000
  entries := guestEntries 0x41000000 64 ++ guestEntries 0x41005000 320
  heap := ⟨0x4100A000, last, 0xA000, 0⟩

theorem twoGuests_sound : (twoGuests 0x42000000).Sound := by decide

end Snapshot

/-- Two guests before any call. -/
def freshGuests : Machine := (Snapshot.twoGuests 0x42000000).machine .init

theorem freshGuests_initial : freshGuests.Initial := Snapshot.twoGuests_sound.initial (by decide)

end Hypervisor
