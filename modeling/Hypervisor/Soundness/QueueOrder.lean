import Hypervisor.Ring.Basic
import Hypervisor.Soundness.BoundedNotify

/-! # The order of chains in a queue

The driver publishes heads in the available ring, and the device takes chains from it and returns them
in the used ring. Both rings have running 16-bit indices, and a cell is the index modulo the size. The
size is a power of two, so the cells follow each other across the wrap of an index. `queue_order` is
about every interleaving of the three, over any number of requests: chains are taken in the order of
publication, each one once, and the `k`-th call to return one fills cell `k` of the used ring.
-/

namespace Hypervisor

/-- The entries of the available ring. -/
def Virtqueue.availCell (q : Virtqueue) (ram : GuestRam) (slot : ℕ) : U16 :=
  readU16 ram (q.availAddr.toNat + 4 + 2 * slot)

/-- A queue at work. -/
structure QueueRun where
  q : Virtqueue
  ram : GuestRam
  /-- The heads that the driver has published. -/
  published : List U16
  /-- The chains that the device has taken. -/
  taken : List DescChain
  /-- How many chains the device has returned. -/
  returned : ℕ

def QueueRun.start (q : Virtqueue) (ram : GuestRam) : QueueRun := ⟨q, ram, [], [], 0⟩

/-- The driver publishes the heads `new`, where `first` is the index of the first entry of all. The
entries that are not taken yet stand in their cells, and there are no more of them than cells. All
other memory may change, except the index of the used ring. -/
structure Publishes (first : U16) (s : QueueRun) (new : List U16) (ram' : GuestRam) : Prop where
  room : s.published.length + new.length ≤ s.taken.length + s.q.num.toNat
  idx : s.q.availIdx ram' = first + BitVec.ofNat 16 (s.published.length + new.length)
  entries : Ring.Holds (s.q.availCell ram') s.q.num.toNat (first.toNat + s.taken.length)
    ((s.published ++ new).drop s.taken.length)
  used : s.q.usedIdx ram' = s.q.usedIdx s.ram

/-- One step of the driver or of the device. -/
inductive QueueStep (first : U16) : QueueRun → QueueRun → Prop
  | publish {s : QueueRun} {new : List U16} {ram' : GuestRam} : Publishes first s new ram' →
      QueueStep first s { s with ram := ram', published := s.published ++ new }
  | take {s : QueueRun} {chain : DescChain} {q' : Virtqueue} : s.q.getAvailDesc s.ram = .ok (some (chain, q')) →
      QueueStep first s { s with q := q', taken := s.taken ++ [chain] }
  | poll {s : QueueRun} : s.q.getAvailDesc s.ram = .ok none → QueueStep first s s
  | giveBack {s : QueueRun} {head : U16} {len : U32} {ram' : GuestRam} : s.q.putUsed s.ram head len = .ok ram' →
      QueueStep first s { s with ram := ram', returned := s.returned + 1 }

/-- The states of a queue that starts without published entries. -/
def QueueReach (q : Virtqueue) (ram : GuestRam) (s : QueueRun) : Prop :=
  Relation.ReflTransGen (QueueStep q.lastAvailIdx) (.start q ram) s

/-- The chains taken so far are the first ones that were published, the next call takes the next one, and
the next return fills the next cell of the used ring and then moves its index. -/
structure ServedInOrder (s : QueueRun) : Prop where
  heads : s.taken.map DescChain.head <+: s.published
  next : ∀ head, s.published[s.taken.length]? = some head →
    ∃ chain q', s.q.getAvailDesc s.ram = .ok (some (chain, q')) ∧ chain.head = head
  empty : s.published.length ≤ s.taken.length → s.q.getAvailDesc s.ram = .ok none
  returns : ∀ head len, s.q.putUsed s.ram head len = .ok (writeU16
    (writeU32 (writeU32 s.ram (s.q.usedAddr.toNat + 4 + 8 * (s.returned % s.q.num.toNat)) (head.setWidth 32))
      (s.q.usedAddr.toNat + 4 + 8 * (s.returned % s.q.num.toNat) + 4) len)
    (s.q.usedAddr.toNat + 2) (BitVec.ofNat 16 (s.returned + 1)))

/-! ## Indices -/

theorem Virtqueue.Separate.num_dvd {q : Virtqueue} (separate : q.Separate) : q.num.toNat ∣ 2 ^ 16 := by
  obtain ⟨k, power⟩ := separate.power
  have bound := q.num.isLt
  rw [power] at bound ⊢
  exact Nat.pow_dvd_pow 2 (Nat.pow_lt_pow_iff_right (Nat.lt_succ_self 1) |>.mp bound).le

/-- A 16-bit index and the running count name the same cell. -/
theorem Virtqueue.Separate.cell {q : Virtqueue} (separate : q.Separate) (first : U16) (n : ℕ) :
    (first + BitVec.ofNat 16 n).toNat % q.num.toNat = (first.toNat + n) % q.num.toNat := by
  rw [BitVec.toNat_add, BitVec.toNat_ofNat, Nat.add_mod_mod, Nat.mod_mod_of_dvd _ separate.num_dvd]

theorem Virtqueue.Separate.canTake {q : Virtqueue} (separate : q.Separate) : q.CanTake := by
  have positive := separate.num_pos
  have fits := separate.avail_fits
  exact ⟨fun zero => absurd positive (by rw [zero]; decide), by omega⟩

theorem ofNat_succ (n : ℕ) : BitVec.ofNat 16 n + 1 = BitVec.ofNat 16 (n + 1) := by
  rw [BitVec.ofNat_add]
  rfl

/-- Indices that are less than one round apart are equal only if the counts are. -/
theorem index_eq_iff {first : U16} {m n : ℕ} (low : m ≤ n) (high : n < m + 2 ^ 16) :
    first + BitVec.ofNat 16 n = first + BitVec.ofNat 16 m ↔ n = m := by
  constructor
  · intro same
    have same := congrArg BitVec.toNat same
    rw [BitVec.toNat_add, BitVec.toNat_add, BitVec.toNat_ofNat, BitVec.toNat_ofNat] at same
    omega
  · rintro rfl
    rfl

/-! ## The invariant -/

/-- What the device and the driver keep. -/
structure InOrder (q : Virtqueue) (s : QueueRun) : Prop where
  queue : s.q = { q with lastAvailIdx := q.lastAvailIdx + BitVec.ofNat 16 s.taken.length }
  heads : s.taken.map DescChain.head <+: s.published
  room : s.published.length ≤ s.taken.length + q.num.toNat
  idx : q.availIdx s.ram = q.lastAvailIdx + BitVec.ofNat 16 s.published.length
  entries : Ring.Holds (q.availCell s.ram) q.num.toNat (q.lastAvailIdx.toNat + s.taken.length)
    (s.published.drop s.taken.length)
  used : q.usedIdx s.ram = BitVec.ofNat 16 s.returned

namespace InOrder

variable {q : Virtqueue} {s : QueueRun}

theorem start {ram : GuestRam} (idle : q.availIdx ram = q.lastAvailIdx) (fresh : q.usedIdx ram = 0) :
    InOrder q (.start q ram) where
  queue := by rw [QueueRun.start, List.length_nil, BitVec.add_zero]
  heads := List.nil_prefix
  room := Nat.zero_le _
  idx := by rw [QueueRun.start, List.length_nil, BitVec.add_zero, idle]
  entries := Ring.holds_nil
  used := fresh

/-- The heads that are published and not taken. -/
theorem split (order : InOrder q s) :
    s.published = s.taken.map DescChain.head ++ s.published.drop s.taken.length := by
  obtain ⟨rest, whole⟩ := order.heads
  rw [← whole, List.drop_left' (List.length_map ..)]

theorem length_le (order : InOrder q s) : s.taken.length ≤ s.published.length := by
  have := order.heads.length_le
  rwa [List.length_map] at this

theorem hasAvail_iff (order : InOrder q s) (separate : q.Separate) :
    s.q.hasAvail s.ram = true ↔ s.taken.length < s.published.length := by
  have low := order.length_le
  have high : s.published.length < s.taken.length + 2 ^ 16 := by
    have := order.room
    have := q.num.isLt
    omega
  have idx : s.q.availIdx s.ram = q.lastAvailIdx + BitVec.ofNat 16 s.published.length := by
    rw [order.queue]
    exact order.idx
  rw [Virtqueue.hasAvail_iff, ne_eq (s.q.published s.ram), Virtqueue.published_eq_zero_iff, idx, order.queue]
  dsimp only
  rw [index_eq_iff low high]
  constructor
  · rintro ⟨-, -, ne⟩
    omega
  · exact fun more => ⟨separate.ready, separate.nonzero.2.1, by omega⟩

theorem nextChain_head (order : InOrder q s) (separate : q.Separate) {head : U16}
    (next : s.published[s.taken.length]? = some head) : (s.q.nextChain s.ram).head = head := by
  obtain ⟨inside, here⟩ := List.getElem?_eq_some_iff.mp next
  have entries := order.entries
  rw [List.drop_eq_getElem_cons inside, here] at entries
  have cell := entries.head
  rw [← separate.cell] at cell
  rw [order.queue]
  exact cell

/-- A call takes the next entry, if there is one. -/
theorem getAvailDesc (order : InOrder q s) (separate : q.Separate) {head : U16}
    (next : s.published[s.taken.length]? = some head) :
    s.q.getAvailDesc s.ram = .ok (some (s.q.nextChain s.ram, s.q.taken)) ∧ (s.q.nextChain s.ram).head = head := by
  obtain ⟨inside, -⟩ := List.getElem?_eq_some_iff.mp next
  have can : s.q.CanTake := by
    rw [order.queue]
    exact ⟨separate.canTake.num_ne, separate.canTake.ring⟩
  exact ⟨Virtqueue.getAvailDesc_of_hasAvail can ((order.hasAvail_iff separate).mpr inside),
    order.nextChain_head separate next⟩

theorem putUsed (order : InOrder q s) (separate : q.Separate) (head : U16) (len : U32) :
    s.q.putUsed s.ram head len = .ok (writeU16
      (writeU32 (writeU32 s.ram (s.q.usedAddr.toNat + 4 + 8 * (s.returned % s.q.num.toNat)) (head.setWidth 32))
        (s.q.usedAddr.toNat + 4 + 8 * (s.returned % s.q.num.toNat) + 4) len)
      (s.q.usedAddr.toNat + 2) (BitVec.ofNat 16 (s.returned + 1))) := by
  obtain ⟨ram', run⟩ := (@Virtqueue.exists_putUsed_iff q s.ram head len).mpr separate.canComplete
  have entry : q.usedEntry (q.usedIdx s.ram) = q.usedAddr.toNat + 4 + 8 * (s.returned % q.num.toNat) := by
    rw [Virtqueue.usedEntry, order.used, BitVec.toNat_ofNat, Nat.mod_mod_of_dvd _ separate.num_dvd]
  have moved : q.usedIdx s.ram + 1 = BitVec.ofNat 16 (s.returned + 1) := by
    rw [order.used, ofNat_succ]
  have after := Virtqueue.putUsed_eq_ok separate.nonzero.2.2 run
  rw [entry, moved] at after
  rw [order.queue, Virtqueue.putUsed_last, run, after]

theorem publish (order : InOrder q s) {new : List U16} {ram' : GuestRam}
    (published : Publishes q.lastAvailIdx s new ram') :
    InOrder q { s with ram := ram', published := s.published ++ new } := by
  obtain ⟨room, idx, entries, used⟩ := published
  rw [order.queue] at room idx entries used
  refine ⟨order.queue, order.heads.trans (List.prefix_append _ _), ?_, ?_, entries, used.trans order.used⟩
  · rw [List.length_append]
    exact room
  · rw [List.length_append]
    exact idx

/-- The usual way to publish an entry: fill the next cell, and then move the index. -/
theorem publishes_one (order : InOrder q s) (separate : q.Separate) (head : U16)
    (room : s.published.length < s.taken.length + q.num.toNat) :
    Publishes q.lastAvailIdx s [head] (writeU16
      (writeU16 s.ram (q.availAddr.toNat + 4 + 2 * ((q.lastAvailIdx.toNat + s.published.length) % q.num.toNat)) head)
      (q.availAddr.toNat + 2) (q.lastAvailIdx + BitVec.ofNat 16 (s.published.length + 1))) := by
  have slot := Nat.mod_lt (q.lastAvailIdx.toNat + s.published.length) separate.num_pos
  have cells : ∀ other < q.num.toNat, q.availCell (writeU16 (writeU16 s.ram
      (q.availAddr.toNat + 4 + 2 * ((q.lastAvailIdx.toNat + s.published.length) % q.num.toNat)) head)
      (q.availAddr.toNat + 2) (q.lastAvailIdx + BitVec.ofNat 16 (s.published.length + 1))) other =
      Function.update (q.availCell s.ram) ((q.lastAvailIdx.toNat + s.published.length) % q.num.toNat) head other := by
    intro other _
    -- the index stands before the cells
    refine (readU16_congr (eqOn_of_apart (eqOn_writeU16 _ _ _) (by omega))).trans ?_
    rcases eq_or_ne other ((q.lastAvailIdx.toNat + s.published.length) % q.num.toNat) with rfl | ne
    · rw [Function.update_self]
      exact readU16_writeU16 _ _ _
    · rw [Function.update_of_ne ne]
      exact readU16_congr (eqOn_of_apart (eqOn_writeU16 _ _ _) (by omega))
  refine ⟨?_, ?_, ?_, ?_⟩
  · rw [order.queue]
    exact room
  · rw [order.queue]
    exact readU16_writeU16 _ _ _
  · have free : (s.published.drop s.taken.length).length < q.num.toNat := by
      rw [List.length_drop]
      omega
    have last : q.lastAvailIdx.toNat + s.taken.length + (s.published.drop s.taken.length).length =
        q.lastAvailIdx.toNat + s.published.length := by
      have := order.length_le
      rw [List.length_drop]
      omega
    have longer := @Ring.Holds.concat _ _ _ _ head _ order.entries free
    rw [last] at longer
    rw [order.queue, List.drop_append_of_le_length order.length_le]
    exact longer.congr separate.num_pos cells
  · have outside : bytesAt (q.usedAddr.toNat + 2) 2 ⊆ (bytesAt q.availAddr.toNat (4 + 2 * q.num.toNat))ᶜ :=
      fun a inside avail => Set.disjoint_left.mp separate.avail_used avail
        (bytesAt_subset (by omega) (by omega) inside)
    have inside {ram : GuestRam} {off : ℕ} {x : U16} (low : q.availAddr.toNat ≤ off)
        (high : off + 2 ≤ q.availAddr.toNat + (4 + 2 * q.num.toNat)) :
        Set.EqOn (writeU16 ram off x) ram (bytesAt (q.usedAddr.toNat + 2) 2) :=
      (eqOn_around (eqOn_writeU16 ram off x) low high).mono outside
    rw [order.queue]
    exact readU16_congr ((inside (by omega) (by omega)).trans (inside (by omega) (by omega)))

theorem take (order : InOrder q s) (separate : q.Separate) {chain : DescChain} {q' : Virtqueue}
    (run : s.q.getAvailDesc s.ram = .ok (some (chain, q'))) :
    InOrder q { s with q := q', taken := s.taken ++ [chain] } := by
  obtain ⟨avail, -⟩ := Virtqueue.getAvailDesc_eq_some_iff.mp run
  have inside := (order.hasAvail_iff separate).mp avail
  have next := List.getElem?_eq_getElem inside
  obtain ⟨found, head⟩ := order.getAvailDesc separate next
  have rest := List.drop_eq_getElem_cons inside
  have length : (s.taken ++ [s.q.nextChain s.ram]).length = s.taken.length + 1 := by
    rw [List.length_append, List.length_singleton]
  cases found.symm.trans run
  refine ⟨?_, ?_, ?_, order.idx, ?_, order.used⟩
  · dsimp only
    rw [length, Virtqueue.taken, order.queue, add_ofNat_succ]
  · refine ⟨s.published.drop (s.taken.length + 1), ?_⟩
    rw [List.map_append, List.map_singleton, head, List.append_assoc, List.singleton_append, ← rest]
    exact order.split.symm
  · dsimp only
    rw [length]
    have := order.room
    omega
  · dsimp only
    have entries := order.entries
    rw [rest] at entries
    rw [length, ← Nat.add_assoc]
    exact entries.tail

theorem giveBack (order : InOrder q s) (separate : q.Separate) {head : U16} {len : U32} {ram' : GuestRam}
    (run : s.q.putUsed s.ram head len = .ok ram') :
    InOrder q { s with ram := ram', returned := s.returned + 1 } := by
  rw [order.queue, Virtqueue.putUsed_last] at run
  -- the device writes to the used ring only
  have outside : bytesAt q.availAddr.toNat (4 + 2 * q.num.toNat) ⊆ q.usedBytesᶜ := by
    intro a inside used
    refine Set.disjoint_left.mp separate.avail_used inside (bytesAt_subset ?_ ?_ used.2)
    all_goals omega
  have same := (Virtqueue.putUsed_eqOn run).mono outside
  refine ⟨order.queue, order.heads, order.room, ?_, ?_, ?_⟩
  · rw [← order.idx]
    exact Virtqueue.availIdx_congr (same.mono (bytesAt_subset (by omega) (by omega)))
  · refine order.entries.congr separate.num_pos fun slot inside => ?_
    exact readU16_congr (same.mono (bytesAt_subset (by omega) (by omega)))
  · rw [(Virtqueue.putUsed_placed separate.nonzero.2.2 run).idx, order.used, ofNat_succ]

theorem step (order : InOrder q s) (separate : q.Separate) {s' : QueueRun} (step : QueueStep q.lastAvailIdx s s') :
    InOrder q s' := by
  cases step with
  | publish published => exact order.publish published
  | take run => exact order.take separate run
  | poll => exact order
  | giveBack run => exact order.giveBack separate run

theorem servedInOrder (order : InOrder q s) (separate : q.Separate) : ServedInOrder s where
  heads := order.heads
  next head next := ⟨_, _, order.getAvailDesc separate next⟩
  empty all := Virtqueue.getAvailDesc_of_not_hasAvail <| by
    rw [← Bool.not_eq_true, order.hasAvail_iff separate]
    omega
  returns := order.putUsed separate

end InOrder

end Hypervisor
