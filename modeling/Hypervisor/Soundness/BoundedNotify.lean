import Hypervisor.Soundness.Completion

/-! # Bounded work for a notification

A write to QUEUE_NOTIFY empties a queue in a loop that reads the index of the available ring again for
every chain. The loop ends with the chains that are published when it starts if that index stays as it
is; but returning a chain writes to the used ring, at an address of the guest's choice, and a block
request writes to buffers that the guest names.
-/

namespace Hypervisor

namespace Virtqueue

/-- The setup of a queue whose available ring can be indexed and whose used ring, if there is one, can
be indexed too and has no byte of the index of the available ring. -/
structure IdxApart (q : Virtqueue) : Prop where
  ring : q.availAddr.toNat + 4 < 2 ^ 64
  complete : q.CanComplete
  apart : Disjoint (bytesAt (q.availAddr.toNat + 2) 2) q.usedBytes

variable {q : Virtqueue} {ram ram' : GuestRam}

theorem idx_subset_inputBytes : bytesAt (q.availAddr.toNat + 2) 2 ⊆ q.inputBytes :=
  (bytesAt_subset le_rfl (by omega)).trans Set.subset_union_left

theorem availIdx_congr (same : Set.EqOn ram' ram (bytesAt (q.availAddr.toNat + 2) 2)) :
    q.availIdx ram' = q.availIdx ram := readU16_congr same

/-- Returning a chain leaves the index of the available ring alone. -/
theorem IdxApart.availIdx_putUsed (apart : q.IdxApart) {head : U16} {len : U32}
    (run : q.putUsed ram head len = .ok ram') : q.availIdx ram' = q.availIdx ram :=
  availIdx_congr ((putUsed_eqOn run).mono (Set.disjoint_left.mp apart.apart))

theorem putUsed_last (last : U16) (ram : GuestRam) (head : U16) (len : U32) :
    { q with lastAvailIdx := last }.putUsed ram head len = q.putUsed ram head len := rfl

theorem putUsed_taken (ram : GuestRam) (head : U16) (len : U32) :
    q.taken.putUsed ram head len = q.putUsed ram head len := rfl

/-- The carry from the low byte to the high byte of the index of the used ring changes both. -/
theorem putUsed_changes_idx {head : U16} {len : U32} {a : ℕ} (present : q.usedAddr ≠ 0) (carry : q.usedIdx ram = 0xFF)
    (run : q.putUsed ram head len = .ok ram') (inside : a ∈ bytesAt (q.usedAddr.toNat + 2) 2) : ram' a ≠ ram a := by
  have after : q.usedIdx ram' = 0x100 := by
    rw [(putUsed_placed present run).idx, carry]
    rfl
  rw [mem_bytesAt] at inside
  rw [usedIdx] at carry after
  obtain rfl | rfl : a = q.usedAddr.toNat + 2 ∨ a = q.usedAddr.toNat + 2 + 1 := by omega
  · rw [← extract_readU16_low ram', ← extract_readU16_low ram, carry, after]
    decide
  · rw [← extract_readU16_high ram', ← extract_readU16_high ram, carry, after]
    decide

/-- A head and a length of zero are eight zero bytes. -/
theorem putUsed_clears_entry {a : ℕ} (present : q.usedAddr ≠ 0) (run : q.putUsed ram 0 0 = .ok ram')
    (inside : a ∈ bytesAt (q.usedEntry (q.usedIdx ram)) 8) : ram' a = 0 := by
  obtain rfl := putUsed_eq_ok present run
  have behind : q.usedAddr.toNat + 4 ≤ q.usedEntry (q.usedIdx ram) := by
    rw [usedEntry]
    omega
  rw [mem_bytesAt] at inside
  have zero (n : ℕ) : (0 : U32).extractLsb' n 8 = 0 := BitVec.extractLsb'_zero
  have outside : a ∉ bytesAt (q.usedAddr.toNat + 2) 2 := by
    rw [mem_bytesAt]
    omega
  rw [eqOn_writeU16 _ _ _ outside]
  by_cases second : a ∈ bytesAt (q.usedEntry (q.usedIdx ram) + 4) 4
  · exact (if_pos second).trans (zero _)
  · rw [eqOn_writeU32 _ _ _ second]
    rw [mem_bytesAt] at second
    exact (if_pos (by omega)).trans (zero _)

end Virtqueue

/-! ## The transport -/

namespace VirtioMmioTransport

open VirtioDevice

section Transport

variable {D : Type} [VirtioDevice D]

/-- How many chains are published in the queue that a notification names. -/
def published (t : VirtioMmioTransport D) (env : VirtioEnv) (queueIdx : U16) : ℕ :=
  (t.queueIndex queueIdx.toNat).elim 0 fun i => (t.queues i).published env.ram

/-- The notification takes at most the chains that are published when it is made, and returns: a loop
that takes `n` chains needs a fuel of `n + 1`. -/
def BoundedNotify (t : VirtioMmioTransport D) (env : VirtioEnv) (queueIdx : U16) : Prop :=
  ∃ out, t.notify (t.published env queueIdx + 1) env queueIdx = .ok out

variable {t : VirtioMmioTransport D} {env : VirtioEnv} {queueIdx : U16}

theorem boundedNotify_of_no_queue (none : t.queueIndex queueIdx.toNat = none) : t.BoundedNotify env queueIdx := by
  rw [BoundedNotify, notify, none]
  exact ⟨_, rfl⟩

/-- Only the device can keep the notification of a queue from returning. -/
theorem boundedNotify_iff {i : Fin maxQueues} (index : t.queueIndex queueIdx.toNat = some i) :
    t.BoundedNotify env queueIdx ↔ ((t.queues i).ready = true → ∃ out,
      queueNotify ((t.queues i).published env.ram + 1) t.device queueIdx (t.queues i) env = .ok out) := by
  rw [BoundedNotify, published, notify, index]
  dsimp only [Option.elim]
  split_ifs with ready
  · refine (exists_bind_ok_iff fun _ => ⟨_, rfl⟩).trans ?_
    exact ⟨fun returns _ => returns, fun returns => returns ready⟩
  · exact iff_of_true ⟨_, rfl⟩ fun yes => absurd yes ready

end Transport

section Devices

variable {env : VirtioEnv}

/-- The network device empties its TX queue in the loop. -/
theorem boundedNotify_tx_iff {t : VirtioMmioTransport VirtioNet} : t.BoundedNotify env 1 ↔ ((t.queues 1).ready = true →
    ∃ out, (t.queues 1).drain t.device.handleChain ((t.queues 1).published env.ram + 1) env = .ok out) := by
  have index : t.queueIndex (1 : U16).toNat = some 1 := rfl
  rw [boundedNotify_iff index]
  exact imp_congr_right fun _ => exists_bind_ok_iff fun _ => ⟨_, rfl⟩

/-- A notification for its other queue is nothing to the network device. -/
theorem boundedNotify_of_not_tx {t : VirtioMmioTransport VirtioNet} {idx : U16} (other : idx ≠ 1) :
    t.BoundedNotify env idx := by
  cases index : t.queueIndex idx.toNat with
  | none => exact boundedNotify_of_no_queue index
  | some i => exact (boundedNotify_iff index).mpr fun _ => ⟨_, if_neg other⟩

/-- The block device empties its queue in the loop. -/
theorem boundedNotify_blk_iff {t : VirtioMmioTransport VirtioBlk} : t.BoundedNotify env 0 ↔ ((t.queues 0).ready = true →
    ∃ out, (t.queues 0).drain t.device.handleChain ((t.queues 0).published env.ram + 1) env = .ok out) := by
  have index : t.queueIndex (0 : U16).toNat = some 0 := rfl
  rw [boundedNotify_iff index]
  exact imp_congr_right fun _ => exists_bind_ok_iff fun _ => ⟨_, rfl⟩

/-- The block device has one queue. -/
theorem boundedNotify_of_not_blk {t : VirtioMmioTransport VirtioBlk} {idx : U16} (other : idx ≠ 0) :
    t.BoundedNotify env idx := by
  refine boundedNotify_of_no_queue (dif_neg fun bounds => other (BitVec.eq_of_toNat_eq ?_))
  exact Nat.lt_one_iff.mp bounds.2

end Devices

end VirtioMmioTransport

/-! ## The network device -/

namespace VirtioNet

variable {net : VirtioNet} {q : Virtqueue} {env env' : VirtioEnv} {chain : DescChain}

/-- With the index of the available ring apart from the used ring, the loop takes the published chains. -/
theorem exists_drain_of_idxApart (sized : q.num ≠ 0) (apart : q.availAddr ≠ 0 → q.IdxApart) :
    ∃ out, q.drain net.handleChain (q.published env.ram + 1) env = .ok out := by
  refine @exists_drain _ q env (fun q _ => q.num ≠ 0 ∧ (q.availAddr ≠ 0 → q.IdxApart)) ?_ ⟨sized, apart⟩
  rintro q env ⟨sized, apart⟩ avail
  have apart := apart (Virtqueue.hasAvail_iff.mp avail).2.1
  obtain ⟨ram', completed⟩ :=
    (@Virtqueue.exists_putUsed_iff q.taken env.ram (q.nextChain env.ram).head 0).mpr apart.complete
  obtain ⟨env', run, rfl⟩ := exists_handleChain_iff.mpr completed
  exact ⟨⟨sized, apart.ring⟩, env', run, ⟨sized, fun _ => ⟨apart.ring, apart.complete, apart.apart⟩⟩,
    apart.availIdx_putUsed completed⟩

end VirtioNet

/-- A loop that finds one chain and returns after it leaves the index of the available ring as it is. -/
theorem round_of_drain {handle : Virtqueue → DescChain → VirtioEnv → Except VirtioStop VirtioEnv} {q : Virtqueue}
    {env : VirtioEnv} (ready : q.ready = true) (avail : q.availAddr ≠ 0) (one : q.published env.ram = 1)
    (returns : ∃ out, q.drain handle (q.published env.ram + 1) env = .ok out) :
    q.CanTake ∧ ∃ env₁, handle q.taken (q.nextChain env.ram) env = .ok env₁ ∧
      q.availIdx env₁.ram = q.availIdx env.ram := by
  obtain ⟨⟨q', env'⟩, run⟩ := returns
  obtain ⟨n, two, rounds, empty⟩ := drain_eq_ok_iff.mp run
  rw [Virtqueue.getAvailDesc_eq_none_iff] at empty
  have entries := Virtqueue.hasAvail_iff.mpr ⟨ready, avail, one ▸ Nat.one_ne_zero⟩
  cases rounds with
  | start =>
    rw [empty] at entries
    cases entries
  | @next n _ q₁ _ _ env₁ _ chain found handled rounds =>
    obtain ⟨-, can, rfl, same⟩ := Virtqueue.getAvailDesc_eq_some_iff.mp found
    rw [same] at handled
    refine ⟨can, env₁, handled, ?_⟩
    obtain rfl : n = 0 := by omega
    cases rounds with
    | start =>
      have none : q.taken.published env'.ram = 0 := by
        by_contra some
        have more : q.taken.hasAvail env'.ram = true := Virtqueue.hasAvail_iff.mpr ⟨ready, avail, some⟩
        rw [same, more] at empty
        cases empty
      have reached : q.availIdx env'.ram = q.lastAvailIdx + 1 := Virtqueue.published_eq_zero_iff.mp none
      have before : q.availIdx env.ram - q.lastAvailIdx = 1 := BitVec.eq_of_toNat_eq one
      rw [reached, ← before, BitVec.add_comm, BitVec.sub_add_cancel]

namespace VirtioNet

section Necessary

variable {net : VirtioNet} {q : Virtqueue}

/-- What a bounded loop says about a memory in which one chain is published. -/
theorem putUsed_of_bounded (ready : q.ready = true) (avail : q.availAddr ≠ 0)
    (bounded : ∀ (last : U16) (env : VirtioEnv), ∃ out, { q with lastAvailIdx := last }.drain net.handleChain
      ({ q with lastAvailIdx := last }.published env.ram + 1) env = .ok out) (ram : GuestRam) :
    q.CanTake ∧ ∃ ram', q.putUsed ram ({ q with lastAvailIdx := q.availIdx ram - 1 }.nextChain ram).head 0 = .ok ram' ∧
      q.availIdx ram' = q.availIdx ram := by
  have one : { q with lastAvailIdx := q.availIdx ram - 1 }.published ram = 1 := by
    have back : q.availIdx ram - (q.availIdx ram - 1) = 1 := by bv_omega
    exact congrArg BitVec.toNat back
  obtain ⟨can, env₁, handled, same⟩ := @round_of_drain _ { q with lastAvailIdx := q.availIdx ram - 1 } { ram }
    ready avail one (bounded (q.availIdx ram - 1) { ram })
  have completed := exists_handleChain_iff.mp ⟨env₁, handled, rfl⟩
  rw [Virtqueue.putUsed_taken, Virtqueue.putUsed_last] at completed
  exact ⟨⟨can.num_ne, can.ring⟩, env₁.ram, completed, same⟩

/-- The guest can make the loop overrun the published chains with a used ring on the index. -/
theorem idxApart_of_bounded (ready : q.ready = true) (avail : q.availAddr ≠ 0)
    (bounded : ∀ (last : U16) (env : VirtioEnv), ∃ out, { q with lastAvailIdx := last }.drain net.handleChain
      ({ q with lastAvailIdx := last }.published env.ram + 1) env = .ok out) : q.IdxApart := by
  have round := putUsed_of_bounded ready avail bounded
  obtain ⟨can, ram', completed, -⟩ := round fun _ => 0
  refine ⟨can.ring, (Virtqueue.exists_putUsed_iff _ _).mp ⟨ram', completed⟩, ?_⟩
  refine Set.disjoint_left.mpr fun a index ⟨present, used⟩ => ?_
  rw [mem_bytesAt] at index used
  by_cases overlap : q.availAddr.toNat < q.usedAddr.toNat + 2
  · -- the two indices share a byte, and the next entry changes both bytes of the other one
    obtain ⟨-, ram', completed, same⟩ := round (writeU16 (fun _ => 0) (q.usedAddr.toNat + 2) 0xFF)
    have shared : max (q.availAddr.toNat + 2) (q.usedAddr.toNat + 2) ∈ bytesAt (q.usedAddr.toNat + 2) 2 :=
      mem_bytesAt.mpr ⟨by omega, by omega⟩
    refine Virtqueue.putUsed_changes_idx present (readU16_writeU16 _ _ _) completed shared ?_
    exact eqOn_of_readU16 same (mem_bytesAt.mpr ⟨by omega, by omega⟩)
  · -- an entry covers a byte of the index, which is 0xFF before and zero after it
    have slot : (a - (q.usedAddr.toNat + 4)) / 8 < q.num.toNat := by omega
    have small : (a - (q.usedAddr.toNat + 4)) / 8 < 2 ^ 16 := by have := q.num.isLt; omega
    obtain ⟨idx, number⟩ := @exists_toNat_eq 16 _ small
    let ram := writeU16 (writeU16 (fun _ => 0) (q.availAddr.toNat + 2) 0xFFFF) (q.usedAddr.toNat + 2) idx
    have usedIdx : q.usedIdx ram = idx := readU16_writeU16 _ _ _
    have entry : q.usedEntry (q.usedIdx ram) = q.usedAddr.toNat + 4 + 8 * ((a - (q.usedAddr.toNat + 4)) / 8) := by
      rw [usedIdx, Virtqueue.usedEntry, number, Nat.mod_eq_of_lt slot]
    have availIdx : q.availIdx ram = 0xFFFF := by
      refine (Virtqueue.availIdx_congr ((eqOn_writeU16 _ _ _).mono fun b inside => ?_)).trans (readU16_writeU16 _ _ _)
      rw [mem_bytesAt] at inside
      rw [Set.mem_compl_iff, mem_bytesAt]
      omega
    have head : ({ q with lastAvailIdx := q.availIdx ram - 1 }.nextChain ram).head = 0 := by
      -- the entries of the available ring stand behind both indices
      have zero (off : ℕ) : readU16 (fun _ => 0) off = 0 := by
        change (0 : U8) ++ (0 : U8) = (0 : U16)
        decide
      change readU16 ram (q.availAddr.toNat + 4 + 2 * ((q.availIdx ram - 1).toNat % q.num.toNat)) = 0
      rw [← zero (q.availAddr.toNat + 4 + 2 * ((q.availIdx ram - 1).toNat % q.num.toNat))]
      refine readU16_congr (((eqOn_writeU16 _ _ _).mono fun b inside => ?_).trans
        ((eqOn_writeU16 _ _ _).mono fun b inside => ?_))
      all_goals
        rw [mem_bytesAt] at inside
        rw [Set.mem_compl_iff, mem_bytesAt]
        omega
    obtain ⟨-, ram', completed, same⟩ := round ram
    rw [head] at completed
    have inside : a ∈ bytesAt (q.usedEntry (q.usedIdx ram)) 8 := by
      rw [entry, mem_bytesAt]
      omega
    have cleared := Virtqueue.putUsed_clears_entry present completed inside
    have kept : readU16 ram' (q.availAddr.toNat + 2) = 0xFFFF := same.trans availIdx
    obtain rfl | rfl : a = q.availAddr.toNat + 2 ∨ a = q.availAddr.toNat + 2 + 1 := by omega
    · rw [← extract_readU16_low ram', kept] at cleared
      exact absurd cleared (by decide)
    · rw [← extract_readU16_high ram', kept] at cleared
      exact absurd cleared (by decide)

end Necessary

/-- With the used ring on the available ring every chain that is returned publishes another one, and
the loop does not end. -/
theorem drain_of_same_ring {net : VirtioNet} {q : Virtqueue} {env : VirtioEnv} (ready : q.ready = true)
    (present : q.availAddr ≠ 0) (can : q.CanTake) (same : q.usedAddr = q.availAddr) (some : q.published env.ram ≠ 0)
    (fuel : ℕ) : q.drain net.handleChain fuel env = .error .outOfFuel := by
  induction fuel generalizing q env with
  | zero => rfl
  | succ fuel ih =>
    have found := Virtqueue.getAvailDesc_of_hasAvail can (Virtqueue.hasAvail_iff.mpr ⟨ready, present, some⟩)
    have complete : q.taken.CanComplete := .inr ⟨can.num_ne, by rw [Virtqueue.taken, same]; exact can.ring⟩
    obtain ⟨ram', completed⟩ := (@Virtqueue.exists_putUsed_iff q.taken env.ram (q.nextChain env.ram).head 0).mpr complete
    obtain ⟨env', handled, rfl⟩ := exists_handleChain_iff.mpr completed
    have index : q.availIdx env'.ram = q.availIdx env.ram + 1 := by
      have placed : q.usedIdx env'.ram = q.usedIdx env.ram + 1 :=
        (Virtqueue.putUsed_placed (same.trans_ne present) completed).idx
      rw [Virtqueue.usedIdx, Virtqueue.usedIdx, same] at placed
      exact placed
    have still : q.taken.published env'.ram ≠ 0 := by
      rw [ne_eq, Virtqueue.published_eq_zero_iff] at some ⊢
      intro reached
      have reached : q.availIdx env'.ram = q.lastAvailIdx + 1 := reached
      rw [index] at reached
      exact some (by bv_omega)
    have rest := @ih q.taken env' ready present ⟨can.num_ne, can.ring⟩ same still
    rw [Virtqueue.drain, found]
    change (net.handleChain q.taken (q.nextChain env.ram) env >>= fun env => q.taken.drain net.handleChain fuel env) = _
    rw [handled]
    exact rest

end VirtioNet

/-! ## The block device -/

/-- The chain of entry `i` from the next one on. -/
def Virtqueue.chainAt (q : Virtqueue) (ram : GuestRam) (i : ℕ) : DescChain :=
  { q with lastAvailIdx := q.lastAvailIdx + BitVec.ofNat 16 i }.nextChain ram

namespace VirtioBlk

/-- The bytes of the header of a request. -/
def headerBytes (descs : List VirtqDesc) : Set ℕ := bytesAt (descs.head?.elim 0 fun first => first.addr.toNat) 16

/-- The published requests of a queue, as they stand in guest memory: each can be served, and it writes
neither to what the queue reads nor to the header of a later one. Chains of fewer than two descriptors
are not requests. -/
structure RequestsApart (blk : VirtioBlk) (q : Virtqueue) (ram : GuestRam) : Prop where
  ring : q.availAddr.toNat + 4 < 2 ^ 64
  servable : ∀ i < q.published ram, 2 ≤ (q.chainAt ram i).count →
    blk.Servable q (requestHeader (q.chainAt ram i).descs ram) (requestData (q.chainAt ram i).descs)
  input : ∀ i < q.published ram, 2 ≤ (q.chainAt ram i).count →
    Disjoint q.inputBytes (blk.requestBytes (q.chainAt ram i).descs ram ∪ q.usedBytes)
  headers : ∀ i < q.published ram, 2 ≤ (q.chainAt ram i).count →
    ∀ j < q.published ram, i < j → 2 ≤ (q.chainAt ram j).count →
      Disjoint (headerBytes (q.chainAt ram j).descs) (blk.requestBytes (q.chainAt ram i).descs ram ∪ q.usedBytes)

section Requests

variable {blk : VirtioBlk} {q : Virtqueue} {ram ram' : GuestRam} {env : VirtioEnv} {descs : List VirtqDesc}

theorem requestHeader_congr (same : Set.EqOn ram' ram (headerBytes descs)) :
    requestHeader descs ram' = requestHeader descs ram := by
  rw [requestHeader, requestHeader, readVirtioBlkReqHeader, readVirtioBlkReqHeader,
    readU32_congr (same.mono (bytesAt_subset (by omega) (by omega))),
    readU64_congr (same.mono (bytesAt_subset (by omega) (by omega)))]

/-- A request writes its own bytes and the used ring. -/
theorem processRequest_eqOn {head : U16} {done : BlkCompletion} (run : blk.processRequest q head descs ram = .ok done) :
    Set.EqOn done.ram ram (blk.requestBytes descs ram ∪ q.usedBytes)ᶜ := by
  rcases Nat.lt_or_ge descs.length 2 with short | two
  · rw [processRequest_of_short short] at run
    cases run
    exact Set.eqOn_refl _ _
  · obtain ⟨written, len, same, completed⟩ := putUsed_of_processRequest two run
    exact ((Virtqueue.putUsed_eqOn completed).mono (Set.compl_subset_compl.mpr Set.subset_union_right)).trans
      (same.mono (Set.compl_subset_compl.mpr Set.subset_union_left))

/-- What is left of the memory in which the requests were published after `i` of them. -/
structure Kept (q : Virtqueue) (ram : GuestRam) (i : ℕ) (ram' : GuestRam) : Prop where
  input : Set.EqOn ram' ram q.inputBytes
  headers : ∀ j < q.published ram, i ≤ j → 2 ≤ (q.chainAt ram j).count →
    Set.EqOn ram' ram (headerBytes (q.chainAt ram j).descs)

/-- One published request is handled, and what the later ones need is kept. -/
theorem RequestsApart.handle (apart : blk.RequestsApart q env.ram) {i : ℕ} (published : i < q.published env.ram)
    {env' : VirtioEnv} (kept : Kept q env.ram i env'.ram) (last : U16) :
    ∃ env'', blk.handleChain { q with lastAvailIdx := last } (q.chainAt env.ram i) env' = .ok env'' ∧
      Kept q env.ram (i + 1) env''.ram := by
  rcases Nat.lt_or_ge (q.chainAt env.ram i).count 2 with short | two
  · refine ⟨_, handleChain_eq_ok_iff.mpr ⟨_, processRequest_of_short short, rfl⟩, kept.input, ?_⟩
    exact fun j published later => kept.headers j published (by omega)
  · have header := requestHeader_congr (kept.headers i published le_rfl two)
    have servable := apart.servable i published two
    obtain ⟨done, run⟩ := (@exists_processRequest_iff blk env'.ram { q with lastAvailIdx := last }
      (q.chainAt env.ram i).head (q.chainAt env.ram i).descs).mpr fun _ => by
        rw [header]
        exact ⟨servable.completes, servable.product, servable.transfers⟩
    have written : Set.EqOn done.ram env'.ram (blk.requestBytes (q.chainAt env.ram i).descs env.ram ∪ q.usedBytes)ᶜ := by
      have own := processRequest_eqOn run
      rw [requestBytes, header] at own
      exact own
    refine ⟨_, handleChain_eq_ok_iff.mpr ⟨done, run, rfl⟩, ?_, fun j published' later two' => ?_⟩
    · exact (written.mono (apart.input i published two).subset_compl_right).trans kept.input
    · have untouched := apart.headers i published two j published' (by omega) two'
      exact (written.mono untouched.subset_compl_right).trans (kept.headers j published' (by omega) two')

/-- With requests that leave each other and the rings alone, the loop takes the published chains. -/
theorem exists_drain_of_requestsApart (sized : q.num ≠ 0) (apart : q.availAddr ≠ 0 → blk.RequestsApart q env.ram) :
    ∃ out, q.drain blk.handleChain (q.published env.ram + 1) env = .ok out := by
  -- the invariant of the loop: how many chains are taken, how many are left, and what is kept for them
  refine @exists_drain _ q env (fun q' env' => ∃ i, q' = { q with lastAvailIdx := q.lastAvailIdx + BitVec.ofNat 16 i } ∧
    q'.published env'.ram + i = q.published env.ram ∧ Kept q env.ram i env'.ram) ?_ ⟨0, ?_, rfl, ?_⟩
  · rintro q' env' ⟨i, rfl, left, kept⟩ avail
    obtain ⟨-, ring, some⟩ := Virtqueue.hasAvail_iff.mp avail
    have apart := apart ring
    have same :=
      @Virtqueue.nextChain_congr { q with lastAvailIdx := q.lastAvailIdx + BitVec.ofNat 16 i } _ _ sized kept.input
    obtain ⟨env'', handled, kept'⟩ := apart.handle (by omega) kept (q.lastAvailIdx + BitVec.ofNat 16 i + 1)
    have index : q.availIdx env''.ram = q.availIdx env'.ram :=
      Virtqueue.availIdx_congr ((kept'.input.trans kept.input.symm).mono Virtqueue.idx_subset_inputBytes)
    have fewer := Virtqueue.published_taken some index
    refine ⟨⟨sized, apart.ring⟩, env'', ?_, ⟨i + 1, ?_, by omega, kept'⟩, index⟩
    · rw [same]
      exact handled
    · rw [Virtqueue.taken, ← add_ofNat_succ]
  · rw [BitVec.add_zero]
  · exact ⟨Set.eqOn_refl _ _, fun j _ _ _ => Set.eqOn_refl _ _⟩

end Requests

end VirtioBlk

/-! ## Notifications -/

/-- A header at 0x4000 and a status byte at 0x5000: a read of no data. -/
def emptyRead : VirtioEnv :=
  { ram := writeU16 (writeU32 (writeU64 (writeU16 (writeU16 (writeU32 (writeU64 (oneEntry 0).ram
      0x1000 0x4000) 0x1008 16) 0x100C 1) 0x100E 1) 0x1010 0x5000) 0x1018 1) 0x101C 2 }

/-- A transport of the block device with the queue of eight descriptors. -/
def eightEntriesBlk : VirtioMmioTransport VirtioBlk :=
  { VirtioMmioTransport.new 0x0a000000 (VirtioBlk.new 0x50000000 0x100000) 48 with queues := fun _ => eightEntries }

/-- A ready queue with both rings at one address. -/
def sameRing : Virtqueue := { eightEntries with usedAddr := 0x2000 }

end Hypervisor
