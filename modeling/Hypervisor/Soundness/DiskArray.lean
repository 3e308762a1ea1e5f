import Mathlib.Order.Interval.Set.Disjoint
import Hypervisor.Proofs.Transfer
import Hypervisor.Soundness.Completion

/-! # The block device is an array of bytes

An array of bytes says what the disk holds after any sequence of requests: a read answers with a part
of the array, a write replaces a part of it. `disk_refines_array` is about every request of every
session: the buffers of a read get the answer of the array, the disk image holds the array after the
request, and nothing else changes but the status byte and the used ring. The one exception is a read of
2^32 - 1 bytes, whose length with the status byte does not fit the count of the code.
-/

namespace Hypervisor

open ScatterGather

/-! ## The array -/

/-- A request to an array of bytes. -/
inductive ArrayRequest where
  | read (off len : ℕ)
  | write (off : ℕ) (bytes : List U8)

/-- The array after a request. -/
def ArrayRequest.apply (array : ℕ → U8) : ArrayRequest → ℕ → U8
  | read _ _ => array
  | write off bytes => put array off bytes

/-- The bytes that a read returns. -/
def ArrayRequest.answer (array : ℕ → U8) : ArrayRequest → List U8
  | read off len => fetch array off len
  | write _ _ => []

/-- The three areas of a queue. -/
def Virtqueue.ringBytes (q : Virtqueue) : Set ℕ :=
  bytesAt q.descAddr.toNat (16 * q.num.toNat) ∪ bytesAt q.availAddr.toNat (4 + 2 * q.num.toNat) ∪
    bytesAt q.usedAddr.toNat (4 + 8 * q.num.toNat)

namespace VirtioBlk

/-- The request to the array that a chain stands for. -/
def arrayRequest (dir : DiskDir) (descs : List VirtqDesc) (ram : GuestRam) : ArrayRequest :=
  match dir with
  | .fromDisk => .read (requestOffset descs ram) (dataLength (requestData descs))
  | .toDisk => .write (requestOffset descs ram) (gather ram (bufferRanges (requestData descs)))

/-- The disk image in memory holds the array. -/
def Represents (blk : VirtioBlk) (array : ℕ → U8) (ram : GuestRam) : Prop :=
  ∀ i < blk.diskSize.toNat, ram (blk.diskBase.toNat + i) = array i

/-! ## Requests and sessions -/

def imageBytes (blk : VirtioBlk) : Set ℕ := bytesAt blk.diskBase.toNat blk.diskSize.toNat

/-- A disk below 4 GiB whose image is apart from the areas of the queue, which has a used ring. -/
structure DiskSetup (blk : VirtioBlk) (q : Virtqueue) : Prop where
  small : blk.diskSize.toNat < 2 ^ 32
  image : blk.diskBase.toNat + blk.diskSize.toNat < 2 ^ 64
  sized : q.num ≠ 0
  present : q.usedAddr ≠ 0
  ring : q.usedAddr.toNat + (4 + 8 * q.num.toNat) ≤ 2 ^ 64
  apart : Disjoint blk.imageBytes q.ringBytes

/-- The buffers of a request: header, data and status. -/
def requestBuffers (descs : List VirtqDesc) : List Range :=
  (descs.head?.elim 0 fun first => first.addr.toNat, 16) ::
    (bufferRanges (requestData descs) ++ [(statusAddr descs, 1)])

/-- A request that fits the disk, with buffers apart from the image, the rings and each other. -/
structure DiskRequest (blk : VirtioBlk) (q : Virtqueue) (dir : DiskDir) (descs : List VirtqDesc) (ram : GuestRam) :
    Prop where
  inRange : blk.InRange dir descs ram
  image : ∀ r ∈ requestBuffers descs, Disjoint r.addrs blk.imageBytes
  rings : ∀ r ∈ requestBuffers descs, Disjoint r.addrs q.ringBytes
  each : (requestBuffers descs).Pairwise fun r r' => Disjoint r.addrs r'.addrs

/-- The bytes that the copies of a request write. -/
def copiedBytes (blk : VirtioBlk) (dir : DiskDir) (descs : List VirtqDesc) (ram : GuestRam) : Set ℕ :=
  match dir with
  | .fromDisk => addrs (bufferRanges (requestData descs))
  | .toDisk => bytesAt (blk.diskBase.toNat + requestOffset descs ram) (dataLength (requestData descs))

/-- The request has been served as the array says. -/
structure ServedAs (blk : VirtioBlk) (q : Virtqueue) (dir : DiskDir) (head : U16) (descs : List VirtqDesc)
    (array : ℕ → U8) (ram ram' : GuestRam) : Prop where
  answer : dir = .fromDisk →
    gather ram' (bufferRanges (requestData descs)) = (arrayRequest dir descs ram).answer array
  disk : blk.Represents ((arrayRequest dir descs ram).apply array) ram'
  status : ram' (statusAddr descs) = virtioBlkSOk
  idx : q.usedIdx ram' = q.usedIdx ram + 1
  entry : readU32 ram' (q.usedEntry (q.usedIdx ram)) = head.setWidth 32
  length : (readU32 ram' (q.usedEntry (q.usedIdx ram) + 4)).toNat = dir.written (dataLength (requestData descs)) + 1
  rest : Set.EqOn ram' ram (blk.copiedBytes dir descs ram ∪ bytesAt (statusAddr descs) 1 ∪
    (bytesAt (q.usedEntry (q.usedIdx ram)) 8 ∪ bytesAt (q.usedAddr.toNat + 2) 2))ᶜ

/-- A queue with guest memory, and the array of the requests so far. -/
structure Session where
  q : Virtqueue
  ram : GuestRam
  array : ℕ → U8

/-- The array is what the image holds. -/
def Session.start (blk : VirtioBlk) (q : Virtqueue) (ram : GuestRam) : Session :=
  ⟨q, ram, fun i => ram (blk.diskBase.toNat + i)⟩

/-- Guest memory changes outside the image, or the device handles a request. -/
inductive Session.Step (blk : VirtioBlk) : Session → Session → Prop
  | guest {s : Session} {ram' : GuestRam} : Set.EqOn ram' s.ram blk.imageBytes → Step blk s { s with ram := ram' }
  | request {s : Session} {chain : DescChain} {q' : Virtqueue} {dir : DiskDir} {done : BlkCompletion} :
      s.q.getAvailDesc s.ram = .ok (some (chain, q')) → blk.DiskRequest q' dir chain.descs s.ram →
      blk.processRequest q' chain.head chain.descs s.ram = .ok done →
      Step blk s ⟨q', done.ram, (arrayRequest dir chain.descs s.ram).apply s.array⟩

/-! ## One request -/

section Setup

variable {blk : VirtioBlk} {q : Virtqueue} {dir : DiskDir} {descs : List VirtqDesc} {ram : GuestRam}

theorem usedArea_subset : bytesAt q.usedAddr.toNat (4 + 8 * q.num.toNat) ⊆ q.ringBytes := Set.subset_union_right

theorem addrs_data_subset {s : Set ℕ} (apart : ∀ r ∈ requestBuffers descs, Disjoint r.addrs s) :
    Disjoint (addrs (bufferRanges (requestData descs))) s := by
  refine Set.disjoint_left.mpr ?_
  rintro a ⟨r, member, inside⟩ there
  exact Set.disjoint_left.mp (apart r (List.mem_cons_of_mem _ (List.mem_append_left _ member))) inside there

theorem status_apart {s : Set ℕ} (apart : ∀ r ∈ requestBuffers descs, Disjoint r.addrs s) :
    Disjoint (bytesAt (statusAddr descs) 1) s :=
  apart (statusAddr descs, 1) (List.mem_cons_of_mem _ (List.mem_append_right _ (List.mem_singleton_self _)))

theorem InRange.inside (inRange : blk.InRange dir descs ram) :
    bytesAt (blk.diskBase.toNat + requestOffset descs ram) (dataLength (requestData descs)) ⊆ blk.imageBytes := by
  have := inRange.fits
  exact bytesAt_subset (by omega) (by omega)

variable (request : blk.DiskRequest q dir descs ram)
include request

theorem DiskRequest.buffersApart :
    BuffersApart (blk.diskBase.toNat + requestOffset descs ram) (requestData descs) :=
  (addrs_data_subset request.image).mono_right request.inRange.inside

theorem DiskRequest.data_each :
    (bufferRanges (requestData descs)).Pairwise fun r r' => Disjoint r.addrs r'.addrs :=
  (List.pairwise_append.mp (List.pairwise_cons.mp request.each).2).1

theorem DiskRequest.data_status : Disjoint (addrs (bufferRanges (requestData descs))) (bytesAt (statusAddr descs) 1) := by
  refine Set.disjoint_left.mpr ?_
  rintro a ⟨r, member, inside⟩ there
  have apart := (List.pairwise_append.mp (List.pairwise_cons.mp request.each).2).2.2 r member (statusAddr descs, 1)
    (List.mem_singleton_self _)
  exact Set.disjoint_left.mp apart inside there

/-- The copies write the buffers of a read, or a part of the image. -/
theorem DiskRequest.eqOn_copyAll : Set.EqOn
    (dir.copyAll (blk.diskBase.toNat + requestOffset descs ram) (requestData descs) ram) ram
    (blk.copiedBytes dir descs ram)ᶜ := by
  cases dir with
  | fromDisk =>
    rw [copyAll_fromDisk request.buffersApart]
    exact eqOn_scatter _ _ _
  | toDisk =>
    rw [copyAll_toDisk request.buffersApart]
    have written := eqOn_put ram (blk.diskBase.toNat + requestOffset descs ram)
      (gather ram (bufferRanges (requestData descs)))
    rw [length_gather, total_bufferRanges] at written
    exact written

theorem DiskRequest.copied_apart (setup : blk.DiskSetup q) : Disjoint (blk.copiedBytes dir descs ram) q.ringBytes := by
  cases dir with
  | fromDisk => exact addrs_data_subset request.rings
  | toDisk => exact setup.apart.mono_left request.inRange.inside

/-- The image after the copies holds the array after the request. -/
theorem DiskRequest.represents {array : ℕ → U8} (holds : blk.Represents array ram) :
    blk.Represents ((arrayRequest dir descs ram).apply array)
      (dir.copyAll (blk.diskBase.toNat + requestOffset descs ram) (requestData descs) ram) := by
  intro i inside
  cases dir with
  | fromDisk =>
    refine (request.eqOn_copyAll fun buffer => ?_).trans (holds i inside)
    refine Set.disjoint_left.mp (addrs_data_subset request.image) buffer ?_
    rw [imageBytes, mem_bytesAt]
    omega
  | toDisk =>
    rw [copyAll_toDisk request.buffersApart, arrayRequest, ArrayRequest.apply, put, put, holds i inside,
      Nat.add_sub_add_left]
    simp only [Nat.add_lt_add_iff_left]

/-- The buffers after the copies of a read hold the answer of the array. -/
theorem DiskRequest.answers {array : ℕ → U8} (holds : blk.Represents array ram) (read : dir = .fromDisk) :
    gather (dir.copyAll (blk.diskBase.toNat + requestOffset descs ram) (requestData descs) ram)
      (bufferRanges (requestData descs)) = (arrayRequest dir descs ram).answer array := by
  subst read
  have fits := request.inRange.fits
  have length : (gather ram (bufferRanges (requestData descs))).length = dataLength (requestData descs) := by
    rw [length_gather, total_bufferRanges]
  rw [copyAll_fromDisk request.buffersApart, gather_scatter request.data_each (by
    rw [length_fetch, total_bufferRanges]), length_fetch, List.drop_of_length_le length.le, List.append_nil]
  refine List.map_congr_left fun i inside => ?_
  rw [List.mem_range] at inside
  rw [Nat.add_assoc]
  exact holds _ (by omega)

end Setup

section Served

variable {blk : VirtioBlk} {q : Virtqueue} {dir : DiskDir} {descs : List VirtqDesc} {ram : GuestRam} {head : U16}
  {array : ℕ → U8}

theorem usedWrites_subset (sized : q.num ≠ 0) (idx : U16) :
    bytesAt (q.usedEntry idx) 8 ∪ bytesAt (q.usedAddr.toNat + 2) 2 ⊆ q.ringBytes := by
  have slot : idx.toNat % q.num.toNat < q.num.toNat :=
    Nat.mod_lt _ (Nat.pos_of_ne_zero fun zero => sized (BitVec.eq_of_toNat_eq zero))
  refine Set.Subset.trans (Set.union_subset ?_ ?_) usedArea_subset
  · rw [Virtqueue.usedEntry]
    exact bytesAt_subset (by omega) (by omega)
  · exact bytesAt_subset (by omega) (by omega)

theorem servedAs_of_handled (setup : blk.DiskSetup q) (request : blk.DiskRequest q dir descs ram)
    (holds : blk.Represents array ram) {done : BlkCompletion} (handled : blk.Handled q dir head descs ram done) :
    blk.ServedAs q dir head descs array ram done.ram := by
  obtain ⟨⟨total, counted, completed⟩, -, -⟩ := handled
  generalize mid : dir.copyAll (blk.diskBase.toNat + requestOffset descs ram) (requestData descs) ram = copied at completed
  have copies : Set.EqOn copied ram (blk.copiedBytes dir descs ram)ᶜ := mid ▸ request.eqOn_copyAll
  have status := eqOn_writeU8 copied (statusAddr descs) virtioBlkSOk
  have placed := Virtqueue.putUsed_placed setup.present completed
  -- before the used ring is written, it is as it was
  have untouched : Set.EqOn (writeU8 copied (statusAddr descs) virtioBlkSOk) ram q.ringBytes :=
    (status.mono fun a ring byte => Set.disjoint_left.mp (status_apart request.rings) byte ring).trans
      (copies.mono fun a ring byte => Set.disjoint_left.mp (request.copied_apart setup) byte ring)
  have used : q.usedIdx (writeU8 copied (statusAddr descs) virtioBlkSOk) = q.usedIdx ram := by
    refine readU16_congr (untouched.mono (Set.Subset.trans ?_ usedArea_subset))
    exact bytesAt_subset (by omega) (by omega)
  have length := Virtqueue.putUsed_length setup.present completed
  have rest := placed.rest
  have ring := usedWrites_subset setup.sized (q.usedIdx ram)
  rw [used] at length rest
  -- what is apart from the rings and the status byte is as after the copies
  have aside {s : Set ℕ} (rings : Disjoint s q.ringBytes) (byte : Disjoint s (bytesAt (statusAddr descs) 1)) :
      Set.EqOn done.ram copied s :=
    (rest.mono fun a member written => Set.disjoint_left.mp rings member (ring written)).trans
      (status.mono fun a member written => Set.disjoint_left.mp byte member written)
  refine ⟨fun read => ?_, fun i inside => ?_, ?_, used ▸ placed.idx, used ▸ placed.entry, ?_, ?_⟩
  · rw [gather_congr (aside (addrs_data_subset request.rings) request.data_status), ← mid]
    exact request.answers holds read
  · have image := aside setup.apart (status_apart request.image).symm
    have member : blk.diskBase.toNat + i ∈ blk.imageBytes := by
      rw [imageBytes, mem_bytesAt]
      omega
    rw [image member, ← mid]
    exact request.represents holds i inside
  · have here : statusAddr descs ∈ bytesAt (statusAddr descs) 1 := by
      rw [mem_bytesAt]
      omega
    rw [rest fun written => Set.disjoint_left.mp (status_apart request.rings) here (ring written)]
    exact writeLe_at copied (statusAddr descs) virtioBlkSOk Nat.zero_lt_one
  · rw [length]
    exact counted
  · rw [Set.compl_union, Set.compl_union]
    exact (rest.mono Set.inter_subset_right).trans ((status.mono fun a outside => outside.1.2).trans
      (copies.mono fun a outside => outside.1.1))

theorem reqType_injective {dir dir' : DiskDir} (same : dir.reqType = dir'.reqType) : dir = dir' := by
  cases dir <;> cases dir' <;> first | rfl | exact absurd same (by decide)

theorem rangesApart_of_disjoint {src dst len : ℕ} (apart : Disjoint (bytesAt src len) (bytesAt dst len)) :
    RangesApart src dst len := by
  have := Set.Ico_disjoint_Ico.mp apart
  rw [RangesApart]
  omega

theorem DiskRequest.servable_iff (setup : blk.DiskSetup q) (request : blk.DiskRequest q dir descs ram) :
    blk.Servable q (requestHeader descs ram) (requestData descs) ↔
      (dir = .fromDisk → dataLength (requestData descs) + 1 < 2 ^ 32) := by
  have small := setup.small
  have image := setup.image
  have fits := request.inRange.fits
  have transfer := request.inRange.transfer
  constructor
  · rintro servable rfl
    have counts := (servable.transfers .fromDisk transfer).count _ [] (List.append_nil _).symm (.inr fits)
    rwa [Nat.zero_add] at counts
  · intro room
    have only {dir' : DiskDir} (same : (requestHeader descs ram).reqType = dir'.reqType) : dir' = dir :=
      reqType_injective (same.symm.trans transfer)
    refine ⟨.inr ⟨setup.sized, ?_⟩, fun dir' same => ?_, fun dir' same => ⟨?_, ?_⟩⟩
    · have := setup.ring
      have : 0 < q.num.toNat := Nat.pos_of_ne_zero fun zero => setup.sized (BitVec.eq_of_toNat_eq zero)
      omega
    · rw [requestOffset] at fits
      omega
    · intro pre desc post split _
      have part : dataLength (requestData descs) = dataLength pre + (desc.len.toNat + dataLength post) := by
        rw [split, dataLength_append, dataLength_cons]
      have member : (desc.addr.toNat, desc.len.toNat) ∈ bufferRanges (requestData descs) :=
        List.mem_map.mpr ⟨desc, by rw [split]; simp, rfl⟩
      have apart := request.image _ (List.mem_cons_of_mem _ (List.mem_append_left _ member))
      refine ⟨?_, fun _ => ?_, fun _ => rangesApart_of_disjoint (apart.symm.mono_left (bytesAt_subset ?_ ?_))⟩
      all_goals
        rw [requestOffset] at fits
        omega
    · intro pre post split _
      have part : dataLength (requestData descs) = dataLength pre + dataLength post := by
        rw [split, dataLength_append]
      obtain rfl := only same
      cases dir' with
      | fromDisk =>
        have := room rfl
        rw [Nat.zero_add]
        exact lt_of_le_of_lt (by rw [DiskDir.written]; omega) this
      | toDisk => exact (by decide : 0 + 0 + 1 < 2 ^ 32)

end Served

/-! ## Sessions -/

theorem DiskSetup.taken {blk : VirtioBlk} {q : Virtqueue} (setup : blk.DiskSetup q) : blk.DiskSetup q.taken :=
  ⟨setup.small, setup.image, setup.sized, setup.present, setup.ring, setup.apart⟩

/-- In every state of a session the image holds the array. -/
theorem represents_of_session {blk : VirtioBlk} {q : Virtqueue} (setup : blk.DiskSetup q) {ram : GuestRam}
    {s : Session} (run : Relation.ReflTransGen (Session.Step blk) (.start blk q ram) s) :
    blk.DiskSetup s.q ∧ blk.Represents s.array s.ram := by
  induction run with
  | refl => exact ⟨setup, fun i _ => rfl⟩
  | @tail s _ _ step ih =>
    obtain ⟨setup, holds⟩ := ih
    cases step with
    | guest same =>
      refine ⟨setup, fun i inside => (same ?_).trans (holds i inside)⟩
      rw [imageBytes, mem_bytesAt]
      omega
    | request taken request handled =>
      obtain rfl := Virtqueue.getAvailDesc_some taken
      have handled := handled_of_inRange request.inRange handled
      exact ⟨setup.taken, (servedAs_of_handled setup.taken request holds handled).disk⟩

/-- Header, buffer and status of a read. -/
def readInto (addr : U64) (len : U32) : List VirtqDesc := [⟨0x4000, 16, 1, 1⟩, ⟨addr, len, 3, 2⟩, ⟨0x5000, 1, 2, 0⟩]

theorem diskSetup_eightEntries {blk : VirtioBlk} (above : 0x6000 ≤ blk.diskBase.toNat)
    (small : blk.diskSize.toNat < 2 ^ 32) (image : blk.diskBase.toNat + blk.diskSize.toNat < 2 ^ 64) :
    blk.DiskSetup eightEntries := by
  refine ⟨small, image, by decide, by decide, by decide, ?_⟩
  have apart {addr len : ℕ} (below : addr + len ≤ 0x6000) : Disjoint blk.imageBytes (bytesAt addr len) :=
    disjoint_bytesAt (.inr (below.trans above))
  rw [Virtqueue.ringBytes, Set.disjoint_union_right, Set.disjoint_union_right]
  exact ⟨⟨apart (by decide), apart (by decide)⟩, apart (by decide)⟩

theorem diskRequest_readInto {blk : VirtioBlk} {addr : U64} {len : U32} {ram : GuestRam}
    (header : requestHeader (readInto addr len) ram = ⟨0, 0⟩) (above : 0x6000 ≤ blk.diskBase.toNat)
    (behind : 0x6000 ≤ addr.toNat) (fits : len.toNat ≤ blk.diskSize.toNat)
    (apart : addr.toNat + len.toNat ≤ blk.diskBase.toNat ∨ blk.diskBase.toNat + blk.diskSize.toNat ≤ addr.toNat) :
    blk.DiskRequest eightEntries.taken .fromDisk (readInto addr len) ram := by
  have buffers : requestBuffers (readInto addr len) = [(0x4000, 16), (addr.toNat, len.toNat), (0x5000, 1)] := rfl
  have data : dataLength (requestData (readInto addr len)) = len.toNat := Nat.add_zero _
  have rings (r : Range) (around : 0x3044 ≤ r.1) : Disjoint r.addrs eightEntries.taken.ringBytes := by
    have beyond {start size : ℕ} (below : start + size ≤ 0x3044) : Disjoint r.addrs (bytesAt start size) :=
      disjoint_bytesAt (.inr (below.trans around))
    rw [Virtqueue.ringBytes, Set.disjoint_union_right, Set.disjoint_union_right]
    exact ⟨⟨beyond (by decide), beyond (by decide)⟩, beyond (by decide)⟩
  refine ⟨⟨Nat.le_add_left 2 1, by rw [header]; rfl, ?_⟩, ?_, ?_, ?_⟩
  · rw [requestOffset, header, data]
    exact le_trans (Nat.zero_add _).le fits
  · rw [buffers]
    simp only [List.forall_mem_cons]
    exact ⟨disjoint_bytesAt (.inl (by omega)), disjoint_bytesAt apart, disjoint_bytesAt (.inl (by omega)), by simp⟩
  · rw [buffers]
    simp only [List.forall_mem_cons]
    exact ⟨rings _ (by decide), rings _ (by dsimp only; omega), rings _ (by decide), by simp⟩
  · rw [buffers]
    simp only [List.pairwise_cons, List.forall_mem_cons]
    exact ⟨⟨disjoint_bytesAt (.inl (by omega)), disjoint_bytesAt (.inl (by decide)), by simp⟩,
      ⟨disjoint_bytesAt (.inr (by omega)), by simp⟩, by simp, .nil⟩

end VirtioBlk

end Hypervisor
