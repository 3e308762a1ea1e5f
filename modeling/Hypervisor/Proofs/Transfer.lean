import Hypervisor.ScatterGather.Basic
import Hypervisor.Soundness.DiskConfinement

/-! # The copies of a block request

A transfer that fits the disk copies its buffers one after the other. If the buffers are apart from the
disk image, a read scatters a part of the image over the buffers, and a write puts what the buffers
hold together into the image.
-/

namespace Hypervisor

open ScatterGather

/-- The buffers of data descriptors. -/
def bufferRanges (data : List VirtqDesc) : List Range := data.map fun desc => (desc.addr.toNat, desc.len.toNat)

@[simp] theorem bufferRanges_cons (desc : VirtqDesc) (data : List VirtqDesc) :
    bufferRanges (desc :: data) = (desc.addr.toNat, desc.len.toNat) :: bufferRanges data := rfl

theorem total_bufferRanges (data : List VirtqDesc) : total (bufferRanges data) = dataLength data := by
  induction data with
  | nil => rfl
  | cons desc rest ih => rw [bufferRanges_cons, total_cons, dataLength_cons, ih]

theorem storeBytes_eq_put (ram : GuestRam) (dst len : ℕ) (bytes : ℕ → U8) :
    storeBytes ram dst len bytes = put ram dst ((List.range len).map bytes) := by
  funext a
  rw [storeBytes, put]
  split_ifs with inside before before
  · omega
  · rw [List.getElem?_map, List.getElem?_range (by omega)]
    rfl
  · rfl
  · rw [List.getElem?_eq_none (by rw [List.length_map, List.length_range]; omega)]
    rfl

/-- Memory after a copy between the disk image and a buffer. -/
def DiskDir.copied (dir : DiskDir) (ram : GuestRam) (disk buf len : ℕ) : GuestRam :=
  match dir with
  | .fromDisk => put ram buf (fetch ram disk len)
  | .toDisk => put ram disk (fetch ram buf len)

theorem DiskDir.copied_of_copy {dir : DiskDir} {ram ram' : GuestRam} {disk buf len : ℕ}
    (copy : dir.copy ram disk buf len = some ram') : ram' = dir.copied ram disk buf len := by
  cases dir with
  | fromDisk =>
    rw [DiskDir.copy, copyNonoverlapping] at copy
    split_ifs at copy
    rw [← Option.some.inj copy, storeBytes_eq_put]
    rfl
  | toDisk =>
    rw [DiskDir.copy, copyNonoverlapping] at copy
    split_ifs at copy
    rw [← Option.some.inj copy, storeBytes_eq_put]
    rfl

/-- Memory after the copies of all buffers, the first of which belongs to address `disk` of the image. -/
def DiskDir.copyAll (dir : DiskDir) : ℕ → List VirtqDesc → GuestRam → GuestRam
  | _, [], ram => ram
  | disk, desc :: rest, ram =>
      copyAll dir (disk + desc.len.toNat) rest (dir.copied ram disk desc.addr.toNat desc.len.toNat)

/-- The parts of the image that belong to the buffers. -/
def segments : ℕ → List VirtqDesc → List (ℕ × ℕ)
  | _, [] => []
  | disk, desc :: rest => (disk, desc.len.toNat) :: segments (disk + desc.len.toNat) rest

theorem length_segments (disk : ℕ) (data : List VirtqDesc) : (segments disk data).length = data.length := by
  induction data generalizing disk with
  | nil => rfl
  | cons desc rest ih => rw [segments, List.length_cons, ih, List.length_cons]

namespace VirtioBlk

section Transfer

variable {blk : VirtioBlk} {dir : DiskDir} {data : List VirtqDesc} {off : U64} {done done' : BlkProgress}

/-- What a transfer that fits the disk has done. -/
structure Transferred (blk : VirtioBlk) (dir : DiskDir) (off : ℕ) (data : List VirtqDesc) (done done' : BlkProgress) :
    Prop where
  ram : done'.ram = dir.copyAll (blk.diskBase.toNat + off) data done.ram
  status : done'.status = done.status
  count : done'.totalWritten.toNat = done.totalWritten.toNat + dir.written (dataLength data)
  touched : done'.touched = done.touched ++ segments (blk.diskBase.toNat + off) data

theorem transferred_of_fits (run : blk.transfer dir data off done = .ok done')
    (fits : off.toNat + dataLength data ≤ blk.diskSize.toNat) : blk.Transferred dir off.toNat data done done' := by
  induction data generalizing off done with
  | nil =>
    cases run
    exact ⟨rfl, rfl, by simp, by simp [segments]⟩
  | cons desc rest ih =>
    rw [dataLength_cons] at fits
    obtain ⟨stop, sum, ⟨past, -⟩ | ⟨-, disk, ram, total, address, copied, counted, run⟩⟩ := transfer_cons.mp run
    · omega
    · have later := ih run (by omega)
      obtain rfl := DiskDir.copied_of_copy copied
      have next : blk.diskBase.toNat + stop.toNat = blk.diskBase.toNat + off.toNat + desc.len.toNat := by omega
      refine ⟨?_, later.status, ?_, ?_⟩
      · rw [later.ram, next, DiskDir.copyAll, address]
      · rw [later.count, dataLength_cons, DiskDir.written_add]
        dsimp only
        omega
      · rw [later.touched, next, segments, address, List.append_assoc, List.singleton_append]

end Transfer

/-- The address of the status byte. -/
def statusAddr (descs : List VirtqDesc) : ℕ := descs.getLast?.elim 0 fun last => last.addr.toNat

/-- The offset of the first byte of a request on the disk. -/
def requestOffset (descs : List VirtqDesc) (ram : GuestRam) : ℕ := (requestHeader descs ram).sector.toNat * 512

/-- A transfer request that fits the disk. -/
structure InRange (blk : VirtioBlk) (dir : DiskDir) (descs : List VirtqDesc) (ram : GuestRam) : Prop where
  two : 2 ≤ descs.length
  transfer : (requestHeader descs ram).reqType = dir.reqType
  fits : requestOffset descs ram + dataLength (requestData descs) ≤ blk.diskSize.toNat

/-- What a request that fits the disk has done: its copies, the status byte and its entry of the used ring. -/
structure Handled (blk : VirtioBlk) (queue : Virtqueue) (dir : DiskDir) (head : U16) (descs : List VirtqDesc)
    (ram : GuestRam) (done : BlkCompletion) : Prop where
  memory : ∃ total : U32, total.toNat = dir.written (dataLength (requestData descs)) + 1 ∧
    queue.putUsed (writeU8 (dir.copyAll (blk.diskBase.toNat + requestOffset descs ram) (requestData descs) ram)
      (statusAddr descs) virtioBlkSOk) head total = .ok done.ram
  status : done.status = some virtioBlkSOk
  touched : done.touched = segments (blk.diskBase.toNat + requestOffset descs ram) (requestData descs)

section Request

variable {blk : VirtioBlk} {queue : Virtqueue} {dir : DiskDir} {head : U16} {descs : List VirtqDesc} {ram : GuestRam}
  {done : BlkCompletion}

theorem requestHeader_cons (first : VirtqDesc) (rest : List VirtqDesc) :
    requestHeader (first :: rest) ram = readVirtioBlkReqHeader ram first.addr.toNat := rfl

theorem requestData_cons (first second : VirtqDesc) (rest : List VirtqDesc) :
    requestData (first :: second :: rest) = (second :: rest).dropLast := rfl

theorem statusAddr_cons (first second : VirtqDesc) (rest : List VirtqDesc) : statusAddr (first :: second :: rest) =
    ((second :: rest).getLast (List.cons_ne_nil second rest)).addr.toNat := by
  rw [statusAddr, List.getLast?_cons_cons, List.getLast?_eq_some_getLast (List.cons_ne_nil second rest)]
  rfl

theorem handled_of_inRange (inRange : blk.InRange dir descs ram)
    (run : blk.processRequest queue head descs ram = .ok done) : blk.Handled queue dir head descs ram done := by
  match descs with
  | [] => exact absurd inRange.two (by decide)
  | [_] => exact absurd inRange.two (by simp)
  | first :: second :: rest =>
    obtain ⟨-, transfer, fits⟩ := inRange
    obtain ⟨served, total, ram', serves, counted, completed, rfl⟩ := processRequest_eq_ok_iff.mp run
    rw [requestHeader_cons] at transfer
    obtain ⟨off, product, copies⟩ := (serve_eq_ok_iff transfer).mp serves
    rw [requestOffset, requestHeader_cons, ← product, requestData_cons] at fits
    have moved := transferred_of_fits copies fits
    refine ⟨⟨total, ?_, ?_⟩, congrArg some moved.status, ?_⟩
    · rw [counted, moved.count, requestData_cons]
      exact congrArg (· + 1) (Nat.zero_add _)
    · rw [moved.ram, moved.status] at completed
      rw [requestOffset, requestHeader_cons, ← product, requestData_cons, statusAddr_cons]
      exact completed
    · rw [requestOffset, requestHeader_cons, ← product, requestData_cons]
      exact moved.touched

/-- Requests that fit the disk are handled unless they panic. -/
theorem exists_handled_iff (inRange : blk.InRange dir descs ram) :
    (∃ done, blk.processRequest queue head descs ram = .ok done ∧ blk.Handled queue dir head descs ram done) ↔
      blk.Servable queue (requestHeader descs ram) (requestData descs) := by
  have served : (∃ done, blk.processRequest queue head descs ram = .ok done) ↔
      blk.Servable queue (requestHeader descs ram) (requestData descs) :=
    exists_processRequest_iff.trans ⟨fun servable => servable inRange.two, fun servable _ => servable⟩
  rw [← served]
  exact exists_congr fun done => and_iff_left_of_imp (handled_of_inRange inRange)

end Request

end VirtioBlk

/-! ## Copies between apart areas -/

section Copies

variable {disk : ℕ} {data : List VirtqDesc}

/-- No buffer has a byte of the part of the image that begins at `disk`. -/
def BuffersApart (disk : ℕ) (data : List VirtqDesc) : Prop :=
  Disjoint (addrs (bufferRanges data)) (Set.Ico disk (disk + dataLength data))

theorem buffersApart_cons {desc : VirtqDesc} {rest : List VirtqDesc} (apart : BuffersApart disk (desc :: rest)) :
    Disjoint (Range.addrs (desc.addr.toNat, desc.len.toNat)) (Set.Ico disk (disk + desc.len.toNat + dataLength rest)) ∧
      Disjoint (addrs (bufferRanges rest)) (Set.Ico disk (disk + desc.len.toNat + dataLength rest)) := by
  rw [BuffersApart, bufferRanges_cons, addrs_cons, dataLength_cons, ← Nat.add_assoc] at apart
  exact ⟨apart.mono_left Set.subset_union_left, apart.mono_left Set.subset_union_right⟩

theorem copyAll_fromDisk (apart : BuffersApart disk data) (ram : GuestRam) :
    DiskDir.fromDisk.copyAll disk data ram = scatter ram (bufferRanges data) (fetch ram disk (dataLength data)) := by
  induction data generalizing disk ram with
  | nil => rfl
  | cons desc rest ih =>
    obtain ⟨first, others⟩ := buffersApart_cons apart
    have later : BuffersApart (disk + desc.len.toNat) rest :=
      others.mono_right (Set.Ico_subset_Ico_left (Nat.le_add_right _ _))
    -- the image is not written, so it can be read in one go
    have image : fetch (put ram desc.addr.toNat (fetch ram disk desc.len.toNat)) (disk + desc.len.toNat) (dataLength rest) =
        fetch ram (disk + desc.len.toNat) (dataLength rest) := by
      have written := eqOn_put ram desc.addr.toNat (fetch ram disk desc.len.toNat)
      rw [length_fetch] at written
      exact fetch_congr (written.mono fun a inside buffer =>
        Set.disjoint_left.mp first buffer ⟨Nat.le_of_add_right_le inside.1, inside.2⟩)
    have front : (fetch ram disk desc.len.toNat ++ fetch ram (disk + desc.len.toNat) (dataLength rest)).take
        desc.len.toNat = fetch ram disk desc.len.toNat := List.take_left' length_fetch
    have back : (fetch ram disk desc.len.toNat ++ fetch ram (disk + desc.len.toNat) (dataLength rest)).drop
        desc.len.toNat = fetch ram (disk + desc.len.toNat) (dataLength rest) := List.drop_left' length_fetch
    rw [DiskDir.copyAll, ih later, DiskDir.copied, image, dataLength_cons, fetch_add, bufferRanges_cons, scatter, front,
      back]

theorem copyAll_toDisk (apart : BuffersApart disk data) (ram : GuestRam) :
    DiskDir.toDisk.copyAll disk data ram = put ram disk (gather ram (bufferRanges data)) := by
  induction data generalizing disk ram with
  | nil =>
    funext a
    rw [DiskDir.copyAll, put]
    split_ifs <;> rfl
  | cons desc rest ih =>
    obtain ⟨-, others⟩ := buffersApart_cons apart
    have later : BuffersApart (disk + desc.len.toNat) rest :=
      others.mono_right (Set.Ico_subset_Ico_left (Nat.le_add_right _ _))
    -- the other buffers still hold what they held before
    have buffers : gather (put ram disk (fetch ram desc.addr.toNat desc.len.toNat)) (bufferRanges rest) =
        gather ram (bufferRanges rest) := by
      have written := eqOn_put ram disk (fetch ram desc.addr.toNat desc.len.toNat)
      rw [length_fetch] at written
      have beside : addrs (bufferRanges rest) ⊆ (Set.Ico disk (disk + desc.len.toNat))ᶜ := fun a buffer inside =>
        Set.disjoint_left.mp others buffer ⟨inside.1, Nat.lt_add_right _ inside.2⟩
      exact gather_congr (written.mono beside)
    have joined := put_put_append ram disk (fetch ram desc.addr.toNat desc.len.toNat) (gather ram (bufferRanges rest))
    rw [length_fetch] at joined
    rw [DiskDir.copyAll, ih later, DiskDir.copied, buffers, joined]
    rfl

end Copies

end Hypervisor
