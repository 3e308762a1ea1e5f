import Hypervisor.Proofs.Virtqueue

/-! # Confinement to the disk image

A block request names a sector and buffers of any length, and its chain is guest data as well. A
copy is made only after its end has been compared with the size of the disk, so the disk side of
every copy lies in the image. The comparison itself comes after a product and sums of guest values
that panic on overflow, and so do the count of the bytes written and a buffer inside the image.
-/

namespace Hypervisor

/-- The type of request that makes a transfer in this direction. -/
def DiskDir.reqType : DiskDir → U32
  | .fromDisk => virtioBlkTIn
  | .toDisk => virtioBlkTOut

/-- What a transfer of `n` bytes adds to the bytes written to the guest. -/
def DiskDir.written : DiskDir → ℕ → ℕ
  | .fromDisk, n => n
  | .toDisk, _ => 0

/-- Total length of the buffers. -/
def dataLength (data : List VirtqDesc) : ℕ := (data.map fun desc => desc.len.toNat).sum

@[simp] theorem dataLength_nil : dataLength [] = 0 := rfl

@[simp] theorem dataLength_cons (desc : VirtqDesc) (data : List VirtqDesc) :
    dataLength (desc :: data) = desc.len.toNat + dataLength data := rfl

theorem dataLength_append (data more : List VirtqDesc) :
    dataLength (data ++ more) = dataLength data + dataLength more := by
  rw [dataLength, List.map_append, List.sum_append]
  rfl

section Direction

variable {dir : DiskDir}

theorem DiskDir.written_add (m n : ℕ) : dir.written (m + n) = dir.written m + dir.written n := by
  cases dir <;> rfl

@[simp] theorem DiskDir.written_zero : dir.written 0 = 0 := by
  cases dir <;> rfl

theorem DiskDir.count_eq_some_iff {w len total : U32} :
    dir.count w len = some total ↔ total.toNat = w.toNat + dir.written len.toNat := by
  cases dir with
  | fromDisk => exact checkedAddU32_eq_some_iff
  | toDisk => rw [DiskDir.count, Option.some.injEq, ← BitVec.toNat_inj, eq_comm]; rfl

theorem DiskDir.exists_copy_iff (dir : DiskDir) (ram : GuestRam) {disk buf len : ℕ} :
    (∃ ram', dir.copy ram disk buf len = some ram') ↔ RangesApart disk buf len := by
  rw [← Option.isSome_iff_exists]
  cases dir with
  | fromDisk => exact copyNonoverlapping_isSome
  | toDisk =>
    rw [DiskDir.copy, copyNonoverlapping_isSome, RangesApart, RangesApart, or_comm (a := buf + len ≤ disk)]

end Direction

/-! ## The transfer loop -/

namespace VirtioBlk

/-- A range of memory that lies in the disk image. -/
def Inside (blk : VirtioBlk) (range : ℕ × ℕ) : Prop :=
  blk.diskBase.toNat ≤ range.1 ∧ range.1 + range.2 ≤ blk.diskBase.toNat + blk.diskSize.toNat

/-- The loop gets past a buffer that starts at byte `pos` of the disk. The end of the buffer is a
`u64`; if the buffer fits the disk, then the address of its data is one as well, and the buffer has
no byte of that data. -/
structure CanTransfer (blk : VirtioBlk) (pos : ℕ) (desc : VirtqDesc) : Prop where
  sum : pos + desc.len.toNat < 2 ^ 64
  address : pos + desc.len.toNat ≤ blk.diskSize.toNat → blk.diskBase.toNat + pos < 2 ^ 64
  apart : pos + desc.len.toNat ≤ blk.diskSize.toNat →
    RangesApart (blk.diskBase.toNat + pos) desc.addr.toNat desc.len.toNat

/-- The buffers `pre`, the first of which starts at byte `off` of the disk, all fit the disk. -/
def Passed (blk : VirtioBlk) (off : ℕ) (pre : List VirtqDesc) : Prop :=
  pre = [] ∨ off + dataLength pre ≤ blk.diskSize.toNat

/-- The loop over `data` returns, when `w` bytes have been written before it, and the status byte can
be counted after it. Only what stands behind buffers that fit the disk matters. -/
structure Transferable (blk : VirtioBlk) (dir : DiskDir) (off w : ℕ) (data : List VirtqDesc) : Prop where
  buffers : ∀ pre desc post, data = pre ++ desc :: post → blk.Passed off pre →
    blk.CanTransfer (off + dataLength pre) desc
  count : ∀ pre post, data = pre ++ post → blk.Passed off pre → w + dir.written (dataLength pre) + 1 < 2 ^ 32

section Conditions

variable {blk : VirtioBlk} {dir : DiskDir} {rest pre : List VirtqDesc} {desc : VirtqDesc} {off w : ℕ}

theorem passed_cons : blk.Passed off (desc :: pre) ↔
    off + desc.len.toNat ≤ blk.diskSize.toNat ∧ blk.Passed (off + desc.len.toNat) pre := by
  have later : off + dataLength (desc :: pre) = off + desc.len.toNat + dataLength pre := by
    rw [dataLength_cons, Nat.add_assoc]
  rw [Passed, Passed, later, or_iff_right (List.cons_ne_nil _ _)]
  constructor
  · exact fun fits => ⟨by omega, .inr fits⟩
  · rintro ⟨fits, rfl | all⟩
    · exact fits
    · exact all

theorem transferable_nil : blk.Transferable dir off w [] ↔ w + 1 < 2 ^ 32 := by
  constructor
  · intro fine
    simpa using fine.count [] [] rfl (.inl rfl)
  · intro room
    refine ⟨fun pre desc post split => ?_, fun pre post split _ => ?_⟩
    · exact absurd split (by simp)
    · obtain ⟨rfl, -⟩ := List.append_eq_nil_iff.mp split.symm
      simpa using room

/-- The loop takes one buffer and goes on behind it, if that buffer fits the disk. -/
theorem transferable_cons :
    blk.Transferable dir off w (desc :: rest) ↔ w + 1 < 2 ^ 32 ∧ blk.CanTransfer off desc ∧
      (off + desc.len.toNat ≤ blk.diskSize.toNat →
        blk.Transferable dir (off + desc.len.toNat) (w + dir.written desc.len.toNat) rest) := by
  constructor
  · intro fine
    refine ⟨by simpa using fine.count [] _ rfl (.inl rfl), fine.buffers [] desc rest rfl (.inl rfl),
      fun fits => ⟨?_, ?_⟩⟩
    · intro pre next post split passed
      have := fine.buffers (desc :: pre) next post (by rw [split]; rfl) (passed_cons.mpr ⟨fits, passed⟩)
      rwa [dataLength_cons, ← Nat.add_assoc] at this
    · intro pre post split passed
      have := fine.count (desc :: pre) post (by rw [split]; rfl) (passed_cons.mpr ⟨fits, passed⟩)
      rwa [dataLength_cons, DiskDir.written_add, ← Nat.add_assoc] at this
  · rintro ⟨room, first, later⟩
    refine ⟨fun pre next post split passed => ?_, fun pre post split passed => ?_⟩
    · cases pre with
      | nil =>
        cases split
        exact first
      | cons head pre =>
        cases split
        obtain ⟨fits, passed⟩ := passed_cons.mp passed
        rw [dataLength_cons, ← Nat.add_assoc]
        exact (later fits).buffers pre next post rfl passed
    · cases pre with
      | nil => simpa using room
      | cons head pre =>
        cases split
        obtain ⟨fits, passed⟩ := passed_cons.mp passed
        rw [dataLength_cons, DiskDir.written_add, ← Nat.add_assoc]
        exact (later fits).count pre post rfl passed

end Conditions

section Loop

variable {blk : VirtioBlk} {dir : DiskDir} {data rest : List VirtqDesc} {desc : VirtqDesc} {off : U64}
  {done done' : BlkProgress}

/-- One pass of the loop: the buffer ends behind the disk, or it is copied. -/
theorem transfer_cons : blk.transfer dir (desc :: rest) off done = .ok done' ↔
    ∃ stop : U64, stop.toNat = off.toNat + desc.len.toNat ∧
      (blk.diskSize.toNat < stop.toNat ∧ done' = { done with status := virtioBlkSIoerr } ∨
        stop.toNat ≤ blk.diskSize.toNat ∧ ∃ (disk : U64) (ram : GuestRam) (total : U32),
          disk.toNat = blk.diskBase.toNat + off.toNat ∧
          dir.copy done.ram disk.toNat desc.addr.toNat desc.len.toNat = some ram ∧
          total.toNat = done.totalWritten.toNat + dir.written desc.len.toNat ∧
          blk.transfer dir rest stop { done with
            ram, totalWritten := total, touched := done.touched ++ [(disk.toNat, desc.len.toNat)] } = .ok done') := by
  rw [transfer, orStop_bind_eq_ok_iff]
  refine exists_congr fun stop => and_congr ?_ ?_
  · rw [checkedAdd_eq_some_iff, BitVec.toNat_setWidth_of_le (by decide)]
  · split_ifs with past
    · have past : blk.diskSize.toNat < stop.toNat := BitVec.lt_def.mp past
      constructor
      · intro run
        cases run
        exact .inl ⟨past, rfl⟩
      · rintro (⟨-, rfl⟩ | ⟨fits, -⟩)
        · rfl
        · omega
    · have fits : stop.toNat ≤ blk.diskSize.toNat := BitVec.not_lt.mp past
      simp only [orStop_bind_eq_ok_iff, checkedAdd_eq_some_iff, DiskDir.count_eq_some_iff]
      constructor
      · rintro ⟨disk, address, ram, copied, total, counted, run⟩
        exact .inr ⟨fits, disk, ram, total, address, copied, counted, run⟩
      · rintro (⟨past, -⟩ | ⟨-, disk, ram, total, address, copied, counted, run⟩)
        · omega
        · exact ⟨disk, address, ram, copied, total, counted, run⟩

theorem exists_transfer_iff :
    (∃ done', blk.transfer dir data off done = .ok done' ∧ done'.totalWritten.toNat + 1 < 2 ^ 32) ↔
      blk.Transferable dir off.toNat done.totalWritten.toNat data := by
  induction data generalizing off done with
  | nil =>
    rw [transferable_nil]
    exact ⟨by rintro ⟨_, ⟨⟩, room⟩; exact room, fun room => ⟨done, rfl, room⟩⟩
  | cons desc rest ih =>
    rw [transferable_cons]
    constructor
    · rintro ⟨done', run, room⟩
      obtain ⟨stop, sum, ⟨past, rfl⟩ | ⟨fits, disk, ram, total, address, copied, counted, run⟩⟩ :=
        transfer_cons.mp run
      · -- the buffer does not fit: nothing behind it is looked at
        have bound := stop.isLt
        exact ⟨room, ⟨by omega, fun _ => by omega, fun _ => by omega⟩, fun _ => by omega⟩
      · have later := ih.mp ⟨done', run, room⟩
        rw [sum, counted] at later
        have bound := stop.isLt
        have base := disk.isLt
        have apart := (dir.exists_copy_iff done.ram).mp ⟨ram, copied⟩
        rw [address] at apart
        have := later.count [] rest rfl (.inl rfl)
        exact ⟨by omega, ⟨by omega, fun _ => by omega, fun _ => apart⟩, fun _ => later⟩
    · rintro ⟨room, first, later⟩
      obtain ⟨stop, sum⟩ := exists_toNat_eq first.sum
      rcases Nat.lt_or_ge blk.diskSize.toNat (off.toNat + desc.len.toNat) with past | fits
      · exact ⟨_, transfer_cons.mpr ⟨stop, sum, .inl ⟨by omega, rfl⟩⟩, room⟩
      · obtain ⟨disk, address⟩ := exists_toNat_eq (first.address fits)
        obtain ⟨ram, copied⟩ := (dir.exists_copy_iff done.ram).mpr (first.apart fits)
        have later := later fits
        have counts := later.count [] rest rfl (.inl rfl)
        obtain ⟨total, counted⟩ : ∃ total : U32, total.toNat = done.totalWritten.toNat + dir.written desc.len.toNat :=
          exists_toNat_eq (by omega)
        rw [← address] at copied
        rw [← counted, ← sum] at later
        obtain ⟨done', run, room⟩ := @ih stop { done with
          ram, totalWritten := total, touched := done.touched ++ [(disk.toNat, desc.len.toNat)] } |>.mpr later
        exact ⟨done', transfer_cons.mpr ⟨stop, sum, .inr ⟨by omega, disk, ram, total, address, copied, counted, run⟩⟩,
          room⟩

/-- Every copy lies in the image on its disk side. -/
theorem touched_inside (run : blk.transfer dir data off done = .ok done')
    (before : ∀ range ∈ done.touched, blk.Inside range) : ∀ range ∈ done'.touched, blk.Inside range := by
  induction data generalizing off done with
  | nil =>
    cases run
    exact before
  | cons desc rest ih =>
    obtain ⟨stop, sum, ⟨-, rfl⟩ | ⟨fits, disk, ram, total, address, -, -, run⟩⟩ := transfer_cons.mp run
    · exact before
    · refine ih run fun range member => ?_
      rcases List.mem_append.mp member with old | new
      · exact before range old
      · obtain rfl := List.mem_singleton.mp new
        exact ⟨by dsimp only; omega, by dsimp only; omega⟩

/-- A transfer that passes the end of the disk ends with an error. -/
theorem status_of_overrun (run : blk.transfer dir data off done = .ok done') (nonempty : data ≠ [])
    (overrun : blk.diskSize.toNat < off.toNat + dataLength data) : done'.status = virtioBlkSIoerr := by
  induction data generalizing off done with
  | nil => exact absurd rfl nonempty
  | cons desc rest ih =>
    obtain ⟨stop, sum, ⟨-, rfl⟩ | ⟨fits, disk, ram, total, -, -, -, run⟩⟩ := transfer_cons.mp run
    · rfl
    · rw [dataLength_cons] at overrun
      refine ih run ?_ (by omega)
      rintro rfl
      rw [dataLength_nil] at overrun
      omega

end Loop

/-! ## A whole request -/

/-- The header of the request, which the first descriptor names. -/
def requestHeader (descs : List VirtqDesc) (ram : GuestRam) : VirtioBlkReqHeader :=
  readVirtioBlkReqHeader ram (descs.head?.elim 0 fun first => first.addr.toNat)

/-- The descriptors between header and status. -/
def requestData (descs : List VirtqDesc) : List VirtqDesc := descs.tail.dropLast

/-- The request reads or writes data behind the end of the disk. -/
def Overruns (blk : VirtioBlk) (header : VirtioBlkReqHeader) (data : List VirtqDesc) : Prop :=
  (∃ dir : DiskDir, header.reqType = dir.reqType) ∧ data ≠ [] ∧
    blk.diskSize.toNat < header.sector.toNat * 512 + dataLength data

/-- The request is handled without a panic, inside the disk image, and with an error if it passes the
end of the disk. -/
def Confined (blk : VirtioBlk) (queue : Virtqueue) (head : U16) (descs : List VirtqDesc) (ram : GuestRam) : Prop :=
  ∃ done, blk.processRequest queue head descs ram = .ok done ∧ (∀ range ∈ done.touched, blk.Inside range) ∧
    (blk.Overruns (requestHeader descs ram) (requestData descs) → done.status = some virtioBlkSIoerr)

/-- What a request of at least two descriptors needs: a used ring that can be indexed and, if it is a
transfer, an offset of the sector that is a `u64` and buffers that the loop gets past. -/
structure Servable (blk : VirtioBlk) (queue : Virtqueue) (header : VirtioBlkReqHeader) (data : List VirtqDesc) :
    Prop where
  completes : queue.CanComplete
  product : ∀ dir : DiskDir, header.reqType = dir.reqType → header.sector.toNat * 512 < 2 ^ 64
  transfers : ∀ dir : DiskDir, header.reqType = dir.reqType →
    blk.Transferable dir (header.sector.toNat * 512) 0 data

section Request

variable {blk : VirtioBlk} {dir : DiskDir} {header : VirtioBlkReqHeader} {data : List VirtqDesc} {ram : GuestRam}

theorem byteOffset_eq_some_iff {sector off : U64} :
    byteOffset sector = some off ↔ off.toNat = sector.toNat * 512 :=
  checked_eq_some_iff (BitVec.toNat_mul sector 512)

/-- A read or a write is a transfer from the offset of its sector. -/
theorem serve_eq_ok_iff {done : BlkProgress} (transfer : header.reqType = dir.reqType) :
    blk.serve header data ram = .ok done ↔
      ∃ off : U64, off.toNat = header.sector.toNat * 512 ∧ blk.transfer dir data off { ram } = .ok done := by
  have serve : blk.serve header data ram = (do
      let off ← orStop .devicePanic (byteOffset header.sector)
      blk.transfer dir data off { ram }) := by
    unfold VirtioBlk.serve
    rw [transfer]
    cases dir <;> rfl
  rw [serve, orStop_bind_eq_ok_iff]
  simp only [byteOffset_eq_some_iff]

/-- Other requests do not touch the disk. -/
theorem serve_of_other (other : ∀ dir : DiskDir, header.reqType ≠ dir.reqType) :
    ∃ done, blk.serve header data ram = .ok done ∧ done.totalWritten.toNat + 1 < 2 ^ 32 ∧ done.touched = [] := by
  unfold serve
  rw [if_neg (by exact other .fromDisk), if_neg (by exact other .toDisk)]
  split_ifs
  · cases data with
    | nil => exact ⟨_, rfl, (by decide : (0 : U32).toNat + 1 < 2 ^ 32), rfl⟩
    | cons desc rest =>
      refine ⟨_, rfl, ?_, rfl⟩
      rw [BitVec.toNat_ofNat]
      have := Nat.mod_le (min desc.len.toNat 20) (2 ^ 32)
      omega
  · exact ⟨_, rfl, (by decide : (0 : U32).toNat + 1 < 2 ^ 32), rfl⟩

theorem exists_serve_iff :
    (∃ done, blk.serve header data ram = .ok done ∧ done.totalWritten.toNat + 1 < 2 ^ 32) ↔
      ∀ dir : DiskDir, header.reqType = dir.reqType →
        header.sector.toNat * 512 < 2 ^ 64 ∧ blk.Transferable dir (header.sector.toNat * 512) 0 data := by
  constructor
  · rintro ⟨done, run, room⟩ dir transfer
    obtain ⟨off, product, run⟩ := (serve_eq_ok_iff transfer).mp run
    have fine := exists_transfer_iff.mp ⟨done, run, room⟩
    rw [product] at fine
    exact ⟨by have := off.isLt; omega, fine⟩
  · intro fine
    rcases Classical.em (∃ dir : DiskDir, header.reqType = dir.reqType) with ⟨dir, transfer⟩ | other
    · obtain ⟨bound, buffers⟩ := fine dir transfer
      obtain ⟨off, product⟩ := exists_toNat_eq bound
      rw [← product] at buffers
      obtain ⟨done, run, room⟩ := (@exists_transfer_iff blk dir data off { ram }).mpr buffers
      exact ⟨done, (serve_eq_ok_iff transfer).mpr ⟨off, product, run⟩, room⟩
    · obtain ⟨done, run, room, -⟩ := serve_of_other fun dir transfer => other ⟨dir, transfer⟩
      exact ⟨done, run, room⟩

/-- A request that has been served is inside the disk, or ends with an error if it passes its end. -/
theorem serve_confined {done : BlkProgress} (run : blk.serve header data ram = .ok done) :
    (∀ range ∈ done.touched, blk.Inside range) ∧ (blk.Overruns header data → done.status = virtioBlkSIoerr) := by
  rcases Classical.em (∃ dir : DiskDir, header.reqType = dir.reqType) with ⟨dir, transfer⟩ | other
  · obtain ⟨off, product, run⟩ := (serve_eq_ok_iff transfer).mp run
    refine ⟨touched_inside run nofun, fun ⟨_, nonempty, overrun⟩ => status_of_overrun run nonempty ?_⟩
    rw [product]
    exact overrun
  · obtain ⟨done', run', -, untouched⟩ := serve_of_other fun dir transfer => other ⟨dir, transfer⟩
    cases run.symm.trans run'
    refine ⟨fun range member => ?_, fun overrun => absurd overrun.1 other⟩
    rw [untouched] at member
    cases member

/-- A request of at least two descriptors has been served, and its chain returned with the status byte counted. -/
theorem processRequest_eq_ok_iff {queue : Virtqueue} {head : U16} {first second : VirtqDesc} {rest : List VirtqDesc}
    {done : BlkCompletion} :
    blk.processRequest queue head (first :: second :: rest) ram = .ok done ↔
      ∃ (served : BlkProgress) (total : U32) (ram' : GuestRam),
        blk.serve (readVirtioBlkReqHeader ram first.addr.toNat) (second :: rest).dropLast ram = .ok served ∧
        total.toNat = served.totalWritten.toNat + 1 ∧
        queue.putUsed (writeU8 served.ram ((second :: rest).getLast (List.cons_ne_nil second rest)).addr.toNat
          served.status) head total = .ok ram' ∧
        done = { ram := ram', status := some served.status, touched := served.touched } := by
  rw [processRequest, bind_eq_ok_iff]
  refine exists_congr fun served => ?_
  simp only [bind_eq_ok_iff, orStop_eq_ok_iff, checkedAddU32_eq_some_iff]
  constructor
  · rintro ⟨run, total, counted, ram', completed, same⟩
    exact ⟨total, ram', run, counted, completed, (Except.ok.inj same).symm⟩
  · rintro ⟨total, ram', run, counted, completed, rfl⟩
    exact ⟨run, total, counted, ram', completed, rfl⟩

/-- Which requests are handled without a panic. -/
theorem exists_processRequest_iff {queue : Virtqueue} {head : U16} {descs : List VirtqDesc} :
    (∃ done, blk.processRequest queue head descs ram = .ok done) ↔
      (2 ≤ descs.length → blk.Servable queue (requestHeader descs ram) (requestData descs)) := by
  match descs with
  | [] => exact iff_of_true ⟨_, rfl⟩ nofun
  | [_] => exact iff_of_true ⟨_, rfl⟩ fun two => absurd two (by simp)
  | first :: second :: rest =>
    constructor
    · rintro ⟨out, run⟩ -
      obtain ⟨done, total, ram', served, counted, completed, -⟩ := processRequest_eq_ok_iff.mp run
      have fine := exists_serve_iff.mp ⟨done, served, counted ▸ total.isLt⟩
      exact ⟨(Virtqueue.exists_putUsed_iff head total).mp ⟨ram', completed⟩,
        fun dir transfer => (fine dir transfer).1, fun dir transfer => (fine dir transfer).2⟩
    · intro servable
      have servable := servable (Nat.le_add_left 2 rest.length)
      obtain ⟨done, served, room⟩ := exists_serve_iff.mpr fun dir transfer =>
        ⟨servable.product dir transfer, servable.transfers dir transfer⟩
      obtain ⟨total, counted⟩ := exists_toNat_eq room
      obtain ⟨ram', completed⟩ := (Virtqueue.exists_putUsed_iff head total).mpr servable.completes
      exact ⟨_, processRequest_eq_ok_iff.mpr ⟨done, total, ram', served, counted, completed, rfl⟩⟩

/-- A request that has been handled is inside the disk, or ends with an error if it passes its end. -/
theorem processRequest_confined {queue : Virtqueue} {head : U16} {descs : List VirtqDesc} {done : BlkCompletion}
    (run : blk.processRequest queue head descs ram = .ok done) :
    (∀ range ∈ done.touched, blk.Inside range) ∧
      (blk.Overruns (requestHeader descs ram) (requestData descs) → done.status = some virtioBlkSIoerr) := by
  match descs with
  | [] =>
    cases run
    exact ⟨nofun, fun overrun => absurd rfl overrun.2.1⟩
  | [_] =>
    cases run
    exact ⟨nofun, fun overrun => absurd rfl overrun.2.1⟩
  | first :: second :: rest =>
    obtain ⟨progress, total, ram', served, -, -, rfl⟩ := processRequest_eq_ok_iff.mp run
    obtain ⟨inside, failed⟩ := serve_confined served
    exact ⟨inside, fun overrun => congrArg some (failed overrun)⟩

end Request

/-- The header at address 0 of a read of sector 2^55. -/
def farSectorRam : GuestRam := writeU64 (fun _ => 0) 8 (1 <<< 55)

/-- Header, buffer and status of a read of one sector. -/
def oneSector : List VirtqDesc := [⟨0, 16, 1, 1⟩, ⟨0x1000, 512, 3, 2⟩, ⟨0x2000, 1, 2, 0⟩]

end VirtioBlk

end Hypervisor
