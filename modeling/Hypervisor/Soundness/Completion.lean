import Hypervisor.Model.VirtioMmio
import Hypervisor.Soundness.DiskConfinement

/-! # Completion of chains

The driver gets the descriptors of a chain back when the head of the chain stands in the used ring.
A device takes a chain in one method and returns it in another, and between the two the block device
and the delivery of frames have a way out for chains that are too short. Completion is stated for one
chain: the device writes to the buffers that the chain names, and then the used ring gets one entry,
that of the chain.
-/

namespace Hypervisor

namespace Virtqueue

variable {q : Virtqueue} {chain : DescChain} {own : Set ℕ} {ram ram' : GuestRam}

/-- Writes to the bytes `own`, if any, and after them one more entry of the used ring, for this chain. -/
def Completes (q : Virtqueue) (chain : DescChain) (own : Set ℕ) (ram ram' : GuestRam) : Prop :=
  ∃ written, Set.EqOn written ram ownᶜ ∧ q.Placed chain.head written ram'

/-- A chain that is dropped is not completed. -/
theorem not_completes_of_dropped : ¬ q.Completes chain ∅ ram ram := by
  rintro ⟨written, same, placed⟩
  rw [Set.compl_empty, Set.eqOn_univ] at same
  subst same
  have moved := congrArg BitVec.toNat placed.idx
  rw [BitVec.toNat_add] at moved
  have one : (1 : U16).toNat = 1 := rfl
  have := (q.usedIdx written).isLt
  omega

theorem completes_of_putUsed {written : GuestRam} {len : U32} (present : q.usedAddr ≠ 0)
    (same : Set.EqOn written ram ownᶜ) (run : q.putUsed written chain.head len = .ok ram') :
    q.Completes chain own ram ram' :=
  ⟨written, same, putUsed_placed present run⟩

end Virtqueue

/-! ## Writes of the block device -/

namespace VirtioBlk

/-- The bytes that a transfer may write: the buffers of a read, the disk image for a write. -/
def transferBytes (blk : VirtioBlk) : DiskDir → List VirtqDesc → Set ℕ
  | .fromDisk, data => {a | ∃ desc ∈ data, a ∈ bytesAt desc.addr.toNat desc.len.toNat}
  | .toDisk, data => {a | data ≠ [] ∧ blk.Inside (a, 1)}

/-- Only a write makes the disk image the destination. -/
def requestDir (header : VirtioBlkReqHeader) : DiskDir :=
  if header.reqType = virtioBlkTOut then .toDisk else .fromDisk

/-- The bytes that a request may write: those of its transfer and the status. -/
def requestBytes (blk : VirtioBlk) (descs : List VirtqDesc) (ram : GuestRam) : Set ℕ :=
  blk.transferBytes (requestDir (requestHeader descs ram)) (requestData descs) ∪
    {a | ∃ status ∈ descs.tail.getLast?, a = status.addr.toNat}

section Frames

variable {blk : VirtioBlk} {dir : DiskDir} {data rest : List VirtqDesc} {desc : VirtqDesc} {off : U64}
  {done done' : BlkProgress} {header : VirtioBlkReqHeader} {ram ram' : GuestRam}

theorem transferBytes_nil : blk.transferBytes dir [] = ∅ := by
  cases dir <;> simp [transferBytes]

theorem transferBytes_subset_cons : blk.transferBytes dir rest ⊆ blk.transferBytes dir (desc :: rest) := by
  cases dir with
  | fromDisk => exact fun a ⟨buffer, member, inside⟩ => ⟨buffer, List.mem_cons_of_mem desc member, inside⟩
  | toDisk => exact fun a ⟨_, inside⟩ => ⟨List.cons_ne_nil desc rest, inside⟩

/-- One copy of the loop. -/
theorem copy_eqOn {disk : ℕ} (address : disk = blk.diskBase.toNat + off.toNat)
    (fits : off.toNat + desc.len.toNat ≤ blk.diskSize.toNat)
    (copied : dir.copy ram disk desc.addr.toNat desc.len.toNat = some ram') :
    Set.EqOn ram' ram (blk.transferBytes dir (desc :: rest))ᶜ := by
  cases dir with
  | fromDisk =>
    rw [DiskDir.copy, copyNonoverlapping] at copied
    split_ifs at copied
    obtain rfl := Option.some.inj copied
    refine (eqOn_storeBytes _ _ _ _).mono (Set.compl_subset_compl.mpr fun a inside => ?_)
    exact ⟨desc, List.mem_cons_self, inside⟩
  | toDisk =>
    rw [DiskDir.copy, copyNonoverlapping] at copied
    split_ifs at copied
    obtain rfl := Option.some.inj copied
    refine (eqOn_storeBytes _ _ _ _).mono (Set.compl_subset_compl.mpr fun a inside => ?_)
    rw [mem_bytesAt] at inside
    exact ⟨List.cons_ne_nil desc rest, by dsimp only; omega, by dsimp only; omega⟩

theorem transfer_eqOn (run : blk.transfer dir data off done = .ok done') :
    Set.EqOn done'.ram done.ram (blk.transferBytes dir data)ᶜ := by
  induction data generalizing off done with
  | nil =>
    cases run
    exact Set.eqOn_refl _ _
  | cons desc rest ih =>
    obtain ⟨stop, sum, ⟨-, rfl⟩ | ⟨fits, disk, ram, total, address, copied, -, run⟩⟩ := transfer_cons.mp run
    · exact Set.eqOn_refl _ _
    · have later := (ih run).mono (Set.compl_subset_compl.mpr (@transferBytes_subset_cons blk dir rest desc))
      exact later.trans (copy_eqOn address (by omega) copied)

theorem requestDir_eq (transfer : header.reqType = dir.reqType) : requestDir header = dir := by
  rw [requestDir, transfer]
  cases dir <;> rfl

theorem serve_eqOn (run : blk.serve header data ram = .ok done) :
    Set.EqOn done.ram ram (blk.transferBytes (requestDir header) data)ᶜ := by
  rcases Classical.em (∃ dir : DiskDir, header.reqType = dir.reqType) with ⟨dir, transfer⟩ | other
  · obtain ⟨off, -, run⟩ := (serve_eq_ok_iff transfer).mp run
    rw [requestDir_eq transfer]
    exact transfer_eqOn run
  · have read : header.reqType ≠ virtioBlkTIn := fun same => other ⟨.fromDisk, same⟩
    have write : header.reqType ≠ virtioBlkTOut := fun same => other ⟨.toDisk, same⟩
    unfold serve at run
    rw [if_neg read, if_neg write] at run
    rw [requestDir, if_neg write]
    split_ifs at run
    · cases data with
      | nil =>
        cases run
        exact Set.eqOn_refl _ _
      | cons desc rest =>
        -- of the identification at most as many bytes are written as the buffer has
        cases run
        have stored := eqOn_storeBytes ram desc.addr.toNat (min desc.len.toNat 20) fun i => blkDeviceIdString.getD i 0
        refine stored.mono (Set.compl_subset_compl.mpr fun a inside => ⟨desc, List.mem_cons_self, ?_⟩)
        exact bytesAt_subset le_rfl (by omega) inside
    · cases run
      exact Set.eqOn_refl _ _

end Frames

section Request

variable {blk : VirtioBlk} {queue : Virtqueue} {head : U16} {descs : List VirtqDesc} {ram : GuestRam}
  {done : BlkCompletion}

/-- Chains of fewer than two descriptors are dropped. -/
theorem processRequest_of_short (short : descs.length < 2) :
    blk.processRequest queue head descs ram = .ok { ram } := by
  match descs with
  | [] => rfl
  | [_] => rfl
  | first :: second :: rest => exact absurd short (by simp)

theorem requestBytes_of_short (short : descs.length < 2) : blk.requestBytes descs ram = ∅ := by
  have tail : descs.tail = [] := List.eq_nil_of_length_eq_zero (by rw [List.length_tail]; omega)
  rw [requestBytes, requestData, tail, List.dropLast_nil, transferBytes_nil, Set.empty_union, List.getLast?_nil]
  simp

/-- A request of at least two descriptors writes its own bytes, and then its chain is returned. -/
theorem putUsed_of_processRequest (two : 2 ≤ descs.length)
    (run : blk.processRequest queue head descs ram = .ok done) :
    ∃ written len, Set.EqOn written ram (blk.requestBytes descs ram)ᶜ ∧
      queue.putUsed written head len = .ok done.ram := by
  match descs with
  | [] => exact absurd two (by decide)
  | [_] => exact absurd two (by simp)
  | first :: second :: rest =>
    obtain ⟨progress, total, ram', served, -, completed, rfl⟩ := processRequest_eq_ok_iff.mp run
    refine ⟨_, total, ((eqOn_writeU8 _ _ _).mono (Set.compl_subset_compl.mpr ?_)).trans
      ((serve_eqOn served).mono (Set.compl_subset_compl.mpr Set.subset_union_left)), completed⟩
    refine fun a inside => .inr ⟨(second :: rest).getLast (List.cons_ne_nil second rest), ?_, ?_⟩
    · exact List.getLast?_eq_some_getLast _
    · rw [mem_bytesAt] at inside
      omega

theorem handleChain_eq_ok_iff {chain : DescChain} {env env' : VirtioEnv} :
    blk.handleChain queue chain env = .ok env' ↔
      ∃ done, blk.processRequest queue chain.head chain.descs env.ram = .ok done ∧
        { env with ram := done.ram } = env' := by
  rw [handleChain, bind_eq_ok_iff]
  exact exists_congr fun done => and_congr_right fun _ => ⟨fun same => Except.ok.inj same, fun same => congrArg _ same⟩

/-- The block device completes the chains of at least two descriptors whose request it can serve. -/
theorem exists_completes_iff {chain : DescChain} {env : VirtioEnv} (present : queue.usedAddr ≠ 0) :
    (∃ env', blk.handleChain queue chain env = .ok env' ∧
        queue.Completes chain (blk.requestBytes chain.descs env.ram) env.ram env'.ram) ↔
      2 ≤ chain.count ∧ blk.Servable queue (requestHeader chain.descs env.ram) (requestData chain.descs) := by
  constructor
  · rintro ⟨env', run, completed⟩
    obtain ⟨done, handled, rfl⟩ := handleChain_eq_ok_iff.mp run
    have two : 2 ≤ chain.count := by
      by_contra short
      rw [processRequest_of_short (Nat.not_le.mp short)] at handled
      cases handled
      rw [requestBytes_of_short (Nat.not_le.mp short)] at completed
      exact Virtqueue.not_completes_of_dropped completed
    exact ⟨two, exists_processRequest_iff.mp ⟨done, handled⟩ two⟩
  · rintro ⟨two, servable⟩
    obtain ⟨done, run⟩ := exists_processRequest_iff.mpr fun _ => servable
    obtain ⟨written, len, same, completed⟩ := putUsed_of_processRequest two run
    exact ⟨_, handleChain_eq_ok_iff.mpr ⟨done, run, rfl⟩, Virtqueue.completes_of_putUsed present same completed⟩

end Request

end VirtioBlk

/-! ## The network device -/

namespace VirtioNet

variable {net : VirtioNet} {queue : Virtqueue} {chain : DescChain} {env : VirtioEnv} {ram' : GuestRam}

/-- Forwarding a frame does not write to guest memory, so a chain of the TX queue is only returned. -/
theorem exists_handleChain_iff : (∃ env', net.handleChain queue chain env = .ok env' ∧ env'.ram = ram') ↔
    queue.putUsed env.ram chain.head 0 = .ok ram' := by
  have unwritten : (if 14 ≤ (gatherFrame env.ram chain.descs 0 []).length then
      env.vswitchForward net.portId (gatherFrame env.ram chain.descs 0 []) else env).ram = env.ram := by
    split_ifs <;> rfl
  rw [← unwritten]
  constructor
  · rintro ⟨env', run, rfl⟩
    obtain ⟨ram', completed, run⟩ := bind_eq_ok_iff.mp run
    obtain rfl := Except.ok.inj run
    exact completed
  · exact fun completed => ⟨_, bind_eq_ok_iff.mpr ⟨ram', completed, rfl⟩, rfl⟩

/-- The network device completes every chain that it takes from its TX queue. -/
theorem exists_completes (present : queue.usedAddr ≠ 0) (can : queue.CanComplete) :
    ∃ env', net.handleChain queue chain env = .ok env' ∧ queue.Completes chain ∅ env.ram env'.ram := by
  obtain ⟨ram', completed⟩ := (@Virtqueue.exists_putUsed_iff queue env.ram chain.head 0).mpr can
  obtain ⟨env', run, rfl⟩ := exists_handleChain_iff.mpr completed
  exact ⟨env', run, Virtqueue.completes_of_putUsed present (Set.eqOn_refl _ _) completed⟩

end VirtioNet

namespace VirtioMmioTransport

/-- The bytes that a received frame may change: the writable buffers of the chain. -/
def frameBytes (descs : List VirtqDesc) : Set ℕ :=
  {a | ∃ desc ∈ descs, isWritable desc = true ∧ a ∈ bytesAt desc.addr.toNat desc.len.toNat}

theorem frameBytes_nil : frameBytes [] = ∅ := by
  simp [frameBytes]

theorem scatterFrame_eqOn (frame : List U8) (descs : List VirtqDesc) (ram : GuestRam) (written : ℕ) :
    Set.EqOn (scatterFrame frame descs ram written).1 ram (frameBytes descs)ᶜ := by
  induction descs generalizing ram written with
  | nil => exact Set.eqOn_refl _ _
  | cons desc rest ih =>
    have later : (frameBytes (desc :: rest))ᶜ ⊆ (frameBytes rest)ᶜ :=
      Set.compl_subset_compl.mpr fun a ⟨buffer, member, inside⟩ => ⟨buffer, List.mem_cons_of_mem desc member, inside⟩
    -- what goes into a buffer is at most as long as the buffer
    have stored (ram : GuestRam) (dst len : ℕ) (bytes : ℕ → U8) (writable : isWritable desc = true)
        (low : desc.addr.toNat ≤ dst) (high : dst + len ≤ desc.addr.toNat + desc.len.toNat) :
        Set.EqOn (storeBytes ram dst len bytes) ram (frameBytes (desc :: rest))ᶜ :=
      (eqOn_storeBytes ram dst len bytes).mono <| Set.compl_subset_compl.mpr fun a inside =>
        ⟨desc, List.mem_cons_self, writable, bytesAt_subset low high inside⟩
    rw [scatterFrame]
    split_ifs with skipped header
    · exact (ih ram written).mono later
    · have writable : isWritable desc = true := by simpa using skipped
      refine ((ih _ _).mono later).trans ((stored _ _ _ _ writable ?_ ?_).trans (stored _ _ _ _ writable le_rfl ?_))
      all_goals omega
    · have writable : isWritable desc = true := by simpa using skipped
      exact ((ih _ _).mono later).trans (stored _ _ _ _ writable le_rfl (by omega))

/-- A frame is delivered through one chain, which is completed unless it is empty. -/
theorem exists_injectRx_completes_iff {t : VirtioMmioTransport VirtioNet} {env : VirtioEnv} {frame : List U8}
    {chain : DescChain} {q : Virtqueue} (found : (t.queues 0).getAvailDesc env.ram = .ok (some (chain, q)))
    (present : q.usedAddr ≠ 0) (can : q.CanComplete) :
    (∃ delivered t' env', t.injectRx env frame = .ok (delivered, t', env') ∧
        q.Completes chain (frameBytes chain.descs) env.ram env'.ram) ↔ chain.count ≠ 0 := by
  have taken {next : Option (DescChain × Virtqueue) →
      Except VirtioStop (Bool × VirtioMmioTransport VirtioNet × VirtioEnv)} :
      ((t.queues 0).getAvailDesc env.ram >>= next) = next (some (chain, q)) := by rw [found]; rfl
  rw [injectRx, taken]
  dsimp only
  split_ifs with empty small
  · refine iff_of_false ?_ (not_not.mpr empty)
    rintro ⟨delivered, t', env', run, completed⟩
    obtain rfl : env = env' := congrArg (fun out => out.2.2) (Except.ok.inj run)
    rw [List.eq_nil_of_length_eq_zero empty, frameBytes_nil] at completed
    exact Virtqueue.not_completes_of_dropped completed
  · obtain ⟨ram', run⟩ := (@Virtqueue.exists_putUsed_iff q env.ram chain.head 0).mpr can
    refine iff_of_true ⟨_, _, _, bind_eq_ok_iff.mpr ⟨ram', run, rfl⟩, ?_⟩ empty
    exact Virtqueue.completes_of_putUsed present (Set.eqOn_refl _ _) run
  · obtain ⟨ram', run⟩ := (@Virtqueue.exists_putUsed_iff q (scatterFrame frame chain.descs env.ram 0).1 chain.head
      (BitVec.ofNat 32 (scatterFrame frame chain.descs env.ram 0).2)).mpr can
    refine iff_of_true ⟨_, _, _, bind_eq_ok_iff.mpr ⟨ram', run, rfl⟩, ?_⟩ empty
    exact Virtqueue.completes_of_putUsed present (scatterFrame_eqOn frame chain.descs env.ram 0) run

end VirtioMmioTransport

/-! ## Whole operations -/

namespace Virtqueue

/-- A ready queue whose size is a power of two, with three areas of guest memory that share no byte. -/
structure Separate (q : Virtqueue) : Prop where
  ready : q.ready = true
  power : q.num.toNat.isPowerOfTwo
  nonzero : q.descAddr ≠ 0 ∧ q.availAddr ≠ 0 ∧ q.usedAddr ≠ 0
  desc_fits : q.descAddr.toNat + 16 * q.num.toNat ≤ 2 ^ 64
  avail_fits : q.availAddr.toNat + (4 + 2 * q.num.toNat) ≤ 2 ^ 64
  used_fits : q.usedAddr.toNat + (4 + 8 * q.num.toNat) ≤ 2 ^ 64
  desc_avail : Disjoint (bytesAt q.descAddr.toNat (16 * q.num.toNat)) (bytesAt q.availAddr.toNat (4 + 2 * q.num.toNat))
  desc_used : Disjoint (bytesAt q.descAddr.toNat (16 * q.num.toNat)) (bytesAt q.usedAddr.toNat (4 + 8 * q.num.toNat))
  avail_used : Disjoint (bytesAt q.availAddr.toNat (4 + 2 * q.num.toNat))
    (bytesAt q.usedAddr.toNat (4 + 8 * q.num.toNat))

theorem Separate.num_pos {q : Virtqueue} (separate : q.Separate) : 0 < q.num.toNat := by
  obtain ⟨k, power⟩ := separate.power
  exact power ▸ Nat.two_pow_pos k

theorem Separate.canComplete {q : Virtqueue} (separate : q.Separate) : q.CanComplete := by
  have positive := separate.num_pos
  have fits := separate.used_fits
  exact .inr ⟨fun zero => absurd positive (by rw [zero]; decide), by omega⟩

end Virtqueue

section Loop

variable {handle : Virtqueue → DescChain → VirtioEnv → Except VirtioStop VirtioEnv} {q q' : Virtqueue}
  {env env' : VirtioEnv} {chain : DescChain}

/-- The loop that starts with `q` takes `chain` when the state is `env'`, and has `q'` then. -/
def Takes (handle : Virtqueue → DescChain → VirtioEnv → Except VirtioStop VirtioEnv) (q : Virtqueue) (env : VirtioEnv)
    (chain : DescChain) (q' : Virtqueue) (env' : VirtioEnv) : Prop :=
  ∃ n q₀, Rounds handle n q env q₀ env' ∧ q₀.getAvailDesc env'.ram = .ok (some (chain, q'))

theorem Takes.setup (takes : Takes handle q env chain q' env') : ∃ idx, q' = { q with lastAvailIdx := idx } := by
  obtain ⟨n, q₀, rounds, found⟩ := takes
  obtain rfl := Virtqueue.getAvailDesc_some found
  rw [rounds.setup]
  exact ⟨_, rfl⟩

/-- Every chain that the loop takes is completed before it takes another one or returns. -/
def CompletesAll (handle : Virtqueue → DescChain → VirtioEnv → Except VirtioStop VirtioEnv)
    (own : DescChain → GuestRam → Set ℕ) (q : Virtqueue) (env : VirtioEnv) : Prop :=
  ∀ chain q' env', Takes handle q env chain q' env' →
    ∃ env'', handle q' chain env' = .ok env'' ∧ q'.Completes chain (own chain env'.ram) env'.ram env''.ram

end Loop

/-- A ready queue of eight descriptors. -/
def eightEntries : Virtqueue :=
  { descAddr := 0x1000, availAddr := 0x2000, usedAddr := 0x3000, num := 8, ready := true }

theorem eightEntries_separate : eightEntries.Separate where
  ready := rfl
  power := ⟨3, rfl⟩
  nonzero := by decide
  desc_fits := by decide
  avail_fits := by decide
  used_fits := by decide
  desc_avail := disjoint_bytesAt (by decide)
  desc_used := disjoint_bytesAt (by decide)
  avail_used := disjoint_bytesAt (by decide)

/-- One entry is published in the available ring, and all descriptors are zero. -/
def oneEntry (head : U16) : VirtioEnv := { ram := writeU16 (writeU16 (fun _ => 0) 0x2002 1) 0x2004 head }

/-- Descriptors in guest memory, from `addr` on. -/
def storeTable : ℕ → List VirtqDesc → GuestRam → GuestRam
  | _, [], ram => ram
  | addr, desc :: rest, ram =>
      storeTable (addr + 16) rest (writeU16 (writeU16 (writeU32 (writeU64 ram addr desc.addr)
        (addr + 8) desc.len) (addr + 12) desc.flags) (addr + 14) desc.next)

/-- The published entry names the first of these descriptors. -/
def oneChain (descs : List VirtqDesc) : GuestRam := storeTable 0x1000 descs (oneEntry 0).ram

end Hypervisor
