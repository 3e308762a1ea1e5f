import Hypervisor.Model.VirtioMmio
import Hypervisor.Proofs.Virtqueue
import Hypervisor.Soundness.DiskConfinement

/-! # Virtqueues of a legal size

A transport takes the size of a queue, its ring addresses and the ready flag from the guest in any
order and without a look at the others. Handling a queue then divides by its size. So the rings are
safe as long as the driver keeps to this: a queue is made ready with a legal setup, and a queue that
is ready keeps a legal one.
-/

namespace Hypervisor

/-- A power of two that is at most the limit in QUEUE_NUM_MAX. -/
structure LegalSize (limit num : U16) : Prop where
  power : num.toNat.isPowerOfTwo
  bound : num ≤ limit

/-- An address to which the size of a ring header can be added. -/
def RingAddress (addr : U64) : Prop := addr.toNat + 4 < 2 ^ 64

/-- The setup of a queue that a device can handle. -/
structure Virtqueue.Legal (limit : U16) (q : Virtqueue) : Prop where
  size : LegalSize limit q.num
  avail : RingAddress q.availAddr
  used : RingAddress q.usedAddr

theorem LegalSize.ne_zero {limit num : U16} (legal : LegalSize limit num) : num ≠ 0 := by
  rintro rfl
  obtain ⟨k, zero⟩ := legal.power
  exact absurd zero.symm (Nat.two_pow_pos k).ne'

section Legal

variable {limit : U16} {q : Virtqueue}

theorem Virtqueue.Legal.canTake (legal : q.Legal limit) : q.CanTake := ⟨legal.size.ne_zero, legal.avail⟩

theorem Virtqueue.Legal.canComplete (legal : q.Legal limit) : q.CanComplete := .inr ⟨legal.size.ne_zero, legal.used⟩

end Legal

/-! ## Devices -/

/-- A device whose handling of a queue leaves its setup alone and panics only for reasons of its own. -/
class QueueClient (D : Type) [VirtioDevice D] : Prop where
  safe (fuel : ℕ) (d : D) (idx : U16) (q : Virtqueue) (env : VirtioEnv) :
    q.CanTake → q.CanComplete → QueueSafe (VirtioDevice.queueNotify fuel d idx q env)
  setup (fuel : ℕ) (d d' : D) (idx : U16) (q q' : Virtqueue) (env env' : VirtioEnv) :
    VirtioDevice.queueNotify fuel d idx q env = .ok (d', q', env') → ∃ last, q' = { q with lastAvailIdx := last }
  limit (d d' : D) : VirtioDevice.maxQueueSize d = VirtioDevice.maxQueueSize d'

theorem transfer_queueSafe (blk : VirtioBlk) (dir : DiskDir) (data : List VirtqDesc) (off : U64)
    (done : BlkProgress) :
    QueueSafe (blk.transfer dir data off done) := by
  induction data generalizing off done with
  | nil => exact queueSafe_ok done
  | cons desc rest ih =>
    refine (queueSafe_orStop _).bind fun stop _ => ?_
    split_ifs
    · exact queueSafe_ok _
    · refine (queueSafe_orStop _).bind fun disk _ => (queueSafe_orStop _).bind fun ram _ => ?_
      exact (queueSafe_orStop _).bind fun total _ => ih _ _

theorem serve_queueSafe (blk : VirtioBlk) (header : VirtioBlkReqHeader) (data : List VirtqDesc) (ram : GuestRam) :
    QueueSafe (blk.serve header data ram) := by
  unfold VirtioBlk.serve
  split_ifs
  · exact (queueSafe_orStop _).bind fun off _ => transfer_queueSafe blk _ data off _
  · exact (queueSafe_orStop _).bind fun off _ => transfer_queueSafe blk _ data off _
  · cases data with
    | nil => exact queueSafe_ok _
    | cons desc rest => exact queueSafe_ok _
  · exact queueSafe_ok _

theorem blk_handleChain_queueSafe (blk : VirtioBlk) (q : Virtqueue) (chain : DescChain) (env : VirtioEnv)
    (complete : q.CanComplete) : QueueSafe (blk.handleChain q chain env) := by
  refine QueueSafe.bind ?_ fun done _ => queueSafe_ok _
  unfold VirtioBlk.processRequest
  split
  · refine (serve_queueSafe blk _ _ _).bind fun done _ => (queueSafe_orStop _).bind fun total _ => ?_
    exact QueueSafe.bind (.of_exists ((Virtqueue.exists_putUsed_iff _ _).mpr complete)) fun ram _ => queueSafe_ok _
  · exact queueSafe_ok _

theorem net_handleChain_queueSafe (net : VirtioNet) (q : Virtqueue) (chain : DescChain) (env : VirtioEnv)
    (complete : q.CanComplete) : QueueSafe (net.handleChain q chain env) :=
  QueueSafe.bind (.of_exists ((Virtqueue.exists_putUsed_iff _ _).mpr complete)) fun _ _ => queueSafe_ok _

instance : QueueClient VirtioBlk where
  safe _ blk _ _ _ take complete :=
    (drain_queueSafe (blk_handleChain_queueSafe blk) take complete).bind fun _ _ => queueSafe_ok _
  setup _ _ _ _ _ _ _ _ run := by
    obtain ⟨⟨q, env⟩, drained, run⟩ := bind_eq_ok_iff.mp run
    cases run
    exact drain_setup drained
  limit _ _ := rfl

instance : QueueClient VirtioNet where
  safe _ net idx q env take complete := by
    change QueueSafe (if idx = 1 then _ else _)
    split_ifs
    · exact (drain_queueSafe (net_handleChain_queueSafe net) take complete).bind fun _ _ => queueSafe_ok _
    · exact queueSafe_ok _
  setup _ _ _ idx q _ _ _ run := by
    change (if idx = 1 then _ else _) = _ at run
    split_ifs at run
    · obtain ⟨⟨q, env⟩, drained, run⟩ := bind_eq_ok_iff.mp run
      cases run
      exact drain_setup drained
    · cases run
      exact ⟨_, rfl⟩
  limit _ _ := rfl

/-! ## Transports -/

namespace VirtioMmioTransport

open VirtioDevice

variable {D : Type} [VirtioDevice D]

/-- The queues that are ready have a legal setup. -/
def RingsLegal (t : VirtioMmioTransport D) : Prop :=
  ∀ i, (t.queues i).ready = true → (t.queues i).Legal (maxQueueSize t.device)

/-- The statement holds for the selected queue, if there is one. -/
def OnCurrent (t : VirtioMmioTransport D) (P : Virtqueue → Prop) : Prop :=
  ∀ i, t.currentQueue = some i → P (t.queues i)

/-- The write makes no queue with an illegal setup ready and gives no ready queue one. -/
def SaneReg (t : VirtioMmioTransport D) (val : U32) : MmioReg → Prop
  | .queueNum => t.OnCurrent fun q => q.ready = true → LegalSize (maxQueueSize t.device) (val.setWidth 16)
  | .queueReady => val ≠ 0 → t.OnCurrent fun q => q.Legal (maxQueueSize t.device)
  | .queueDriverLow => t.OnCurrent fun q => q.ready = true → RingAddress (joinHalves val t.queueDriverHigh)
  | .queueDriverHigh => t.OnCurrent fun q => q.ready = true → RingAddress (joinHalves q.availAddrLow val)
  | .queueDeviceLow => t.OnCurrent fun q => q.ready = true → RingAddress (joinHalves val t.queueDeviceHigh)
  | .queueDeviceHigh => t.OnCurrent fun q => q.ready = true → RingAddress (joinHalves q.usedAddrLow val)
  | _ => True

def SaneWrite (t : VirtioMmioTransport D) (offset value : U64) (size : U8) : Prop :=
  offset < configSpace → size = 4 → ∀ reg, MmioReg.ofOffset offset = some reg → t.SaneReg (value.setWidth 32) reg

variable {t t' : VirtioMmioTransport D} {fuel : ℕ} {env env' : VirtioEnv} {f : Virtqueue → Virtqueue}

/-- A notification changes at most the device and the queue that it names, which is ready. -/
theorem notify_ok {idx : U16} (run : t.notify fuel env idx = .ok (t', env')) :
    t' = t ∨ ∃ i device q status used, (t.queues i).ready = true ∧
      queueNotify fuel t.device idx (t.queues i) env = .ok (device, q, used) ∧
      t' = { ({ t with device } : VirtioMmioTransport D).setQueue i q with interruptStatus := status } := by
  rw [notify] at run
  split at run
  · next i _ =>
    split_ifs at run with ready
    · obtain ⟨⟨device, q, used⟩, handled, run⟩ := bind_eq_ok_iff.mp run
      cases run
      exact .inr ⟨i, device, q, _, used, ready, handled, rfl⟩
    · cases run
      exact .inl rfl
  · cases run
    exact .inl rfl

theorem saneWrite_of_saneReg {reg : MmioReg} {value : U64} (sane : t.SaneReg (value.setWidth 32) reg) :
    t.SaneWrite reg.offset value 4 := by
  intro _ _ other decoded
  cases (MmioReg.ofOffset_offset reg).symm.trans decoded
  exact sane

theorem RingsLegal.setQueue (legal : t.RingsLegal) {i : Fin maxQueues} {q : Virtqueue}
    (fine : q.ready = true → q.Legal (maxQueueSize t.device)) : (t.setQueue i q).RingsLegal := by
  intro j ready
  simp only [VirtioMmioTransport.setQueue, Function.update_apply] at ready ⊢
  split_ifs at ready ⊢
  · exact fine ready
  · exact legal j ready

theorem RingsLegal.modifyCurrent (legal : t.RingsLegal)
    (fine : t.OnCurrent fun q => (f q).ready = true → (f q).Legal (maxQueueSize t.device)) :
    (t.modifyCurrent f).RingsLegal := by
  rw [VirtioMmioTransport.modifyCurrent]
  split
  · next i current => exact legal.setQueue (fine i current)
  · exact legal

variable [QueueClient D]

theorem notify_queueSafe (legal : t.RingsLegal) (idx : U16) : QueueSafe (t.notify fuel env idx) := by
  rw [notify]
  split
  · next i _ =>
    split_ifs with ready
    · have fine := legal i ready
      exact (QueueClient.safe _ _ _ _ _ fine.canTake fine.canComplete).bind fun _ _ => queueSafe_ok _
    · exact queueSafe_ok _
  · exact queueSafe_ok _

/-- Handling a queue keeps its setup. -/
theorem RingsLegal.notify (legal : t.RingsLegal) {idx : U16} (run : t.notify fuel env idx = .ok (t', env')) :
    t'.RingsLegal := by
  obtain rfl | ⟨i, device, q, status, used, ready, handled, rfl⟩ := notify_ok run
  · exact legal
  · obtain ⟨last, rfl⟩ := QueueClient.setup _ _ _ _ _ _ _ _ handled
    have kept : ({ t with device } : VirtioMmioTransport D).RingsLegal := by
      intro j ready
      rw [QueueClient.limit device t.device]
      exact legal j ready
    exact kept.setQueue fun ready => ⟨(kept i ready).size, (kept i ready).avail, (kept i ready).used⟩

theorem writeReg_queueSafe (legal : t.RingsLegal) (val : U32) (reg : MmioReg) :
    QueueSafe (t.writeReg fuel env val reg) := by
  cases reg with
  | queueNotify => exact notify_queueSafe legal _
  | _ => exact queueSafe_ok _

/-- A write that the driver may make keeps the setup of ready queues legal. -/
theorem RingsLegal.writeReg (legal : t.RingsLegal) {val : U32} {reg : MmioReg} (sane : t.SaneReg val reg)
    (run : t.writeReg fuel env val reg = .ok (t', env')) : t'.RingsLegal := by
  cases reg with
  | queueNotify => exact legal.notify run
  | queueNum =>
    cases run
    exact legal.modifyCurrent fun i current ready =>
      ⟨sane i current ready, (legal i ready).avail, (legal i ready).used⟩
  | queueReady =>
    cases run
    refine legal.modifyCurrent fun i current ready => ?_
    have fine := sane (bne_iff_ne.mp ready) i current
    exact ⟨fine.size, fine.avail, fine.used⟩
  | status =>
    cases run
    split_ifs
    · exact fun i ready => nomatch ready
    · exact legal
  | queueDescLow | queueDescHigh =>
    cases run
    exact RingsLegal.modifyCurrent (by exact legal) fun i _ ready =>
      ⟨(legal i ready).size, (legal i ready).avail, (legal i ready).used⟩
  | queueDriverLow | queueDriverHigh =>
    cases run
    exact RingsLegal.modifyCurrent (by exact legal) fun i current ready =>
      ⟨(legal i ready).size, sane i current ready, (legal i ready).used⟩
  | queueDeviceLow | queueDeviceHigh =>
    cases run
    exact RingsLegal.modifyCurrent (by exact legal) fun i current ready =>
      ⟨(legal i ready).size, (legal i ready).avail, sane i current ready⟩
  | _ =>
    cases run
    exact legal

theorem write_queueSafe (legal : t.RingsLegal) (offset value : U64) (size : U8) :
    QueueSafe (t.write fuel env offset value size) := by
  rw [write]
  split_ifs
  · exact queueSafe_ok _
  · exact queueSafe_ok _
  · split
    · exact writeReg_queueSafe legal _ _
    · exact queueSafe_ok _

theorem RingsLegal.write (legal : t.RingsLegal) {offset value : U64} {size : U8}
    (sane : t.SaneWrite offset value size)
    (run : t.write fuel env offset value size = .ok (t', env')) : t'.RingsLegal := by
  rw [VirtioMmioTransport.write] at run
  split_ifs at run with config width
  · cases run
    intro i ready
    rw [QueueClient.limit _ t.device]
    exact legal i ready
  · cases run
    exact legal
  · split at run
    · next reg decoded =>
      exact legal.writeReg (sane (BitVec.not_le.mp config) (not_not.mp width) reg decoded) run
    · cases run
      exact legal

end VirtioMmioTransport

/-! ## Received frames -/

namespace VirtioMmioTransport

variable {t t' : VirtioMmioTransport VirtioNet} {env env' : VirtioEnv} {frame : List U8} {delivered : Bool}

theorem injectRx_queueSafe (legal : t.RingsLegal) : QueueSafe (t.injectRx env frame) := by
  rcases Bool.eq_false_or_eq_true (t.queues 0).ready with ready | closed
  · have fine := legal 0 ready
    refine QueueSafe.bind (.of_exists (Virtqueue.getAvailDesc_of_canTake fine.canTake _)) fun out found => ?_
    match out with
    | none => exact queueSafe_ok _
    | some (chain, rest) =>
      obtain rfl := Virtqueue.getAvailDesc_some found
      have completes : ∀ ram len, QueueSafe ((t.queues 0).taken.putUsed ram chain.head len) := fun ram len =>
        .of_exists ((Virtqueue.exists_putUsed_iff _ _).mpr fine.canComplete)
      dsimp only
      split_ifs
      · exact queueSafe_ok _
      · exact (completes _ _).bind fun _ _ => queueSafe_ok _
      · exact (completes _ _).bind fun _ _ => queueSafe_ok _
  · rw [injectRx, Virtqueue.getAvailDesc_of_not_ready closed]
    exact queueSafe_ok _

/-- A frame that is offered changes at most the RX queue, from which a buffer is taken. -/
theorem injectRx_ok (run : t.injectRx env frame = .ok (delivered, t', env')) :
    t' = t ∨ ∃ status, t' = { t.setQueue 0 (t.queues 0).taken with interruptStatus := status } := by
  obtain ⟨out, found, run⟩ := bind_eq_ok_iff.mp run
  match out with
  | none =>
    cases run
    exact .inl rfl
  | some (chain, rest) =>
    obtain rfl := Virtqueue.getAvailDesc_some found
    dsimp only at run
    split_ifs at run
    · cases run
      exact .inr ⟨_, rfl⟩
    · obtain ⟨ram, -, run⟩ := bind_eq_ok_iff.mp run
      cases run
      exact .inr ⟨_, rfl⟩
    · obtain ⟨ram, -, run⟩ := bind_eq_ok_iff.mp run
      cases run
      exact .inr ⟨_, rfl⟩

theorem RingsLegal.injectRx (legal : t.RingsLegal) (run : t.injectRx env frame = .ok (delivered, t', env')) :
    t'.RingsLegal := by
  obtain rfl | ⟨status, rfl⟩ := injectRx_ok run
  · exact legal
  · exact legal.setQueue fun ready => ⟨(legal 0 ready).size, (legal 0 ready).avail, (legal 0 ready).used⟩

end VirtioMmioTransport

/-! ## Runs of a transport -/

namespace VirtioTransport

open VirtioDevice

def queue : VirtioTransport → Fin maxQueues → Virtqueue
  | .blk t => t.queues
  | .net t => t.queues

/-- The size reported in QUEUE_NUM_MAX. -/
def limit : VirtioTransport → U16
  | .blk t => maxQueueSize t.device
  | .net t => maxQueueSize t.device

/-- The queue that a notification names, if the device has it. -/
def notified (d : VirtioTransport) (idx : U16) : Option (Fin maxQueues) :=
  match d with
  | .blk t => t.queueIndex idx.toNat
  | .net t => t.queueIndex idx.toNat

def RingsLegal : VirtioTransport → Prop
  | .blk t => t.RingsLegal
  | .net t => t.RingsLegal

/-- The access handles queue `i`: it notifies the device of this queue, or takes a buffer from it. -/
def Processes (d : VirtioTransport) (env : VirtioEnv) (i : Fin maxQueues) : VirtioAccess → Prop
  | .read _ _ => False
  | .write offset value size => offset = MmioReg.queueNotify.offset ∧ size = 4 ∧
      d.notified ((value.setWidth 32 : U32).setWidth 16) = some i ∧ (d.queue i).ready = true
  | .injectRx _ => (∃ t, d = .net t) ∧ i = 0 ∧ (d.queue 0).hasAvail env.ram = true

/-- No method of the virtqueue panics, and a queue that is handled has a legal size. -/
structure RingSafe (d : VirtioTransport) (fuel : ℕ) (env : VirtioEnv) (access : VirtioAccess) : Prop where
  returns : d.step fuel env access ≠ .error .queuePanic
  sized : ∀ i, d.Processes env i access →
    (d.queue i).num.toNat.isPowerOfTwo ∧ 1 ≤ (d.queue i).num.toNat ∧ (d.queue i).num ≤ d.limit

/-- The driver keeps the setup of ready queues legal. -/
def Sane : VirtioTransport → VirtioAccess → Prop
  | .blk t, .write offset value size => t.SaneWrite offset value size
  | .net t, .write offset value size => t.SaneWrite offset value size
  | _, _ => True

/-- The states of a transport after accesses that are allowed, with any content of guest memory at
each of them. -/
inductive Run (allowed : VirtioTransport → VirtioAccess → Prop) : VirtioTransport → Prop
  | blk (base : U64) (disk : VirtioBlk) (irq : U32) : Run allowed (.blk (.new base disk irq))
  | net (base : U64) (net : VirtioNet) (irq : U32) : Run allowed (.net (.new base net irq))
  | step {d d' : VirtioTransport} {fuel : ℕ} {env env' : VirtioEnv} {access : VirtioAccess} (run : Run allowed d)
      (fine : allowed d access) (next : d.step fuel env access = .ok (d', env')) : Run allowed d'

section Step

variable {d d' : VirtioTransport} {fuel : ℕ} {env env' : VirtioEnv} {access : VirtioAccess}

theorem step_queueSafe (legal : d.RingsLegal) (fuel : ℕ) (env : VirtioEnv) (access : VirtioAccess) :
    QueueSafe (d.step fuel env access) := by
  cases access with
  | read => cases d <;> exact queueSafe_ok _
  | write offset value size =>
    cases d with
    | blk t => exact (t.write_queueSafe legal _ _ _).bind fun _ _ => queueSafe_ok _
    | net t => exact (t.write_queueSafe legal _ _ _).bind fun _ _ => queueSafe_ok _
  | injectRx frame =>
    cases d with
    | blk t => exact queueSafe_ok _
    | net t => exact (t.injectRx_queueSafe legal).bind fun _ _ => queueSafe_ok _

/-- An access leaves the transport as it is, or is a write to it, or a frame for the network device. -/
theorem step_ok (next : d.step fuel env access = .ok (d', env')) :
    d' = d ∨
    (∃ t t' offset value size, d = .blk t ∧ d' = .blk t' ∧ access = .write offset value size ∧
      t.write fuel env offset value size = .ok (t', env')) ∨
    (∃ t t' offset value size, d = .net t ∧ d' = .net t' ∧ access = .write offset value size ∧
      t.write fuel env offset value size = .ok (t', env')) ∨
    ∃ t t' frame delivered, d = .net t ∧ d' = .net t' ∧ t.injectRx env frame = .ok (delivered, t', env') := by
  cases access with
  | read => cases d <;> cases next <;> exact .inl rfl
  | write offset value size =>
    cases d with
    | blk t =>
      obtain ⟨⟨t', env'⟩, run, next⟩ := bind_eq_ok_iff.mp next
      cases next
      exact .inr (.inl ⟨t, t', offset, value, size, rfl, rfl, rfl, run⟩)
    | net t =>
      obtain ⟨⟨t', env'⟩, run, next⟩ := bind_eq_ok_iff.mp next
      cases next
      exact .inr (.inr (.inl ⟨t, t', offset, value, size, rfl, rfl, rfl, run⟩))
  | injectRx frame =>
    cases d with
    | blk t =>
      cases next
      exact .inl rfl
    | net t =>
      obtain ⟨⟨delivered, t', env'⟩, run, next⟩ := bind_eq_ok_iff.mp next
      cases next
      exact .inr (.inr (.inr ⟨t, t', frame, delivered, rfl, rfl, run⟩))

theorem RingsLegal.step (legal : d.RingsLegal) (sane : d.Sane access)
    (next : d.step fuel env access = .ok (d', env')) : d'.RingsLegal := by
  obtain rfl | ⟨t, t', _, _, _, rfl, rfl, rfl, run⟩ | ⟨t, t', _, _, _, rfl, rfl, rfl, run⟩ |
    ⟨t, t', _, _, rfl, rfl, run⟩ := step_ok next
  · exact legal
  · exact VirtioMmioTransport.RingsLegal.write legal sane run
  · exact VirtioMmioTransport.RingsLegal.write legal sane run
  · exact VirtioMmioTransport.RingsLegal.injectRx legal run

theorem Run.ringsLegal (run : Run Sane d) : d.RingsLegal := by
  induction run with
  | blk | net => exact fun i ready => nomatch ready
  | step _ sane next ih => exact ih.step sane next

theorem RingsLegal.legal (legal : d.RingsLegal) {i : Fin maxQueues} (ready : (d.queue i).ready = true) :
    (d.queue i).Legal d.limit := by
  cases d with
  | blk t => exact legal i ready
  | net t => exact legal i ready

/-- Only a ready queue is handled. -/
theorem Processes.ready {i : Fin maxQueues} (handled : d.Processes env i access) : (d.queue i).ready = true := by
  cases access with
  | read => exact handled.elim
  | write offset value size => exact handled.2.2.2
  | injectRx frame =>
    obtain ⟨-, rfl, avail⟩ := handled
    rcases Bool.eq_false_or_eq_true (d.queue 0).ready with ready | closed
    · exact ready
    · rw [Virtqueue.hasAvail_of_not_ready closed] at avail
      cases avail

end Step

/-- A fresh transport of a disk. -/
def newDisk : VirtioTransport := .blk (.new 0x0A000000 (.new 0x58000000 0x100000) 48)

/-- A write of 32 bits to a register. -/
def writeTo (reg : MmioReg) (value : U64) : VirtioAccess := .write reg.offset value 4

/-- Memory in which an available ring at 0x1000 has one entry. -/
def oneEntry : VirtioEnv := { ram := fun a => if a = 0x1002 then 1 else 0 }

end VirtioTransport

end Hypervisor
