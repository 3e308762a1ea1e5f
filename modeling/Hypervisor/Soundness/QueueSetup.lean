import Hypervisor.Soundness.VirtioRings

/-! # Setting up queues

The driver writes the address of a ring in halves, and the transport keeps the high half in a register
of its own until the low half comes. Selecting a queue clears these registers and a reset does not:
the low half can be joined with a high half that was meant for another queue or came before the reset,
or with none at all. `ring_address_iff` says when a ring gets the address that was written, and
`reset_fresh_iff` when a reset leaves a transport as good as new.
-/

namespace Hypervisor

theorem joinHalves_toNat (low high : U32) :
    (joinHalves low high).toNat = high.toNat * 2 ^ 32 + low.toNat := by
  have lowBound := low.isLt
  have highBound := high.isLt
  have wide : (high.setWidth 64 <<< 32 : U64).toNat = high.toNat <<< 32 := by
    rw [BitVec.toNat_shiftLeft, BitVec.toNat_setWidth, Nat.shiftLeft_eq, Nat.shiftLeft_eq]
    omega
  rw [joinHalves, BitVec.toNat_or, wide, BitVec.toNat_setWidth, Nat.mod_eq_of_lt (by omega), Nat.or_comm,
    ← Nat.shiftLeft_add_eq_or_of_lt lowBound, Nat.shiftLeft_eq]

theorem joinHalves_low (low high : U32) : (joinHalves low high).setWidth 32 = low := by
  apply BitVec.eq_of_toNat_eq
  have bound := low.isLt
  rw [BitVec.toNat_setWidth, joinHalves_toNat]
  omega

theorem joinHalves_high {low high high' : U32} (same : joinHalves low high = joinHalves low high') :
    high = high' := by
  have numbers := congrArg BitVec.toNat same
  rw [joinHalves_toNat, joinHalves_toNat] at numbers
  apply BitVec.eq_of_toNat_eq
  omega

/-! ## The halves of ring addresses -/

/-- The rings of a queue, under the names of their registers. -/
inductive RingKind where
  | desc | driver | device
deriving DecidableEq

inductive Half where
  | low | high
deriving DecidableEq

namespace MmioReg

def ringHalf : RingKind → Half → MmioReg
  | .desc, .low => queueDescLow
  | .desc, .high => queueDescHigh
  | .driver, .low => queueDriverLow
  | .driver, .high => queueDriverHigh
  | .device, .low => queueDeviceLow
  | .device, .high => queueDeviceHigh

theorem offset_of_ofOffset {reg : MmioReg} {off : U64} (decoded : ofOffset off = some reg) :
    off = reg.offset := by
  have found := List.find?_some decoded
  exact (eq_of_beq found).symm

theorem offset_lt_configSpace (reg : MmioReg) : ¬configSpace ≤ reg.offset := by
  cases reg <;> decide

end MmioReg

namespace Virtqueue

def ringAddr (q : Virtqueue) : RingKind → U64
  | .desc => q.descAddr
  | .driver => q.availAddr
  | .device => q.usedAddr

def setRingAddr (q : Virtqueue) (low high : U32) : RingKind → Virtqueue
  | .desc => q.setDescAddr low high
  | .driver => q.setAvailAddr low high
  | .device => q.setUsedAddr low high

theorem ringAddr_setRingAddr (q : Virtqueue) (low high : U32) (kind ring : RingKind) :
    (q.setRingAddr low high kind).ringAddr ring = if kind = ring then joinHalves low high else q.ringAddr ring := by
  cases kind <;> cases ring <;> rfl

end Virtqueue

namespace VirtioMmioTransport

variable {D : Type} {t : VirtioMmioTransport D} {fuel : ℕ} {env : VirtioEnv}

/-- The register that keeps the high half of an address. -/
def latch (t : VirtioMmioTransport D) : RingKind → U32
  | .desc => t.queueDescHigh
  | .driver => t.queueDriverHigh
  | .device => t.queueDeviceHigh

def setLatch (t : VirtioMmioTransport D) (high : U32) : RingKind → VirtioMmioTransport D
  | .desc => { t with queueDescHigh := high }
  | .driver => { t with queueDriverHigh := high }
  | .device => { t with queueDeviceHigh := high }

@[simp] theorem setLatch_device (high : U32) (kind : RingKind) : (t.setLatch high kind).device = t.device := by
  cases kind <;> rfl

@[simp] theorem setLatch_queueSel (high : U32) (kind : RingKind) :
    (t.setLatch high kind).queueSel = t.queueSel := by
  cases kind <;> rfl

@[simp] theorem setLatch_queues (high : U32) (kind : RingKind) : (t.setLatch high kind).queues = t.queues := by
  cases kind <;> rfl

theorem latch_setLatch (high : U32) (kind ring : RingKind) :
    (t.setLatch high kind).latch ring = if kind = ring then high else t.latch ring := by
  cases kind <;> cases ring <;> rfl

variable [VirtioDevice D]

theorem write_reg (reg : MmioReg) (value : U64) :
    t.write fuel env reg.offset value 4 = t.writeReg fuel env (value.setWidth 32) reg := by
  rw [write, if_neg reg.offset_lt_configSpace, if_neg (by decide), MmioReg.ofOffset_offset]

/-- The low half of an address is joined with the latched high half. -/
theorem writeReg_low (val : U32) (kind : RingKind) : t.writeReg fuel env val (.ringHalf kind .low) =
    .ok (t.modifyCurrent fun q => q.setRingAddr val (t.latch kind) kind, env) := by
  cases kind <;> rfl

/-- The high half is latched, and joined with the low half that the ring has. -/
theorem writeReg_high (val : U32) (kind : RingKind) : t.writeReg fuel env val (.ringHalf kind .high) =
    .ok ((t.setLatch val kind).modifyCurrent fun q =>
      q.setRingAddr ((q.ringAddr kind).setWidth 32) val kind, env) := by
  cases kind <;> rfl

theorem modifyCurrent_queues (f : Virtqueue → Virtqueue) (i : Fin maxQueues) :
    (t.modifyCurrent f).queues i = if t.currentQueue = some i then f (t.queues i) else t.queues i := by
  rw [modifyCurrent]
  split
  · next j current =>
    simp only [current, setQueue, Function.update_apply, Option.some.injEq, eq_comm (a := i)]
    split_ifs with same
    · rw [same]
    · rfl
  · next none => rw [none, if_neg (by simp)]

/-- Only the ring of the selected queue gets the address. -/
theorem ringAddr_modifyCurrent (low : Virtqueue → U32) (high : U32) (kind ring : RingKind) (i : Fin maxQueues) :
    ((t.modifyCurrent fun q => q.setRingAddr (low q) high kind).queues i).ringAddr ring =
      if kind = ring ∧ t.currentQueue = some i then joinHalves (low (t.queues i)) high
      else (t.queues i).ringAddr ring := by
  rw [modifyCurrent_queues]
  by_cases mine : t.currentQueue = some i
  · simp only [mine, if_true, and_true, Virtqueue.ringAddr_setRingAddr]
  · simp only [mine, if_false, and_false]

@[simp] theorem modifyCurrent_device (f : Virtqueue → Virtqueue) : (t.modifyCurrent f).device = t.device := by
  rw [modifyCurrent]
  split <;> rfl

@[simp] theorem modifyCurrent_queueSel (f : Virtqueue → Virtqueue) :
    (t.modifyCurrent f).queueSel = t.queueSel := by
  rw [modifyCurrent]
  split <;> rfl

@[simp] theorem modifyCurrent_latch (f : Virtqueue → Virtqueue) (kind : RingKind) :
    (t.modifyCurrent f).latch kind = t.latch kind := by
  rw [modifyCurrent]
  split <;> cases kind <;> rfl

theorem currentQueue_eq_some_iff {i : Fin maxQueues} :
    t.currentQueue = some i ↔ t.queueSel.toNat = i ∧ i < (VirtioDevice.numQueues t.device).toNat := by
  rw [currentQueue, queueIndex]
  split_ifs with inside
  · rw [Option.some.injEq, Fin.ext_iff]
    exact ⟨fun same => ⟨same, same ▸ inside.2⟩, And.left⟩
  · simp only [false_iff]
    rintro ⟨same, bound⟩
    exact inside ⟨same ▸ i.isLt, same ▸ bound⟩

end VirtioMmioTransport

/-! ## What the driver has written -/

/-- A write to QUEUE_SEL or to a half of a ring address. -/
inductive SetupWrite where
  | select (queue : U32)
  | half (kind : RingKind) (part : Half) (val : U32)

namespace SetupWrite

def reg : SetupWrite → MmioReg
  | select _ => .queueSel
  | half kind part _ => .ringHalf kind part

def val : SetupWrite → U32
  | select queue => queue
  | half _ _ val => val

/-- The queue that is selected after the writes, the newest of which comes first. -/
def selectedQueue : List SetupWrite → U32
  | [] => 0
  | select queue :: _ => queue
  | half .. :: earlier => selectedQueue earlier

/-- The last value written to half of an address while queue `i` was selected. -/
def lastWritten (i : Fin maxQueues) (kind : RingKind) (part : Half) : List SetupWrite → U32
  | [] => 0
  | select _ :: earlier => lastWritten i kind part earlier
  | half ring written val :: earlier =>
      if ring = kind ∧ written = part ∧ (selectedQueue earlier).toNat = i then val
      else lastWritten i kind part earlier

/-- The last high half written since a queue was selected. -/
def highSinceSelect (kind : RingKind) : List SetupWrite → U32
  | [] => 0
  | select _ :: _ => 0
  | half ring part val :: earlier =>
      if ring = kind ∧ part = .high then val else highSinceSelect kind earlier

/-- Of the two halves of the address the high one was written last, or the low one when the last high
half for queue `i` was not older than the selection of the queue. -/
def HighKept (i : Fin maxQueues) (kind : RingKind) : List SetupWrite → Prop
  | [] => True
  | select _ :: earlier => HighKept i kind earlier
  | half ring part _ :: earlier =>
      if ring = kind ∧ (selectedQueue earlier).toNat = i then
        part = .low → highSinceSelect kind earlier = lastWritten i kind .high earlier
      else HighKept i kind earlier

/-- The high half that was joined with a low half, or written, last. -/
def highInUse (i : Fin maxQueues) (kind : RingKind) : List SetupWrite → U32
  | [] => 0
  | select _ :: earlier => highInUse i kind earlier
  | half ring part val :: earlier =>
      if ring = kind ∧ (selectedQueue earlier).toNat = i then
        if part = .high then val else highSinceSelect kind earlier
      else highInUse i kind earlier

theorem highInUse_eq_iff (i : Fin maxQueues) (kind : RingKind) (writes : List SetupWrite) :
    highInUse i kind writes = lastWritten i kind .high writes ↔ HighKept i kind writes := by
  induction writes with
  | nil => simp [highInUse, lastWritten, HighKept]
  | cons write earlier ih =>
    cases write with
    | select queue => exact ih
    | half ring part val =>
      simp only [highInUse, lastWritten, HighKept]
      by_cases mine : ring = kind ∧ (selectedQueue earlier).toNat = i
      · cases part <;> simp [mine]
      · have others : ¬(ring = kind ∧ part = .high ∧ (selectedQueue earlier).toNat = i) :=
          fun all => mine ⟨all.1, all.2.2⟩
        rw [if_neg mine, if_neg others, if_neg mine, ih]

end SetupWrite

/-! ## Ring addresses -/

namespace VirtioMmioTransport

open SetupWrite

variable {D : Type} [VirtioDevice D] {t : VirtioMmioTransport D} {fuel : ℕ} {env : VirtioEnv}
  {device : D} {writes : List SetupWrite}

/-- The transport after the writes, the newest of which comes first. -/
def setUp (fuel : ℕ) (t : VirtioMmioTransport D) (env : VirtioEnv) :
    List SetupWrite → Except VirtioStop (VirtioMmioTransport D × VirtioEnv)
  | [] => .ok (t, env)
  | write :: earlier => do
      let (t, env) ← t.setUp fuel env earlier
      t.write fuel env write.reg.offset (write.val.setWidth 64) 4

/-- What the writes leave in the registers and in the queues of the device. -/
structure SetUpBy (t : VirtioMmioTransport D) (device : D) (writes : List SetupWrite) : Prop where
  device_eq : t.device = device
  queueSel : t.queueSel = selectedQueue writes
  latch : ∀ kind, t.latch kind = highSinceSelect kind writes
  ringAddr : ∀ i : Fin maxQueues, i < (VirtioDevice.numQueues device).toNat → ∀ kind,
    (t.queues i).ringAddr kind = joinHalves (lastWritten i kind .low writes) (highInUse i kind writes)

theorem setUpBy_new (base : U64) (device : D) (irqIntid : U32) :
    (new base device irqIntid).SetUpBy device [] where
  device_eq := rfl
  queueSel := rfl
  latch kind := by cases kind <;> rfl
  ringAddr _ _ kind := by
    have zero : joinHalves 0 0 = 0 := by decide
    cases kind <;> exact zero.symm

theorem SetUpBy.currentQueue_iff (setup : t.SetUpBy device writes) {i : Fin maxQueues}
    (bound : i < (VirtioDevice.numQueues device).toNat) :
    t.currentQueue = some i ↔ (selectedQueue writes).toNat = i := by
  rw [currentQueue_eq_some_iff, setup.queueSel, setup.device_eq]
  exact and_iff_left bound

theorem SetUpBy.select (setup : t.SetUpBy device writes) (queue : U32) :
    ∃ t', t.writeReg fuel env queue .queueSel = .ok (t', env) ∧ t'.SetUpBy device (.select queue :: writes) := by
  refine ⟨_, rfl, setup.device_eq, rfl, fun kind => ?_, setup.ringAddr⟩
  cases kind <;> rfl

theorem SetUpBy.low (setup : t.SetUpBy device writes) (kind : RingKind) (val : U32) :
    ∃ t', t.writeReg fuel env val (.ringHalf kind .low) = .ok (t', env) ∧
      t'.SetUpBy device (.half kind .low val :: writes) := by
  refine ⟨_, writeReg_low val kind, ?_, ?_, fun ring => ?_, fun i bound ring => ?_⟩
  · rw [modifyCurrent_device, setup.device_eq]
  · rw [modifyCurrent_queueSel, setup.queueSel, selectedQueue]
  · simp [setup.latch, highSinceSelect]
  · rw [ringAddr_modifyCurrent, setup.latch]
    simp only [setup.currentQueue_iff bound, lastWritten, highInUse, true_and, reduceCtorEq, if_false]
    split_ifs with mine
    · rw [mine.1]
    · exact setup.ringAddr i bound ring

theorem SetUpBy.high (setup : t.SetUpBy device writes) (kind : RingKind) (val : U32) :
    ∃ t', t.writeReg fuel env val (.ringHalf kind .high) = .ok (t', env) ∧
      t'.SetUpBy device (.half kind .high val :: writes) := by
  refine ⟨_, writeReg_high val kind, ?_, ?_, fun ring => ?_, fun i bound ring => ?_⟩
  · rw [modifyCurrent_device, setLatch_device, setup.device_eq]
  · rw [modifyCurrent_queueSel, setLatch_queueSel, setup.queueSel, selectedQueue]
  · simp [latch_setLatch, setup.latch, highSinceSelect]
  · have latched : (t.setLatch val kind).currentQueue = t.currentQueue := by
      simp only [currentQueue, queueIndex, setLatch_queueSel, setLatch_device]
    rw [ringAddr_modifyCurrent, latched, setLatch_queues]
    simp only [setup.currentQueue_iff bound, lastWritten, highInUse, reduceCtorEq, false_and, and_false, if_false,
      if_true]
    split_ifs with mine
    · rw [setup.ringAddr i bound kind, joinHalves_low, mine.1]
    · exact setup.ringAddr i bound ring

theorem setUp_setUpBy (base : U64) (device : D) (irqIntid : U32) (fuel : ℕ) (env : VirtioEnv)
    (writes : List SetupWrite) :
    ∃ t, (new base device irqIntid).setUp fuel env writes = .ok (t, env) ∧ t.SetUpBy device writes := by
  induction writes with
  | nil => exact ⟨_, rfl, setUpBy_new base device irqIntid⟩
  | cons write earlier ih =>
    obtain ⟨t, run, setup⟩ := ih
    have value : (write.val.setWidth 64 : U64).setWidth 32 = write.val := by simp
    simp only [setUp, run, write_reg, value, Except.bind, bind]
    cases write with
    | select queue => exact setup.select queue
    | half kind part val =>
      cases part with
      | low => exact setup.low kind val
      | high => exact setup.high kind val

/-- A ring has the address made of the halves last written while its queue was selected, exactly if
a low half came last only when the high half was not older than the selection of the queue. -/
theorem ring_address_iff (base : U64) (device : D) (irqIntid : U32) (fuel : ℕ) (env : VirtioEnv)
    (writes : List SetupWrite) :
    ∃ t, (new base device irqIntid).setUp fuel env writes = .ok (t, env) ∧
      ∀ i : Fin maxQueues, i < (VirtioDevice.numQueues device).toNat → ∀ kind,
        (((t.queues i).ringAddr kind).toNat =
          (lastWritten i kind .high writes).toNat * 2 ^ 32 + (lastWritten i kind .low writes).toNat ↔
            HighKept i kind writes) := by
  obtain ⟨t, run, setup⟩ := setUp_setUpBy base device irqIntid fuel env writes
  refine ⟨t, run, fun i bound kind => ?_⟩
  rw [setup.ringAddr i bound kind, joinHalves_toNat, ← highInUse_eq_iff, Nat.add_right_cancel_iff,
    Nat.mul_left_inj (by decide), BitVec.toNat_inj]

/-- The driver writes a high half for queue 0, looks at queue 1 and comes back for the low half: the
ring gets no high half. -/
theorem reselected_queue_loses_high : ∃ (writes : List SetupWrite) (t : VirtioMmioTransport VirtioNet),
    (new 0x0A000200 (.new 0) 49).setUp 0 { ram := fun _ => 0 } writes = .ok (t, { ram := fun _ => 0 }) ∧
      (t.queues 0).ringAddr .desc = 0x5000 ∧
      lastWritten 0 .desc .high writes = 1 ∧ lastWritten 0 .desc .low writes = 0x5000 ∧
      ((t.queues 0).ringAddr .desc).toNat ≠
        (lastWritten 0 .desc .high writes).toNat * 2 ^ 32 + (lastWritten 0 .desc .low writes).toNat :=
  ⟨[.half .desc .low 0x5000, .select 0, .select 1, .half .desc .high 1, .select 0], _, rfl, by decide, rfl, rfl,
    by decide⟩

end VirtioMmioTransport

/-! ## Reset -/

namespace VirtioMmioTransport

variable {D : Type} {t t' : VirtioMmioTransport D} {fuel : ℕ} {env env' : VirtioEnv}

/-- The latches and the generation of the configuration are all that a reset forgets. -/
theorem reset_eq_new (generation : t.configGeneration = 0) (clear : ∀ kind, t.latch kind = 0) :
    t.reset = new t.base t.device t.irqIntid := by
  have desc : t.queueDescHigh = 0 := clear .desc
  have driver : t.queueDriverHigh = 0 := clear .driver
  have device : t.queueDeviceHigh = 0 := clear .device
  rw [reset, new, generation, desc, driver, device]
  rfl

variable [VirtioDevice D]

theorem modifyCurrent_configGeneration (f : Virtqueue → Virtqueue) :
    (t.modifyCurrent f).configGeneration = t.configGeneration := by
  rw [modifyCurrent]
  split <;> rfl

theorem writeReg_configGeneration {val : U32} {reg : MmioReg}
    (run : t.writeReg fuel env val reg = .ok (t', env')) : t'.configGeneration = t.configGeneration := by
  cases reg with
  | queueNotify =>
    obtain rfl | ⟨_, _, _, _, _, -, -, rfl⟩ := notify_ok run <;> rfl
  | status =>
    cases run
    split_ifs <;> rfl
  | queueNum | queueReady | queueDescLow | queueDescHigh | queueDriverLow | queueDriverHigh | queueDeviceLow
  | queueDeviceHigh =>
    cases run
    exact modifyCurrent_configGeneration _
  | _ =>
    cases run
    rfl

theorem write_configGeneration {offset value : U64} {size : U8}
    (run : t.write fuel env offset value size = .ok (t', env')) : t'.configGeneration = t.configGeneration := by
  rw [write] at run
  split_ifs at run
  · cases run
    rfl
  · cases run
    rfl
  · split at run
    · exact writeReg_configGeneration run
    · cases run
      rfl

/-- A low half for the first queue is joined with what the latch holds. -/
theorem ringAddr_first (first : t.queueSel = 0) (queues : 0 < (VirtioDevice.numQueues t.device).toNat)
    (low : U32) (kind : RingKind) :
    ((t.modifyCurrent fun q => q.setRingAddr low (t.latch kind) kind).queues 0).ringAddr kind =
      joinHalves low (t.latch kind) := by
  have current : t.currentQueue = some 0 := by
    rw [currentQueue_eq_some_iff, first]
    exact ⟨rfl, queues⟩
  rw [ringAddr_modifyCurrent, if_pos ⟨rfl, current⟩]

/-- Only a notification of a queue involves the device, so every other write returns. -/
theorem write_of_quiet {offset value : U64} {size : U8} (quiet : ¬(offset = MmioReg.queueNotify.offset ∧ size = 4)) :
    ∃ t', t.write fuel env offset value size = .ok (t', env) := by
  rw [write]
  split_ifs with config width
  · exact ⟨_, rfl⟩
  · exact ⟨_, rfl⟩
  · split
    · next reg decoded =>
      cases reg with
      | queueNotify => exact absurd ⟨MmioReg.offset_of_ofOffset decoded, not_not.mp width⟩ quiet
      | _ => exact ⟨_, rfl⟩
    · exact ⟨_, rfl⟩

end VirtioMmioTransport

/-- The guest reads or writes a register and does not notify a queue. -/
def VirtioAccess.Quiet : VirtioAccess → Prop
  | .read _ _ => True
  | .write offset _ size => ¬(offset = MmioReg.queueNotify.offset ∧ size = 4)
  | .injectRx _ => False

namespace VirtioTransport

variable {d d' : VirtioTransport} {fuel : ℕ} {env env' : VirtioEnv} {access : VirtioAccess}

def configGeneration : VirtioTransport → U32
  | .blk t => t.configGeneration
  | .net t => t.configGeneration

def queueSel : VirtioTransport → U32
  | .blk t => t.queueSel
  | .net t => t.queueSel

/-- The register that keeps the high half of an address. -/
def latch : VirtioTransport → RingKind → U32
  | .blk t => t.latch
  | .net t => t.latch

/-- A new transport with the same device. -/
def renewed : VirtioTransport → VirtioTransport
  | .blk t => .blk (.new t.base t.device t.irqIntid)
  | .net t => .net (.new t.base t.device t.irqIntid)

/-- What a read returns. -/
def answer : VirtioTransport → VirtioAccess → Option U64
  | .blk t, .read offset size => some (t.read offset size)
  | .net t, .read offset size => some (t.read offset size)
  | _, _ => none

/-- The answers to the accesses, and the transport after them. -/
def respond (fuel : ℕ) : VirtioEnv → VirtioTransport → List VirtioAccess →
    Except VirtioStop (List (Option U64) × VirtioTransport)
  | _, d, [] => .ok ([], d)
  | env, d, access :: rest => do
      let (next, env) ← d.step fuel env access
      let (answers, last) ← respond fuel env next rest
      return (d.answer access :: answers, last)

/-- Without notifications the guest sees no difference between the transports, and sets up the same
queues on both. -/
def Alike (d d' : VirtioTransport) : Prop :=
  ∀ (fuel : ℕ) (env : VirtioEnv) (accesses : List VirtioAccess), (∀ access ∈ accesses, access.Quiet) →
    ∃ answers last last', d.respond fuel env accesses = .ok (answers, last) ∧
      d'.respond fuel env accesses = .ok (answers, last') ∧ last.queue = last'.queue

theorem step_configGeneration (next : d.step fuel env access = .ok (d', env')) :
    d'.configGeneration = d.configGeneration := by
  obtain rfl | ⟨t, t', _, _, _, rfl, rfl, -, run⟩ | ⟨t, t', _, _, _, rfl, rfl, -, run⟩ |
    ⟨t, t', _, _, rfl, rfl, run⟩ := step_ok next
  · rfl
  · exact VirtioMmioTransport.write_configGeneration run
  · exact VirtioMmioTransport.write_configGeneration run
  · obtain rfl | ⟨_, rfl⟩ := VirtioMmioTransport.injectRx_ok run <;> rfl

theorem Run.configGeneration {allowed : VirtioTransport → VirtioAccess → Prop} (run : Run allowed d) :
    d.configGeneration = 0 := by
  induction run with
  | blk | net => rfl
  | step _ _ next ih => exact (step_configGeneration next).trans ih

theorem step_of_quiet (quiet : access.Quiet) : ∃ d', d.step fuel env access = .ok (d', env) := by
  cases access with
  | read => cases d <;> exact ⟨_, rfl⟩
  | write offset value size =>
    cases d with
    | blk t =>
      obtain ⟨t', run⟩ := t.write_of_quiet quiet
      exact ⟨.blk t', bind_eq_ok_iff.mpr ⟨_, run, rfl⟩⟩
    | net t =>
      obtain ⟨t', run⟩ := t.write_of_quiet quiet
      exact ⟨.net t', bind_eq_ok_iff.mpr ⟨_, run, rfl⟩⟩
  | injectRx frame => exact quiet.elim

theorem alike_refl (d : VirtioTransport) : d.Alike d := by
  intro fuel env accesses quiet
  induction accesses generalizing d with
  | nil => exact ⟨_, _, _, rfl, rfl, rfl⟩
  | cons access rest ih =>
    obtain ⟨next, stepped⟩ := @step_of_quiet d fuel env access (quiet access List.mem_cons_self)
    obtain ⟨answers, last, last', run, _⟩ := ih next fun later member => quiet later (List.mem_cons_of_mem _ member)
    have whole : d.respond fuel env (access :: rest) = .ok (d.answer access :: answers, last) := by
      simp only [respond, stepped, run, bind, Except.bind, pure, Except.pure]
    exact ⟨_, _, _, whole, whole, rfl⟩

theorem respond_low (d : VirtioTransport) (first : d.queueSel = 0) (kind : RingKind) :
    ∃ last, d.respond fuel env [writeTo (.ringHalf kind .low) 0] = .ok ([none], last) ∧
      (last.queue 0).ringAddr kind = joinHalves 0 (d.latch kind) := by
  cases d with
  | blk t =>
    refine ⟨.blk (t.modifyCurrent fun q => q.setRingAddr 0 (t.latch kind) kind), ?_,
      t.ringAddr_first first Nat.one_pos 0 kind⟩
    simp only [respond, step, writeTo, VirtioMmioTransport.write_reg, VirtioMmioTransport.writeReg_low]
    rfl
  | net t =>
    refine ⟨.net (t.modifyCurrent fun q => q.setRingAddr 0 (t.latch kind) kind), ?_,
      t.ringAddr_first first Nat.two_pos 0 kind⟩
    simp only [respond, step, writeTo, VirtioMmioTransport.write_reg, VirtioMmioTransport.writeReg_low]
    rfl

/-- Transports that behave alike have the same high halves latched. -/
theorem Alike.latch (alike : d.Alike d') (first : d.queueSel = 0) (first' : d'.queueSel = 0) (kind : RingKind) :
    d.latch kind = d'.latch kind := by
  have quiet : ∀ access ∈ [writeTo (.ringHalf kind .low) 0], access.Quiet := by
    cases kind <;> simp [writeTo, VirtioAccess.Quiet, MmioReg.ringHalf, MmioReg.offset]
  obtain ⟨answers, last, last', run, run', same⟩ := alike 0 oneEntry _ quiet
  obtain ⟨_, low, joined⟩ := d.respond_low first kind
  obtain ⟨_, low', joined'⟩ := d'.respond_low first' kind
  cases low.symm.trans run
  cases low'.symm.trans run'
  rw [same, joined'] at joined
  exact (joinHalves_high joined).symm

/-- The transport after a reset. -/
def reset : VirtioTransport → VirtioTransport
  | .blk t => .blk t.reset
  | .net t => .net t.reset

theorem step_reset {value : U64} (zero : value.setWidth 32 = (0 : U32)) :
    d.step fuel env (writeTo .status value) = .ok (d.reset, env) := by
  cases d <;>
    simp only [step, writeTo, VirtioMmioTransport.write_reg, zero, VirtioMmioTransport.writeReg] <;> rfl

theorem reset_eq_renewed (generation : d.configGeneration = 0) (clear : ∀ kind, d.latch kind = 0) :
    d.reset = d.renewed := by
  cases d with
  | blk t => exact congrArg _ (VirtioMmioTransport.reset_eq_new generation clear)
  | net t => exact congrArg _ (VirtioMmioTransport.reset_eq_new generation clear)

/-- A reset leaves a transport that behaves as a new one exactly if no high half is latched. -/
theorem reset_fresh_iff (d : VirtioTransport) (run : Run (fun _ _ => True) d) (fuel : ℕ) (env : VirtioEnv)
    (value : U64) (zero : value.setWidth 32 = (0 : U32)) :
    ∃ d', d.step fuel env (writeTo .status value) = .ok (d', env) ∧
      (d'.Alike d.renewed ↔ ∀ kind, d.latch kind = 0) := by
  refine ⟨d.reset, step_reset zero, fun alike kind => ?_, fun clear => ?_⟩
  · have latched : d.reset.latch kind = d.renewed.latch kind :=
      alike.latch (by cases d <;> rfl) (by cases d <;> rfl) kind
    cases d <;> cases kind <;> exact latched
  · rw [reset_eq_renewed run.configGeneration clear]
    exact alike_refl _

/-- The driver writes a high half and then selects a queue, which clears it. -/
theorem reset_fresh_selected : ∃ d d', Run (fun _ _ => True) d ∧
    d.step 0 oneEntry (writeTo .status 0) = .ok (d', oneEntry) ∧ d'.Alike d.renewed := by
  have high := @Run.step (fun _ _ => True) newDisk _ 0 oneEntry _ (writeTo .queueDescHigh 1) (.blk ..) trivial rfl
  have select := @Run.step (fun _ _ => True) _ _ 0 oneEntry _ (writeTo .queueSel 0) high trivial rfl
  obtain ⟨d', reset, fresh⟩ := reset_fresh_iff _ select 0 oneEntry 0 rfl
  exact ⟨_, d', select, reset, fresh.mpr fun kind => by cases kind <;> rfl⟩

/-- A high half that was written before the reset is joined with a low half written after it. -/
theorem high_half_survives_reset : ∃ d d', Run (fun _ _ => True) d ∧
    d.step 0 oneEntry (writeTo .status 0) = .ok (d', oneEntry) ∧ ¬d'.Alike d.renewed := by
  have high := @Run.step (fun _ _ => True) newDisk _ 0 oneEntry _ (writeTo .queueDescHigh 1) (.blk ..) trivial rfl
  refine ⟨_, _, high, rfl, fun alike => ?_⟩
  obtain ⟨answers, last, last', run, run', same⟩ := alike 0 oneEntry [writeTo .queueDescLow 0x5000]
    (by simp [writeTo, VirtioAccess.Quiet, MmioReg.offset])
  cases run
  cases run'
  have stale := congrArg (fun queues => (queues 0).descAddr) same
  exact absurd stale (by decide)

end VirtioTransport

end Hypervisor
