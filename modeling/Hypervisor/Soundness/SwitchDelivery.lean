import Hypervisor.Model.VSwitch
import Hypervisor.Ring.Basic

/-! # Delivery by the switch

A port receives the frames of other ports that are for it: broadcast and multicast frames, frames to an
address that the table has with this port, and frames to an address that it does not have. They come out
of its ring as they went in and in the same order, and only those are lost that find the ring full
(`switch_delivery`).
-/

namespace Hypervisor

/-! ## Rings of frames -/

namespace FrameSlot

/-- The frame in the slot. -/
def frame (slot : FrameSlot) : List U8 := slot.bytes slot.len.toNat slot.fits

@[simp] theorem length_bytes (slot : FrameSlot) {n : ℕ} (fits : n ≤ maxFrameSize) :
    (slot.bytes n fits).length = n := List.length_ofFn

theorem bytes_congr (slot : FrameSlot) {n m : ℕ} {fits : n ≤ maxFrameSize} {fits' : m ≤ maxFrameSize}
    (same : n = m) : slot.bytes n fits = slot.bytes m fits' := by
  subst same
  rfl

theorem frame_write (slot : FrameSlot) {frame : List U8} (fits : frame.length ≤ maxFrameSize) :
    (slot.write frame fits).frame = frame := by
  have len : (slot.write frame fits).len.toNat = frame.length := by
    rw [maxFrameSize] at fits
    exact Nat.mod_eq_of_lt (by omega)
  apply List.ext_getElem
  · rw [FrameSlot.frame, length_bytes, len]
  · intro i _ inside
    simp only [FrameSlot.frame, bytes, List.getElem_ofFn]
    change frame[i]?.getD _ = _
    rw [List.getElem?_eq_getElem inside, Option.getD_some]

end FrameSlot

namespace NetRxRing

variable {ring : NetRxRing} {frame : List U8} {frames : List (List U8)}

/-- The frame in a slot, by any number that is the slot's modulo the size of the ring. -/
def cell (ring : NetRxRing) (i : ℕ) : List U8 :=
  (ring.frames ⟨i % netRxRingSize, Nat.mod_lt _ (Nat.succ_pos _)⟩).frame

/-- The number of frames in the ring. -/
def held (ring : NetRxRing) : ℕ := (ring.tail + netRxRingSize - ring.head) % netRxRingSize

/-- The frames in the ring, the oldest first. -/
def contents (ring : NetRxRing) : List (List U8) := Ring.read ring.cell netRxRingSize ring.head ring.held

/-- The ring holds these frames. -/
structure Queued (ring : NetRxRing) (frames : List (List U8)) : Prop where
  room : frames.length < netRxRingSize
  tail : (ring.tail : ℕ) = (ring.head + frames.length) % netRxRingSize
  cells : Ring.Holds ring.cell netRxRingSize ring.head frames

theorem queued_contents (ring : NetRxRing) : ring.Queued ring.contents := by
  have head : (ring.head : ℕ) < 9 := ring.head.isLt
  have tail : (ring.tail : ℕ) < 9 := ring.tail.isLt
  refine ⟨?_, ?_, Ring.holds_iff_eq_read.mpr ?_⟩
  · rw [contents, Ring.length_read]
    exact Nat.mod_lt _ (Nat.succ_pos _)
  · simp only [contents, Ring.length_read, held, netRxRingSize]
    omega
  · rw [contents, Ring.length_read]

theorem Queued.length (queued : ring.Queued frames) : frames.length = ring.held := by
  have room : frames.length < 9 := queued.room
  have head : (ring.head : ℕ) < 9 := ring.head.isLt
  simp only [held, queued.tail, netRxRingSize]
  omega

theorem Queued.contents_eq (queued : ring.Queued frames) : ring.contents = frames := by
  rw [contents, ← queued.length]
  exact (Ring.holds_iff_eq_read.mp queued.cells).symm

theorem length_contents (ring : NetRxRing) : ring.contents.length = ring.held := Ring.length_read _

theorem contents_new : new.contents = [] := List.length_eq_zero_iff.mp (length_contents _)

theorem next_tail_eq_head_iff (ring : NetRxRing) : next ring.tail = ring.head ↔ ring.held = 8 := by
  have head : (ring.head : ℕ) < 9 := ring.head.isLt
  have tail : (ring.tail : ℕ) < 9 := ring.tail.isLt
  simp only [next, Fin.ext_iff, held, netRxRingSize]
  omega

theorem head_eq_tail_iff (ring : NetRxRing) : ring.head = ring.tail ↔ ring.held = 0 := by
  have head : (ring.head : ℕ) < 9 := ring.head.isLt
  have tail : (ring.tail : ℕ) < 9 := ring.tail.isLt
  simp only [Fin.ext_iff, held, netRxRingSize]
  omega

/-- Only the cell of the slot changes when a frame is written to it. -/
theorem cell_update (ring : NetRxRing) {i : Fin netRxRingSize} {slot : FrameSlot} {j : ℕ} (bound : j < netRxRingSize) :
    cell { ring with frames := Function.update ring.frames i slot } j =
      Function.update ring.cell i slot.frame j := by
  simp only [cell, Function.update_apply, Fin.ext_iff, Nat.mod_eq_of_lt bound]
  split_ifs <;> rfl

/-- A frame is stored behind the others unless the ring holds eight frames. -/
theorem contents_store (ring : NetRxRing) (positive : 0 < frame.length) (fits : frame.length ≤ maxFrameSize) :
    (ring.store frame).2.contents = if ring.held = 8 then ring.contents else ring.contents ++ [frame] := by
  rw [store, dif_neg (by omega)]
  simp only [next_tail_eq_head_iff]
  split_ifs with full
  · rfl
  · apply Queued.contents_eq
    have queued := ring.queued_contents
    have room : ring.contents.length < 9 := queued.room
    rw [← ring.length_contents] at full
    refine ⟨?_, ?_, ?_⟩
    · rw [List.length_append, List.length_singleton]
      exact (by omega : ring.contents.length + 1 < 9)
    · simp only [next, queued.tail, List.length_append, List.length_singleton, netRxRingSize]
      omega
    · have stored := queued.cells.concat (x := frame) queued.room
      rw [← queued.tail] at stored
      refine stored.congr (Nat.succ_pos _) fun j bound => ?_
      exact (ring.cell_update bound).trans (by rw [FrameSlot.frame_write])

theorem take_of_contents_nil (empty : ring.contents = []) (buf : List U8) : ring.take buf = (none, buf, ring) := by
  rw [take, if_pos]
  rw [head_eq_tail_iff, ← length_contents, empty, List.length_nil]

theorem Queued.head_frame (queued : ring.Queued (frame :: frames)) : (ring.frames ring.head).frame = frame := by
  have first := queued.cells.head
  simp only [cell, Nat.mod_eq_of_lt ring.head.isLt] at first
  exact first

theorem Queued.advance (queued : ring.Queued (frame :: frames)) :
    ({ ring with head := next ring.head } : NetRxRing).Queued frames := by
  obtain ⟨room, tail, cells⟩ := queued
  rw [List.length_cons] at room tail
  refine ⟨Nat.lt_of_succ_lt room, ?_, (Ring.holds_mod dvd_rfl).mpr cells.tail⟩
  rw [tail]
  simp only [next, netRxRingSize]
  omega

/-- The oldest frame is taken, if the buffer has room for it. -/
theorem take_of_contents_cons (oldest : ring.contents = frame :: frames) {buf : List U8}
    (room : maxFrameSize ≤ buf.length) :
    ∃ buf' ring', ring.take buf = (some frame.length, buf', ring') ∧ buf'.take frame.length = frame ∧
      ring'.contents = frames := by
  have queued : ring.Queued (frame :: frames) := oldest ▸ ring.queued_contents
  have nonempty : ring.head ≠ ring.tail := by
    rw [Ne, head_eq_tail_iff, ← length_contents, oldest, List.length_cons]
    exact Nat.succ_ne_zero _
  have len : (ring.frames ring.head).len.toNat = frame.length := by
    rw [← queued.head_frame, FrameSlot.frame, FrameSlot.length_bytes]
  have whole : min (ring.frames ring.head).len.toNat buf.length = (ring.frames ring.head).len.toNat :=
    Nat.min_eq_left (Nat.le_trans (ring.frames ring.head).fits room)
  have copied : (ring.frames ring.head).bytes _ (Nat.le_trans (Nat.min_le_left _ _) (ring.frames ring.head).fits) =
      frame := (FrameSlot.bytes_congr _ whole).trans queued.head_frame
  refine ⟨frame ++ buf.drop frame.length, _, ?_, List.take_left, queued.advance.contents_eq⟩
  rw [take, if_neg nonempty]
  dsimp only
  rw [copied, whole, len]

end NetRxRing

/-! ## Forwarding -/

/-- An Ethernet frame without jumbo size. -/
structure EthFrame where
  bytes : List U8
  header : 14 ≤ bytes.length
  fits : bytes.length ≤ maxFrameSize

namespace VSwitch

variable {switch : VSwitch} {ports : PortRx} {mac : List U8}

/-- The table names ports that exist. -/
def PortsExist (switch : VSwitch) : Prop := ∀ entry ∈ switch.macTable, entry.valid → entry.portId < maxPorts

theorem portsExist_new : new.PortsExist := by
  intro entry member valid
  rw [List.eq_of_mem_replicate member] at valid
  cases valid

/-- Learning changes no entry but to the port that is learned. -/
theorem mem_learn {port : ℕ} {entry : MacEntry} (member : entry ∈ (switch.learn mac port).macTable) :
    entry ∈ switch.macTable ∨ entry.portId = port := by
  rw [learn] at member
  split at member
  · obtain ⟨j, here⟩ := List.mem_iff_getElem?.mp member
    rw [List.getElem?_modify] at here
    obtain ⟨old, there, rfl⟩ := Option.map_eq_some_iff.mp here
    split_ifs
    · exact .inr rfl
    · exact .inl (List.mem_of_getElem? there)
  · split_ifs at member
    · split at member
      · rcases List.mem_or_eq_of_mem_set member with old | rfl
        · exact .inl old
        · exact .inr rfl
      · exact .inl member
    · exact .inl member

theorem PortsExist.learn (exist : switch.PortsExist) {port : ℕ} (bound : port < maxPorts) :
    (switch.learn mac port).PortsExist := by
  intro entry member valid
  rcases mem_learn member with old | rfl
  · exact exist entry old valid
  · exact bound

theorem PortsExist.lookup (exist : switch.PortsExist) {port : ℕ} (found : switch.lookup mac = some port) :
    port < maxPorts := by
  obtain ⟨entry, hit, rfl⟩ := Option.map_eq_some_iff.mp found
  have isFor := List.find?_eq_some_iff_append.mp hit |>.1
  exact exist entry (List.mem_of_find?_eq_some hit) (Bool.and_eq_true_iff.mp isFor).1

/-- The entry for the destination of a frame, after the switch has learned its source. -/
def dstEntry (switch : VSwitch) (srcPort : ℕ) (frame : List U8) : Option ℕ :=
  (switch.learn (srcMac frame) srcPort).lookup (dstMac frame)

/-- The frame is for this port. -/
def IsFor (switch : VSwitch) (srcPort : ℕ) (frame : List U8) (port : Fin maxPorts) : Prop :=
  (port : ℕ) ≠ srcPort ∧ (isMulticast frame = true ∨ switch.dstEntry srcPort frame = some (port : ℕ) ∨
    switch.dstEntry srcPort frame = none)

instance (srcPort : ℕ) (frame : List U8) : DecidablePred (switch.IsFor srcPort frame) := fun _ =>
  inferInstanceAs (Decidable (_ ∧ _))

/-- A frame is stored in the rings of the ports it is for. -/
theorem forward_eq (exist : switch.PortsExist) {srcPort : ℕ} (bound : srcPort < maxPorts) {frame : List U8}
    (header : 14 ≤ frame.length) :
    switch.forward ports srcPort frame = some (switch.learn (srcMac frame) srcPort, fun port =>
      if switch.IsFor srcPort frame port then ((ports port).store frame).2 else ports port) := by
  rw [forward, if_neg (Nat.not_lt.mpr header)]
  dsimp only
  split_ifs with multicast
  · simp only [IsFor, multicast, true_or, and_true]
    rfl
  · rw [← dstEntry]
    split
    · next dstPort found =>
      have inside := (exist.learn bound).lookup found
      simp only [IsFor, multicast, found, Option.some.injEq, reduceCtorEq, false_or, or_false]
      split_ifs with own
      · have nobody (port : Fin maxPorts) : ¬((port : ℕ) ≠ srcPort ∧ dstPort = port) :=
          fun other => other.1 (other.2.symm.trans own)
        simp only [nobody, if_false]
      · have only (port : Fin maxPorts) : ((port : ℕ) ≠ srcPort ∧ dstPort = port) ↔ port = ⟨dstPort, inside⟩ := by
          rw [Fin.ext_iff]
          exact ⟨fun other => other.2.symm, fun same => ⟨fun src => own (same.symm.trans src), same.symm⟩⟩
        congr 2
        funext port
        rw [Function.update_apply, if_congr (only port) rfl rfl]
        split_ifs with same
        · rw [same]
        · rfl
    · next unknown =>
      simp only [IsFor, unknown, or_true, and_true]
      rfl

end VSwitch

/-! ## Runs of the switch -/

/-- A buffer with room for every frame. -/
structure RxBuffer where
  bytes : List U8
  room : maxFrameSize ≤ bytes.length

/-- The switch with the rings of its ports. -/
structure SwitchState where
  switch : VSwitch := .new
  ports : PortRx := fun _ => .new

inductive SwitchOp where
  | forward (src : Fin maxPorts) (frame : EthFrame)
  | take (port : Fin maxPorts) (buf : RxBuffer)

/-- The frame that is forwarded, and the port it comes from. -/
def SwitchOp.sent? : SwitchOp → Option (Fin maxPorts × EthFrame)
  | forward src frame => some (src, frame)
  | take _ _ => none

/-- A frame that is forwarded, with the states before and after. -/
structure Forwarding where
  before : SwitchState
  src : Fin maxPorts
  frame : EthFrame
  after : SwitchState

namespace Forwarding

def IsFor (f : Forwarding) (port : Fin maxPorts) : Prop := f.before.switch.IsFor f.src f.frame.bytes port

instance (port : Fin maxPorts) : DecidablePred (IsFor · port) := fun f =>
  inferInstanceAs (Decidable (f.before.switch.IsFor f.src f.frame.bytes port))

/-- The ring of the port has a free slot. -/
def hasRoom (port : Fin maxPorts) (f : Forwarding) : Bool := (f.before.ports port).held != 8

/-- The port that sends a frame does not receive it, nor does any port other than that of a destination
in the table. -/
structure Contained (f : Forwarding) : Prop where
  own : f.after.ports f.src = f.before.ports f.src
  known : ∀ dst, VSwitch.isMulticast f.frame.bytes = false →
    f.before.switch.dstEntry f.src f.frame.bytes = some dst →
    ∀ port : Fin maxPorts, (port : ℕ) ≠ dst → f.after.ports port = f.before.ports port

end Forwarding

inductive SwitchEvent where
  | forwarded (f : Forwarding)
  | took (port : Fin maxPorts) (frame : List U8)

namespace SwitchEvent

def forwarding? : SwitchEvent → Option Forwarding
  | forwarded f => some f
  | took _ _ => none

def takenFrom? (port : Fin maxPorts) : SwitchEvent → Option (List U8)
  | forwarded _ => none
  | took other frame => if other = port then some frame else none

end SwitchEvent

namespace SwitchState

/-- The frames taken from a port. -/
def taken (port : Fin maxPorts) (events : List SwitchEvent) : List (List U8) :=
  events.filterMap (SwitchEvent.takenFrom? port)

/-- The frames for a port. -/
def offered (port : Fin maxPorts) (events : List SwitchEvent) : List Forwarding :=
  (events.filterMap SwitchEvent.forwarding?).filter (·.IsFor port)

/-- The frames for a port that found a free slot in its ring. -/
def accepted (port : Fin maxPorts) (events : List SwitchEvent) : List (List U8) :=
  ((offered port events).filter (Forwarding.hasRoom port)).map (·.frame.bytes)

def step (state : SwitchState) : SwitchOp → Option (SwitchState × List SwitchEvent)
  | .forward src frame => do
      let (switch, ports) ← state.switch.forward state.ports src frame.bytes
      return (⟨switch, ports⟩, [.forwarded ⟨state, src, frame, ⟨switch, ports⟩⟩])
  | .take port buf =>
      let (len, buf, ring) := (state.ports port).take buf.bytes
      some ({ state with ports := Function.update state.ports port ring },
        len.toList.map fun len => .took port (buf.take len))

def run : SwitchState → List SwitchOp → Option (SwitchState × List SwitchEvent)
  | state, [] => some (state, [])
  | state, op :: rest => do
      let (next, now) ← state.step op
      let (last, later) ← run next rest
      return (last, now ++ later)

/-- What is taken and what is left in the rings is what was there and what was accepted. -/
structure Accounts (state : SwitchState) (ops : List SwitchOp) (events : List SwitchEvent) (last : SwitchState) :
    Prop where
  exist : last.switch.PortsExist
  sent : (events.filterMap SwitchEvent.forwarding?).map (fun f => (f.src, f.frame)) = ops.filterMap SwitchOp.sent?
  balance : ∀ port, taken port events ++ (last.ports port).contents =
    (state.ports port).contents ++ accepted port events
  contained : ∀ f ∈ events.filterMap SwitchEvent.forwarding?, f.Contained

variable {state next last : SwitchState} {op : SwitchOp} {ops : List SwitchOp} {now later : List SwitchEvent}

theorem accounts_nil (exist : state.switch.PortsExist) (quiet : ops.filterMap SwitchOp.sent? = []) :
    Accounts state ops [] state where
  exist
  sent := quiet.symm
  balance _ := (List.append_nil _).symm
  contained _ member := absurd member List.not_mem_nil

theorem Accounts.cons (first : Accounts state [op] now next) (rest : Accounts next ops later last) :
    Accounts state (op :: ops) (now ++ later) last where
  exist := rest.exist
  sent := by
    rw [List.filterMap_append, List.map_append, first.sent, rest.sent, ← List.filterMap_append]
    rfl
  balance port := by
    have takes : taken port (now ++ later) = taken port now ++ taken port later := List.filterMap_append
    have accepts : accepted port (now ++ later) = accepted port now ++ accepted port later := by
      simp only [accepted, offered, List.filterMap_append, List.filter_append, List.map_append]
    calc taken port (now ++ later) ++ (last.ports port).contents
        = taken port now ++ (taken port later ++ (last.ports port).contents) := by rw [takes, List.append_assoc]
      _ = (taken port now ++ (next.ports port).contents) ++ accepted port later := by
        rw [rest.balance, List.append_assoc]
      _ = (state.ports port).contents ++ accepted port (now ++ later) := by
        rw [first.balance, accepts, List.append_assoc]
  contained f member := by
    rw [List.filterMap_append, List.mem_append] at member
    exact member.elim (first.contained f) (rest.contained f)

theorem accepted_forwarded (f : Forwarding) (port : Fin maxPorts) : accepted port [.forwarded f] =
    if f.IsFor port then if (f.before.ports port).held = 8 then [] else [f.frame.bytes] else [] := by
  have only : [SwitchEvent.forwarded f].filterMap SwitchEvent.forwarding? = [f] := rfl
  have room : f.hasRoom port = !decide ((f.before.ports port).held = 8) := rfl
  rw [accepted, offered, only]
  split_ifs with isFor full
  · simp [room, isFor, full]
  · simp [room, isFor, full]
  · simp [isFor]

/-- The ring of a port gets the frames that are for it. -/
theorem accounts_forward (exist : state.switch.PortsExist) (src : Fin maxPorts) (frame : EthFrame) :
    ∃ next now, state.step (.forward src frame) = some (next, now) ∧
      Accounts state [.forward src frame] now next := by
  refine ⟨_, _, by rw [step, VSwitch.forward_eq exist src.isLt frame.header]; rfl, exist.learn src.isLt, rfl,
    fun port => ?_, fun f member => ?_⟩
  · have positive : 0 < frame.bytes.length := Nat.lt_of_lt_of_le (by decide) frame.header
    rw [accepted_forwarded]
    change NetRxRing.contents (ite _ _ _) = _
    simp only [Forwarding.IsFor]
    split_ifs with isFor full
    · rw [NetRxRing.contents_store _ positive frame.fits, if_pos full, List.append_nil]
    · rw [NetRxRing.contents_store _ positive frame.fits, if_neg full]
    · rw [List.append_nil]
  · obtain rfl := List.mem_singleton.mp member
    refine ⟨if_neg fun isFor => isFor.1 rfl, fun dst unicast found port other => if_neg fun isFor => ?_⟩
    rcases isFor.2 with multicast | same | unknown
    · rw [unicast] at multicast
      cases multicast
    · exact other (Option.some.inj (same.symm.trans found))
    · cases found.symm.trans unknown

/-- Only the ring that a frame is taken from changes. -/
theorem accounts_take (exist : state.switch.PortsExist) (port : Fin maxPorts) (buf : RxBuffer) :
    ∃ next now, state.step (.take port buf) = some (next, now) ∧ Accounts state [.take port buf] now next := by
  cases queued : (state.ports port).contents with
  | nil =>
    refine ⟨state, [], ?_, accounts_nil exist rfl⟩
    rw [step, NetRxRing.take_of_contents_nil queued]
    dsimp only
    rw [Function.update_eq_self]
    rfl
  | cons frame frames =>
    obtain ⟨buf', ring', took, same, left⟩ := NetRxRing.take_of_contents_cons queued buf.room
    refine ⟨{ state with ports := Function.update state.ports port ring' }, [.took port frame], ?_, exist, rfl,
      fun other => ?_, fun f member => absurd member List.not_mem_nil⟩
    · rw [step, took]
      dsimp only [Option.toList, List.map]
      rw [same]
    · change taken other [.took port frame] ++ (Function.update state.ports port ring' other).contents = _ ++ []
      rw [List.append_nil, Function.update_apply]
      split_ifs with mine
      · subst mine
        simp [taken, SwitchEvent.takenFrom?, left, queued]
      · simp [taken, SwitchEvent.takenFrom?, Ne.symm mine]

theorem run_accounts (exist : state.switch.PortsExist) (ops : List SwitchOp) :
    ∃ last events, state.run ops = some (last, events) ∧ Accounts state ops events last := by
  induction ops generalizing state with
  | nil => exact ⟨state, [], rfl, accounts_nil exist rfl⟩
  | cons op rest ih =>
    obtain ⟨next, now, stepped, first⟩ : ∃ next now, state.step op = some (next, now) ∧
        Accounts state [op] now next := by
      cases op with
      | forward src frame => exact accounts_forward exist src frame
      | take port buf => exact accounts_take exist port buf
    obtain ⟨last, later, ran, others⟩ := ih first.exist
    refine ⟨last, now ++ later, ?_, first.cons others⟩
    simp only [run, stepped, ran, Option.bind_eq_bind, Option.bind_some, Option.pure_def]

/-- What a run of the switch delivers. -/
structure Delivers (ops : List SwitchOp) (events : List SwitchEvent) (last : SwitchState) : Prop where
  /-- Every frame is forwarded once, in order. -/
  sent : (events.filterMap SwitchEvent.forwarding?).map (fun f => (f.src, f.frame)) = ops.filterMap SwitchOp.sent?
  /-- The frames taken from a port are among those for it, in the same order. -/
  subsequence : ∀ port, (taken port events).Sublist ((offered port events).map (·.frame.bytes))
  /-- A frame for a port is taken or in its ring, unless the ring held eight frames. -/
  complete : ∀ port, taken port events ++ (last.ports port).contents = accepted port events
  contained : ∀ f ∈ events.filterMap SwitchEvent.forwarding?, f.Contained

/-- Frames are delivered unchanged and in order to the ports that they are for, and to no others; only
a full ring loses frames. -/
theorem switch_delivery (ops : List SwitchOp) :
    ∃ last events, run {} ops = some (last, events) ∧ Delivers ops events last := by
  obtain ⟨last, events, ran, accounts⟩ := @run_accounts {} VSwitch.portsExist_new ops
  have complete (port : Fin maxPorts) : taken port events ++ (last.ports port).contents = accepted port events := by
    rw [accounts.balance port, NetRxRing.contents_new, List.nil_append]
  refine ⟨last, events, ran, accounts.sent, fun port => ?_, complete, accounts.contained⟩
  have among : (accepted port events).Sublist ((offered port events).map (·.frame.bytes)) :=
    List.filter_sublist.map _
  rw [← complete port] at among
  exact (List.sublist_append_left _ _).trans among

end SwitchState

end Hypervisor
