import Hypervisor.Model.Console
import Hypervisor.Ring.Basic
import Hypervisor.Soundness.Progress
import Hypervisor.ToMathlib.Prefix

/-! # Where console input goes

Input is meant for VM 0. The interrupt handler queues the bytes for whoever is scheduled next, and the VM
whose turn it is drains the queue into its own UART. So the bytes reach VM 0, all of them and in order,
exactly if the other VM always finds the queue empty and VM 0 always has room for what is in it.
-/

namespace Hypervisor

/-! ## The queue -/

namespace UartRxRing

variable {ring : UartRxRing} {bytes bytes' : List U8} {ch : U8}

theorem mod_lt_size (i : ℕ) : i % uartRxRingSize < uartRxRingSize := Nat.mod_lt i (Nat.succ_pos 63)

def cell (i : ℕ) : Fin uartRxRingSize := ⟨i % uartRxRingSize, mod_lt_size i⟩

theorem cell_val (i : Fin uartRxRingSize) : cell i.val = i := Fin.ext (Nat.mod_eq_of_lt i.isLt)

def cells (ring : UartRxRing) (i : ℕ) : U8 := ring.buf (cell i)

/-- The bytes in the ring, the oldest one first. -/
structure Contains (ring : UartRxRing) (bytes : List U8) : Prop where
  tail : ring.tail.val = (ring.head.val + bytes.length) % uartRxRingSize
  short : bytes.length < uartRxRingSize
  holds : Ring.Holds ring.cells uartRxRingSize ring.head bytes

/-- The number of bytes, from the indices. -/
def count (ring : UartRxRing) : ℕ := (ring.tail.val + uartRxRingSize - ring.head.val) % uartRxRingSize

theorem contains_new : new.Contains [] := ⟨rfl, by decide, Ring.holds_nil⟩

theorem Contains.count_eq (contains : ring.Contains bytes) : ring.count = bytes.length := by
  have bound := ring.head.isLt
  have short := contains.short
  rw [count, contains.tail]
  simp only [uartRxRingSize] at *
  omega

theorem Contains.unique (contains : ring.Contains bytes) (contains' : ring.Contains bytes') : bytes = bytes' := by
  have same : bytes.length = bytes'.length := contains.count_eq.symm.trans contains'.count_eq
  rw [Ring.holds_iff_eq_read.mp contains.holds, Ring.holds_iff_eq_read.mp contains'.holds, same]

theorem Contains.full_iff (contains : ring.Contains bytes) :
    next ring.tail = ring.head ↔ bytes.length = uartRxRingSize - 1 := by
  have bound := ring.head.isLt
  have short := contains.short
  simp only [Fin.ext_iff, next, contains.tail]
  simp only [uartRxRingSize] at *
  omega

theorem Contains.push (contains : ring.Contains bytes) (room : next ring.tail ≠ ring.head) (ch : U8) :
    (ring.push ch).Contains (bytes ++ [ch]) := by
  have short := contains.short
  have notFull := mt contains.full_iff.mpr room
  have more : bytes.length + 1 < uartRxRingSize := by simp only [uartRxRingSize] at *; omega
  rw [UartRxRing.push, if_neg room]
  refine ⟨?_, ?_, ?_⟩
  · rw [List.length_append, List.length_singleton, ← Nat.add_assoc]
    simp only [next, contains.tail, Nat.mod_add_mod]
  · rwa [List.length_append, List.length_singleton]
  · refine (contains.holds.concat (x := ch) short).congr (by decide) fun slot inside => ?_
    rw [← contains.tail, cells]
    by_cases same : slot = ring.tail.val
    · subst same
      rw [cell_val, Function.update_self]
      exact Function.update_self ..
    · have other : cell slot ≠ ring.tail := by
        intro is
        apply same
        rw [← is]
        exact (Nat.mod_eq_of_lt inside).symm
      rw [Function.update_of_ne same, cells]
      exact Function.update_of_ne other ..

theorem Contains.pop_nil (contains : ring.Contains []) : ring.pop = (none, ring) := by
  have empty : ring.head = ring.tail := by
    apply Fin.ext
    rw [contains.tail, List.length_nil, Nat.add_zero, Nat.mod_eq_of_lt ring.head.isLt]
  rw [pop, if_pos empty]

theorem Contains.pop_cons (contains : ring.Contains (ch :: bytes)) :
    ∃ left, ring.pop = (some ch, left) ∧ left.Contains bytes := by
  have bound := ring.head.isLt
  have short := contains.short
  have tail := contains.tail
  rw [List.length_cons] at short tail
  have nonempty : ring.head ≠ ring.tail := by
    rw [ne_eq, Fin.ext_iff, tail]
    simp only [uartRxRingSize] at *
    omega
  have first : ring.buf ring.head = ch := by
    have here := contains.holds.head
    rwa [Nat.mod_eq_of_lt bound, cells, cell_val] at here
  refine ⟨{ ring with head := next ring.head }, by rw [pop, if_neg nonempty, first], ?_, by omega, ?_⟩
  · simp only [next, tail, uartRxRingSize] at *
    omega
  · exact (Ring.holds_mod (Nat.dvd_refl uartRxRingSize)).mpr contains.holds.tail

end UartRxRing

/-! ## The UARTs -/

namespace VirtualUart

/-- The bytes that a guest has not read yet. -/
def count (uart : VirtualUart) : ℕ := (uart.rxTail.val + rxBufSize - uart.rxHead.val) % rxBufSize

/-- The bytes that it can still receive. -/
def room (uart : VirtualUart) : ℕ := rxBufSize - 1 - uart.count

theorem full_iff (uart : VirtualUart) : next uart.rxTail = uart.rxHead ↔ uart.room = 0 := by
  have := uart.rxHead.isLt
  have := uart.rxTail.isLt
  simp only [Fin.ext_iff, next, room, count, rxBufSize] at *
  omega

theorem room_pushRx (uart : VirtualUart) (ch : U8) : (uart.pushRx ch).room = uart.room - 1 := by
  rw [pushRx]
  split_ifs with full
  · rw [uart.full_iff.mp full]
  · have space := mt uart.full_iff.mpr full
    have := uart.rxHead.isLt
    have := uart.rxTail.isLt
    simp only [next, room, count, rxBufSize] at *
    omega

end VirtualUart

namespace Console

variable {c : Console} {v : VmId} {waiting : List U8}

/-- The bytes that VM `v` can still receive. -/
def room (c : Console) (v : VmId) : ℕ := (c.uarts v).elim 0 VirtualUart.room

/-- One byte is taken if there is room. -/
theorem deliver_spec (c : Console) (v : VmId) (ch : U8) :
    (c.deliver v ch).ring = c.ring ∧ (c.deliver v ch).accepted = c.accepted ∧
      (c.deliver v ch).delivered = Function.update c.delivered v (c.delivered v ++ [ch].take (c.room v)) ∧
      (c.deliver v ch).room v = c.room v - 1 := by
  cases has : c.uarts v with
  | none =>
      have none : c.room v = 0 := by rw [room, has, Option.elim_none]
      have same : c.deliver v ch = c := by rw [deliver, has]
      rw [same, none, List.take_zero, List.append_nil, Function.update_eq_self]
      exact ⟨rfl, rfl, rfl, rfl⟩
  | some uart =>
      have some : c.room v = uart.room := by rw [room, has, Option.elim_some]
      have same : c.deliver v ch = { c with
          uarts := Function.update c.uarts v (.some (uart.pushRx ch))
          delivered := if VirtualUart.next uart.rxTail = uart.rxHead then c.delivered
            else Function.update c.delivered v (c.delivered v ++ [ch]) } := by rw [deliver, has]
      rw [same, some]
      refine ⟨rfl, rfl, ?_, ?_⟩
      · simp only
        split_ifs with full
        · rw [uart.full_iff.mp full, List.take_zero, List.append_nil, Function.update_eq_self]
        · have space := mt uart.full_iff.mpr full
          rw [List.take_of_length_le]
          simp only [List.length_singleton]
          omega
      · simp only [room, Function.update_self, Option.elim_some, uart.room_pushRx]

/-- The ring is emptied, and as many bytes are taken as there is room for. -/
theorem drain_spec (v : VmId) (c : Console) (fuel : ℕ) (contains : c.ring.Contains waiting)
    (enough : waiting.length < fuel) :
    (c.drain v fuel).ring.Contains [] ∧ (c.drain v fuel).accepted = c.accepted ∧
      (c.drain v fuel).delivered = Function.update c.delivered v (c.delivered v ++ waiting.take (c.room v)) := by
  induction waiting generalizing c fuel with
  | nil =>
      obtain ⟨fuel, rfl⟩ := Nat.exists_eq_succ_of_ne_zero (Nat.ne_of_gt enough)
      rw [drain, contains.pop_nil, List.take_nil, List.append_nil, Function.update_eq_self]
      exact ⟨contains, rfl, rfl⟩
  | cons ch rest ih =>
      obtain ⟨fuel, rfl⟩ := Nat.exists_eq_succ_of_ne_zero (Nat.ne_of_gt (Nat.lt_of_le_of_lt (Nat.zero_le _) enough))
      obtain ⟨left, pop, contains'⟩ := contains.pop_cons
      rw [drain, pop]
      obtain ⟨ring, accepted, delivered, room⟩ := deliver_spec { c with ring := left } v ch
      obtain ⟨empty, accepted', delivered'⟩ :=
        ih ({ c with ring := left }.deliver v ch) fuel (by rwa [ring]) (Nat.lt_of_succ_lt_succ enough)
      refine ⟨empty, accepted'.trans accepted, delivered'.trans ?_⟩
      rw [delivered, room, Function.update_idem, Function.update_self, List.append_assoc]
      congr 2
      change [ch].take (c.room v) ++ rest.take (c.room v - 1) = (ch :: rest).take (c.room v)
      cases c.room v <;> simp

/-- Bytes that arrive are queued while there is room. -/
theorem foldl_receive (c : Console) (contains : c.ring.Contains waiting) (bytes : List U8) :
    ∃ stored, (bytes.foldl receive c).ring.Contains (waiting ++ stored) ∧
      (bytes.foldl receive c).accepted = c.accepted ++ stored ∧ (bytes.foldl receive c).delivered = c.delivered := by
  induction bytes generalizing c waiting with
  | nil => exact ⟨[], by rwa [List.append_nil], (List.append_nil _).symm, rfl⟩
  | cons ch rest ih =>
      by_cases full : UartRxRing.next c.ring.tail = c.ring.head
      · have same : c.receive ch = c := by
          simp only [receive, UartRxRing.push, if_pos full]
        rw [List.foldl_cons, same]
        exact ih c contains
      · have ring : (c.receive ch).ring.Contains (waiting ++ [ch]) := contains.push full ch
        have accepted : (c.receive ch).accepted = c.accepted ++ [ch] := if_neg full
        obtain ⟨stored, contains', accepted', delivered⟩ := ih (c.receive ch) ring
        refine ⟨ch :: stored, ?_, ?_, delivered⟩
        · rwa [List.append_assoc] at contains'
        · rw [List.foldl_cons, accepted', accepted, List.append_assoc]
          rfl

theorem foldl_access (c : Console) (v : VmId) (accesses : List UartAccess) :
    (accesses.foldl (access v) c).ring = c.ring ∧ (accesses.foldl (access v) c).accepted = c.accepted ∧
      (accesses.foldl (access v) c).delivered = c.delivered := by
  induction accesses generalizing c with
  | nil => exact ⟨rfl, rfl, rfl⟩
  | cons first rest ih => exact ih (c.access v first)

/-- A turn hands the queue to the VM whose turn it is, and queues what arrives. -/
theorem turn_spec (c : Console) (contains : c.ring.Contains waiting) (v : VmId) (accesses : List UartAccess)
    (bytes : List U8) :
    ∃ stored, (c.turn v accesses bytes).ring.Contains stored ∧ (c.turn v accesses bytes).accepted = c.accepted ++ stored ∧
      (c.turn v accesses bytes).delivered =
        Function.update c.delivered v (c.delivered v ++ waiting.take (c.room v)) := by
  obtain ⟨empty, accepted, delivered⟩ := drain_spec v c uartRxRingSize contains contains.short
  obtain ⟨ring', accepted', delivered'⟩ := foldl_access (c.drain v uartRxRingSize) v accesses
  rw [← ring'] at empty
  obtain ⟨stored, contains', accepted'', delivered''⟩ := foldl_receive _ empty bytes
  refine ⟨stored, contains', ?_, ?_⟩
  · rw [turn, accepted'', accepted', accepted]
  · rw [turn, delivered'', delivered', delivered]

/-! ## Routing -/

/-- The bytes that the queue took have been taken by the UART of VM 0, in order, up to those that still wait; no
other UART has taken any. -/
def Routed (c : Console) : Prop :=
  ∃ waiting, c.ring.Contains waiting ∧ c.accepted = c.delivered 0 ++ waiting ∧ ∀ v, v ≠ 0 → c.delivered v = []

/-- VM `v` may drain the queue: it is empty, or it goes to VM 0, which has room for it. -/
def MayDrain (c : Console) (v : VmId) : Prop := c.ring.count = 0 ∨ v = 0 ∧ c.ring.count ≤ c.room 0

theorem routed_boot (uarts : VmId → Option VirtualUart) : (boot uarts).Routed :=
  ⟨[], UartRxRing.contains_new, rfl, fun _ _ => rfl⟩

theorem Routed.turn_iff (routed : c.Routed) (v : VmId) (accesses : List UartAccess) (bytes : List U8) :
    (c.turn v accesses bytes).Routed ↔ c.MayDrain v := by
  obtain ⟨waiting, contains, accepted, others⟩ := routed
  obtain ⟨stored, contains', accepted', delivered⟩ := turn_spec c contains v accesses bytes
  have lost : (c.turn v accesses bytes).Routed ↔ c.accepted = (c.turn v accesses bytes).delivered 0 ∧
      ∀ u, u ≠ 0 → (c.turn v accesses bytes).delivered u = [] := by
    constructor
    · rintro ⟨left, has, total, rest⟩
      rw [has.unique contains', accepted'] at total
      exact ⟨List.append_cancel_right total, rest⟩
    · rintro ⟨total, rest⟩
      exact ⟨stored, contains', by rw [accepted', total], rest⟩
  rw [lost, delivered, accepted, MayDrain, contains.count_eq]
  by_cases first : v = 0
  · subst first
    have rest : ∀ u, u ≠ 0 → Function.update c.delivered 0 (c.delivered 0 ++ waiting.take (c.room 0)) u = [] :=
      fun u other => (Function.update_of_ne other ..).trans (others u other)
    rw [Function.update_self, List.append_cancel_left_eq, and_iff_left rest, eq_comm, List.take_eq_self_iff]
    constructor
    · exact fun fits => .inr ⟨rfl, fits⟩
    · rintro (none | ⟨-, fits⟩)
      · exact none ▸ Nat.zero_le _
      · exact fits
  · rw [Function.update_of_ne (Ne.symm first), List.append_right_eq_self]
    constructor
    · exact fun kept => .inl (List.length_eq_zero_iff.mpr kept.1)
    · rintro (none | ⟨is, -⟩)
      · rw [List.length_eq_zero_iff.mp none]
        refine ⟨rfl, fun u other => ?_⟩
        rw [List.take_nil, List.append_nil, Function.update_eq_self]
        exact others u other
      · exact absurd is first

end Console

namespace MultiVm

variable {Other : Type} [DecidableEq Other] {m : MultiVm} {c : Console}

/-- A turn in which a vCPU runs to an exception that leaves the guest comes to an end. -/
theorem exists_step_of_runs {inputs : Inputs Other} {interrupt : Bool} (runs : m.runs inputs = some interrupt) :
    ∃ m', m.step inputs = some m' := by
  rw [MultiVm.runs] at runs
  split_ifs at runs with done
  split at runs
  case h_1 id vcpu vm e before =>
    split at runs
    case h_1 last handled left =>
      have turn : m.sys.turn m.next inputs = some (false, m.sys.setVm m.next
          (vm.runVcpu id vcpu last handled).1 (vm.runVcpu id vcpu last handled).2) := by
        simp [System.turn, GuestVm.runOneIteration, before, left]
      exact ⟨_, step_of_turn (Bool.eq_false_iff.mpr done) turn⟩
    case h_2 => cases runs
  case h_2 => cases runs

theorem consoleRun_concat (start : MultiVm × Console) (past : List (ConsoleInputs Other)) (inputs : ConsoleInputs Other) :
    consoleRun start (past ++ [inputs]) = (consoleRun start past).bind (consoleStep · inputs) := by
  rw [consoleRun, List.foldlM_append, consoleRun]
  cases List.foldlM consoleStep start past with
  | none => rfl
  | some s => simp

/-- The queue may be drained if it is. -/
def RoutesTurn (s : MultiVm × Console) (inputs : ConsoleInputs Other) : Prop :=
  ∀ interrupt, s.1.runs inputs.toInputs = some interrupt → s.2.MayDrain s.1.next

theorem routed_consoleStep_iff (routed : c.Routed) (inputs : ConsoleInputs Other) :
    (∀ s, consoleStep (m, c) inputs = some s → s.2.Routed) ↔ RoutesTurn (m, c) inputs := by
  cases runs : m.runs inputs.toInputs with
  | none =>
      refine iff_of_true (fun s step => ?_) fun interrupt is => ?_
      · obtain ⟨m', -, rfl⟩ := Option.map_eq_some_iff.mp step
        simpa only [runs] using routed
      · rw [runs] at is
        cases is
  | some interrupt =>
      obtain ⟨m', step⟩ := exists_step_of_runs runs
      have taken : consoleStep (m, c) inputs =
          some (m', c.turn m.next inputs.accesses (if interrupt then inputs.bytes else [])) := by
        simp only [consoleStep, step, Option.map_some, runs]
      rw [taken]
      constructor
      · intro all interrupt' _
        exact (routed.turn_iff _ _ _).mp (all _ rfl)
      · rintro may s ⟨⟩
        exact (routed.turn_iff _ _ _).mpr (may interrupt runs)

end MultiVm

open MultiVm in
/-- Whatever arrives, whoever has a turn and whatever the guests do: after every turn the input has been routed
to VM 0, exactly if every turn may drain the queue that it drains. -/
theorem console_input_routed_iff {Other : Type} [DecidableEq Other] (system : System) (uarts : VmId → Option VirtualUart)
    (turns : List (ConsoleInputs Other)) :
    (∀ k ≤ turns.length, ∀ s, consoleRun (.start system, .boot uarts) (turns.take k) = some s → s.2.Routed) ↔
      ∀ (k : ℕ) (inputs : ConsoleInputs Other), turns[k]? = some inputs →
        ∀ s, consoleRun (.start system, .boot uarts) (turns.take k) = some s → RoutesTurn s inputs := by
  refine List.forall_take_iff
    (P := fun past => ∀ s, consoleRun (.start system, .boot uarts) past = some s → s.2.Routed)
    (C := fun past inputs => ∀ s, consoleRun (.start system, .boot uarts) past = some s → RoutesTurn s inputs) ?_ ?_ turns
  · rintro s ⟨⟩
    exact Console.routed_boot uarts
  · intro past inputs routed
    rw [consoleRun_concat]
    cases reached : consoleRun (.start system, .boot uarts) past with
    | none => exact iff_of_true (fun s none => by cases none) fun s none => by cases none
    | some s =>
        simp only [Option.bind_some, Option.some_inj, forall_eq']
        exact routed_consoleStep_iff (routed s reached) inputs

open MultiVm in
/-- A byte arrives while VM 0 runs, and VM 1 has its turn: the byte is delivered to VM 1. -/
theorem console_input_to_other_vm :
    (@consoleRun Empty _ (.start .twoVms, .boot fun _ => some .new)
        [⟨⟨some fun _ => 0, [⟨fun _ => 0, .irq 33⟩]⟩, [], [0x61]⟩,
          ⟨⟨some fun _ => 0, [⟨fun _ => 0, .irq 33⟩]⟩, [], []⟩]).map
      (fun s => (s.2.accepted, s.2.delivered 0, s.2.delivered 1)) = some ([0x61], [], [0x61]) := by
  decide +kernel

end Hypervisor
