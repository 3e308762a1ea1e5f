import Hypervisor.Model.RxRings
import Hypervisor.Soundness.SwitchDelivery

/-! # The receive rings without a lock

The accesses of both rings are an instance of `Spsc`: under every schedule of the two parties, a frame or
a byte is taken as it was stored, in order, and a full or an empty ring is reported only when it is one.
Calls that nobody interrupts are the operations of the model.
-/

namespace Hypervisor

/-! ## Frames -/

namespace FrameSlot

variable {slot : FrameSlot} {frame : List U8}

theorem eq_of_fields {slot' : FrameSlot} (buf : slot.buf = slot'.buf) (len : slot.len = slot'.len) : slot = slot' := by
  cases slot
  cases slot'
  cases buf
  cases len
  rfl

/-- Stores to some bytes of a slot. -/
structure Copied {n : ℕ} (fits : n ≤ maxFrameSize) (value : Fin n → U8) (places : List (Fin n))
    (before after : FrameSlot) : Prop where
  written : ∀ i ∈ places, after.buf (i.castLE fits) = value i
  kept : ∀ j, (∀ i ∈ places, i.castLE fits ≠ j) → after.buf j = before.buf j
  len : after.len = before.len

theorem copied_stored {n : ℕ} (fits : n ≤ maxFrameSize) (value : Fin n → U8) (places : List (Fin n))
    (slot : FrameSlot) : Copied fits value places slot
      (Spsc.stored (places.map fun i => setByte (i.castLE fits) (value i)) slot) := by
  induction places generalizing slot with
  | nil => exact ⟨fun i member => absurd member List.not_mem_nil, fun j _ => rfl, rfl⟩
  | cons first rest ih =>
      obtain ⟨written, kept, len⟩ := ih (slot.setByte (first.castLE fits) (value first))
      refine ⟨?_, ?_, len⟩
      · intro i member
        by_cases again : i ∈ rest
        · exact written i again
        · obtain rfl := (List.mem_cons.mp member).resolve_right again
          have last := kept (i.castLE fits) fun other mem same => again (Fin.castLE_injective fits same ▸ mem)
          exact last.trans (Function.update_self ..)
      · intro j outside
        rw [List.forall_mem_cons] at outside
        exact (kept j outside.2).trans (Function.update_of_ne outside.1.symm _ _)

/-- The stores of a frame are its copy to the slot. -/
theorem stored_storesOf (slot : FrameSlot) (fits : frame.length ≤ maxFrameSize) :
    Spsc.stored (storesOf frame fits) slot = slot.write frame fits := by
  have copied := copied_stored fits frame.get (List.finRange frame.length) slot
  rw [storesOf, Spsc.stored, List.foldl_append]
  refine eq_of_fields (funext fun j => ?_) rfl
  change (Spsc.stored _ slot).buf j = frame.getD j (slot.buf j)
  by_cases inside : (j : ℕ) < frame.length
  · rw [List.getD_eq_getElem?_getD, List.getElem?_eq_getElem inside]
    exact copied.written ⟨j, inside⟩ (List.mem_finRange _)
  · rw [List.getD_eq_getElem?_getD, List.getElem?_eq_none (Nat.le_of_not_lt inside)]
    refine copied.kept j fun i _ same => inside ?_
    rw [← same]
    exact i.isLt

theorem result_load {R : Type} (places : List (Fin maxFrameSize)) (next : List U8 → Spsc.Reader FrameSlot R) :
    (load places next).result slot = (next (places.map slot.buf)).result slot := by
  induction places generalizing next with
  | nil => rfl
  | cons i rest ih =>
      rw [load, Spsc.Reader.result, ih]
      rfl

/-- The first bytes of a slot are those of its frame. -/
theorem bytes_eq_take (slot : FrameSlot) {n : ℕ} (short : n ≤ slot.len.toNat) :
    slot.bytes n (Nat.le_trans short slot.fits) = slot.frame.take n := by
  apply List.ext_getElem
  · rw [length_bytes, List.length_take, FrameSlot.frame, length_bytes, Nat.min_eq_left short]
  · intro i _ _
    simp only [FrameSlot.frame, bytes, List.getElem_take, List.getElem_ofFn]
    rfl

theorem length_frame (slot : FrameSlot) : slot.frame.length = slot.len.toNat := length_bytes ..

/-- The answer for a frame: its length, and the buffer with as much of it as there is room for. -/
def received (buf frame : List U8) : ℕ × List U8 :=
  (frame.length, frame.take (min frame.length buf.length) ++ buf.drop (min frame.length buf.length))

/-- What is read from a slot that nobody writes. -/
theorem result_readInto (slot : FrameSlot) (buf : List U8) : (readInto buf).result slot = received buf slot.frame := by
  rw [readInto, Spsc.Reader.result, result_load, List.map_map, received, length_frame,
    ← slot.bytes_eq_take (Nat.min_le_left _ _), bytes, List.ofFn_eq_map]
  rfl

end FrameSlot

theorem FrameSlot.fits_of_accepted {frame : List U8} (accepted : ¬(frame.length = 0 ∨ maxFrameSize < frame.length)) :
    frame.length ≤ maxFrameSize :=
  Nat.le_of_not_lt fun long => accepted (.inr long)

/-- The accesses of `NetRxRing`. -/
def netRx : Spsc.Layout FrameSlot (List U8) (List U8) (ℕ × List U8) where
  stores frame :=
    if h : frame.length = 0 ∨ maxFrameSize < frame.length then none
    else some (FrameSlot.storesOf frame (FrameSlot.fits_of_accepted h))
  reader := FrameSlot.readInto
  view := FrameSlot.received
  reads := by
    intro frame writes valid slot buf
    split at valid
    · cases valid
    · cases valid
      rw [FrameSlot.stored_storesOf, FrameSlot.result_readInto, FrameSlot.frame_write]

namespace NetRxRing

/-- The ring between calls. -/
def shared (ring : NetRxRing) : Spsc.State netRxRingSize FrameSlot (List U8) (List U8) (ℕ × List U8) where
  slots := ring.frames
  head := ring.head
  tail := ring.tail

/-- A store that nobody interrupts is `store`. -/
theorem run_store (ring : NetRxRing) (frame : List U8) :
    ∃ n event, ring.shared.run netRx (.store frame :: List.replicate n .produce) =
      ((ring.store frame).2.shared, [event]) ∧ (event = .stored frame ↔ (ring.store frame).1 = true) := by
  rw [store]
  split_ifs with invalid full
  · refine ⟨0, .rejected frame, ?_, by simp only [reduceCtorEq]⟩
    have refused : netRx.stores frame = none := dif_pos invalid
    rw [Spsc.State.run, Spsc.State.step, refused]
    rfl
  all_goals
    have valid : netRx.stores frame = some (FrameSlot.storesOf frame _) := dif_neg invalid
    have alone := Spsc.State.run_store (s := ring.shared) rfl valid
  · exact ⟨_, _, alone.trans (if_pos full), by simp only [reduceCtorEq]⟩
  · rw [FrameSlot.stored_storesOf] at alone
    exact ⟨_, _, alone.trans (if_neg full), by simp only⟩

/-- A take that nobody interrupts is `take`. -/
theorem run_take (ring : NetRxRing) (buf : List U8) :
    ∃ n, ring.shared.run netRx (.take buf :: List.replicate n .consume) = ((ring.take buf).2.2.shared,
      (ring.take buf).1.elim [.empty buf] fun len => [.took buf (len, (ring.take buf).2.1)]) := by
  have alone := Spsc.State.run_take (s := ring.shared) netRx buf rfl
  refine ⟨_, alone.trans ?_⟩
  rw [take]
  by_cases empty : ring.head = ring.tail
  · rw [if_pos empty]
    exact if_pos empty
  · have read := (ring.frames ring.head).result_readInto buf
    rw [FrameSlot.received, FrameSlot.length_frame, ← FrameSlot.bytes_eq_take _ (Nat.min_le_left _ _)] at read
    rw [if_neg empty]
    exact (if_neg empty).trans (congrArg (fun result => (_, [Spsc.Event.took buf result])) read)

end NetRxRing

/-! ## Bytes -/

/-- The accesses of `UartRxRing`. -/
def uartRx : Spsc.Layout U8 U8 Unit U8 where
  stores ch := some [fun _ => ch]
  reader _ := .look fun slot => .done slot
  view _ ch := ch
  reads := by
    rintro ch writes ⟨⟩ slot -
    rfl

namespace UartRxRing

/-- The ring between calls. -/
def shared (ring : UartRxRing) : Spsc.State uartRxRingSize U8 U8 Unit U8 where
  slots := ring.buf
  head := ring.head
  tail := ring.tail

/-- A push that nobody interrupts is `push`. -/
theorem run_push (ring : UartRxRing) (ch : U8) :
    ∃ n, (ring.shared.run uartRx (.store ch :: List.replicate n .produce)).1 = (ring.push ch).shared := by
  have valid : uartRx.stores ch = some [fun _ => ch] := rfl
  have alone := Spsc.State.run_store (s := ring.shared) rfl valid
  refine ⟨_, (congrArg Prod.fst alone).trans ?_⟩
  rw [push]
  by_cases full : next ring.tail = ring.head
  · rw [if_pos full]
    exact congrArg Prod.fst (if_pos full)
  · rw [if_neg full]
    exact congrArg Prod.fst (if_neg full)

/-- A pop that nobody interrupts is `pop`. -/
theorem run_pop (ring : UartRxRing) : ∃ n, ring.shared.run uartRx (.take () :: List.replicate n .consume) =
    (ring.pop.2.shared, ring.pop.1.elim [.empty ()] fun ch => [.took () ch]) := by
  have alone := Spsc.State.run_take (s := ring.shared) uartRx () rfl
  refine ⟨_, alone.trans ?_⟩
  rw [pop]
  by_cases empty : ring.head = ring.tail
  · rw [if_pos empty]
    exact if_pos empty
  · rw [if_neg empty]
    exact if_neg empty

end UartRxRing

/-! ## All schedules -/

namespace FrameSlot

/-- A buffer with room receives the frame byte for byte. -/
theorem take_received {buf frame : List U8} (room : frame.length ≤ buf.length) :
    (received buf frame).2.take frame.length = frame := by
  rw [received, Nat.min_eq_left room, List.take_length]
  exact List.take_left

end FrameSlot

/-- The state after a schedule holds the queue that gives the answers, and the producer is at no slot that
the consumer is reading. -/
structure QueueLike {size : ℕ} {S E B R : Type} (layout : Spsc.Layout S E B R) (capacity : ℕ)
    (result : Spsc.State size S E B R × List (Spsc.Event E B R)) (queue : List E) : Prop where
  answers : Spsc.Answers layout capacity [] result.2 queue
  inUse : (result.1.tail : ℕ) = (result.1.head + queue.length) % size
  apart : ¬result.1.Races

/-- Under every schedule of producer and consumer, the answers are those of a queue of eight frames, or of
63 bytes. -/
theorem rxRings_queueLike :
    (∀ schedule, ∃ frames, QueueLike netRx 8 (NetRxRing.new.shared.run netRx schedule) frames) ∧
    (∀ schedule, ∃ bytes, QueueLike uartRx 63 (UartRxRing.new.shared.run uartRx schedule) bytes) ∧
    (∀ buf frame, frame.length ≤ buf.length → (netRx.view buf frame).2.take frame.length = frame) := by
  refine ⟨?_, ?_, fun buf frame room => FrameSlot.take_received room⟩
  · intro schedule
    have start : NetRxRing.new.shared.Inv netRx [] := Spsc.State.inv_nil rfl rfl rfl
    obtain ⟨frames, inv, answers⟩ := start.run schedule
    exact ⟨frames, answers, inv.tail, inv.not_races⟩
  · intro schedule
    have start : UartRxRing.new.shared.Inv uartRx [] := Spsc.State.inv_nil rfl rfl rfl
    obtain ⟨bytes, inv, answers⟩ := start.run schedule
    exact ⟨bytes, answers, inv.tail, inv.not_races⟩

end Hypervisor
