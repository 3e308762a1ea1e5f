import Hypervisor.Ring.Basic

/-! # Rings with one producer and one consumer

The two parties share the slots and two indices, and each owns one index. They interleave between any
two accesses to what is shared: loads and stores of an index, and the accesses to a slot, of which an
element may need many. Whatever the schedule, the answers they get are those of a queue that is one
element shorter than the ring.
-/

namespace Spsc

variable {size : ℕ} {S E B R : Type*}

/-! ## The two parties -/

/-- A program that reads a slot, one access at a time. -/
inductive Reader (S R : Type*) where
  | done (result : R)
  | look (next : S → Reader S R)

/-- What the program returns from a slot that nobody writes. -/
def Reader.result (slot : S) : Reader S R → R
  | done r => r
  | look next => (next slot).result slot

/-- A slot after some stores to it. -/
def stored (stores : List (S → S)) (slot : S) : S := stores.foldl (fun slot store => store slot) slot

/-- How an element is put into a slot and read from it. -/
structure Layout (S E B R : Type*) where
  /-- The stores for an element, in order. An element that no slot can hold is refused at once. -/
  stores : E → Option (List (S → S))
  /-- The accesses of a read, which may depend on an argument of the call. -/
  reader : B → Reader S R
  /-- What the read of an element has to return. -/
  view : B → E → R
  reads : ∀ e writes, stores e = some writes → ∀ slot b, (reader b).result (stored writes slot) = view b e

inductive Producer (size : ℕ) (S E : Type*) where
  | idle
  | called (e : E) (writes : List (S → S))
  /-- It has loaded its own index. -/
  | checking (e : E) (writes : List (S → S)) (tail : Fin size)
  | writing (e : E) (writes : List (S → S)) (tail : Fin size)

inductive Consumer (size : ℕ) (S B R : Type*) where
  | idle
  | called (b : B)
  /-- It has loaded its own index. -/
  | checking (b : B) (head : Fin size)
  | reading (b : B) (reader : Reader S R) (head : Fin size)

/-- What a call answers, at the access that decides it. -/
inductive Event (E B R : Type*) where
  | stored (e : E)
  | full (e : E)
  | rejected (e : E)
  | took (b : B) (result : R)
  | empty (b : B)

structure State (size : ℕ) (S E B R : Type*) where
  slots : Fin size → S
  head : Fin size
  tail : Fin size
  producer : Producer size S E := .idle
  consumer : Consumer size S B R := .idle

/-- The index behind `i`. -/
def next (i : Fin size) : Fin size := ⟨(i + 1) % size, Nat.mod_lt _ i.pos⟩

@[simp] theorem val_next (i : Fin size) : (next i : ℕ) = (i + 1) % size := rfl

inductive Action (E B : Type*) where
  /-- The producer starts a call, if it is in none. -/
  | store (e : E)
  /-- The consumer starts a call, if it is in none. -/
  | take (b : B)
  /-- The next access of the producer. -/
  | produce
  /-- The next access of the consumer. -/
  | consume

namespace State

def produce (s : State size S E B R) : State size S E B R × Option (Event E B R) :=
  match s.producer with
  | .idle => (s, none)
  | .called e writes => ({ s with producer := .checking e writes s.tail }, none)
  | .checking e writes tail =>
      if next tail = s.head then ({ s with producer := .idle }, some (.full e))
      else ({ s with producer := .writing e writes tail }, none)
  | .writing e [] tail => ({ s with tail := next tail, producer := .idle }, some (.stored e))
  | .writing e (write :: writes) tail =>
      ({ s with slots := Function.update s.slots tail (write (s.slots tail)), producer := .writing e writes tail }, none)

def consume (layout : Layout S E B R) (s : State size S E B R) : State size S E B R × Option (Event E B R) :=
  match s.consumer with
  | .idle => (s, none)
  | .called b => ({ s with consumer := .checking b s.head }, none)
  | .checking b head =>
      if head = s.tail then ({ s with consumer := .idle }, some (.empty b))
      else ({ s with consumer := .reading b (layout.reader b) head }, none)
  | .reading b (.look access) head => ({ s with consumer := .reading b (access (s.slots head)) head }, none)
  | .reading b (.done result) head => ({ s with head := next head, consumer := .idle }, some (.took b result))

def step (layout : Layout S E B R) (s : State size S E B R) :
    Action E B → State size S E B R × Option (Event E B R)
  | .store e =>
      match s.producer, layout.stores e with
      | .idle, some writes => ({ s with producer := .called e writes }, none)
      | .idle, none => (s, some (.rejected e))
      | _, _ => (s, none)
  | .take b =>
      match s.consumer with
      | .idle => ({ s with consumer := .called b }, none)
      | _ => (s, none)
  | .produce => s.produce
  | .consume => s.consume layout

/-- The state after a schedule, with the events. -/
def run (layout : Layout S E B R) (s : State size S E B R) :
    List (Action E B) → State size S E B R × List (Event E B R)
  | [] => (s, [])
  | action :: schedule =>
      let now := s.step layout action
      let later := now.1.run layout schedule
      (later.1, now.2.toList ++ later.2)

/-- The producer is in the middle of writing to a slot from which the consumer reads. -/
def Races (s : State size S E B R) : Prop :=
  ∃ e writes tail b reader head, s.producer = .writing e writes tail ∧ s.consumer = .reading b reader head ∧ tail = head

end State

/-! ## The queue -/

/-- What an event does to a queue with at most `capacity` elements, oldest first. -/
inductive Queue (layout : Layout S E B R) (capacity : ℕ) : List E → Event E B R → List E → Prop where
  | stored (queue : List E) (e : E) : queue.length < capacity → Queue layout capacity queue (.stored e) (queue ++ [e])
  | full (queue : List E) (e : E) : queue.length = capacity → Queue layout capacity queue (.full e) queue
  | rejected (queue : List E) (e : E) : layout.stores e = none → Queue layout capacity queue (.rejected e) queue
  | took (e : E) (queue : List E) (b : B) : Queue layout capacity (e :: queue) (.took b (layout.view b e)) queue
  | empty (b : B) : Queue layout capacity [] (.empty b) []

/-- The events are answers of the queue. -/
inductive Answers (layout : Layout S E B R) (capacity : ℕ) : List E → List (Event E B R) → List E → Prop where
  | nil (queue : List E) : Answers layout capacity queue [] queue
  | cons {queue queue' last : List E} {event : Event E B R} {events : List (Event E B R)} :
      Queue layout capacity queue event queue' → Answers layout capacity queue' events last →
        Answers layout capacity queue (event :: events) last

theorem Answers.append {layout : Layout S E B R} {capacity : ℕ} {queue queue' last : List E}
    {now later : List (Event E B R)} (first : Answers layout capacity queue now queue')
    (rest : Answers layout capacity queue' later last) : Answers layout capacity queue (now ++ later) last := by
  induction first with
  | nil => exact rest
  | cons event _ ih => exact .cons event (ih rest)

/-! ## The invariant -/

variable {layout : Layout S E B R} {s : State size S E B R} {queue : List E}

/-- Every read of the slot returns what belongs to the element. -/
def Reads (layout : Layout S E B R) (slot : S) (e : E) : Prop := ∀ b, (layout.reader b).result slot = layout.view b e

/-- What the producer knows. It alone moves its index, and the consumer can only make room. -/
def State.ProducerOk (layout : Layout S E B R) (s : State size S E B R) (queue : List E) : Prop :=
  match s.producer with
  | .idle => True
  | .called e writes => layout.stores e = some writes
  | .checking e writes tail => layout.stores e = some writes ∧ tail = s.tail
  | .writing e writes tail =>
      tail = s.tail ∧ queue.length + 1 < size ∧ Reads layout (Spsc.stored writes (s.slots tail)) e

/-- What the consumer knows. It alone moves its index, and the producer only adds elements. -/
def State.ConsumerOk (layout : Layout S E B R) (s : State size S E B R) (queue : List E) : Prop :=
  match s.consumer with
  | .idle => True
  | .called _ => True
  | .checking _ head => head = s.head
  | .reading b reader head => head = s.head ∧ ∃ e, queue.head? = some e ∧ reader.result (s.slots head) = layout.view b e

/-- Steps of the producer leave the consumer what it knows, as long as the oldest element stays. -/
theorem State.ConsumerOk.of_producer {s' : State size S E B R} {queue' : List E} (ok : s.ConsumerOk layout queue)
    (consumer : s'.consumer = s.consumer) (head : s'.head = s.head)
    (kept : ∀ e, queue.head? = some e → queue'.head? = some e ∧ s'.slots s.head = s.slots s.head) :
    s'.ConsumerOk layout queue' := by
  rw [ConsumerOk] at ok ⊢
  rw [consumer, head]
  split
  · trivial
  · trivial
  · next own => rwa [own] at ok
  · next own =>
    rw [own] at ok
    obtain ⟨rfl, e, first, result⟩ := ok
    rw [(kept e first).2]
    exact ⟨rfl, e, (kept e first).1, result⟩

/-- Steps of the consumer leave the producer what it knows, as long as the queue does not grow. -/
theorem State.ProducerOk.of_consumer {s' : State size S E B R} {queue' : List E} (ok : s.ProducerOk layout queue)
    (producer : s'.producer = s.producer) (tail : s'.tail = s.tail) (slots : s'.slots = s.slots)
    (shorter : queue'.length ≤ queue.length) : s'.ProducerOk layout queue' := by
  rw [ProducerOk] at ok ⊢
  rw [producer, tail, slots]
  split
  · trivial
  · next own => rwa [own] at ok
  · next own => rwa [own] at ok
  · next own =>
    rw [own] at ok
    exact ⟨ok.1, Nat.lt_of_le_of_lt (Nat.succ_le_succ shorter) ok.2.1, ok.2.2⟩

/-- The ring holds the queue, from the head on. -/
structure State.Inv (layout : Layout S E B R) (s : State size S E B R) (queue : List E) : Prop where
  room : queue.length < size
  tail : (s.tail : ℕ) = (s.head + queue.length) % size
  holds : ∀ i e, queue[i]? = some e → ∀ slot : Fin size, (slot : ℕ) = (s.head + i) % size →
    Reads layout (s.slots slot) e
  producer : s.ProducerOk layout queue
  consumer : s.ConsumerOk layout queue

namespace State.Inv

theorem head_eq (s : State size S E B R) : (s.head : ℕ) = (s.head + 0) % size := (Nat.mod_eq_of_lt s.head.isLt).symm

/-- The index of the producer comes round to that of the consumer when one slot is left. -/
theorem next_tail_eq_head_iff (inv : s.Inv layout queue) : next s.tail = s.head ↔ queue.length + 1 = size := by
  have behind : (next s.tail : ℕ) = (s.head + (queue.length + 1)) % size := by
    rw [val_next, inv.tail, Nat.mod_add_mod, Nat.add_assoc]
  rw [Fin.ext_iff, behind]
  constructor
  · intro same
    by_contra other
    have := Ring.slot_injective (Nat.lt_of_le_of_ne inv.room other) s.head.pos (same.trans (head_eq s))
    exact Nat.succ_ne_zero _ this
  · intro last
    rw [last, Nat.add_mod_right, Nat.mod_eq_of_lt s.head.isLt]

theorem head_eq_tail_iff (inv : s.Inv layout queue) : s.head = s.tail ↔ queue = [] := by
  rw [Fin.ext_iff, inv.tail]
  constructor
  · intro same
    exact List.length_eq_zero_iff.mp (Ring.slot_injective inv.room s.head.pos (same.symm.trans (head_eq s)))
  · rintro rfl
    exact head_eq s

/-- The slot that the producer writes is none of those that hold elements. -/
theorem tail_ne (inv : s.Inv layout queue) {i : ℕ} (inside : i < queue.length) {slot : Fin size}
    (here : (slot : ℕ) = (s.head + i) % size) : slot ≠ s.tail := by
  intro same
  rw [same, inv.tail] at here
  exact Nat.ne_of_gt inside (Ring.slot_injective inv.room (Nat.lt_trans inside inv.room) here)

theorem head_ne_tail (inv : s.Inv layout queue) {e : E} (oldest : queue.head? = some e) : s.head ≠ s.tail := by
  intro same
  rw [inv.head_eq_tail_iff.mp same] at oldest
  cases oldest

/-- There is never a race for a slot. -/
theorem not_races (inv : s.Inv layout queue) : ¬s.Races := by
  rintro ⟨e, writes, tail, b, reader, head, writing, reading, same⟩
  have producer := inv.producer
  have consumer := inv.consumer
  rw [ProducerOk, writing] at producer
  rw [ConsumerOk, reading] at consumer
  obtain ⟨here, oldest, first, -⟩ := consumer
  exact inv.head_ne_tail first (here.symm.trans (same.symm.trans producer.1))

/-- A store to the slot of the producer touches no element, nor what the consumer is reading. -/
theorem write (inv : s.Inv layout queue) {e : E} {write : S → S} {writes : List (S → S)} {tail : Fin size}
    (writing : s.producer = .writing e (write :: writes) tail) :
    Inv layout { s with
      slots := Function.update s.slots tail (write (s.slots tail)), producer := .writing e writes tail } queue := by
  have producer := inv.producer
  rw [ProducerOk, writing] at producer
  obtain ⟨rfl, room, reads⟩ := producer
  refine ⟨inv.room, inv.tail, ?_, ⟨rfl, room, ?_⟩, ?_⟩
  · intro i e' here slot place
    have inside : i < queue.length := (List.getElem?_eq_some_iff.mp here).1
    dsimp only
    rw [Function.update_of_ne (inv.tail_ne inside place)]
    exact inv.holds i e' here slot place
  · dsimp only
    rw [Function.update_self]
    exact reads
  · refine inv.consumer.of_producer rfl rfl ?_
    intro oldest first
    exact ⟨first, Function.update_of_ne (inv.head_ne_tail first) _ _⟩

/-- The store of the index of the producer adds the element. -/
theorem publish (inv : s.Inv layout queue) {e : E} {tail : Fin size} (writing : s.producer = .writing e [] tail) :
    Inv layout { s with tail := next tail, producer := .idle } (queue ++ [e]) := by
  have producer := inv.producer
  rw [ProducerOk, writing] at producer
  obtain ⟨rfl, room, reads⟩ := producer
  refine ⟨?_, ?_, ?_, trivial, ?_⟩
  · rw [List.length_append, List.length_singleton]
    exact room
  · rw [val_next, inv.tail, Nat.mod_add_mod, Nat.add_assoc, List.length_append, List.length_singleton]
  · intro i e' here slot place
    rcases Nat.lt_trichotomy i queue.length with old | rfl | beyond
    · rw [List.getElem?_append_left old] at here
      exact inv.holds i e' here slot place
    · rw [List.getElem?_concat_length] at here
      cases here
      rw [Fin.ext (place.trans inv.tail.symm)]
      exact reads
    · rw [List.getElem?_eq_none (by rw [List.length_append, List.length_singleton]; exact beyond)] at here
      cases here
  · refine inv.consumer.of_producer rfl rfl ?_
    intro oldest first
    exact ⟨by rw [List.head?_append, first]; rfl, rfl⟩

/-- The store of the index of the consumer removes the oldest element. -/
theorem release (inv : s.Inv layout queue) {b : B} {result : R} {head : Fin size}
    (reading : s.consumer = .reading b (.done result) head) :
    ∃ e rest, queue = e :: rest ∧ result = layout.view b e ∧
      Inv layout { s with head := next head, consumer := .idle } rest := by
  have consumer := inv.consumer
  rw [ConsumerOk, reading] at consumer
  obtain ⟨rfl, e, first, answer⟩ := consumer
  obtain ⟨rest, rfl⟩ := List.head?_eq_some_iff.mp first
  have room := inv.room
  rw [List.length_cons] at room
  refine ⟨e, rest, rfl, answer, Nat.lt_of_succ_lt room, ?_, ?_, ?_, trivial⟩
  · rw [val_next, Nat.mod_add_mod, inv.tail, List.length_cons, Nat.add_assoc, Nat.add_comm 1]
  · intro i e' here slot place
    rw [val_next, Nat.mod_add_mod, Nat.add_assoc, Nat.add_comm 1] at place
    exact inv.holds (i + 1) e' here slot place
  · exact inv.producer.of_consumer rfl rfl rfl (Nat.le_succ _)

/-- The queue is full, or has room for the element, when the producer looks at the index of the consumer. -/
theorem check (inv : s.Inv layout queue) {e : E} {writes : List (S → S)} {tail : Fin size}
    (checking : s.producer = .checking e writes tail) : tail = s.tail ∧
      (next tail ≠ s.head → Inv layout { s with producer := .writing e writes tail } queue) := by
  have producer := inv.producer
  rw [ProducerOk, checking] at producer
  obtain ⟨valid, rfl⟩ := producer
  refine ⟨rfl, fun other => ⟨inv.room, inv.tail, inv.holds, ⟨rfl, ?_, ?_⟩, ?_⟩⟩
  · rw [Ne, inv.next_tail_eq_head_iff] at other
    exact Nat.lt_of_le_of_ne inv.room other
  · exact layout.reads e writes valid _
  · exact inv.consumer.of_producer rfl rfl fun oldest first => ⟨first, rfl⟩

/-- The oldest element is there to be read when the consumer has looked at the index of the producer. -/
theorem look (inv : s.Inv layout queue) {b : B} {head : Fin size} (checking : s.consumer = .checking b head) :
    head = s.head ∧
      (head ≠ s.tail → Inv layout { s with consumer := .reading b (layout.reader b) head } queue) := by
  have consumer := inv.consumer
  rw [ConsumerOk, checking] at consumer
  subst consumer
  refine ⟨rfl, fun other => ⟨inv.room, inv.tail, inv.holds, ?_, ⟨rfl, ?_⟩⟩⟩
  · exact inv.producer.of_consumer rfl rfl rfl Nat.le.refl
  · rw [Ne, inv.head_eq_tail_iff] at other
    obtain ⟨e, rest, rfl⟩ := List.exists_cons_of_ne_nil other
    exact ⟨e, rfl, inv.holds 0 e rfl s.head (head_eq s) b⟩

/-- The next access of the producer. -/
theorem produce (inv : s.Inv layout queue) : ∃ queue', Inv layout s.produce.1 queue' ∧
    Answers layout (size - 1) queue s.produce.2.toList queue' := by
  have back : Inv layout { s with producer := .idle } queue :=
    ⟨inv.room, inv.tail, inv.holds, trivial, inv.consumer.of_producer rfl rfl fun _ first => ⟨first, rfl⟩⟩
  rw [State.produce]
  split
  · exact ⟨queue, inv, .nil queue⟩
  · next e writes called =>
    have valid := inv.producer
    rw [ProducerOk, called] at valid
    refine ⟨queue, ⟨inv.room, inv.tail, inv.holds, ⟨valid, rfl⟩, ?_⟩, .nil queue⟩
    exact inv.consumer.of_producer rfl rfl fun _ first => ⟨first, rfl⟩
  · next e writes tail checking =>
    obtain ⟨rfl, proceeds⟩ := inv.check checking
    split_ifs with full
    · have length := inv.next_tail_eq_head_iff.mp full
      exact ⟨queue, back, .cons (.full queue e (Nat.eq_sub_of_add_eq length)) (.nil queue)⟩
    · exact ⟨queue, proceeds full, .nil queue⟩
  · next e tail writing =>
    have room := inv.producer
    rw [ProducerOk, writing] at room
    exact ⟨queue ++ [e], inv.publish writing, .cons (.stored queue e (Nat.lt_sub_of_add_lt room.2.1)) (.nil _)⟩
  · next writing => exact ⟨queue, inv.write writing, .nil queue⟩

/-- The next access of the consumer. -/
theorem consume (inv : s.Inv layout queue) : ∃ queue', Inv layout (s.consume layout).1 queue' ∧
    Answers layout (size - 1) queue (s.consume layout).2.toList queue' := by
  have producer {consumer} : ProducerOk layout { s with consumer } queue :=
    inv.producer.of_consumer rfl rfl rfl Nat.le.refl
  rw [State.consume]
  split
  · exact ⟨queue, inv, .nil queue⟩
  · exact ⟨queue, ⟨inv.room, inv.tail, inv.holds, producer, rfl⟩, .nil queue⟩
  · next b head checking =>
    obtain ⟨rfl, proceeds⟩ := inv.look checking
    split_ifs with empty
    · obtain rfl := inv.head_eq_tail_iff.mp empty
      exact ⟨[], ⟨inv.room, inv.tail, inv.holds, producer, trivial⟩, .cons (.empty b) (.nil [])⟩
    · exact ⟨queue, proceeds empty, .nil queue⟩
  · next b access head reading =>
    have known := inv.consumer
    rw [ConsumerOk, reading] at known
    exact ⟨queue, ⟨inv.room, inv.tail, inv.holds, producer, known⟩, .nil queue⟩
  · next b result head reading =>
    obtain ⟨e, rest, rfl, rfl, after⟩ := inv.release reading
    exact ⟨rest, after, .cons (.took e rest b) (.nil rest)⟩

theorem step (inv : s.Inv layout queue) (action : Action E B) : ∃ queue', Inv layout (s.step layout action).1 queue' ∧
    Answers layout (size - 1) queue (s.step layout action).2.toList queue' := by
  cases action with
  | store e =>
      rw [State.step]
      split
      · next valid =>
        refine ⟨queue, ⟨inv.room, inv.tail, inv.holds, valid, ?_⟩, .nil queue⟩
        exact inv.consumer.of_producer rfl rfl fun _ first => ⟨first, rfl⟩
      · next invalid => exact ⟨queue, inv, .cons (.rejected queue e invalid) (.nil queue)⟩
      · exact ⟨queue, inv, .nil queue⟩
  | take b =>
      rw [State.step]
      split
      · refine ⟨queue, ⟨inv.room, inv.tail, inv.holds, ?_, trivial⟩, .nil queue⟩
        exact inv.producer.of_consumer rfl rfl rfl Nat.le.refl
      · exact ⟨queue, inv, .nil queue⟩
  | produce => exact inv.produce
  | consume => exact inv.consume

theorem run (inv : s.Inv layout queue) (schedule : List (Action E B)) :
    ∃ queue', Inv layout (s.run layout schedule).1 queue' ∧
      Answers layout (size - 1) queue (s.run layout schedule).2 queue' := by
  induction schedule generalizing s queue with
  | nil => exact ⟨queue, inv, .nil queue⟩
  | cons action schedule ih =>
      obtain ⟨middle, after, now⟩ := inv.step action
      obtain ⟨last, final, later⟩ := ih after
      exact ⟨last, final, now.append later⟩

end State.Inv

/-- An empty ring with both parties outside of calls. -/
theorem State.inv_nil (empty : s.head = s.tail) (producer : s.producer = .idle) (consumer : s.consumer = .idle) :
    s.Inv layout [] where
  room := s.head.pos
  tail := by rw [← empty, List.length_nil, Nat.add_zero, Nat.mod_eq_of_lt s.head.isLt]
  holds := by
    rintro i e ⟨⟩
  producer := by rw [ProducerOk, producer]; trivial
  consumer := by rw [ConsumerOk, consumer]; trivial

/-! ## Calls that nobody interrupts -/

/-- The number of accesses of a program that reads a slot. -/
def Reader.looks (slot : S) : Reader S R → ℕ
  | done _ => 0
  | look next => (next slot).looks slot + 1

namespace State

/-- Accesses outside of a call do nothing. -/
theorem run_replicate {action : Action E B} (still : s.step layout action = (s, none)) (n : ℕ) :
    s.run layout (List.replicate n action) = (s, []) := by
  induction n with
  | zero => rfl
  | succ n ih =>
      rw [List.replicate_succ, run, still]
      dsimp only
      rw [ih]
      rfl

theorem run_writing {e : E} {writes : List (S → S)} {tail : Fin size} {consumer : Consumer size S B R}
    (slots : Fin size → S) (head tail' : Fin size) :
    run layout ⟨slots, head, tail', .writing e writes tail, consumer⟩ (List.replicate (writes.length + 1) .produce) =
      (⟨Function.update slots tail (Spsc.stored writes (slots tail)), head, next tail, .idle, consumer⟩,
        [.stored e]) := by
  induction writes generalizing slots with
  | nil =>
      rw [Spsc.stored, List.foldl_nil, Function.update_eq_self]
      rfl
  | cons write writes ih =>
      rw [List.length_cons, List.replicate_succ, run]
      simp only [step, State.produce]
      rw [ih, Function.update_self, Function.update_idem]
      rfl

/-- A store that nobody interrupts. -/
theorem run_store {e : E} {writes : List (S → S)} (idle : s.producer = .idle) (valid : layout.stores e = some writes) :
    s.run layout (.store e :: List.replicate (writes.length + 3) .produce) =
      if next s.tail = s.head then (s, [.full e])
      else ({ s with
        slots := Function.update s.slots s.tail (Spsc.stored writes (s.slots s.tail)), tail := next s.tail },
        [.stored e]) := by
  obtain ⟨slots, head, tail, producer, consumer⟩ := s
  cases idle
  rw [run, step, valid]
  dsimp only
  rw [List.replicate_succ, run, step, State.produce]
  dsimp only
  rw [List.replicate_succ, run, step, State.produce]
  dsimp only
  split_ifs with full
  · dsimp only
    rw [run_replicate rfl]
    rfl
  · dsimp only
    rw [run_writing]
    rfl

theorem run_reading {b : B} {reader : Reader S R} {head : Fin size} {producer : Producer size S E}
    (slots : Fin size → S) (head' tail : Fin size) :
    run layout ⟨slots, head', tail, producer, .reading b reader head⟩
        (List.replicate (reader.looks (slots head) + 1) .consume) =
      (⟨slots, next head, tail, producer, .idle⟩, [.took b (reader.result (slots head))]) := by
  induction reader with
  | done result => rfl
  | look access ih =>
      rw [Reader.looks, List.replicate_succ, run]
      simp only [step, State.consume]
      rw [ih]
      rfl

/-- A take that nobody interrupts. -/
theorem run_take (layout : Layout S E B R) (b : B) (idle : s.consumer = .idle) :
    s.run layout (.take b :: List.replicate ((layout.reader b).looks (s.slots s.head) + 3) .consume) =
      if s.head = s.tail then (s, [.empty b])
      else ({ s with head := next s.head }, [.took b ((layout.reader b).result (s.slots s.head))]) := by
  obtain ⟨slots, head, tail, producer, consumer⟩ := s
  cases idle
  rw [run, step]
  dsimp only
  rw [List.replicate_succ, run, step, State.consume]
  dsimp only
  rw [List.replicate_succ, run, step, State.consume]
  dsimp only
  split_ifs with empty
  · dsimp only
    rw [run_replicate rfl]
    rfl
  · dsimp only
    rw [run_reading]
    rfl

end State

end Spsc
