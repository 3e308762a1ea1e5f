import Mathlib.Data.BitVec
import Mathlib.Data.Finset.Lattice.Basic

/-! # Atomic words and the events they publish

Operations on one atomic word happen one after the other. With its value the word keeps a view: the events that
happen before whoever acquires the value. A thread keeps the events that happen before its next one, publishes
them with a store that releases and takes over those of the word with a load that acquires.
-/

inductive MemOrder
  | relaxed
  | acquire
  | release
deriving DecidableEq, Repr

structure AtomicWord (w : ℕ) (ε : Type) where
  value : BitVec w
  view : Finset ε

namespace AtomicWord

variable {w : ℕ} {ε : Type} [DecidableEq ε]

def new (value : BitVec w) : AtomicWord w ε := ⟨value, ∅⟩

/-- The value, and what then happens before the reader's next event. -/
def load (word : AtomicWord w ε) (order : MemOrder) (seen : Finset ε) : BitVec w × Finset ε :=
  (word.value, if order = .acquire then seen ∪ word.view else seen)

def store (value : BitVec w) (order : MemOrder) (seen : Finset ε) : AtomicWord w ε :=
  ⟨value, if order = .release then seen else ∅⟩

/-- The previous value, what then happens before the caller's next event, and the word. The new value keeps the view
of the previous one, since a read-modify-write continues its release sequence. -/
def fetchAdd (word : AtomicWord w ε) (delta : BitVec w) (order : MemOrder) (seen : Finset ε) :
    (BitVec w × Finset ε) × AtomicWord w ε :=
  (word.load order seen, ⟨word.value + delta, if order = .release then word.view ∪ seen else word.view⟩)

@[simp] theorem load_acquire (word : AtomicWord w ε) (seen : Finset ε) :
    word.load .acquire seen = (word.value, seen ∪ word.view) := rfl

end AtomicWord
