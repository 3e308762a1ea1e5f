import Hypervisor.Atomic.Basic
import Hypervisor.Model.Defs
import Mathlib.Logic.Function.Basic

/-! # The ticket lock

`sync.rs`: a thread draws a ticket with `fetch_add`, loads `now_serving` until it shows the ticket, and then has a
guard, through which the data is reached. Dropping the guard stores the next ticket. A guard is an ordinary value: it
can be sent to another thread, and a thread that has one can call `lock` again. `LockUse` is a lock with the threads
inside `lock()` and the guards that exist; each of its operations is one atomic access of the code.
-/

namespace Hypervisor

/-- How the sums of the code are compiled: checked, or wrapping. -/
inductive Profile
  | dev
  | release
deriving DecidableEq, Repr

/-- `x + y`; `none` is a panic. -/
def Profile.add (profile : Profile) (x y : U32) : Option U32 :=
  match profile with
  | .dev => checkedAddU32 x y
  | .release => some (x + y)

structure SpinLock (α : Type) where
  nextTicket : AtomicWord 32 ℕ
  nowServing : AtomicWord 32 ℕ
  data : α

def SpinLock.new {α : Type} (data : α) : SpinLock α := ⟨.new 0, .new 0, data⟩

/-- A thread inside `lock()`, after `fetch_add`. -/
structure Waiter where
  ticket : U32
  /-- Ghost: how many tickets were drawn before. -/
  turn : ℕ
deriving DecidableEq, Repr

structure SpinLockGuard (τ : Type) where
  /-- Ghost: the thread that has the guard. -/
  owner : τ
  ticket : U32
  /-- Ghost: how many tickets were drawn before. -/
  turn : ℕ
deriving DecidableEq, Repr

structure LockUse (τ α : Type) where
  lock : SpinLock α
  inside : τ → Option Waiter
  guards : List (SpinLockGuard τ)
  /-- Ghost: the accesses to the data that happen before a thread's next event. -/
  seen : τ → Finset ℕ
  /-- Ghost: the threads that drew a ticket, in the order of their tickets. -/
  drawn : List τ
  /-- Ghost: the threads whose call of `lock` returned, in this order. -/
  granted : List τ
  /-- Ghost: the turns of the guards that were dropped. -/
  dropped : List ℕ
  /-- Ghost: the turn of the guard of each access to the data. -/
  accesses : List ℕ

/-- One access of the code to memory that threads share, or the hand-over of a guard. -/
inductive LockOp (τ α : Type)
  | fetchAdd (thread : τ)
  | load (thread : τ)
  | derefMut (guard : SpinLockGuard τ) (f : α → α)
  | send (guard : SpinLockGuard τ) (receiver : τ)
  | drop (guard : SpinLockGuard τ)

namespace LockUse

variable {τ α : Type} [DecidableEq τ]

def new (data : α) : LockUse τ α := ⟨.new data, fun _ => none, [], fun _ => ∅, [], [], [], []⟩

/-- The first line of `lock`. -/
def fetchAdd (use : LockUse τ α) (thread : τ) : LockUse τ α :=
  let out := use.lock.nextTicket.fetchAdd 1 .relaxed (use.seen thread)
  { use with
    lock := { use.lock with nextTicket := out.2 }
    inside := Function.update use.inside thread (some ⟨out.1.1, use.drawn.length⟩)
    seen := Function.update use.seen thread out.1.2
    drawn := use.drawn ++ [thread] }

/-- One round of the loop of `lock`. -/
def load (use : LockUse τ α) (thread : τ) : LockUse τ α :=
  match use.inside thread with
  | none => use
  | some waiter =>
      let out := use.lock.nowServing.load .acquire (use.seen thread)
      let use := { use with seen := Function.update use.seen thread out.2 }
      if out.1 ≠ waiter.ticket then use
      else { use with
        inside := Function.update use.inside thread none
        guards := ⟨thread, waiter.ticket, waiter.turn⟩ :: use.guards
        granted := use.granted ++ [thread] }

/-- An access to the data through a guard. -/
def derefMut (use : LockUse τ α) (guard : SpinLockGuard τ) (f : α → α) : LockUse τ α :=
  { use with
    lock := { use.lock with data := f use.lock.data }
    seen := Function.update use.seen guard.owner (insert use.accesses.length (use.seen guard.owner))
    accesses := use.accesses ++ [guard.turn] }

/-- A guard is moved to another thread, which goes on after the sender. -/
def send (use : LockUse τ α) (guard : SpinLockGuard τ) (receiver : τ) : LockUse τ α :=
  { use with
    guards := { guard with owner := receiver } :: use.guards.erase guard
    seen := Function.update use.seen receiver (use.seen receiver ∪ use.seen guard.owner) }

def drop (profile : Profile) (use : LockUse τ α) (guard : SpinLockGuard τ) : Option (LockUse τ α) := do
  let ticket ← profile.add guard.ticket 1
  return { use with
    lock := { use.lock with nowServing := .store ticket .release (use.seen guard.owner) }
    guards := use.guards.erase guard
    dropped := use.dropped ++ [guard.turn] }

/-- A thread calls `lock` again only when its last call returned; a guard is used as long as it exists. -/
def Permits (use : LockUse τ α) : LockOp τ α → Prop
  | .fetchAdd thread => use.inside thread = none
  | .load thread => use.inside thread ≠ none
  | .derefMut guard _ => guard ∈ use.guards
  | .send guard _ => guard ∈ use.guards
  | .drop guard => guard ∈ use.guards

def step (profile : Profile) (use : LockUse τ α) : LockOp τ α → Option (LockUse τ α)
  | .fetchAdd thread => some (use.fetchAdd thread)
  | .load thread => some (use.load thread)
  | .derefMut guard f => some (use.derefMut guard f)
  | .send guard receiver => some (use.send guard receiver)
  | .drop guard => use.drop profile guard

/-- The states that some interleaving reaches. -/
inductive Reached (profile : Profile) : LockUse τ α → Prop
  | new (data : α) : Reached profile (new data)
  | step {use use' : LockUse τ α} (op : LockOp τ α) : Reached profile use → use.Permits op →
      use.step profile op = some use' → Reached profile use'

end LockUse

end Hypervisor
