import Mathlib.Logic.Basic

/-! # Programs that read a memory

A program is a tree: it is done, with a value or an error, or it reads one cell and goes on with what
it found. Its result and the cells it reads are two evaluations of the same tree, so what is logged
is what the result depends on: memories that agree on the cells read give the same result.
-/

/-- A program that reads cells `B` at addresses `A`, and returns an `α` or fails with an `ε`. -/
inductive ReadTree (A B ε α : Type) where
  | done (result : Except ε α)
  | read (a : A) (next : B → ReadTree A B ε α)

namespace ReadTree

variable {A B ε α β : Type}

def bind : ReadTree A B ε α → (α → ReadTree A B ε β) → ReadTree A B ε β
  | done (.ok x), k => k x
  | done (.error e), _ => done (.error e)
  | read a next, k => read a fun b => (next b).bind k

instance : Monad (ReadTree A B ε) where
  pure x := done (.ok x)
  bind := bind

/-- Read one cell. -/
def cell (a : A) : ReadTree A B ε B := read a fun b => done (.ok b)

def fail (e : ε) : ReadTree A B ε α := done (.error e)

/-- The same program with other errors. -/
def mapError {ε' : Type} (f : ε → ε') : ReadTree A B ε α → ReadTree A B ε' α
  | done result => done (result.mapError f)
  | read a next => read a fun b => (next b).mapError f

/-- What the program returns. -/
def result (mem : A → B) : ReadTree A B ε α → Except ε α
  | done r => r
  | read a next => (next (mem a)).result mem

/-- The cells that the program reads, in order. -/
def cells (mem : A → B) : ReadTree A B ε α → List A
  | done _ => []
  | read a next => a :: (next (mem a)).cells mem

section Rules

variable {mem mem' : A → B}

@[simp] theorem result_pure (x : α) : result mem (pure x : ReadTree A B ε α) = .ok x := rfl
@[simp] theorem cells_pure (x : α) : cells mem (pure x : ReadTree A B ε α) = [] := rfl
@[simp] theorem result_fail (e : ε) : result mem (fail e : ReadTree A B ε α) = .error e := rfl
@[simp] theorem cells_fail (e : ε) : cells mem (fail e : ReadTree A B ε α) = [] := rfl
@[simp] theorem result_cell (a : A) : result mem (cell a : ReadTree A B ε B) = .ok (mem a) := rfl
@[simp] theorem cells_cell (a : A) : cells mem (cell a : ReadTree A B ε B) = [a] := rfl

theorem result_bind (t : ReadTree A B ε α) (k : α → ReadTree A B ε β) :
    result mem (t >>= k) = (result mem t).bind fun x => result mem (k x) := by
  induction t with
  | done r => cases r <;> rfl
  | read a next ih => exact ih (mem a)

/-- A program that returns is followed by the rest. -/
theorem result_bind_of_ok {t : ReadTree A B ε α} {x : α} (returns : result mem t = .ok x)
    (k : α → ReadTree A B ε β) : result mem (t >>= k) = result mem (k x) := by
  rw [result_bind, returns]
  rfl

theorem cells_bind_of_ok {t : ReadTree A B ε α} {x : α} (returns : result mem t = .ok x)
    (k : α → ReadTree A B ε β) : cells mem (t >>= k) = cells mem t ++ cells mem (k x) := by
  induction t with
  | done r =>
    obtain rfl : r = .ok x := returns
    rfl
  | read a next ih => exact congrArg (a :: ·) (ih (mem a) returns)

/-- Work on the value reads nothing. -/
theorem cells_bind_pure (t : ReadTree A B ε α) (f : α → β) :
    cells mem (t >>= fun x => pure (f x)) = cells mem t := by
  induction t with
  | done r => cases r <;> rfl
  | read a next ih => exact congrArg (a :: ·) (ih (mem a))

/-- What holds of the cells of a sequence holds of the cells of its parts. -/
theorem forall_cells_bind {t : ReadTree A B ε α} {x : α} (returns : result mem t = .ok x)
    (k : α → ReadTree A B ε β) {P : A → Prop} :
    (∀ a ∈ cells mem (t >>= k), P a) ↔ (∀ a ∈ cells mem t, P a) ∧ ∀ a ∈ cells mem (k x), P a := by
  rw [cells_bind_of_ok returns, List.forall_mem_append]

/-- The result depends on the cells read and on nothing else. -/
theorem result_congr (t : ReadTree A B ε α) (agree : ∀ a ∈ cells mem t, mem' a = mem a) :
    result mem' t = result mem t := by
  induction t with
  | done r => rfl
  | read a next ih =>
    change result mem' (next (mem' a)) = result mem (next (mem a))
    rw [agree a (List.mem_cons_self ..)]
    exact ih (mem a) fun other member => agree other (List.mem_cons_of_mem _ member)

section MapError

variable {ε' : Type} (f : ε → ε')

theorem result_mapError (t : ReadTree A B ε α) : result mem (t.mapError f) = (result mem t).mapError f := by
  induction t with
  | done r => rfl
  | read a next ih => exact ih (mem a)

theorem cells_mapError (t : ReadTree A B ε α) : cells mem (t.mapError f) = cells mem t := by
  induction t with
  | done r => rfl
  | read a next ih => exact congrArg (a :: ·) (ih (mem a))

theorem mapError_bind (t : ReadTree A B ε α) (k : α → ReadTree A B ε β) :
    (t >>= k).mapError f = t.mapError f >>= fun x => (k x).mapError f := by
  induction t with
  | done r => cases r <;> rfl
  | read a next ih => exact congrArg (read a) (funext ih)

end MapError

end Rules

end ReadTree
