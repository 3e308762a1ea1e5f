import Mathlib.Logic.Function.Basic
import Mathlib.Logic.Relation

/-! # Programs of atomic accesses

A program returns, or makes one atomic access to a shared state and goes on with what it saw. Threads take turns after
every access. At rest in a mode, a thread may start one of some programs, whose result is the mode that comes next.

`Wp` is the weakest condition under which a program keeps the thread's guarantee with each access and ends in a mode's
assertion, whatever the other threads do within the rely. If every guarantee is within the rely of the others, all
assertions hold in every interleaving.
-/

namespace Concurrent

inductive Prog (σ α : Type)
  | done (result : α)
  /-- One access: `update` is what it does to the shared state, `next` goes on with the state it saw. -/
  | access (next : σ → Prog σ α) (update : σ → σ)

namespace Prog

variable {σ α β ι : Type}

def bind : Prog σ α → (α → Prog σ β) → Prog σ β
  | done result, f => f result
  | access next update, f => access (fun s => (next s).bind f) update

instance : Monad (Prog σ) where
  pure := done
  bind := bind

/-- A read-modify-write. -/
def modifyGet (f : σ → α) (update : σ → σ) : Prog σ α := access (fun s => done (f s)) update

/-- A load. -/
def read (f : σ → α) : Prog σ α := modifyGet f id

/-- A store, or a read-modify-write whose old value is not used. -/
def modify (update : σ → σ) : Prog σ Unit := modifyGet (fun _ => ()) update

/-- A loop over a list. -/
def forEach (body : ι → Prog σ Unit) : List ι → Prog σ Unit
  | [] => done ()
  | item :: items => (body item).bind fun _ => forEach body items

end Prog

/-! ## Interference -/

/-- What each access of another thread may do, and what each access of the thread itself may do. -/
structure Interference (σ : Type) where
  rely : σ → σ → Prop
  guar : σ → σ → Prop

namespace Interference

variable {σ α β ι : Type} (inter : Interference σ)

/-- What the other threads do between two accesses of the thread. -/
def Env : σ → σ → Prop := Relation.ReflTransGen inter.rely

/-- Other threads keep `P`. -/
def Stable (P : σ → Prop) : Prop := ∀ s s', inter.rely s s' → P s → P s'

def Wp (Q : α → σ → Prop) : Prog σ α → σ → Prop
  | .done result, s => ∀ s', inter.Env s s' → Q result s'
  | .access next update, s => ∀ s', inter.Env s s' → inter.guar s' (update s') ∧ Wp Q (next s') (update s')

variable {inter} {P : σ → Prop} {Q : α → σ → Prop} {prog : Prog σ α} {s s' : σ}

theorem Stable.env (stable : inter.Stable P) (moved : inter.Env s s') (holds : P s) : P s' := by
  induction moved with
  | refl => exact holds
  | tail _ step ih => exact stable _ _ step ih

theorem Wp.stable (wp : inter.Wp Q prog s) (moved : inter.rely s s') : inter.Wp Q prog s' := by
  cases prog with
  | done result => exact fun s'' later => wp s'' (.head moved later)
  | access next update => exact fun s'' later => wp s'' (.head moved later)

theorem Wp.done {result : α} (stable : inter.Stable (Q result)) (holds : Q result s) :
    inter.Wp Q (.done result) s := fun _ moved => stable.env moved holds

/-- An access from a stable condition. -/
theorem Wp.modifyGet {f : σ → α} {update : σ → σ} (stable : inter.Stable P) (stable' : ∀ result, inter.Stable (Q result))
    (holds : P s) (step : ∀ s, P s → inter.guar s (update s) ∧ Q (f s) (update s)) :
    inter.Wp Q (Prog.modifyGet f update) s := by
  intro s' moved
  obtain ⟨kept, after⟩ := step s' (stable.env moved holds)
  exact ⟨kept, Wp.done (stable' _) after⟩

theorem Wp.seq {f : α → Prog σ β} {R : β → σ → Prop} (wp : inter.Wp Q prog s)
    (rest : ∀ result s, Q result s → inter.Wp R (f result) s) : inter.Wp R (prog.bind f) s := by
  induction prog generalizing s with
  | done result => exact rest result s (wp s .refl)
  | access next update ih =>
      intro s' moved
      obtain ⟨kept, after⟩ := wp s' moved
      exact ⟨kept, ih s' after⟩

/-- A loop that keeps a stable condition. -/
theorem Wp.forEach {body : ι → Prog σ Unit} {items : List ι} (stable : inter.Stable P) (holds : P s)
    (step : ∀ item ∈ items, ∀ s, P s → inter.Wp (fun _ => P) (body item) s) :
    inter.Wp (fun _ => P) (Prog.forEach body items) s := by
  induction items generalizing s with
  | nil => exact Wp.done stable holds
  | cons item items ih =>
      refine (step item List.mem_cons_self s holds).seq fun _ s' kept => ?_
      exact ih kept fun other member => step other (List.mem_cons_of_mem _ member)

end Interference

/-! ## Threads -/

/-- The shared state and how far each thread is. -/
structure Config (ι σ μ : Type) where
  shared : σ
  thread : ι → Prog σ μ

section Threads

variable {ι σ μ : Type}

/-- In the middle of a program. -/
def Config.Busy (c : Config ι σ μ) (i : ι) : Prop := ∀ mode, c.thread i ≠ .done mode

/-- A thread at rest starts a program of its mode, or its next access takes place. -/
inductive Config.Step [DecidableEq ι] (code : ι → μ → Prog σ μ → Prop) (i : ι) (c : Config ι σ μ) : Config ι σ μ → Prop
  | start {mode : μ} {prog : Prog σ μ} (rests : c.thread i = .done mode) (starts : code i mode prog) :
      Step code i c { c with thread := Function.update c.thread i prog }
  | access {next : σ → Prog σ μ} {update : σ → σ} (here : c.thread i = .access next update) :
      Step code i c ⟨update c.shared, Function.update c.thread i (next c.shared)⟩

/-- Every interleaving of some threads. -/
def Config.Reach [DecidableEq ι] (code : ι → μ → Prog σ μ → Prop) (moving : ι → Prop) :
    Config ι σ μ → Config ι σ μ → Prop :=
  Relation.ReflTransGen fun c c' => ∃ i, moving i ∧ Config.Step code i c c'

/-- A proof outline: an assertion for each mode of each thread, from which every program of the mode is verified. -/
structure Outline (code : ι → μ → Prog σ μ → Prop) where
  inter : ι → Interference σ
  rest : ι → μ → σ → Prop
  fits : ∀ i j s s', i ≠ j → (inter i).guar s s' → (inter j).rely s s'
  verified : ∀ i mode prog s, code i mode prog → rest i mode s → (inter i).Wp (rest i) prog s

namespace Outline

variable {code : ι → μ → Prog σ μ → Prop} {outline : Outline code} {c c' : Config ι σ μ}

/-- All threads are within the outline. -/
def Holds (outline : Outline code) (c : Config ι σ μ) : Prop :=
  ∀ i, (outline.inter i).Wp (outline.rest i) (c.thread i) c.shared

/-- A thread at rest is in the assertion of its mode. -/
theorem Holds.at_rest {i : ι} {mode : μ} (holds : outline.Holds c) (rests : c.thread i = .done mode) :
    outline.rest i mode c.shared := by
  have here := holds i
  rw [rests] at here
  exact here c.shared .refl

theorem Holds.step [DecidableEq ι] {i : ι} (holds : outline.Holds c) (step : Config.Step code i c c') :
    outline.Holds c' ∧ ∀ j, j ≠ i → (outline.inter j).Env c.shared c'.shared := by
  have moved (prog : Prog σ μ) (s : σ) := (Function.forall_update_iff c.thread (a := i) (b := prog)
    fun j prog => (outline.inter j).Wp (outline.rest j) prog s).mpr
  cases step with
  | @start mode prog rests starts =>
      have own := outline.verified i mode prog c.shared starts (holds.at_rest rests)
      exact ⟨moved _ _ ⟨own, fun j _ => holds j⟩, fun _ _ => .refl⟩
  | @access next update here =>
      have moves := holds i
      rw [here] at moves
      obtain ⟨kept, own⟩ := moves c.shared .refl
      have others (j : ι) (other : j ≠ i) := outline.fits i j _ _ (Ne.symm other) kept
      exact ⟨moved _ _ ⟨own, fun j other => (holds j).stable (others j other)⟩, fun j other => .single (others j other)⟩

/-- The outline holds in every interleaving, which a thread that does not move sees as its environment. -/
theorem Holds.reach [DecidableEq ι] {moving : ι → Prop} (holds : outline.Holds c) (reach : Config.Reach code moving c c') :
    outline.Holds c' ∧ ∀ j, ¬moving j → (outline.inter j).Env c.shared c'.shared := by
  induction reach with
  | refl => exact ⟨holds, fun _ _ => .refl⟩
  | tail _ step ih =>
      obtain ⟨i, moves, step⟩ := step
      obtain ⟨after, kept⟩ := ih.1.step step
      refine ⟨after, fun j stays => (ih.2 j stays).trans (kept j ?_)⟩
      rintro rfl
      exact stays moves

end Outline

end Threads

end Concurrent
