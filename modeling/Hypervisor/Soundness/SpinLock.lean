import Hypervisor.Model.SpinLock
import Hypervisor.Ring.Basic
import Mathlib.Data.Fintype.Card
import Mathlib.Order.Interval.Finset.Nat

/-! # Soundness of the ticket lock

The counters wrap, so a ticket names a turn only up to `2 ^ 32`. The turns that were drawn and not yet granted all
belong to threads inside `lock()`, one each. With fewer than `2 ^ 32` threads they and the turn of the guard lie
within one round of the counters, and the ticket that is served names the first of them only. That is for sums that
wrap; where they are checked, the lock serves each ticket once and stops at the largest.
-/

namespace Hypervisor

namespace LockUse

variable {τ α : Type} {use use' : LockUse τ α}

structure Sound (use : LockUse τ α) : Prop where
  next : use.lock.nextTicket.value = BitVec.ofNat 32 use.drawn.length
  serving : use.lock.nowServing.value = BitVec.ofNat 32 use.dropped.length
  dropped_eq : use.dropped = List.range use.dropped.length
  single : use.guards.length ≤ 1
  guard : ∀ guard ∈ use.guards, guard.turn = use.dropped.length ∧ guard.ticket = BitVec.ofNat 32 guard.turn
  granted_length : use.granted.length = use.dropped.length + use.guards.length
  granted_prefix : use.granted <+: use.drawn
  waiter : ∀ thread waiter, use.inside thread = some waiter → waiter.ticket = BitVec.ofNat 32 waiter.turn ∧
    use.granted.length ≤ waiter.turn ∧ use.drawn[waiter.turn]? = some thread
  queued : ∀ turn, use.granted.length ≤ turn → turn < use.drawn.length →
    ∃ thread waiter, use.inside thread = some waiter ∧ waiter.turn = turn
  published : use.guards = [] → ∀ i < use.accesses.length, i ∈ use.lock.nowServing.view
  held : ∀ guard ∈ use.guards, ∀ i < use.accesses.length, i ∈ use.seen guard.owner
  accessed : ∀ turn ∈ use.accesses, turn < use.granted.length

theorem sound_new [DecidableEq τ] (data : α) : (new data : LockUse τ α).Sound := by
  refine ⟨rfl, rfl, rfl, Nat.zero_le 1, ?_, rfl, List.prefix_rfl, ?_, ?_, ?_, ?_, ?_⟩
  · exact fun _ member => absurd member List.not_mem_nil
  · rintro thread waiter ⟨⟩
  · intro turn _ high
    exact absurd high (Nat.not_lt_zero turn)
  · exact fun _ i bound => absurd bound (Nat.not_lt_zero i)
  · exact fun _ member => absurd member List.not_mem_nil
  · exact fun _ member => absurd member List.not_mem_nil

/-- There is no other guard. -/
theorem Sound.guards_eq (sound : use.Sound) {guard : SpinLockGuard τ} (member : guard ∈ use.guards) :
    use.guards = [guard] := by
  have single := sound.single
  cases guards : use.guards with
  | nil =>
    rw [guards] at member
    cases member
  | cons first rest =>
    rw [guards, List.length_cons] at single
    obtain rfl : rest = [] := List.length_eq_zero_iff.mp (by omega)
    rw [guards] at member
    rw [List.mem_singleton.mp member]

/-! ## One round of the counters -/

/-- The turns that are not yet granted belong to different threads. -/
theorem Sound.drawn_le [Fintype τ] (sound : use.Sound) :
    use.drawn.length ≤ use.granted.length + Fintype.card τ := by
  classical
  let turn (thread : τ) : ℕ := ((use.inside thread).map (·.turn)).getD 0
  have covered : Finset.Ico use.granted.length use.drawn.length ⊆ Finset.univ.image turn := by
    intro n member
    obtain ⟨low, high⟩ := Finset.mem_Ico.mp member
    obtain ⟨thread, waiter, inside, same⟩ := sound.queued n low high
    refine Finset.mem_image.mpr ⟨thread, Finset.mem_univ thread, ?_⟩
    simp only [turn, inside, Option.map_some, Option.getD_some, same]
  have count := (Finset.card_le_card covered).trans Finset.card_image_le
  rw [Nat.card_Ico, Finset.card_univ] at count
  omega

/-- The ticket that is served is that of one waiting thread, and only while there is no guard. -/
theorem Sound.turn_eq [Fintype τ] (few : Fintype.card τ < 2 ^ 32) (sound : use.Sound) {thread : τ} {waiter : Waiter}
    (inside : use.inside thread = some waiter) (served : use.lock.nowServing.value = waiter.ticket) :
    waiter.turn = use.dropped.length ∧ use.guards = [] := by
  obtain ⟨ticket, low, drawn⟩ := sound.waiter thread waiter inside
  obtain ⟨high, -⟩ := List.getElem?_eq_some_iff.mp drawn
  have window := sound.drawn_le
  have granted := sound.granted_length
  have single := sound.single
  have same : use.dropped.length % 2 ^ 32 = waiter.turn % 2 ^ 32 := by
    rw [sound.serving, ticket] at served
    exact congrArg BitVec.toNat served
  have round : (use.dropped.length + 0) % 2 ^ 32 =
      (use.dropped.length + (waiter.turn - use.dropped.length)) % 2 ^ 32 := by
    rwa [Nat.add_zero, Nat.add_sub_cancel' (by omega : use.dropped.length ≤ waiter.turn)]
  have zero := Ring.slot_injective (by decide) (by omega) round
  refine ⟨by omega, List.length_eq_zero_iff.mp (by omega)⟩

/-! ## Steps -/

section Steps

variable [DecidableEq τ]

theorem ofNat_succ (n : ℕ) : BitVec.ofNat 32 (n + 1) = BitVec.ofNat 32 n + 1 := BitVec.ofNat_add n 1

theorem getElem?_append_of_some {β : Type} {xs ys : List β} {i : ℕ} {x : β} (found : xs[i]? = some x) :
    (xs ++ ys)[i]? = some x := by
  obtain ⟨bound, -⟩ := List.getElem?_eq_some_iff.mp found
  rwa [List.getElem?_append_left bound]

theorem prefix_concat {β : Type} {xs ys : List β} {x : β} (le : xs <+: ys) (next : ys[xs.length]? = some x) :
    xs ++ [x] <+: ys := by
  obtain ⟨rest, rfl⟩ := le
  rw [List.getElem?_append_right (Nat.le_refl _), Nat.sub_self] at next
  cases rest with
  | nil => cases next
  | cons head tail =>
    cases next
    exact ⟨tail, List.append_assoc _ _ _⟩

theorem Sound.fetchAdd (sound : use.Sound) {thread : τ} (outside : use.inside thread = none) :
    (use.fetchAdd thread).Sound := by
  have length : (use.fetchAdd thread).drawn.length = use.drawn.length + 1 := List.length_append
  have inside : (use.fetchAdd thread).inside =
      Function.update use.inside thread (some ⟨use.lock.nextTicket.value, use.drawn.length⟩) := rfl
  have seen : (use.fetchAdd thread).seen = use.seen := Function.update_eq_self _ _
  refine { sound with next := ?_, granted_prefix := ?_, waiter := ?_, queued := ?_, held := ?_ }
  · rw [length, ofNat_succ, ← sound.next]
    rfl
  · exact sound.granted_prefix.trans (List.prefix_append _ _)
  · intro other waiter member
    rw [inside, Function.update_apply] at member
    split_ifs at member with same
    · cases member
      rw [same]
      exact ⟨sound.next, sound.granted_prefix.length_le, List.getElem?_concat_length⟩
    · obtain ⟨ticket, low, drawn⟩ := sound.waiter other waiter member
      exact ⟨ticket, low, getElem?_append_of_some drawn⟩
  · intro turn low high
    rw [length] at high
    rw [inside]
    rcases Nat.lt_succ_iff_lt_or_eq.mp high with old | rfl
    · obtain ⟨other, waiter, member, same⟩ := sound.queued turn low old
      have apart : other ≠ thread := by
        rintro rfl
        cases outside.symm.trans member
      exact ⟨other, waiter, (Function.update_of_ne apart _ _).trans member, same⟩
    · exact ⟨thread, _, Function.update_self _ _ _, rfl⟩
  · intro guard member
    rw [seen]
    exact sound.held guard member

/-- What happens before a thread's next event only grows. -/
theorem Sound.see (sound : use.Sound) (thread : τ) {events : Finset ℕ} (more : use.seen thread ⊆ events) :
    { use with seen := Function.update use.seen thread events }.Sound := by
  refine { sound with held := fun guard member i bound => ?_ }
  have old := sound.held guard member i bound
  dsimp only
  rw [Function.update_apply]
  split_ifs with same
  · exact more (same ▸ old)
  · exact old

theorem Sound.grant (sound : use.Sound) {thread : τ} {waiter : Waiter} (inside : use.inside thread = some waiter)
    (turn : waiter.turn = use.dropped.length) (free : use.guards = [])
    (acquired : use.lock.nowServing.view ⊆ use.seen thread) :
    { use with
      inside := Function.update use.inside thread none
      guards := ⟨thread, waiter.ticket, waiter.turn⟩ :: use.guards
      granted := use.granted ++ [thread] : LockUse τ α }.Sound := by
  obtain ⟨ticket, -, drawn⟩ := sound.waiter thread waiter inside
  have count : use.granted.length = use.dropped.length := by
    rw [sound.granted_length, free]
    rfl
  have length : (use.granted ++ [thread]).length = use.granted.length + 1 := List.length_append
  rw [free]
  refine { sound with
    single := Nat.le_refl 1, guard := ?_, granted_length := ?_, granted_prefix := ?_, waiter := ?_, queued := ?_,
    published := ?_, held := ?_, accessed := ?_ }
  · intro guard member
    cases List.mem_singleton.mp member
    exact ⟨turn, ticket⟩
  · rw [length, count]
    rfl
  · apply prefix_concat sound.granted_prefix
    rwa [count, ← turn]
  · intro other waiting member
    dsimp only at member ⊢
    rw [Function.update_apply] at member
    split_ifs at member with same
    obtain ⟨otherTicket, low, otherDrawn⟩ := sound.waiter other waiting member
    refine ⟨otherTicket, ?_, otherDrawn⟩
    rw [length]
    have differ : waiting.turn ≠ waiter.turn := by
      intro eq
      rw [eq] at otherDrawn
      exact same (Option.some.inj (otherDrawn.symm.trans drawn))
    omega
  · intro n low high
    dsimp only at low ⊢
    rw [length] at low
    obtain ⟨other, waiting, member, eq⟩ := sound.queued n (by omega) high
    have apart : other ≠ thread := by
      rintro rfl
      cases member.symm.trans inside
      omega
    exact ⟨other, waiting, (Function.update_of_ne apart _ _).trans member, eq⟩
  · rintro ⟨⟩
  · intro guard member i bound
    cases List.mem_singleton.mp member
    exact acquired (sound.published free i bound)
  · intro n member
    have old := sound.accessed n member
    dsimp only
    rw [length]
    omega

/-- A round of the loop that sees the ticket. -/
theorem load_of_served {thread : τ} {waiter : Waiter} (inside : use.inside thread = some waiter)
    (served : use.lock.nowServing.value = waiter.ticket) :
    use.load thread = { use with
      inside := Function.update use.inside thread none
      guards := ⟨thread, waiter.ticket, waiter.turn⟩ :: use.guards
      seen := Function.update use.seen thread (use.seen thread ∪ use.lock.nowServing.view)
      granted := use.granted ++ [thread] } := by
  simp only [LockUse.load, inside, AtomicWord.load_acquire]
  exact if_neg (not_not.mpr served)

/-- A round of the loop that does not. -/
theorem load_of_not_served {thread : τ} {waiter : Waiter} (inside : use.inside thread = some waiter)
    (other : use.lock.nowServing.value ≠ waiter.ticket) :
    use.load thread =
      { use with seen := Function.update use.seen thread (use.seen thread ∪ use.lock.nowServing.view) } := by
  simp only [LockUse.load, inside, AtomicWord.load_acquire]
  exact if_pos other

theorem Sound.load [Fintype τ] (few : Fintype.card τ < 2 ^ 32) (sound : use.Sound) {thread : τ}
    (waits : use.inside thread ≠ none) : (use.load thread).Sound := by
  obtain ⟨waiter, inside⟩ := Option.ne_none_iff_exists'.mp waits
  have more : use.seen thread ⊆ use.seen thread ∪ use.lock.nowServing.view := Finset.subset_union_left
  by_cases served : use.lock.nowServing.value = waiter.ticket
  · obtain ⟨turn, free⟩ := sound.turn_eq few inside served
    rw [load_of_served inside served]
    refine (sound.see thread more).grant inside turn free ?_
    dsimp only
    rw [Function.update_self]
    exact Finset.subset_union_right
  · rw [load_of_not_served inside served]
    exact sound.see thread more

theorem Sound.derefMut (sound : use.Sound) {guard : SpinLockGuard τ} (member : guard ∈ use.guards) (f : α → α) :
    (use.derefMut guard f).Sound := by
  have guards := sound.guards_eq member
  have length : (use.derefMut guard f).accesses.length = use.accesses.length + 1 := List.length_append
  refine { sound with published := ?_, held := ?_, accessed := ?_ }
  · intro free
    cases guards.symm.trans free
  · intro other inUse i bound
    obtain rfl : other = guard := List.mem_singleton.mp (guards ▸ inUse)
    rw [length] at bound
    simp only [LockUse.derefMut, Function.update_self, Finset.mem_insert]
    rcases Nat.lt_succ_iff_lt_or_eq.mp bound with old | rfl
    · exact .inr (sound.held other member i old)
    · exact .inl rfl
  · intro turn accessed
    rcases List.mem_append.mp accessed with old | new
    · exact sound.accessed turn old
    · obtain rfl := List.mem_singleton.mp new
      have count := sound.granted_length
      rw [guards, List.length_singleton] at count
      have served := (sound.guard guard member).1
      simp only [LockUse.derefMut]
      omega

theorem Sound.send (sound : use.Sound) {guard : SpinLockGuard τ} (member : guard ∈ use.guards) (receiver : τ) :
    (use.send guard receiver).Sound := by
  have guards := sound.guards_eq member
  have after : (use.send guard receiver).guards = [{ guard with owner := receiver }] := by
    rw [LockUse.send, guards, List.erase_cons_head]
  refine { sound with single := ?_, guard := ?_, granted_length := ?_, published := ?_, held := ?_ }
  · rw [after, List.length_singleton]
  · intro other inUse
    rw [after] at inUse
    cases List.mem_singleton.mp inUse
    exact sound.guard guard member
  · have count := sound.granted_length
    rw [guards] at count
    rw [after]
    exact count
  · intro free
    cases after.symm.trans free
  · intro other inUse i bound
    rw [after] at inUse
    cases List.mem_singleton.mp inUse
    simp only [LockUse.send, Function.update_self, Finset.mem_union]
    exact .inr (sound.held guard member i bound)

theorem Sound.drop (sound : use.Sound) {guard : SpinLockGuard τ} (member : guard ∈ use.guards)
    (run : use.drop .release guard = some use') : use'.Sound := by
  have guards := sound.guards_eq member
  obtain ⟨turn, ticket⟩ := sound.guard guard member
  cases run
  have after : use.guards.erase guard = [] := by rw [guards, List.erase_cons_head]
  have length : (use.dropped ++ [guard.turn]).length = use.dropped.length + 1 := List.length_append
  rw [after]
  refine { sound with
    serving := ?_, dropped_eq := ?_, single := Nat.zero_le 1, guard := ?_, granted_length := ?_, published := ?_,
    held := ?_ }
  · dsimp only
    rw [length, ofNat_succ, ← turn, ← ticket]
    rfl
  · dsimp only
    rw [length, List.range_succ, ← sound.dropped_eq, turn]
  · exact fun _ inUse => absurd inUse List.not_mem_nil
  · have count := sound.granted_length
    rw [guards] at count
    dsimp only
    rw [length]
    exact count
  · intro _ i bound
    exact sound.held guard member i bound
  · exact fun _ inUse => absurd inUse List.not_mem_nil

theorem Reached.sound [Fintype τ] (few : Fintype.card τ < 2 ^ 32) (reached : Reached .release use) : use.Sound := by
  induction reached with
  | new data => exact sound_new data
  | step op _ permits step sound =>
    cases op with
    | fetchAdd thread =>
      cases step
      exact sound.fetchAdd permits
    | load thread =>
      cases step
      exact sound.load few permits
    | derefMut guard f =>
      cases step
      exact sound.derefMut permits f
    | send guard receiver =>
      cases step
      exact sound.send permits receiver
    | drop guard => exact sound.drop permits step

end Steps

/-! ## The lock -/

structure Correct [DecidableEq τ] (use : LockUse τ α) : Prop where
  exclusive : use.guards.length ≤ 1
  /-- The lock is granted in the order of the tickets. -/
  ordered : use.granted <+: use.drawn
  /-- The next load of a thread sees its ticket once all guards before its turn were dropped. -/
  granted : ∀ thread waiter, use.inside thread = some waiter → (∀ turn < waiter.turn, turn ∈ use.dropped) →
    ⟨thread, waiter.ticket, waiter.turn⟩ ∈ (use.load thread).guards
  /-- While there is no guard, a thread that waits is the next one. -/
  progress : use.guards = [] → (∃ thread, use.inside thread ≠ none) →
    ∃ thread waiter, use.inside thread = some waiter ∧ ∀ turn < waiter.turn, turn ∈ use.dropped
  /-- Every access to the data so far was made in an earlier turn or with this guard, and happens before the next event
  of who has the guard. -/
  happensBefore : ∀ guard ∈ use.guards, ∀ i turn, use.accesses[i]? = some turn →
    turn ≤ guard.turn ∧ i ∈ use.seen guard.owner
  /-- No operation panics. -/
  returns : ∀ op, use.Permits op → (use.step .release op).isSome

theorem Sound.mem_dropped_iff (sound : use.Sound) {turn : ℕ} : turn ∈ use.dropped ↔ turn < use.dropped.length := by
  rw [sound.dropped_eq, List.mem_range, List.length_range]

theorem Sound.served (sound : use.Sound) {thread : τ} {waiter : Waiter} (inside : use.inside thread = some waiter)
    (earlier : ∀ turn < waiter.turn, turn ∈ use.dropped) : use.lock.nowServing.value = waiter.ticket := by
  obtain ⟨ticket, low, -⟩ := sound.waiter thread waiter inside
  have count := sound.granted_length
  have turn : waiter.turn = use.dropped.length := by
    rcases Nat.lt_or_ge use.dropped.length waiter.turn with later | le
    · exact absurd (sound.mem_dropped_iff.mp (earlier _ later)) (Nat.lt_irrefl _)
    · omega
  rw [sound.serving, ticket, turn]

theorem Sound.progress (sound : use.Sound) (free : use.guards = []) (waits : ∃ thread, use.inside thread ≠ none) :
    ∃ thread waiter, use.inside thread = some waiter ∧ ∀ turn < waiter.turn, turn ∈ use.dropped := by
  obtain ⟨thread, busy⟩ := waits
  obtain ⟨waiter, inside⟩ := Option.ne_none_iff_exists'.mp busy
  obtain ⟨-, low, drawn⟩ := sound.waiter thread waiter inside
  obtain ⟨high, -⟩ := List.getElem?_eq_some_iff.mp drawn
  have count := sound.granted_length
  rw [free, List.length_nil, Nat.add_zero] at count
  obtain ⟨first, next, member, turn⟩ := sound.queued use.granted.length (Nat.le_refl _) (by omega)
  exact ⟨first, next, member, fun earlier lt => sound.mem_dropped_iff.mpr (by omega)⟩

theorem ticket_lock_correct [DecidableEq τ] [Fintype τ] (few : Fintype.card τ < 2 ^ 32) (reached : Reached .release use) :
    use.Correct := by
  have sound := reached.sound few
  constructor
  · exact sound.single
  · exact sound.granted_prefix
  · intro thread waiter inside earlier
    rw [load_of_served inside (sound.served inside earlier)]
    exact List.mem_cons_self
  · exact sound.progress
  · intro guard member i turn accessed
    obtain ⟨bound, -⟩ := List.getElem?_eq_some_iff.mp accessed
    have made := sound.accessed turn (List.mem_of_getElem? accessed)
    have count := sound.granted_length
    have own := (sound.guard guard member).1
    rw [sound.guards_eq member, List.length_singleton] at count
    exact ⟨by omega, sound.held guard member i bound⟩
  · intro op _
    cases op <;> rfl

/-- One thread waits while the other one has the guard and changes the data. -/
theorem ticket_lock_two_threads : ∃ use : LockUse Bool ℕ,
    use.granted = [false, true] ∧ use.accesses = [0] ∧ use.lock.data = 8 ∧ use.Correct := by
  have boot : Reached .release (new 7 : LockUse Bool ℕ) := .new 7
  have first := boot.step (.fetchAdd false) rfl rfl
  have second := first.step (.fetchAdd true) rfl rfl
  have taken := second.step (.load false) (Option.some_ne_none _) rfl
  have spins := taken.step (.load true) (Option.some_ne_none _) rfl
  have changed := spins.step (.derefMut ⟨false, 0, 0⟩ (· + 1)) List.mem_cons_self rfl
  have dropped := changed.step (.drop ⟨false, 0, 0⟩) List.mem_cons_self rfl
  have next := dropped.step (.load true) (Option.some_ne_none _) rfl
  exact ⟨_, rfl, rfl, rfl, ticket_lock_correct (by decide) next⟩

/-! ## Checked sums

`fetch_add` wraps, but `self.ticket + 1` in `drop` is an ordinary sum. Where those are checked, `drop` panics on the
largest ticket.
-/

section Dev

variable [DecidableEq τ]

theorem isSome_drop_dev (guard : SpinLockGuard τ) :
    (use.drop .dev guard).isSome ↔ guard.ticket.toNat + 1 < 2 ^ 32 := by
  have bound : (use.drop .dev guard).isSome ↔ (checkedAddU32 guard.ticket 1).isSome := by
    rw [drop, Profile.add]
    cases checkedAddU32 guard.ticket 1 <;> exact Iff.rfl
  rw [bound, Option.isSome_iff_exists]
  simp only [checkedAddU32_eq_some_iff]
  constructor
  · rintro ⟨next, sum⟩
    exact sum ▸ next.isLt
  · intro fits
    exact exists_toNat_eq fits

/-- The dropped guards bound the tickets that were served. -/
structure Counted (use : LockUse τ α) : Prop where
  serving : use.lock.nowServing.value.toNat ≤ use.dropped.length
  guard : ∀ guard ∈ use.guards, guard.ticket.toNat ≤ use.dropped.length

theorem Counted.load (counted : use.Counted) (thread : τ) : (use.load thread).Counted := by
  cases inside : use.inside thread with
  | none =>
    rw [LockUse.load, inside]
    exact counted
  | some waiter =>
    by_cases served : use.lock.nowServing.value = waiter.ticket
    · rw [load_of_served inside served]
      refine ⟨counted.serving, fun guard member => ?_⟩
      rcases List.mem_cons.mp member with rfl | old
      · exact served ▸ counted.serving
      · exact counted.guard guard old
    · rw [load_of_not_served inside served]
      exact ⟨counted.serving, counted.guard⟩

theorem Counted.send (counted : use.Counted) {guard : SpinLockGuard τ} (member : guard ∈ use.guards) (receiver : τ) :
    (use.send guard receiver).Counted := by
  refine ⟨counted.serving, fun other inUse => ?_⟩
  rcases List.mem_cons.mp inUse with rfl | old
  · exact counted.guard guard member
  · exact counted.guard other (List.mem_of_mem_erase old)

theorem Counted.drop (counted : use.Counted) {guard : SpinLockGuard τ} (member : guard ∈ use.guards)
    (run : use.drop .dev guard = some use') : use'.Counted := by
  obtain ⟨ticket, sum, eq⟩ := Option.bind_eq_some_iff.mp run
  cases eq
  have next : ticket.toNat = guard.ticket.toNat + 1 := checkedAddU32_eq_some_iff.mp sum
  have length : (use.dropped ++ [guard.turn]).length = use.dropped.length + 1 := List.length_append
  have own := counted.guard guard member
  refine ⟨?_, fun other inUse => ?_⟩
  · calc ticket.toNat = guard.ticket.toNat + 1 := next
      _ ≤ use.dropped.length + 1 := Nat.succ_le_succ own
      _ = (use.dropped ++ [guard.turn]).length := length.symm
  · have old := counted.guard other (List.mem_of_mem_erase inUse)
    exact old.trans (length ▸ Nat.le_succ _)

theorem Reached.counted (reached : Reached .dev use) : use.Counted := by
  induction reached with
  | new data => exact ⟨Nat.le_refl 0, fun _ member => absurd member List.not_mem_nil⟩
  | step op _ permits step counted =>
    cases op with
    | fetchAdd thread =>
      cases step
      exact ⟨counted.serving, counted.guard⟩
    | load thread =>
      cases step
      exact counted.load thread
    | derefMut guard f =>
      cases step
      exact ⟨counted.serving, counted.guard⟩
    | send guard receiver =>
      cases step
      exact counted.send permits receiver
    | drop guard => exact counted.drop permits step

theorem Reached.isSome_step (reached : Reached .dev use) (few : use.dropped.length < 2 ^ 32 - 1) {op : LockOp τ α}
    (permits : use.Permits op) : (use.step .dev op).isSome := by
  cases op with
  | drop guard =>
    have ticket := reached.counted.guard guard permits
    exact (isSome_drop_dev guard).mpr (by omega)
  | _ => rfl

/-! One thread that takes and drops the lock again and again reaches the largest ticket. -/

/-- `n` guards have been dropped, and the next ticket is served at once. -/
structure Idle (thread : τ) (n : ℕ) (use : LockUse τ α) : Prop where
  next : use.lock.nextTicket.value = BitVec.ofNat 32 n
  serving : use.lock.nowServing.value = BitVec.ofNat 32 n
  outside : use.inside thread = none
  dropped : use.dropped.length = n

/-- `lock` has returned the guard of that ticket. -/
structure Held (thread : τ) (n : ℕ) (guard : SpinLockGuard τ) (use : LockUse τ α) : Prop where
  next : use.lock.nextTicket.value = BitVec.ofNat 32 (n + 1)
  outside : use.inside thread = none
  dropped : use.dropped.length = n
  member : guard ∈ use.guards
  ticket : guard.ticket = BitVec.ofNat 32 n

theorem Idle.lock {thread : τ} {n : ℕ} (idle : Idle thread n use) (reached : Reached .dev use) :
    ∃ (after : LockUse τ α) (guard : SpinLockGuard τ), Reached .dev after ∧ Held thread n guard after := by
  have entered := reached.step (.fetchAdd thread) idle.outside rfl
  have inside : (use.fetchAdd thread).inside thread = some ⟨use.lock.nextTicket.value, use.drawn.length⟩ :=
    Function.update_self _ _ _
  have served : (use.fetchAdd thread).lock.nowServing.value = use.lock.nextTicket.value :=
    idle.serving.trans idle.next.symm
  have waits : (use.fetchAdd thread).inside thread ≠ none := by
    rw [inside]
    exact Option.some_ne_none _
  have returned := entered.step (.load thread) waits rfl
  rw [load_of_served inside served] at returned
  refine ⟨_, _, returned, ?_, Function.update_self _ _ _, idle.dropped, List.mem_cons_self, idle.next⟩
  rw [ofNat_succ, ← idle.next]
  rfl

theorem Held.drop {thread : τ} {n : ℕ} {guard : SpinLockGuard τ} (held : Held thread n guard use)
    (reached : Reached .dev use) (fits : n + 1 < 2 ^ 32) :
    ∃ after : LockUse τ α, Reached .dev after ∧ Idle thread (n + 1) after := by
  have ticket : guard.ticket.toNat = n := by
    rw [held.ticket]
    exact Nat.mod_eq_of_lt (by omega)
  have returns : (use.drop .dev guard).isSome := (isSome_drop_dev guard).mpr (by omega)
  obtain ⟨after, run⟩ := Option.isSome_iff_exists.mp returns
  refine ⟨after, reached.step (.drop guard) held.member run, ?_⟩
  obtain ⟨next, sum, eq⟩ := Option.bind_eq_some_iff.mp run
  cases eq
  have value : next = BitVec.ofNat 32 (n + 1) := by
    apply BitVec.eq_of_toNat_eq
    rw [checkedAddU32_eq_some_iff.mp sum, ticket]
    exact (Nat.mod_eq_of_lt fits).symm
  refine ⟨held.next, value, held.outside, ?_⟩
  rw [List.length_append, held.dropped, List.length_singleton]

theorem exists_idle (thread : τ) (data : α) {n : ℕ} (bound : n < 2 ^ 32) :
    ∃ use : LockUse τ α, Reached .dev use ∧ Idle thread n use := by
  induction n with
  | zero => exact ⟨_, .new data, rfl, rfl, rfl, rfl⟩
  | succ n ih =>
    obtain ⟨use, reached, idle⟩ := ih (by omega)
    obtain ⟨use', guard, reached', held⟩ := idle.lock reached
    exact held.drop reached' bound

/-- Dropping the guard of the largest ticket panics. -/
theorem exists_drop_panics (thread : τ) (data : α) : ∃ (use : LockUse τ α) (guard : SpinLockGuard τ),
    Reached .dev use ∧ use.dropped.length = 2 ^ 32 - 1 ∧ guard ∈ use.guards ∧ guard.ticket = 0xFFFFFFFF ∧
      use.step .dev (.drop guard) = none := by
  obtain ⟨use, reached, idle⟩ := exists_idle thread data (by decide : 2 ^ 32 - 1 < 2 ^ 32)
  obtain ⟨use', guard, reached', held⟩ := idle.lock reached
  have largest : guard.ticket = 0xFFFFFFFF := held.ticket
  refine ⟨use', guard, reached', held.dropped, held.member, largest, ?_⟩
  refine Option.not_isSome_iff_eq_none.mp fun returns => ?_
  have fits := (isSome_drop_dev guard).mp returns
  rw [largest] at fits
  exact absurd fits (by decide)

/-- Until so many guards were dropped, no operation of any thread panics. -/
def PairsReturn (τ α : Type) [DecidableEq τ] (pairs : ℕ) : Prop :=
  ∀ use : LockUse τ α, Reached .dev use → use.dropped.length < pairs →
    ∀ op, use.Permits op → (use.step .dev op).isSome

theorem lock_pairs_return_iff (thread : τ) (data : α) (pairs : ℕ) : PairsReturn τ α pairs ↔ pairs < 2 ^ 32 := by
  constructor
  · intro returns
    by_contra many
    obtain ⟨use, guard, reached, dropped, member, -, panics⟩ := exists_drop_panics thread data
    have returned := returns use reached (by omega) (.drop guard) member
    rw [panics] at returned
    cases returned
  · intro few use reached dropped op permits
    exact reached.isSome_step (by omega) permits

/-- One of two threads has used the lock alone until the tickets ran out. -/
theorem drop_panics_at_largest_ticket : ∃ (use : LockUse Bool ℕ) (guard : SpinLockGuard Bool),
    Reached .dev use ∧ use.dropped.length = 2 ^ 32 - 1 ∧ guard ∈ use.guards ∧ guard.ticket = 0xFFFFFFFF ∧
      use.step .dev (.drop guard) = none :=
  exists_drop_panics false 7

end Dev

end LockUse

end Hypervisor
