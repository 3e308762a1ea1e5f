import Hypervisor.Model.RunLoop

/-! # What the scheduler's operations do to the states -/

namespace Hypervisor

namespace Scheduler

variable {s s' : Scheduler} {id : VcpuId}

/-- How far a slot is from where the search starts. -/
def distance (s : Scheduler) (t : VcpuId) : ℕ := (t.val + maxVcpus - s.nextIdx % maxVcpus) % maxVcpus

theorem distance_lt (s : Scheduler) (t : VcpuId) : s.distance t < maxVcpus := Nat.mod_lt _ (by decide)

theorem getElem?_order (s : Scheduler) {i : ℕ} (bound : i < maxVcpus) :
    s.order[i]? = some (Fin.ofNat maxVcpus (s.nextIdx + i)) := by
  rw [order, List.getElem?_map, List.getElem?_range bound, Option.map_some]

theorem order_distance (s : Scheduler) (t : VcpuId) : s.order[s.distance t]? = some t := by
  rw [s.getElem?_order (s.distance_lt t), Option.some_inj]
  apply Fin.ext
  rw [Fin.val_ofNat, distance]
  have bound := t.isLt
  simp only [maxVcpus] at *
  omega

theorem distance_ofNat (s : Scheduler) {i : ℕ} (bound : i < maxVcpus) :
    s.distance (Fin.ofNat maxVcpus (s.nextIdx + i)) = i := by
  rw [distance, Fin.val_ofNat]
  simp only [maxVcpus] at *
  omega

/-- Every slot is searched. -/
theorem mem_order (s : Scheduler) (t : VcpuId) : t ∈ s.order := List.mem_of_getElem? (s.order_distance t)

/-- The slot that is found is the nearest one. -/
theorem distance_le_of_find {test : VcpuId → Bool} {t : VcpuId} (found : s.order.find? test = some id)
    (passes : test t = true) : s.distance id ≤ s.distance t := by
  obtain ⟨-, i, bound, here, before⟩ := List.find?_eq_some_iff_getElem.mp found
  have inside : i < maxVcpus := by simpa [order] using bound
  have same : id = Fin.ofNat maxVcpus (s.nextIdx + i) := by
    have at_i := s.getElem?_order inside
    rw [List.getElem?_eq_getElem bound, here, Option.some_inj] at at_i
    exact at_i
  rw [same, s.distance_ofNat inside]
  by_contra nearer
  have at_t := s.order_distance t
  obtain ⟨bound', there⟩ := List.getElem?_eq_some_iff.mp at_t
  have fails := before (s.distance t) (by omega)
  rw [there, passes] at fails
  cases fails

theorem pickReady_eq_some (pick : s.pickReady = (some id, s')) :
    s.states id = .ready ∧ s' = { s.setState id .running with current := some id } := by
  rw [pickReady] at pick
  split at pick
  case h_1 found =>
    cases pick
    have ready := List.find?_some found
    exact ⟨of_decide_eq_true ready, rfl⟩
  case h_2 => cases pick

theorem distance_le_of_pickReady (pick : s.pickReady = (some id, s')) {t : VcpuId} (ready : s.states t = .ready) :
    s.distance id ≤ s.distance t := by
  rw [pickReady] at pick
  split at pick
  case h_1 found =>
    cases pick
    exact distance_le_of_find found (decide_eq_true ready)
  case h_2 => cases pick

theorem pickReady_eq_none (pick : s.pickReady = (none, s')) : s' = s ∧ ∀ t, s.states t ≠ .ready := by
  rw [pickReady] at pick
  split at pick
  case h_1 => cases pick
  case h_2 missing =>
    cases pick
    refine ⟨rfl, fun t ready => ?_⟩
    exact List.find?_eq_none.mp missing t (s.mem_order t) (decide_eq_true ready)

theorem pickNext_of_running (current : s.current = some id) (running : s.states id = .running) :
    s.pickNext = (some id, s) := by
  rw [pickNext, current]
  exact if_pos running

/-- The vCPU that is running is picked again, or there is none and the search finds one. -/
theorem pickNext_cases (pick : s.pickNext = (some id, s')) :
    s.current = some id ∧ s.states id = .running ∧ s' = s ∨
      (∀ t, s.current = some t → s.states t ≠ .running) ∧ s.pickReady = (some id, s') := by
  rw [pickNext] at pick
  split at pick
  case h_1 current same =>
    split_ifs at pick with running
    · cases pick
      exact .inl ⟨same, running, rfl⟩
    · refine .inr ⟨fun t is => ?_, pick⟩
      rw [same] at is
      cases is
      exact running
  case h_2 none => exact .inr ⟨fun t is => (by rw [none] at is; cases is), pick⟩

/-- The vCPU that is picked was ready, or is the one that was running; now it is running. -/
theorem pickNext_eq_some (pick : s.pickNext = (some id, s')) :
    (s.states id = .ready ∨ s.states id = .running) ∧ s'.states = Function.update s.states id .running ∧
      s'.current = some id := by
  rcases pickNext_cases pick with ⟨current, running, rfl⟩ | ⟨-, search⟩
  · exact ⟨.inr running, by rw [← running, Function.update_eq_self], current⟩
  · obtain ⟨ready, rfl⟩ := pickReady_eq_some search
    exact ⟨.inl ready, rfl, rfl⟩

theorem pickNext_nextIdx (pick : s.pickNext = (some id, s')) : s'.nextIdx = s.nextIdx := by
  rcases pickNext_cases pick with ⟨-, -, rfl⟩ | ⟨-, search⟩
  · rfl
  · rw [(pickReady_eq_some search).2]
    rfl

theorem pickNext_eq_none (pick : s.pickNext = (none, s')) : s' = s ∧ ∀ t, s.states t ≠ .ready := by
  rw [pickNext] at pick
  split at pick
  case h_1 current same =>
    split_ifs at pick
    · cases pick
    · exact pickReady_eq_none pick
  case h_2 => exact pickReady_eq_none pick

/-- With nobody running, nothing is picked only if nothing is ready. -/
theorem pickNext_of_idle (idle : s.current = none) (ready : ∀ t, s.states t ≠ .ready) : s.pickNext = (none, s) := by
  have missing : s.order.find? (fun id => s.states id = .ready) = none :=
    List.find?_eq_none.mpr fun t _ => by simpa using ready t
  rw [pickNext, idle]
  simp only [pickReady, missing]

theorem leaveCurrent_of_current {state : RunState} (current : s.current = some id) :
    s.leaveCurrent state =
      { s.setState id state with current := none, nextIdx := (id.val + 1) % maxVcpus } := by
  rw [leaveCurrent, current]

@[simp] theorem unblock_current (s : Scheduler) (id : VcpuId) : (s.unblock id).current = s.current := by
  rw [unblock_coe]
  split_ifs
  · rfl
  · rfl

theorem unblock_states (s : Scheduler) (id t : VcpuId) :
    (s.unblock id).states t = if id = t ∧ s.states t = .blocked then .ready else s.states t := by
  rw [unblock_coe]
  by_cases same : id = t
  · subst same
    split_ifs <;> simp_all
  · have frame : (s.setState id .ready).states t = s.states t := Function.update_of_ne (Ne.symm same) ..
    split_ifs with blocked both
    · exact absurd both.1 same
    · exact frame
    · exact absurd ‹_ ∧ _›.1 same
    · rfl

end Scheduler

namespace GuestVm

theorem foldl_unblock_states (test : VcpuId → Bool) (l : List VcpuId) (s : Scheduler) (t : VcpuId) :
    (l.foldl (fun s id => if test id then s.unblock id else s) s).states t =
      if t ∈ l ∧ test t ∧ s.states t = .blocked then .ready else s.states t := by
  induction l generalizing s with
  | nil => simp
  | cons id rest ih =>
      rw [List.foldl_cons, ih]
      by_cases same : id = t
      · subst same
        by_cases passes : test id
        · simp only [passes, if_true, Scheduler.unblock_states, true_and, List.mem_cons, true_or]
          split_ifs <;> simp_all
        · simp [passes]
      · have frame : (if test id then s.unblock id else s).states t = s.states t := by
          split_ifs
          · rw [Scheduler.unblock_states, if_neg (fun h => same h.1)]
          · rfl
        rw [frame]
        simp [Ne.symm same]

theorem unblockAll_states (test : VcpuId → Bool) (s : Scheduler) (t : VcpuId) :
    (unblockAll test s).states t = if test t ∧ s.states t = .blocked then .ready else s.states t := by
  rw [unblockAll, foldl_unblock_states]
  simp only [List.mem_finRange, true_and]

@[simp] theorem unblockAll_current (test : VcpuId → Bool) (s : Scheduler) : (unblockAll test s).current = s.current := by
  rw [unblockAll]
  induction List.finRange maxVcpus generalizing s with
  | nil => rfl
  | cons id rest ih =>
      rw [List.foldl_cons, ih]
      split_ifs
      · exact Scheduler.unblock_current s id
      · rfl

/-- Unblocking registers nobody. -/
theorem unblockAll_states_eq_none (test : VcpuId → Bool) (s : Scheduler) (t : VcpuId) :
    (unblockAll test s).states t = .none ↔ s.states t = .none := by
  rw [unblockAll_states]
  split_ifs with blocked
  · rw [blocked.2]
    decide
  · rfl

end GuestVm

end Hypervisor
