import Hypervisor.Soundness.Progress
import Mathlib.Data.Set.Card
import Mathlib.Order.CompletePartialOrder

/-! # Round-robin fairness

Each vCPU that is picked leaves again: it yields, blocks or is removed. Then the search starts behind it,
or it cannot be picked any more, and in either case it is not in the way of a vCPU that is ready. So the
vCPUs that can be picked before that one become fewer with every pick, and there are seven of them at most.
-/

namespace Hypervisor

/-! ## Schedules -/

/-- Calls that may come at any time. -/
inductive QuietCall where
  | unblock (vcpuId : ℕ)
  | addVcpu (vcpuId : ℕ)

/-- How the vCPU that was picked is left. -/
inductive Leave where
  | yieldCurrent
  | blockCurrent
  | removeVcpu

/-- The calls around one call of `pick_next`: those before it, those while the vCPU runs, and the last one. -/
structure Round where
  before : List QuietCall
  during : List QuietCall
  leave : Leave

namespace Scheduler

def quiet (s : Scheduler) : QuietCall → Scheduler
  | .unblock vcpuId => s.unblock vcpuId
  | .addVcpu vcpuId => s.addVcpu vcpuId

def leave (s : Scheduler) (id : VcpuId) : Leave → Scheduler
  | .yieldCurrent => s.yieldCurrent
  | .blockCurrent => s.blockCurrent
  | .removeVcpu => s.removeVcpu id

/-- The scheduler when `pick_next` is called. -/
def atPick (s : Scheduler) (round : Round) : Scheduler := round.before.foldl quiet s

/-- One round. If nothing is picked, nothing is left. -/
def play (s : Scheduler) (round : Round) : Scheduler :=
  match (s.atPick round).pickNext with
  | (some id, picked) => (round.during.foldl quiet picked).leave id round.leave
  | (none, idle) => round.during.foldl quiet idle

def after (s : Scheduler) (rounds : ℕ → Round) : ℕ → Scheduler
  | 0 => s
  | k + 1 => (s.after rounds k).play (rounds k)

/-- The scheduler at pick number `k`. -/
def pickState (s : Scheduler) (rounds : ℕ → Round) (k : ℕ) : Scheduler := (s.after rounds k).atPick (rounds k)

/-- What pick number `k` returns. -/
def picked (s : Scheduler) (rounds : ℕ → Round) (k : ℕ) : Option VcpuId := (s.pickState rounds k).pickNext.1

/-- Removed in a round before number `k`. -/
def Removed (s : Scheduler) (rounds : ℕ → Round) (k : ℕ) (id : VcpuId) : Prop :=
  ∃ j < k, s.picked rounds j = some id ∧ (rounds j).leave = .removeVcpu

/-- A vCPU that was removed is not added again. -/
def NeverReadded (s : Scheduler) (rounds : ℕ → Round) : Prop :=
  ∀ k id, s.Removed rounds k id → ∀ call ∈ (rounds k).before ++ (rounds k).during, call ≠ .addVcpu id.val

/-! ## Quiet calls -/

section Quiet

variable {s : Scheduler} {t : VcpuId} {removed : VcpuId → Prop}

/-- Whoever is running is the current vCPU, and whoever was removed is not registered. -/
structure Tidy (removed : VcpuId → Prop) (s : Scheduler) : Prop where
  running : ∀ t, s.states t = .running → s.current = some t
  removed : ∀ t, removed t → s.states t = .none

@[simp] theorem quiet_current (s : Scheduler) (call : QuietCall) : (s.quiet call).current = s.current := by
  cases call <;> simp only [quiet, unblock, addVcpu] <;> split_ifs <;> rfl

@[simp] theorem quiet_nextIdx (s : Scheduler) (call : QuietCall) : (s.quiet call).nextIdx = s.nextIdx := by
  cases call <;> simp only [quiet, unblock, addVcpu] <;> split_ifs <;> rfl

/-- A quiet call makes a vCPU ready that was blocked or is added, or it leaves its state. -/
theorem quiet_states (s : Scheduler) (call : QuietCall) (t : VcpuId) :
    (s.quiet call).states t = s.states t ∨
      (s.quiet call).states t = .ready ∧ (s.states t = .blocked ∨ call = .addVcpu t.val) := by
  cases call with
  | unblock vcpuId =>
      simp only [quiet, unblock]
      split_ifs with bound blocked
      · by_cases same : t = ⟨vcpuId, bound⟩
        · subst same
          exact .inr ⟨Function.update_self .., .inl blocked⟩
        · exact .inl (Function.update_of_ne same ..)
      · exact .inl rfl
      · exact .inl rfl
  | addVcpu vcpuId =>
      simp only [quiet, addVcpu]
      split_ifs with bound
      · by_cases same : t = ⟨vcpuId, bound⟩
        · subst same
          exact .inr ⟨Function.update_self .., .inr rfl⟩
        · exact .inl (Function.update_of_ne same ..)
      · exact .inl rfl

theorem quiet_ready (call : QuietCall) (ready : s.states t = .ready) : (s.quiet call).states t = .ready := by
  rcases s.quiet_states call t with same | ⟨same, -⟩
  · rw [same, ready]
  · exact same

theorem Tidy.quiet (tidy : Tidy removed s) {call : QuietCall} (allowed : ∀ t, removed t → call ≠ .addVcpu t.val) :
    Tidy removed (s.quiet call) := by
  constructor
  · intro t running
    rw [quiet_current]
    rcases s.quiet_states call t with same | ⟨same, -⟩
    · exact tidy.running t (same ▸ running)
    · rw [same] at running
      cases running
  · intro t gone
    have none := tidy.removed t gone
    rcases s.quiet_states call t with same | ⟨-, blocked | added⟩
    · rw [same, none]
    · rw [none] at blocked
      cases blocked
    · exact absurd added (allowed t gone)

@[simp] theorem foldl_quiet_current (calls : List QuietCall) (s : Scheduler) :
    (calls.foldl Scheduler.quiet s).current = s.current := by
  induction calls generalizing s with
  | nil => rfl
  | cons call rest ih => rw [List.foldl_cons, ih, quiet_current]

@[simp] theorem foldl_quiet_nextIdx (calls : List QuietCall) (s : Scheduler) :
    (calls.foldl Scheduler.quiet s).nextIdx = s.nextIdx := by
  induction calls generalizing s with
  | nil => rfl
  | cons call rest ih => rw [List.foldl_cons, ih, quiet_nextIdx]

theorem foldl_quiet_ready (calls : List QuietCall) (ready : s.states t = .ready) :
    (calls.foldl Scheduler.quiet s).states t = .ready := by
  induction calls generalizing s with
  | nil => exact ready
  | cons call rest ih => exact ih (quiet_ready call ready)

theorem Tidy.foldl_quiet (tidy : Tidy removed s) {calls : List QuietCall}
    (allowed : ∀ t, removed t → ∀ call ∈ calls, call ≠ .addVcpu t.val) :
    Tidy removed (calls.foldl Scheduler.quiet s) := by
  induction calls generalizing s with
  | nil => exact tidy
  | cons call rest ih =>
      refine ih (tidy.quiet fun t gone => allowed t gone call List.mem_cons_self) fun t gone other member => ?_
      exact allowed t gone other (List.mem_cons_of_mem _ member)

end Quiet

/-! ## One round -/

section Round

variable {s picked : Scheduler} {id t v : VcpuId} {removed : VcpuId → Prop}

theorem leave_current (current : s.current = some id) (last : Leave) : (s.leave id last).current = none := by
  cases last with
  | yieldCurrent => rw [leave, yieldCurrent, leaveCurrent_of_current current]
  | blockCurrent => rw [leave, blockCurrent, leaveCurrent_of_current current]
  | removeVcpu => rw [leave, removeVcpu_coe, current, if_pos rfl]

theorem leave_states_of_ne (current : s.current = some id) (last : Leave) (other : t ≠ id) :
    (s.leave id last).states t = s.states t := by
  cases last with
  | yieldCurrent =>
      rw [leave, yieldCurrent, leaveCurrent_of_current current]
      exact Function.update_of_ne other ..
  | blockCurrent =>
      rw [leave, blockCurrent, leaveCurrent_of_current current]
      exact Function.update_of_ne other ..
  | removeVcpu =>
      rw [leave, removeVcpu_states]
      exact Function.update_of_ne other ..

theorem leave_states_self (current : s.current = some id) (last : Leave) : (s.leave id last).states id ≠ .running := by
  cases last with
  | yieldCurrent =>
      rw [leave, yieldCurrent, leaveCurrent_of_current current]
      simp
  | blockCurrent =>
      rw [leave, blockCurrent, leaveCurrent_of_current current]
      simp
  | removeVcpu =>
      rw [leave, removeVcpu_states]
      simp

theorem Tidy.pick (tidy : Tidy removed s) (pick : s.pickNext = (some id, picked)) :
    Tidy removed picked ∧ picked.current = some id ∧ ¬removed id := by
  have present : ¬removed id := by
    intro gone
    have none := tidy.removed id gone
    rcases (pickNext_eq_some pick).1 with ready | running
    · rw [none] at ready
      cases ready
    · rw [none] at running
      cases running
  refine ⟨?_, (pickNext_eq_some pick).2.2, present⟩
  rcases pickNext_cases pick with ⟨current, running, rfl⟩ | ⟨idle, search⟩
  · exact tidy
  · obtain ⟨ready, rfl⟩ := pickReady_eq_some search
    constructor
    · intro t running
      by_cases same : t = id
      · rw [same]
      · have before : s.states t = .running := by simpa [same] using running
        exact absurd before (idle t (tidy.running t before))
    · intro t gone
      have other : t ≠ id := by
        rintro rfl
        exact present gone
      simpa [other] using tidy.removed t gone

/-- The vCPU that left is not running, nor is any other. -/
theorem Tidy.leave (tidy : Tidy removed s) (current : s.current = some id) (last : Leave) (present : ¬removed id) :
    Tidy (fun t => removed t ∨ t = id ∧ last = .removeVcpu) (s.leave id last) := by
  constructor
  · intro t running
    by_cases same : t = id
    · subst same
      exact absurd running (leave_states_self current last)
    · rw [leave_states_of_ne current last same] at running
      have is := tidy.running t running
      rw [current] at is
      exact absurd (Option.some.inj is).symm same
  · rintro t (gone | ⟨rfl, rfl⟩)
    · have other : t ≠ id := by
        rintro rfl
        exact present gone
      rw [leave_states_of_ne current last other]
      exact tidy.removed t gone
    · rw [Scheduler.leave, removeVcpu_states, Function.update_self]

/-- The vCPUs that can be picked before `v`: any, if one is running, and else those that the search meets. -/
def Ahead (removed : VcpuId → Prop) (s : Scheduler) (v t : VcpuId) : Prop :=
  t ≠ v ∧ ((∃ c, s.current = some c ∧ s.states c = .running) ∨ ¬removed t ∧ s.distance t < s.distance v)

theorem eq_of_distance_eq (same : s.distance t = s.distance v) : t = v := by
  have here := s.order_distance t
  rw [same, s.order_distance v] at here
  exact (Option.some.inj here).symm

theorem ahead_of_picked (tidy : Tidy removed s) (pick : s.pickNext = (some id, picked)) (ready : s.states v = .ready)
    (other : id ≠ v) : Ahead removed s v id := by
  refine ⟨other, ?_⟩
  rcases pickNext_cases pick with ⟨current, running, -⟩ | ⟨-, search⟩
  · exact .inl ⟨id, current, running⟩
  · refine .inr ⟨(tidy.pick pick).2.2, Nat.lt_of_le_of_ne (distance_le_of_pickReady search ready) ?_⟩
    exact fun same => other (eq_of_distance_eq same)

theorem distance_congr {s' : Scheduler} (same : s'.nextIdx = s.nextIdx) (t : VcpuId) : s'.distance t = s.distance t := by
  rw [distance, distance, same]

/-- The search behind `id` meets the slots behind it first, and `id` last. -/
theorem distance_behind (s : Scheduler) {s' : Scheduler} (behind : s'.nextIdx = (id.val + 1) % maxVcpus) (t : VcpuId) :
    s'.distance t = if s.distance id < s.distance t then s.distance t - s.distance id - 1
      else s.distance t + (maxVcpus - 1) - s.distance id := by
  have := t.isLt
  have := id.isLt
  rw [distance, distance, distance, behind]
  simp only [maxVcpus] at *
  split_ifs <;> omega

/-- Where the search starts after a round. -/
theorem leave_nextIdx (current : s.current = some id) (last : Leave) :
    (s.leave id last).nextIdx = (id.val + 1) % maxVcpus ∨ last = .removeVcpu ∧ (s.leave id last).nextIdx = s.nextIdx := by
  cases last with
  | yieldCurrent => exact .inl (by rw [leave, yieldCurrent, leaveCurrent_of_current current])
  | blockCurrent => exact .inl (by rw [leave, blockCurrent, leaveCurrent_of_current current])
  | removeVcpu => exact .inr ⟨rfl, by rw [leave, removeVcpu_coe]; rfl⟩

/-- After a round, those ahead of `v` are among those before, without the vCPU that was picked. -/
theorem ahead_of_ahead_left {left : Scheduler} {last : Leave} (pick : s.pickNext = (some id, picked))
    (ready : s.states v = .ready) (missed : id ≠ v) (idle : left.current = none)
    (start : left.nextIdx = (id.val + 1) % maxVcpus ∨ last = .removeVcpu ∧ left.nextIdx = s.nextIdx)
    (ahead : Ahead (fun t => removed t ∨ t = id ∧ last = .removeVcpu) left v t) :
    Ahead removed s v t ∧ t ≠ id := by
  obtain ⟨other, ⟨c, current, -⟩ | ⟨present, nearer⟩⟩ := ahead
  · rw [idle] at current
    cases current
  · rw [not_or] at present
    have bound := s.distance_lt v
    have bound' := s.distance_lt t
    have apart : s.distance id ≠ s.distance v := fun same => missed (eq_of_distance_eq same)
    -- the search starts behind the vCPU that was picked, or that one is gone
    have closer : t ≠ id ∧ (s.distance id ≤ s.distance v → s.distance t < s.distance v) := by
      rcases start with behind | ⟨gone, same⟩
      · rw [s.distance_behind behind, s.distance_behind behind] at nearer
        simp only [maxVcpus] at nearer bound bound'
        constructor
        · rintro rfl
          split_ifs at nearer <;> omega
        · intro first
          split_ifs at nearer <;> omega
      · rw [distance_congr same, distance_congr same] at nearer
        exact ⟨fun is => present.2 ⟨is, gone⟩, fun _ => nearer⟩
    refine ⟨⟨other, ?_⟩, closer.1⟩
    rcases pickNext_cases pick with ⟨current, running, -⟩ | ⟨-, search⟩
    · exact .inl ⟨id, current, running⟩
    · exact .inr ⟨present.1, closer.2 (distance_le_of_pickReady search ready)⟩

end Round

/-! ## Schedules of rounds -/

section Schedule

variable {s : Scheduler} {rounds : ℕ → Round} {k : ℕ} {id v : VcpuId}

theorem play_of_picked {picked : Scheduler} {round : Round} (pick : (s.atPick round).pickNext = (some id, picked)) :
    s.play round = (round.during.foldl quiet picked).leave id round.leave := by
  rw [play, pick]

theorem play_of_idle {idle : Scheduler} {round : Round} (pick : (s.atPick round).pickNext = (none, idle)) :
    s.play round = round.during.foldl quiet idle := by
  rw [play, pick]

theorem removed_succ (t : VcpuId) : s.Removed rounds (k + 1) t ↔
    s.Removed rounds k t ∨ s.picked rounds k = some t ∧ (rounds k).leave = .removeVcpu := by
  constructor
  · rintro ⟨j, below, here⟩
    rcases Nat.lt_succ_iff_lt_or_eq.mp below with before | rfl
    · exact .inl ⟨j, before, here⟩
    · exact .inr here
  · rintro (⟨j, before, here⟩ | here)
    · exact ⟨j, Nat.lt_succ_of_lt before, here⟩
    · exact ⟨k, Nat.lt_succ_self k, here⟩

theorem Tidy.pickState (never : s.NeverReadded rounds) (tidy : Tidy (s.Removed rounds k) (s.after rounds k)) :
    Tidy (s.Removed rounds k) (s.pickState rounds k) :=
  tidy.foldl_quiet fun t gone call member => never k t gone call (List.mem_append_left _ member)

theorem tidy_after (tidy : Tidy (fun _ => False) s) (never : s.NeverReadded rounds) (k : ℕ) :
    Tidy (s.Removed rounds k) (s.after rounds k) := by
  induction k with
  | zero =>
      refine ⟨tidy.running, ?_⟩
      rintro t ⟨j, below, -⟩
      exact absurd below (Nat.not_lt_zero j)
  | succ k ih =>
      have at_pick := ih.pickState never
      have quiet (t : VcpuId) (gone : s.Removed rounds k t) : ∀ call ∈ (rounds k).during, call ≠ .addVcpu t.val :=
        fun call member => never k t gone call (List.mem_append_right _ member)
      cases pick : (s.pickState rounds k).pickNext with
      | mk found picked =>
          have returned : s.picked rounds k = found := by rw [Scheduler.picked, pick]
          cases found with
          | none =>
              have same := (pickNext_eq_none pick).1
              subst same
              rw [after, play_of_idle pick]
              refine ⟨(at_pick.foldl_quiet quiet).running, fun t gone => ?_⟩
              rcases (removed_succ t).mp gone with gone | ⟨is, -⟩
              · exact (at_pick.foldl_quiet quiet).removed t gone
              · rw [returned] at is
                cases is
          | some id =>
              obtain ⟨tidy, current, present⟩ := at_pick.pick pick
              rw [after, play_of_picked pick]
              have left := (tidy.foldl_quiet quiet).leave (by rw [foldl_quiet_current, current]) (rounds k).leave present
              refine ⟨left.running, fun t gone => left.removed t ?_⟩
              rcases (removed_succ t).mp gone with gone | ⟨is, removes⟩
              · exact .inl gone
              · rw [returned] at is
                exact .inr ⟨(Option.some.inj is).symm, removes⟩

/-- A round in which another vCPU is picked: `v` stays ready, and fewer are ahead of it. -/
theorem ahead_succ (tidy : Tidy (s.Removed rounds k) (s.pickState rounds k))
    (ready : (s.pickState rounds k).states v = .ready) (pick : s.picked rounds k = some id) (other : id ≠ v) :
    (s.pickState rounds (k + 1)).states v = .ready ∧
      {t | Ahead (s.Removed rounds (k + 1)) (s.pickState rounds (k + 1)) v t} ⊂
        {t | Ahead (s.Removed rounds k) (s.pickState rounds k) v t} := by
  obtain ⟨picked, returned⟩ : ∃ picked, (s.pickState rounds k).pickNext = (some id, picked) := ⟨_, Prod.ext pick rfl⟩
  obtain ⟨-, current, -⟩ := tidy.pick returned
  have running : ((rounds k).during.foldl quiet picked).current = some id := by rw [foldl_quiet_current, current]
  have after : s.after rounds (k + 1) = ((rounds k).during.foldl quiet picked).leave id (rounds k).leave :=
    play_of_picked returned
  constructor
  · apply foldl_quiet_ready
    rw [after, leave_states_of_ne running _ other.symm]
    apply foldl_quiet_ready
    rw [(pickNext_eq_some returned).2.1, Function.update_of_ne other.symm, ready]
  · have idle : (s.pickState rounds (k + 1)).current = none := by
      rw [pickState, atPick, foldl_quiet_current, after, leave_current running]
    have start : (s.pickState rounds (k + 1)).nextIdx = (id.val + 1) % maxVcpus ∨ (rounds k).leave = .removeVcpu ∧
        (s.pickState rounds (k + 1)).nextIdx = (s.pickState rounds k).nextIdx := by
      have left := leave_nextIdx running (rounds k).leave
      rwa [← after, foldl_quiet_nextIdx, pickNext_nextIdx returned, ← foldl_quiet_nextIdx (rounds (k + 1)).before] at left
    have gone : s.Removed rounds (k + 1) =
        fun t => s.Removed rounds k t ∨ t = id ∧ (rounds k).leave = .removeVcpu := by
      funext t
      rw [removed_succ, pick, Option.some_inj, eq_comm (a := id)]
    have fewer {t : VcpuId} (ahead : Ahead (s.Removed rounds (k + 1)) (s.pickState rounds (k + 1)) v t) :
        Ahead (s.Removed rounds k) (s.pickState rounds k) v t ∧ t ≠ id := by
      rw [gone] at ahead
      exact ahead_of_ahead_left returned ready other idle start ahead
    refine ⟨fun t ahead => (fewer ahead).1, fun all => ?_⟩
    exact (fewer (all (ahead_of_picked tidy returned ready other))).2 rfl

/-- There is always somebody to pick while `v` is ready. -/
theorem exists_picked (ready : (s.pickState rounds k).states v = .ready) : ∃ id, s.picked rounds k = some id := by
  cases pick : (s.pickState rounds k).pickNext with
  | mk found picked =>
      cases found with
      | some id => exact ⟨id, by rw [Scheduler.picked, pick]⟩
      | none => exact absurd ready ((pickNext_eq_none pick).2 v)

/-- The picks before that of `v` are not more than the vCPUs ahead of it. -/
theorem exists_picked_of_ahead (tidy : Tidy (fun _ => False) s) (never : s.NeverReadded rounds) (n : ℕ) :
    ∀ k, (s.pickState rounds k).states v = .ready →
      {t | Ahead (s.Removed rounds k) (s.pickState rounds k) v t}.ncard ≤ n →
      ∃ j ≤ n, s.picked rounds (k + j) = some v := by
  induction n with
  | zero =>
      intro k ready none
      obtain ⟨id, pick⟩ := exists_picked ready
      by_cases same : id = v
      · exact ⟨0, Nat.le_refl 0, same ▸ pick⟩
      · have fewer := (ahead_succ ((tidy_after tidy never k).pickState never) ready pick same).2
        exact absurd (Set.ncard_lt_ncard fewer (Set.toFinite _)) (by omega)
  | succ n ih =>
      intro k ready some
      obtain ⟨id, pick⟩ := exists_picked ready
      by_cases same : id = v
      · exact ⟨0, Nat.zero_le _, same ▸ pick⟩
      · obtain ⟨still, fewer⟩ := ahead_succ ((tidy_after tidy never k).pickState never) ready pick same
        have less := Set.ncard_lt_ncard fewer (Set.toFinite _)
        obtain ⟨j, bound, here⟩ := ih (k + 1) still (by omega)
        exact ⟨j + 1, by omega, by rw [← here, Nat.add_assoc, Nat.add_comm 1 j]⟩

theorem ncard_ahead_lt (removed : VcpuId → Prop) (s : Scheduler) (v : VcpuId) :
    {t | Ahead removed s v t}.ncard < maxVcpus := by
  have proper : {t | Ahead removed s v t} ⊂ Set.univ :=
    Set.ssubset_univ_iff.mpr fun all => absurd rfl (Set.eq_univ_iff_forall.mp all v).1
  have less := Set.ncard_lt_ncard proper (Set.toFinite _)
  rwa [Set.ncard_univ, Nat.card_fin] at less

end Schedule

end Scheduler

/-! ## The run loop -/

/-- The systems between two iterations of `run_smp` or `run_multi_vm`. -/
inductive System.InLoop (Other : Type) [DecidableEq Other] : System → Prop where
  | turns {start s : System} {trace : List (VmId × TurnLabel Other)} (started : start.Started) (run : start.Run trace s) :
      InLoop Other s
  | multi {m : MultiVm} (reached : m.Reached Other) : InLoop Other m.sys

theorem System.InLoop.settled {Other : Type} [DecidableEq Other] {s : System} (inLoop : s.InLoop Other) (v : VmId) :
    s.Settled v := by
  cases inLoop with
  | turns started run => exact run.settled started v
  | multi reached => exact reached.settled v

/-- The schedulers between two iterations, and while a vCPU runs. -/
inductive Scheduler.Reached (Other : Type) [DecidableEq Other] : Scheduler → Prop where
  | between {s : System} (inLoop : s.InLoop Other) (v : VmId) : Reached Other (s.vms v).scheduler
  | entered {s : System} {v : VmId} {id : VcpuId} {vcpu : GuestVcpu} {vm : GuestVm} {e : El2} (inLoop : s.InLoop Other)
      (entry : s.Entry v id vcpu vm e) : Reached Other vm.scheduler

namespace Scheduler

variable {Other : Type} [DecidableEq Other] {s : Scheduler}

theorem Reached.tidy (reached : Reached Other s) : Tidy (fun _ => False) s := by
  cases reached with
  | between inLoop v => exact ⟨fun t running => absurd running ((inLoop.settled v).not_running t), fun t => False.elim⟩
  | @entered s v id vcpu vm e inLoop entry =>
      have at_entry := (inLoop.settled v).atEntry entry
      refine ⟨fun t running => ?_, fun t => False.elim⟩
      by_cases same : t = id
      · rw [same, at_entry.current]
      · exact absurd running (at_entry.not_running t same)

end Scheduler

theorem round_robin_fair {Other : Type} [DecidableEq Other] {s : Scheduler} {rounds : ℕ → Round}
    (reached : s.Reached Other) (never : s.NeverReadded rounds) :
    (∀ k v, (s.pickState rounds k).states v = .ready → ∃ j < maxVcpus, s.picked rounds (k + j) = some v) ∧
      ∀ k, s.picked rounds k = none →
        ∀ t, (s.pickState rounds k).states t ≠ .ready ∧ (s.pickState rounds k).states t ≠ .running := by
  constructor
  · intro k v ready
    have few := Scheduler.ncard_ahead_lt (s.Removed rounds k) (s.pickState rounds k) v
    obtain ⟨j, bound, here⟩ := Scheduler.exists_picked_of_ahead reached.tidy never _ k ready (Nat.le_refl _)
    exact ⟨j, Nat.lt_of_le_of_lt bound few, here⟩
  · intro k none t
    have tidy := (Scheduler.tidy_after reached.tidy never k).pickState never
    constructor
    · intro ready
      obtain ⟨id, pick⟩ := Scheduler.exists_picked ready
      rw [none] at pick
      cases pick
    · intro running
      rw [Scheduler.picked, Scheduler.pickNext_of_running (tidy.running t running) running] at none
      cases none

/-- VM 0 has one vCPU, and a second one is added: it is picked soon. -/
theorem round_robin_fair_two_vcpus :
    ∃ j < maxVcpus, ((MultiVm.start .twoVms).sys.vms 0).scheduler.picked
      (fun _ => ⟨[.addVcpu 3], [], .yieldCurrent⟩) j = some 3 := by
  have reached : (((MultiVm.start .twoVms).sys.vms 0).scheduler).Reached Empty :=
    .between (.multi (.start System.twoVms_booted)) 0
  have never : (((MultiVm.start .twoVms).sys.vms 0).scheduler).NeverReadded
      fun _ => ⟨[.addVcpu 3], [], .yieldCurrent⟩ := by
    rintro k id ⟨j, -, -, removes⟩
    cases removes
  obtain ⟨j, bound, here⟩ := (round_robin_fair reached never).1 0 3 (by decide +kernel)
  exact ⟨j, bound, by rwa [Nat.zero_add] at here⟩

end Hypervisor
