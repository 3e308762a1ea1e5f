import Hypervisor.Proofs.Devices
import Mathlib.Data.List.Basic

/-! # The time that the guest sees

While nothing is loaded into the clock, its reads should return times that never go back and fit the data
register. A clock that is disabled shows the value that was loaded, and not the time at which it stopped; and
the time has 64 bits. Both follow from what a read shows: the loaded value, and the seconds since then if the
clock is enabled.
-/

namespace Hypervisor

/-! ## Accesses over time -/

inductive RtcAccess where
  | read (offset : U64) (size : U8)
  | write (offset value : U64) (size : U8)

namespace RtcAccess

/-- A 4-byte read of the data register. -/
def IsTime : RtcAccess → Prop
  | read offset size => size = 4 ∧ RtcReg.ofOffset offset = some .dr
  | write _ _ _ => False

/-- A 4-byte write of the load register. -/
def Loads : RtcAccess → Prop
  | read _ _ => False
  | write offset _ size => size = 4 ∧ RtcReg.ofOffset offset = some .lr

end RtcAccess

/-- An access and the counter at the time. -/
structure TimedAccess where
  cntvct : U64
  access : RtcAccess

namespace VirtualPl031

def step (rtc : VirtualPl031) (timed : TimedAccess) : VirtualPl031 :=
  match timed.access with
  | .read _ _ => rtc
  | .write offset value size => rtc.write timed.cntvct offset value size

/-- What a read returns; there is no answer to a write. -/
def answer (cntfrq : U64) (rtc : VirtualPl031) (timed : TimedAccess) : Option U64 :=
  match timed.access with
  | .read offset size => rtc.read cntfrq timed.cntvct offset size
  | .write _ _ _ => none

/-- A clock that guests have used, and the counter at its last access. -/
inductive Reached : VirtualPl031 → U64 → Prop where
  | new (cntvct : U64) : Reached (new cntvct) cntvct
  | step {rtc : VirtualPl031} {now : U64} (timed : TimedAccess) (later : now ≤ timed.cntvct) :
      Reached rtc now → Reached (rtc.step timed) timed.cntvct

/-- The clock before access number `i`. -/
def before (rtc : VirtualPl031) (accesses : List TimedAccess) (i : ℕ) : VirtualPl031 :=
  (accesses.take i).foldl step rtc

def Enabled (rtc : VirtualPl031) : Prop := rtc.control &&& 1 ≠ 0

/-- Reads of the time return what fits the data register, and never go back. -/
structure ShowsTime (cntfrq : U64) (rtc : VirtualPl031) (accesses : List TimedAccess) : Prop where
  word : ∀ i timed, accesses[i]? = some timed → timed.access.IsTime →
    ∃ value, (rtc.before accesses i).answer cntfrq timed = some value ∧ value.toNat < 2 ^ 32
  mono : ∀ i j first second, i < j → accesses[i]? = some first → accesses[j]? = some second →
    first.access.IsTime → second.access.IsTime → ∀ value value',
      (rtc.before accesses i).answer cntfrq first = some value →
      (rtc.before accesses j).answer cntfrq second = some value' → value ≤ value'

/-- The time is read from an enabled clock before it overflows the register, and from a disabled one only if
it was not read from the enabled clock a second or more after the load. -/
structure Steady (cntfrq : U64) (rtc : VirtualPl031) (accesses : List TimedAccess) : Prop where
  word : ∀ i timed, accesses[i]? = some timed → timed.access.IsTime → (rtc.before accesses i).Enabled →
    rtc.loadValue.toNat + (timed.cntvct.toNat - rtc.loadCounter.toNat) / cntfrq.toNat < 2 ^ 32
  freeze : ∀ i j first second, i < j → accesses[i]? = some first → accesses[j]? = some second →
    first.access.IsTime → second.access.IsTime → (rtc.before accesses i).Enabled →
      ¬(rtc.before accesses j).Enabled → first.cntvct.toNat - rtc.loadCounter.toNat < cntfrq.toNat

/-! ## Load and counter -/

section Steps

variable {rtc : VirtualPl031} {cntfrq now : U64} {timed : TimedAccess} {accesses : List TimedAccess}

/-- Only a write of the load register changes what was loaded, and when. -/
theorem step_load (rtc : VirtualPl031) (unloaded : ¬timed.access.Loads) :
    (rtc.step timed).loadValue = rtc.loadValue ∧ (rtc.step timed).loadCounter = rtc.loadCounter := by
  obtain ⟨cntvct, access⟩ := timed
  cases access with
  | read offset size => exact ⟨rfl, rfl⟩
  | write offset value size =>
      simp only [step, write]
      split_ifs with other
      · exact ⟨rfl, rfl⟩
      · cases found : RtcReg.ofOffset offset with
        | none => exact ⟨rfl, rfl⟩
        | some reg =>
            cases reg
            case lr => exact absurd ⟨not_not.mp other, found⟩ unloaded
            all_goals exact ⟨rfl, rfl⟩

theorem step_of_loads (rtc : VirtualPl031) (loads : timed.access.Loads) :
    (rtc.step timed).loadValue.toNat < 2 ^ 32 ∧ (rtc.step timed).loadCounter = timed.cntvct := by
  obtain ⟨cntvct, access⟩ := timed
  cases access with
  | read offset size => exact loads.elim
  | write offset value size =>
      obtain ⟨rfl, found⟩ := loads
      simp only [step, write, found]
      exact ⟨toNat_low_lt value, rfl⟩

/-- The loaded value fits the data register, and was loaded before. -/
theorem Reached.load (reached : Reached rtc now) : rtc.loadValue.toNat < 2 ^ 32 ∧ rtc.loadCounter ≤ now := by
  induction reached with
  | new cntvct => exact ⟨Nat.two_pow_pos 32, BitVec.le_refl _⟩
  | @step rtc now timed later _ ih =>
      by_cases loads : timed.access.Loads
      · obtain ⟨value, counter⟩ := rtc.step_of_loads loads
        exact ⟨value, counter ▸ BitVec.le_refl _⟩
      · obtain ⟨value, counter⟩ := rtc.step_load loads
        rw [value, counter]
        exact ⟨ih.1, BitVec.le_trans ih.2 later⟩

theorem before_load (rtc : VirtualPl031) (unloaded : ∀ timed ∈ accesses, ¬timed.access.Loads) (i : ℕ) :
    (rtc.before accesses i).loadValue = rtc.loadValue ∧
      (rtc.before accesses i).loadCounter = rtc.loadCounter := by
  have taken : ∀ timed ∈ accesses.take i, ¬timed.access.Loads :=
    fun timed member => unloaded timed (List.mem_of_mem_take member)
  rw [before]
  generalize accesses.take i = front at taken
  induction front generalizing rtc with
  | nil => exact ⟨rfl, rfl⟩
  | cons timed rest ih =>
      obtain ⟨value, counter⟩ := rtc.step_load (taken timed List.mem_cons_self)
      obtain ⟨value', counter'⟩ := ih (rtc.step timed) fun timed member => taken timed (List.mem_cons_of_mem _ member)
      exact ⟨value'.trans value, counter'.trans counter⟩

/-! ## Reads -/

theorem answer_eq_some_iff (rtc : VirtualPl031) (time : timed.access.IsTime) (value : U64) :
    rtc.answer cntfrq timed = some value ↔ value.toNat = rtc.seconds cntfrq timed.cntvct := by
  obtain ⟨cntvct, access⟩ := timed
  cases access with
  | read offset size =>
      obtain ⟨rfl, found⟩ := time
      rw [← currentTime_eq_some_iff, answer]
      simp only [read, found, ne_eq, not_true_eq_false, if_false]
  | write offset value size => exact time.elim

theorem seconds_of_enabled (enabled : rtc.Enabled) (nonzero : cntfrq ≠ 0) (loaded : rtc.loadCounter ≤ now) :
    rtc.seconds cntfrq now = rtc.loadValue.toNat + (now.toNat - rtc.loadCounter.toNat) / cntfrq.toNat := by
  rw [seconds, if_neg (not_or.mpr ⟨enabled, nonzero⟩), BitVec.toNat_udiv, BitVec.toNat_sub_of_le loaded]

theorem seconds_of_not_enabled (disabled : ¬rtc.Enabled) : rtc.seconds cntfrq now = rtc.loadValue.toNat :=
  if_pos (Or.inl (not_not.mp disabled))

end Steps

/-! ## A run without loads -/

/-- Accesses that follow those that reached the clock, at a counter that does not go back, none of which loads
the clock. -/
structure Unloaded (cntfrq : U64) (rtc : VirtualPl031) (now : U64) (accesses : List TimedAccess) : Prop where
  nonzero : cntfrq ≠ 0
  reached : Reached rtc now
  ordered : (now :: accesses.map (·.cntvct)).Pairwise (· ≤ ·)
  unloaded : ∀ timed ∈ accesses, ¬timed.access.Loads

namespace Unloaded

variable {cntfrq now : U64} {rtc : VirtualPl031} {accesses : List TimedAccess} {i j : ℕ}
  {timed first second : TimedAccess}

theorem loadCounter_le (run : Unloaded cntfrq rtc now accesses) (here : accesses[i]? = some timed) :
    rtc.loadCounter ≤ timed.cntvct :=
  BitVec.le_trans run.reached.load.2
    (List.rel_of_pairwise_cons run.ordered (List.mem_map_of_mem (List.mem_of_getElem? here)))

theorem cntvct_le (run : Unloaded cntfrq rtc now accesses) (order : i < j) (here : accesses[i]? = some first)
    (there : accesses[j]? = some second) : first.cntvct ≤ second.cntvct := by
  obtain ⟨bound, rfl⟩ := List.getElem?_eq_some_iff.mp here
  obtain ⟨bound', rfl⟩ := List.getElem?_eq_some_iff.mp there
  exact List.pairwise_iff_getElem.mp (List.pairwise_map.mp (List.pairwise_cons.mp run.ordered).2) i j bound bound' order

theorem seconds_enabled (run : Unloaded cntfrq rtc now accesses) (here : accesses[i]? = some timed)
    (on : (rtc.before accesses i).Enabled) :
    (rtc.before accesses i).seconds cntfrq timed.cntvct =
      rtc.loadValue.toNat + (timed.cntvct.toNat - rtc.loadCounter.toNat) / cntfrq.toNat := by
  obtain ⟨value, counter⟩ := rtc.before_load run.unloaded i
  rw [seconds_of_enabled on run.nonzero (counter ▸ run.loadCounter_le here), value, counter]

theorem seconds_disabled (run : Unloaded cntfrq rtc now accesses) (off : ¬(rtc.before accesses i).Enabled)
    (cntvct : U64) : (rtc.before accesses i).seconds cntfrq cntvct = rtc.loadValue.toNat := by
  rw [seconds_of_not_enabled off, (rtc.before_load run.unloaded i).1]

/-- What the reads of a steady clock show. -/
theorem seconds_lt (run : Unloaded cntfrq rtc now accesses) (steady : Steady cntfrq rtc accesses)
    (here : accesses[i]? = some timed) (time : timed.access.IsTime) :
    (rtc.before accesses i).seconds cntfrq timed.cntvct < 2 ^ 32 := by
  by_cases on : (rtc.before accesses i).Enabled
  · rw [run.seconds_enabled here on]
    exact steady.word i timed here time on
  · rw [run.seconds_disabled on]
    exact run.reached.load.1

theorem seconds_le (run : Unloaded cntfrq rtc now accesses) (steady : Steady cntfrq rtc accesses) (order : i < j)
    (here : accesses[i]? = some first) (there : accesses[j]? = some second) (time : first.access.IsTime)
    (time' : second.access.IsTime) :
    (rtc.before accesses i).seconds cntfrq first.cntvct ≤ (rtc.before accesses j).seconds cntfrq second.cntvct := by
  by_cases on : (rtc.before accesses i).Enabled
  · rw [run.seconds_enabled here on]
    by_cases on' : (rtc.before accesses j).Enabled
    · rw [run.seconds_enabled there on']
      have later : first.cntvct.toNat ≤ second.cntvct.toNat := run.cntvct_le order here there
      exact Nat.add_le_add_left (Nat.div_le_div_right (Nat.sub_le_sub_right later _)) _
    · -- the clock is disabled in between, so less than a second had passed
      rw [run.seconds_disabled on', Nat.div_eq_of_lt (steady.freeze i j first second order here there time time' on on')]
      exact Nat.le_refl _
  · rw [run.seconds_disabled on]
    by_cases on' : (rtc.before accesses j).Enabled
    · rw [run.seconds_enabled there on']
      exact Nat.le_add_right _ _
    · rw [run.seconds_disabled on']

end Unloaded

end VirtualPl031

open VirtualPl031 in
theorem rtc_monotone_iff {cntfrq now : U64} {rtc : VirtualPl031} {accesses : List TimedAccess}
    (run : Unloaded cntfrq rtc now accesses) : ShowsTime cntfrq rtc accesses ↔ Steady cntfrq rtc accesses := by
  constructor
  · intro shows
    constructor
    · intro i timed here time on
      obtain ⟨value, read, word⟩ := shows.word i timed here time
      rwa [(answer_eq_some_iff _ time value).mp read, run.seconds_enabled here on] at word
    · intro i j first second order here there time time' on off
      obtain ⟨value, read, -⟩ := shows.word i first here time
      obtain ⟨value', read', -⟩ := shows.word j second there time'
      have le : value.toNat ≤ value'.toNat :=
        shows.mono i j first second order here there time time' value value' read read'
      rw [(answer_eq_some_iff _ time value).mp read, (answer_eq_some_iff _ time' value').mp read',
        run.seconds_enabled here on, run.seconds_disabled off] at le
      have positive : 0 < cntfrq.toNat := Nat.pos_of_ne_zero fun zero => run.nonzero (BitVec.eq_of_toNat_eq zero)
      refine (Nat.div_eq_zero_iff_lt positive).mp ?_
      exact Nat.le_zero.mp (Nat.le_of_add_le_add_left (Nat.le_trans le (Nat.le_add_right _ 0)))
  · intro steady
    constructor
    · intro i timed here time
      have word := run.seconds_lt steady here time
      obtain ⟨value, same⟩ := exists_toNat_eq (Nat.lt_trans word (show 2 ^ 32 < 2 ^ 64 by decide))
      exact ⟨value, (answer_eq_some_iff _ time value).mpr same, same ▸ word⟩
    · intro i j first second order here there time time' value value' read read'
      change value.toNat ≤ value'.toNat
      rw [(answer_eq_some_iff _ time value).mp read, (answer_eq_some_iff _ time' value').mp read']
      exact run.seconds_le steady order here there time time'

open VirtualPl031 in
/-- Two reads at a second of one tick, with a write of the match register between them. -/
theorem rtc_monotone_two_reads :
    Unloaded 1 (.new 0) 0 [⟨5, .read 0 4⟩, ⟨5, .write 4 9 4⟩, ⟨6, .read 0 4⟩] ∧
      (ShowsTime 1 (.new 0) [⟨5, .read 0 4⟩, ⟨5, .write 4 9 4⟩, ⟨6, .read 0 4⟩] ↔
        Steady 1 (.new 0) [⟨5, .read 0 4⟩, ⟨5, .write 4 9 4⟩, ⟨6, .read 0 4⟩]) := by
  have run : Unloaded 1 (.new 0) 0 [⟨5, .read 0 4⟩, ⟨5, .write 4 9 4⟩, ⟨6, .read 0 4⟩] := by
    refine ⟨by decide, .new 0, by decide, ?_⟩
    simp [RtcAccess.Loads, RtcReg.ofOffset, RtcReg.all, RtcReg.offset]
  exact ⟨run, rtc_monotone_iff run⟩

open VirtualPl031 in
/-- The guest reads five seconds, disables the clock, and reads zero. And after 2^32 seconds it reads 2^32. -/
theorem rtc_goes_back :
    Unloaded 1 (.new 0) 0 [⟨5, .read 0 4⟩, ⟨5, .write 0xC 0 4⟩, ⟨6, .read 0 4⟩] ∧
      ((VirtualPl031.new 0).before [⟨5, .read 0 4⟩, ⟨5, .write 0xC 0 4⟩, ⟨6, .read 0 4⟩] 0).answer 1
        ⟨5, .read 0 4⟩ = some 5 ∧
      ((VirtualPl031.new 0).before [⟨5, .read 0 4⟩, ⟨5, .write 0xC 0 4⟩, ⟨6, .read 0 4⟩] 2).answer 1
        ⟨6, .read 0 4⟩ = some 0 ∧
      (VirtualPl031.new 0).answer 1 ⟨0x100000000, .read 0 4⟩ = some 0x100000000 := by
  refine ⟨⟨by decide, .new 0, by decide, ?_⟩, by decide, by decide, by decide⟩
  simp [RtcAccess.Loads, RtcReg.ofOffset, RtcReg.all, RtcReg.offset]

end Hypervisor
