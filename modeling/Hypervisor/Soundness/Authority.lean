import Hypervisor.Soundness.RoundTrip

/-! # Who may reclaim

MEM_RECLAIM looks its record up by handle and asks only whether the receiver holds the pages. A call
by another VM than the sender is refused exactly in that case. While every effective reclaim comes
from the sender, a record outlives all calls of other VMs.
-/

namespace Hypervisor

section Reclaim

variable {m : Machine} {v : VmId} {ctx : GpRegs} {i : ℕ} {record : MemShareRecord}

theorem lookup_of_found {spmc : StubSpmc} {handle : U64} (found : Found spmc.records handle i record) :
    spmc.lookupShareFull handle = some record.info := by
  cases lookup : spmc.lookupShareFull handle with
  | none =>
    rw [StubSpmc.lookupShareFull, Option.map_eq_none_iff, List.find?_eq_none] at lookup
    exact absurd found.holds (lookup record (List.mem_of_getElem? found.here))
  | some info =>
    obtain ⟨j, other, found', rfl⟩ := StubSpmc.exists_found_of_lookup lookup
    rw [(found.unique found').2]

/-- A record that the receiver holds cannot be reclaimed. -/
theorem reclaim_of_retrieved (found : Found m.spmc.records (handleOf ctx) i record)
    (held : record.retrieved = true) :
    handleMemReclaim (m.activate v) ctx = some (ffaError ctx ffaDenied, m.activate v) := by
  rw [handleMemReclaim, Machine.activate_spmc, lookup_of_found found]
  exact if_pos held

theorem reclaim_of_unknown (lookup : m.spmc.lookupShareFull (handleOf ctx) = none) :
    handleMemReclaim (m.activate v) ctx = some (ffaError ctx ffaInvalidParameters, m.activate v) := by
  rw [handleMemReclaim, Machine.activate_spmc, lookup]
  rfl

/-- A reclaim of a record that nobody holds does not return an error. -/
theorem reclaim_of_idle (found : Found m.spmc.records (handleOf ctx) i record) (idle : record.retrieved = false)
    {regs : GpRegs} {m' : Machine} (run : handleMemReclaim (m.activate v) ctx = some (regs, m')) :
    regs.x0 = ffaSuccess32 := by
  rw [handleMemReclaim, Machine.activate_spmc, lookup_of_found found] at run
  dsimp only [MemShareRecord.info] at run
  rw [if_neg (by simp [idle])] at run
  split_ifs at run
  all_goals
    obtain ⟨phys, -, run⟩ := Option.bind_eq_some_iff.mp run
    obtain ⟨rfl, -⟩ := Prod.mk.inj (Option.some.inj run)
    rfl

/-- Only the sender makes a reclaim of a record that nobody holds. -/
def Ledger.BySender (L : Ledger) : Event → Prop
  | .call v .reclaim ctx _ => ∀ i record, Found L.records (handleOf ctx) i record → record.retrieved = false →
      record.senderId = vmIdToPartitionId v
  | _ => True

/-- The event is not a call by the partition. -/
def Event.NotBy (partition : U16) : Event → Prop
  | .call v _ _ _ => vmIdToPartitionId v ≠ partition
  | .other => True

/-- Slot `i` holds an active record with the handle, the parties and the ranges of `record`. -/
def Ledger.Keeps (L : Ledger) (i : ℕ) (record : MemShareRecord) : Prop :=
  ∃ retrieved, L.records[i]? = some { record with active := true, retrieved }

theorem Effect.keeps {L L' : Ledger} {call : MemCall} {ram : GuestRam} (effect : Effect L v ctx call L')
    (keeps : L.Keeps i record) (sent : L.BySender (.call v call ctx ram))
    (other : (Event.call v call ctx ram).NotBy record.senderId) : L'.Keeps i record := by
  obtain ⟨retrieved, here⟩ := keeps
  rcases effect.slot here rfl with same | ⟨found, new, update, here'⟩
  · exact ⟨retrieved, same⟩
  · cases update with
    | reclaim idle => exact absurd (sent i _ found idle).symm other
    | retrieve => exact ⟨true, here'⟩
    | relinquish => exact ⟨false, here'⟩

/-- A reclaim by another VM than the sender is refused and changes nothing exactly when the receiver
holds the pages. In runs where only senders reclaim records that nobody holds, no call by another VM
removes a record. -/
theorem reclaim_authority {m₀ : Machine} {i : ℕ} {record : MemShareRecord}
    (here : m₀.spmc.records[i]? = some record) (active : record.active = true) :
    (∀ (v : VmId) (ctx : GpRegs), Found m₀.spmc.records (handleOf ctx) i record →
      record.senderId ≠ vmIdToPartitionId v →
      ((∃ regs m', handleMemReclaim (m₀.activate v) ctx = some (regs, m') ∧ regs.x0 = ffaErrorId ∧
        m'.spmc = m₀.spmc ∧ m'.phys = m₀.phys) ↔ record.retrieved = true)) ∧
    ∀ m : Machine, m₀.Wf → Reach (fun L event _ => L.BySender event ∧ event.NotBy record.senderId) m₀ m →
      ∃ retrieved, m.spmc.records[i]? = some { record with retrieved } := by
  refine ⟨fun v ctx found _ => ⟨?_, fun held => ?_⟩, fun m wf reach => ?_⟩
  · rintro ⟨regs, m', run, failed, -⟩
    by_contra idle
    have success := reclaim_of_idle found (Bool.eq_false_of_not_eq_true idle) run
    rw [failed] at success
    contradiction
  · exact ⟨_, _, reclaim_of_retrieved found held, rfl, rfl, rfl⟩
  · have restored : { record with active := true } = record := by rw [← active]
    have start : m₀.ledger.Keeps i record := ⟨record.retrieved, here.trans (congrArg some restored.symm)⟩
    obtain ⟨retrieved, kept⟩ := reach.invariant (I := (Ledger.Keeps · i record)) wf start
      fun _ _ _ _ _ _ keeps effect permitted => effect.keeps keeps permitted.1 permitted.2
    rw [← restored]
    exact ⟨retrieved, kept⟩

end Reclaim

theorem sharedGuests_reach : Reach anyStep freshGuests sharedGuests :=
  .perform .refl (by decide) rfl (by decide) trivial

/-- VM 1 holds the page of VM 0 and cannot reclaim it; the record of the share outlives the retrieve. -/
theorem reclaim_authority_borrowedGuests :
    (∃ regs m', handleMemReclaim (borrowedGuests.activate 1) { x0 := ffaMemReclaim, x1 := 1 } = some (regs, m') ∧
      regs.x0 = ffaErrorId ∧ m'.spmc = borrowedGuests.spmc ∧ m'.phys = borrowedGuests.phys) ∧
    ∃ retrieved, borrowedGuests.spmc.records[0]? = some ⟨1, 1, 2, [(0x48000000, 1)], 1, true, false, retrieved⟩ := by
  have found : Found borrowedGuests.spmc.records (handleOf { x0 := ffaMemReclaim, x1 := 1 }) 0
      ⟨1, 1, 2, [(0x48000000, 1)], 1, true, false, true⟩ :=
    ⟨by decide, by decide, fun j before => absurd before (Nat.not_lt_zero j)⟩
  have run : Reach (fun L event _ => L.BySender event ∧ event.NotBy 1) sharedGuests borrowedGuests :=
    .perform .refl (by decide) rfl (by decide) ⟨trivial, (by decide : (2 : U16) ≠ 1)⟩
  have idle : sharedGuests.spmc.records[0]? = some ⟨1, 1, 2, [(0x48000000, 1)], 1, true, false, false⟩ := by decide
  exact ⟨((reclaim_authority found.here rfl).1 1 _ found (by decide)).mpr rfl,
    (reclaim_authority idle rfl).2 borrowedGuests (sharedGuests_reach.wf freshGuests_initial.wf) run⟩

/-- VM 1 has reclaimed the share of VM 0. -/
def robbedGuests : Machine := sharedGuests.perform 1 .reclaim { x0 := ffaMemReclaim, x1 := 1 } fun _ => 0

/-- VM 1 reclaims the share of VM 0, whose page stays shared, and VM 0 can no longer reclaim it. -/
theorem reclaim_by_other_vm :
    freshGuests.Initial ∧ Reach anyStep freshGuests sharedGuests ∧
    sharedGuests.spmc.records[0]? = some ⟨1, 1, 2, [(0x48000000, 1)], 1, true, false, false⟩ ∧
    (∃ regs, handleMemReclaim (sharedGuests.activate 1) { x0 := ffaMemReclaim, x1 := 1 } =
      some (regs, robbedGuests) ∧ regs.x0 = ffaSuccess32) ∧
    robbedGuests.spmc.records[0]? = some ⟨1, 1, 2, [(0x48000000, 1)], 1, false, false, false⟩ ∧
    (∃ regs, handleMemReclaim (robbedGuests.activate 0) { x0 := ffaMemReclaim, x1 := 1 } =
      some (regs, robbedGuests.activate 0) ∧ regs.x0 = ffaErrorId) ∧
    robbedGuests.translation 0 0x48000 = some ⟨0x48000000, 0x73C, PageOwnership.sharedOwned.bits, 0b01⟩ := by
  refine ⟨freshGuests_initial, sharedGuests_reach, by decide, ?_, by decide, ?_, by decide⟩
  · exact sharedGuests.handle_eq_perform 1 .reclaim { x0 := ffaMemReclaim, x1 := 1 } (fun _ => 0) (·.x0) ffaSuccess32
      (by decide)
  · exact ⟨_, reclaim_of_unknown (by decide), rfl⟩

end Hypervisor
