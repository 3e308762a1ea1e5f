import Hypervisor.Proofs.Mailbox
import Hypervisor.Soundness.RoundTrip

/-! # What arrives of an indirect message

MSG_SEND2 copies at most one page and reports success in any case. A message arrives as it was sent
exactly when header and payload fit the page and the two buffers are different ones.
-/

namespace Hypervisor

/-- The first `len` bytes at `dst` are those at `src`, and nothing else has changed. -/
def Copied (ram ram' : GuestRam) (src dst len : ℕ) : Prop :=
  (∀ i < len, ram' (dst + i) = ram (src + i)) ∧ ∀ a, a < dst ∨ dst + len ≤ a → ram' a = ram a

/-- MSG_SEND2 by VM `v` returns. Success means that header and payload are in the RX buffer of the
receiver; a message longer than the one page of a buffer is refused and changes nothing. -/
def Machine.SendIntact (m : Machine) (v : VmId) (ctx : GpRegs) (ram : GuestRam) : Prop :=
  ∃ regs m' ram', handleMsgSend2 (m.activate v) ctx ram = some (regs, m', ram') ∧
    (regs.x0 = ffaSuccess32 → ∃ recv : Fin ffaMaxVms,
      partitionIdToVmId (m.message v ram).receiverId = some recv.val ∧
      Copied ram ram' (m.mailbox v).txIpa.toNat (m.mailboxes recv).rxIpa.toNat (8 + (m.message v ram).size.toNat)) ∧
    (4096 < 8 + (m.message v ram).size.toNat →
      (∃ code, regs = ffaError ctx code) ∧ m' = m.activate v ∧ ram' = ram)

theorem copied_of_copyNonoverlapping {ram ram' : GuestRam} {src dst len : ℕ}
    (copy : copyNonoverlapping ram src dst len = some ram') : Copied ram ram' src dst len := by
  rw [copyNonoverlapping] at copy
  split_ifs at copy
  cases copy
  exact ⟨fun i inside => storeBytes_inside inside, fun a outside => storeBytes_outside outside⟩

/-- The sum in front of the copy, for a message that fits a page. -/
theorem checkedAddU32_of_fits {size : U32} (fits : size.toNat ≤ 4088) :
    ∃ total, checkedAddU32 8 size = some total ∧ min total.toNat 4096 = 8 + size.toNat := by
  obtain ⟨total, sum⟩ : ∃ total : U32, total.toNat = 8 + size.toNat := exists_toNat_eq (by omega)
  exact ⟨total, checkedAddU32_eq_some_iff.mpr sum, by omega⟩

theorem msgSend2_intact (m : Machine) (v : VmId) (ctx : GpRegs) (ram : GuestRam) :
    m.SendIntact v ctx ram ↔ ∀ recv, m.Deliverable v ram recv → (m.message v ram).size.toNat ≤ 4088 ∧
      RangesApart (m.mailbox v).txIpa.toNat (m.mailboxes recv).rxIpa.toNat (8 + (m.message v ram).size.toNat) := by
  rcases msgSend2_cases m v ctx ram with ⟨code, closed, run⟩ | ⟨recv, sends, run⟩
  · refine iff_of_true ⟨_, _, _, run, fun success => ?_, fun _ => ⟨⟨code, rfl⟩, rfl, rfl⟩⟩ fun recv sends =>
      absurd sends (closed recv)
    exact absurd success (ffaError_x0_ne (by decide))
  constructor
  · rintro ⟨regs, m', ram', returned, -, rejected⟩ other sends'
    obtain rfl : other = recv := Fin.ext (Option.some.inj (sends'.receiver.symm.trans sends.receiver))
    rw [run] at returned
    obtain ⟨total, sum, returned⟩ := Option.bind_eq_some_iff.mp returned
    obtain ⟨copy, copied, returned⟩ := Option.bind_eq_some_iff.mp returned
    cases returned
    have fits : (m.message v ram).size.toNat ≤ 4088 := by
      by_contra long
      obtain ⟨⟨code, same⟩, -⟩ := rejected (by omega)
      exact ffaError_x0_ne (by decide : ffaErrorId ≠ ffaSuccess32) (congrArg GpRegs.x0 same).symm
    obtain ⟨total', sum', length⟩ := checkedAddU32_of_fits fits
    cases sum.symm.trans sum'
    rw [length] at copied
    exact ⟨fits, copyNonoverlapping_isSome.mp (Option.isSome_iff_exists.mpr ⟨_, copied⟩)⟩
  · intro fine
    obtain ⟨fits, apart⟩ := fine recv sends
    obtain ⟨total, sum, length⟩ := checkedAddU32_of_fits fits
    have some : (copyNonoverlapping ram _ _ _).isSome = true := copyNonoverlapping_isSome.mpr apart
    obtain ⟨ram', copied⟩ := Option.isSome_iff_exists.mp some
    rw [sum, Option.bind_some, length, copied, Option.bind_some] at run
    refine ⟨_, _, _, run, fun _ => ⟨recv, sends.receiver, copied_of_copyNonoverlapping copied⟩, fun long => ?_⟩
    omega

/-- A message from VM 0 to VM 1 in the TX buffer at 0x48100000. -/
def messageRam (size : U32) : GuestRam :=
  writeU32 (writeU16 (writeU16 (fun _ => 0) 0x48100000 1) 0x48100002 2) 0x48100004 size

/-- A payload of 4096 bytes is cut off and reported as sent; one of 2^32 - 8 bytes is a panic. -/
theorem msgSend2_truncates :
    ¬mailGuests.SendIntact 0 {} (messageRam 4096) ∧
    (handleMsgSend2 (mailGuests.activate 0) {} (messageRam 4096)).map (·.1.x0) = some ffaSuccess32 ∧
    handleMsgSend2 (mailGuests.activate 0) {} (messageRam 0xFFFFFFF8) = none := by
  have success : (handleMsgSend2 (mailGuests.activate 0) {} (messageRam 4096)).map (·.1.x0) = some ffaSuccess32 := by
    decide
  refine ⟨?_, success, Option.isNone_iff_eq_none.mp (by decide)⟩
  rintro ⟨regs, m', ram', run, -, rejected⟩
  obtain ⟨⟨code, rfl⟩, -⟩ := rejected (by decide)
  rw [run] at success
  exact ffaError_x0_ne (by decide) (Option.some.inj success)

end Hypervisor
