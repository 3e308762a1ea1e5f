import Hypervisor.Model.Mailbox
import Hypervisor.Proofs.Handlers

/-! # What the mailbox calls do

One case lemma per handler of `Model.Mailbox`, for a call by VM `v`: refused with an error and
nothing changed, or the one mailbox it is about is written. Tables and records are never touched.
-/

namespace Hypervisor

namespace Machine

variable (m : Machine) (v : VmId) (mbox : FfaMailbox)

@[simp] theorem setMailbox_self : (m.setMailbox v mbox).mailbox v = mbox := if_pos rfl

end Machine

/-- The window of guest RAM as numbers. -/
theorem isGuestRam_page {ipa : U64} (inside : isGuestRam ipa 4096 = true) :
    0x48000000 ≤ ipa.toNat ∧ ipa.toNat + 4096 ≤ 0x88000000 := by
  simp only [isGuestRam, Bool.and_eq_true, decide_eq_true_eq, BitVec.le_def] at inside
  have low : guestLoadAddr.toNat = 0x48000000 := by decide
  have high : (guestLoadAddr + linuxMemSize - 4096).toNat = 0x87FFF000 := by decide
  omega

section Calls

variable {m m' : Machine} {v : VmId} {ctx regs : GpRegs}

/-- A page-aligned address of the window. -/
structure RamPage (ipa : U64) : Prop where
  aligned : ipa &&& 0xFFF = 0
  inside : isGuestRam ipa 4096 = true

/-- RXTX_MAP: refused, or two pages of the window are registered for a VM that had none. -/
theorem rxtxMap_cases (run : handleRxtxMap (m.activate v) ctx = some (regs, m')) :
    (∃ code, regs = ffaError ctx code ∧ m' = m.activate v) ∨
    RamPage ctx.x1 ∧ RamPage ctx.x2 ∧ (m.mailbox v).mapped = false ∧ regs = { ctx with x0 := ffaSuccess32 } ∧
      m' = (m.activate v).setMailbox v { m.mailbox v with
        txIpa := ctx.x1, rxIpa := ctx.x2, pageCount := 1, mapped := true, rxHeldByProxy := true } := by
  rw [handleRxtxMap] at run
  dsimp only at run
  split_ifs at run with malformed outside
  · obtain ⟨rfl, rfl⟩ := Prod.mk.inj (Option.some.inj run)
    exact .inl ⟨_, rfl, rfl⟩
  · obtain ⟨rfl, rfl⟩ := Prod.mk.inj (Option.some.inj run)
    exact .inl ⟨_, rfl, rfl⟩
  · rw [Machine.activate_currentVmId, bind_of_eq_some _ getMailbox_activate] at run
    have one : (ctx.x3.setWidth 32 : U32) = 1 := by
      obtain ⟨-, -, positive, bounded⟩ := by simpa only [not_or] using malformed
      bv_omega
    rw [one] at run outside
    cases taken : (m.mailbox v).mapped with
    | true =>
      rw [if_pos taken] at run
      obtain ⟨rfl, rfl⟩ := Prod.mk.inj (Option.some.inj run)
      exact .inl ⟨_, rfl, rfl⟩
    | false =>
      rw [if_neg (by simp [taken])] at run
      obtain ⟨rfl, rfl⟩ := Prod.mk.inj (Option.some.inj run)
      simp only [not_or, not_not] at malformed
      have window : isGuestRam ctx.x1 4096 = true ∧ isGuestRam ctx.x2 4096 = true := by
        simpa using outside
      exact .inr ⟨⟨malformed.1, window.1⟩, ⟨malformed.2.1, window.2⟩, rfl, rfl, rfl⟩

/-- Two pages of the window are accepted from a VM without buffers. -/
theorem rxtxMap_of_ramPage (tx : RamPage ctx.x1) (rx : RamPage ctx.x2) (one : (ctx.x3.setWidth 32 : U32) = 1)
    (free : (m.mailbox v).mapped = false) :
    handleRxtxMap (m.activate v) ctx = some ({ ctx with x0 := ffaSuccess32 },
      (m.activate v).setMailbox v { m.mailbox v with
        txIpa := ctx.x1, rxIpa := ctx.x2, pageCount := 1, mapped := true, rxHeldByProxy := true }) := by
  rw [handleRxtxMap]
  dsimp only
  have wellFormed : ¬(ctx.x1 &&& 0xFFF ≠ 0 ∨ ctx.x2 &&& 0xFFF ≠ 0 ∨ (1 : U32) = 0 ∨ (1 : U32) < 1) := by
    rintro (odd | odd | none | many)
    · exact odd tx.aligned
    · exact odd rx.aligned
    · exact nomatch none
    · exact absurd many (by decide)
  have window : ¬((!isGuestRam ctx.x1 4096 || !isGuestRam ctx.x2 4096) = true) := by
    rw [tx.inside, rx.inside]
    decide
  rw [one, if_neg wellFormed, show (BitVec.setWidth 64 (1 : U32) * 4096 : U64) = 4096 by rfl, if_neg window,
    Machine.activate_currentVmId, bind_of_eq_some _ getMailbox_activate, if_neg (by simp [free])]
  rfl

/-- The header of the message in the TX buffer of VM `v`. -/
def Machine.message (m : Machine) (v : VmId) (ram : GuestRam) : MsgHeader :=
  readMsgHeader ram (m.mailbox v).txIpa.toNat

/-- The checks of MSG_SEND2 pass: VM `v` has a message for a VM that can take one. -/
structure Machine.Deliverable (m : Machine) (v : VmId) (ram : GuestRam) (recv : Fin ffaMaxVms) : Prop where
  mapped : (m.mailbox v).mapped = true
  sender : (m.message v ram).senderId = vmIdToPartitionId v
  receiver : partitionIdToVmId (m.message v ram).receiverId = some recv.val
  registered : (m.mailboxes recv).mapped = true
  held : (m.mailboxes recv).rxHeldByProxy = true
  idle : (m.mailboxes recv).msgPending = false

/-- The machine after a message has been copied. -/
def Machine.delivered (m : Machine) (v : VmId) (recv : Fin ffaMaxVms) : Machine :=
  (m.activate v).setMailbox recv { m.mailboxes recv with
    msgPending := true, msgSenderId := vmIdToPartitionId v, rxHeldByProxy := false }

theorem lt_of_partitionIdToVmId {partId : U16} {vmId : ℕ} (named : partitionIdToVmId partId = some vmId) :
    vmId < ffaMaxVms := by
  rw [partitionIdToVmId] at named
  split_ifs at named
  cases named
  omega

/-- MSG_SEND2: refused by a check with nothing changed, or the copy decides. -/
theorem msgSend2_cases (m : Machine) (v : VmId) (ctx : GpRegs) (ram : GuestRam) :
    (∃ code, (∀ recv, ¬m.Deliverable v ram recv) ∧
      handleMsgSend2 (m.activate v) ctx ram = some (ffaError ctx code, m.activate v, ram)) ∨
    ∃ recv, m.Deliverable v ram recv ∧
      handleMsgSend2 (m.activate v) ctx ram = (checkedAddU32 8 (m.message v ram).size).bind fun total =>
        (copyNonoverlapping ram (m.mailbox v).txIpa.toNat (m.mailboxes recv).rxIpa.toNat
          (min total.toNat 4096)).bind fun ram' =>
            some ({ ctx with x0 := ffaSuccess32 }, m.delivered v recv, ram') := by
  have header : readMsgHeader ram (m.mailbox v).txIpa.toNat = m.message v ram := rfl
  rw [handleMsgSend2, Machine.activate_currentVmId, bind_of_eq_some _ getMailbox_activate]
  dsimp only
  rw [header]
  rcases Bool.eq_false_or_eq_true (m.mailbox v).mapped with mapped | unmapped
  swap
  · exact .inl ⟨_, fun recv sends => (nomatch unmapped.symm.trans sends.mapped), if_pos (by rw [unmapped]; rfl)⟩
  rw [if_neg (by rw [mapped]; decide)]
  rcases ne_or_eq (m.message v ram).senderId (vmIdToPartitionId v) with forged | sender
  · exact .inl ⟨_, fun recv sends => forged sends.sender, if_pos forged⟩
  rw [if_neg (not_not.mpr sender)]
  cases receiver : partitionIdToVmId (m.message v ram).receiverId with
  | none => exact .inl ⟨_, fun recv sends => (nomatch receiver.symm.trans sends.receiver), rfl⟩
  | some recvVmId =>
    obtain ⟨recv, rfl⟩ : ∃ recv : Fin ffaMaxVms, recv.val = recvVmId := ⟨⟨_, lt_of_partitionIdToVmId receiver⟩, rfl⟩
    have same : ∀ other, m.Deliverable v ram other → other = recv := fun other sends =>
      Fin.ext (Option.some.inj (sends.receiver.symm.trans receiver))
    have mailbox : (m.activate v).getMailbox recv = some (m.mailboxes recv) := dif_pos recv.isLt
    dsimp only
    rw [bind_of_eq_some _ mailbox]
    rcases Bool.eq_false_or_eq_true (m.mailboxes recv).mapped with registered | unregistered
    swap
    · refine .inl ⟨_, fun other sends => ?_, if_pos (by rw [unregistered]; rfl)⟩
      obtain rfl := same other sends
      exact nomatch unregistered.symm.trans sends.registered
    rw [if_neg (by rw [registered]; decide)]
    rcases Bool.eq_false_or_eq_true (m.mailboxes recv).rxHeldByProxy with held | released
    swap
    · refine .inl ⟨_, fun other sends => ?_, if_pos (by rw [released]; rfl)⟩
      obtain rfl := same other sends
      exact nomatch released.symm.trans sends.held
    rw [if_neg (by rw [held]; decide)]
    rcases Bool.eq_false_or_eq_true (m.mailboxes recv).msgPending with pending | idle
    · refine .inl ⟨_, fun other sends => ?_, if_pos pending⟩
      obtain rfl := same other sends
      exact nomatch pending.symm.trans sends.idle
    refine .inr ⟨recv, ⟨mapped, sender, receiver, registered, held, idle⟩, ?_⟩
    rw [if_neg (Bool.eq_false_iff.mp idle), sender]
    rfl

end Calls

end Hypervisor
