import Hypervisor.Proofs.GuestMemory
import Hypervisor.Soundness.Messages

/-! # Who owns an RX buffer

The proxy writes to the RX buffer of a VM for two reasons: a message of another VM, and a query of
the VM itself. Either hands the buffer to the VM, which has it until it releases or unregisters it.
`rx_ownership` says over every interleaving of the mailbox calls that the proxy leaves a buffer alone
that the VM has, and that a message stays what MSG_WAIT reports.
-/

namespace Hypervisor

/-! ## Calls and runs -/

/-- The index of a VM among the mailboxes. -/
def boxOf (v : VmId) : Fin ffaMaxVms := v.castLE (Nat.le_of_ble_eq_true rfl)

/-- A mailbox call that has returned. -/
structure MailEvent where
  before : Machine
  vm : VmId
  call : MailCall
  ctx : GpRegs
  /-- Guest memory at the call. The guests store to it between the calls. -/
  ram : GuestRam
  regs : GpRegs
  after : Machine
  ram' : GuestRam
  returned : call.handle (before.activate vm) ctx ram = some (regs, after, ram')

/-- Calls one after the other, from `m₀` on. -/
inductive MailRun (m₀ : Machine) : List MailEvent → Machine → Prop
  | nil : MailRun m₀ [] m₀
  | snoc {events : List MailEvent} {e : MailEvent} (run : MailRun m₀ events e.before) :
      MailRun m₀ (events ++ [e]) e.after

namespace MailEvent

/-- The proxy has written to the RX buffer of mailbox `w`: PARTITION_INFO_GET by its VM or MSG_SEND2 to
it has succeeded. -/
def Fills (e : MailEvent) (w : Fin ffaMaxVms) : Prop :=
  e.regs.x0 = ffaSuccess32 ∧
    (e.call = .partitionInfoGet ∧ boxOf e.vm = w ∨
      e.call = .msgSend2 ∧ partitionIdToVmId (e.before.message e.vm e.ram).receiverId = some w.val)

/-- The VM of mailbox `w` releases or unregisters its RX buffer. -/
def GivesBack (e : MailEvent) (w : Fin ffaMaxVms) : Prop :=
  boxOf e.vm = w ∧ (e.call = .rxRelease ∨ e.call = .rxtxUnmap)

/-- The page of the RX buffer of mailbox `w` at the call. -/
def rxPage (e : MailEvent) (w : Fin ffaMaxVms) : Set ℕ := bytesAt (e.before.mailboxes w).rxIpa.toNat 4096

/-! ## What a call does -/

/-- The outcomes of a mailbox call. -/
inductive Outcome (e : MailEvent) : Prop
  | refuse (code : I32) (regs : e.regs = ffaError e.ctx code) (after : e.after = e.before.activate e.vm)
      (ram : e.ram' = e.ram)
  | register (call : e.call = .rxtxMap) (free : (e.before.mailbox e.vm).mapped = false)
      (after : e.after = (e.before.activate e.vm).setMailbox e.vm { e.before.mailbox e.vm with
        txIpa := e.ctx.x1, rxIpa := e.ctx.x2, pageCount := 1, mapped := true, rxHeldByProxy := true })
      (ram : e.ram' = e.ram)
  | unregister (call : e.call = .rxtxUnmap) (after : e.after = (e.before.activate e.vm).setMailbox e.vm .new)
      (ram : e.ram' = e.ram)
  | release (call : e.call = .rxRelease) (mapped : (e.before.mailbox e.vm).mapped = true)
      (after : e.after = (e.before.activate e.vm).setMailbox e.vm
        { e.before.mailbox e.vm with rxHeldByProxy := true, msgPending := false })
      (ram : e.ram' = e.ram)
  | discover (call : e.call = .partitionInfoGet) (success : e.regs.x0 = ffaSuccess32)
      (mapped : (e.before.mailbox e.vm).mapped = true) (held : (e.before.mailbox e.vm).rxHeldByProxy = true)
      (after : e.after = (e.before.activate e.vm).setMailbox e.vm { e.before.mailbox e.vm with rxHeldByProxy := false })
      (ram : Set.EqOn e.ram' e.ram (e.rxPage (boxOf e.vm))ᶜ)
  | deliver (call : e.call = .msgSend2) (success : e.regs.x0 = ffaSuccess32) (recv : Fin ffaMaxVms)
      (sends : e.before.Deliverable e.vm e.ram recv) (after : e.after = e.before.delivered e.vm recv)
      (ram : Set.EqOn e.ram' e.ram (e.rxPage recv)ᶜ)
  | report (call : e.call = .msgWait) (after : e.after = e.before.activate e.vm) (ram : e.ram' = e.ram)

end MailEvent

section Calls

variable {m m' : Machine} {v : VmId} {ctx regs : GpRegs} {ram ram' : GuestRam}

theorem rxtxUnmap_cases (run : handleRxtxUnmap (m.activate v) ctx = some (regs, m')) :
    (∃ code, regs = ffaError ctx code ∧ m' = m.activate v) ∨ m' = (m.activate v).setMailbox v .new := by
  rw [handleRxtxUnmap, Machine.activate_currentVmId, bind_of_eq_some _ getMailbox_activate] at run
  split_ifs at run
  · cases run
    exact .inl ⟨_, rfl, rfl⟩
  · cases run
    exact .inr rfl

theorem rxRelease_cases (run : handleRxRelease (m.activate v) ctx = some (regs, m')) :
    (∃ code, regs = ffaError ctx code ∧ m' = m.activate v) ∨
    (m.mailbox v).mapped = true ∧
      m' = (m.activate v).setMailbox v { m.mailbox v with rxHeldByProxy := true, msgPending := false } := by
  rw [handleRxRelease, Machine.activate_currentVmId, bind_of_eq_some _ getMailbox_activate] at run
  split_ifs at run with unmapped
  · cases run
    exact .inl ⟨_, rfl, rfl⟩
  · cases run
    exact .inr ⟨by simpa using unmapped, rfl⟩

/-- The descriptor loop stores nothing outside its descriptors. -/
theorem eqOn_writePartitions (rxPtr : ℕ) (partitions : List StubPartition) (i : ℕ) (ram : GuestRam) :
    Set.EqOn (writePartitions rxPtr partitions i ram) ram (bytesAt (rxPtr + i * 8) (partitions.length * 8))ᶜ := by
  induction partitions generalizing i ram with
  | nil => exact fun _ _ => rfl
  | cons sp rest ih =>
    rw [List.length_cons]
    exact (eqOn_around (ih (i + 1) _) (by omega) (by omega)).trans
      ((eqOn_around (eqOn_writeU32 ..) (by omega) (by omega)).trans
        ((eqOn_around (eqOn_writeU16 ..) (by omega) (by omega)).trans
          (eqOn_around (eqOn_writeU16 ..) (by omega) (by omega))))

theorem partitionInfoGet_cases (run : handlePartitionInfoGet (m.activate v) ctx ram = some (regs, m', ram')) :
    (∃ code, regs = ffaError ctx code ∧ m' = m.activate v ∧ ram' = ram) ∨
    regs.x0 = ffaSuccess32 ∧ (m.mailbox v).mapped = true ∧ (m.mailbox v).rxHeldByProxy = true ∧
      m' = (m.activate v).setMailbox v { m.mailbox v with rxHeldByProxy := false } ∧
      Set.EqOn ram' ram (bytesAt (m.mailbox v).rxIpa.toNat 4096)ᶜ := by
  rw [handlePartitionInfoGet, Machine.activate_currentVmId, bind_of_eq_some _ getMailbox_activate] at run
  split_ifs at run with unmapped taken
  · cases run
    exact .inl ⟨_, rfl, rfl, rfl⟩
  · cases run
    exact .inl ⟨_, rfl, rfl, rfl⟩
  · cases run
    refine .inr ⟨rfl, by simpa using unmapped, by simpa using taken, rfl, ?_⟩
    have page : stubPartitionInfo.length * 8 ≤ 4096 := by decide
    exact eqOn_around (eqOn_writePartitions ..) (by omega) (by omega)

theorem eqOn_copyNonoverlapping {src dst len : ℕ} (copy : copyNonoverlapping ram src dst len = some ram')
    (page : len ≤ 4096) : Set.EqOn ram' ram (bytesAt dst 4096)ᶜ := by
  rw [copyNonoverlapping] at copy
  split_ifs at copy
  cases copy
  exact eqOn_around (eqOn_storeBytes ..) le_rfl (by omega)

/-- MSG_WAIT changes nothing. -/
theorem msgWait_cases (run : handleMsgWait (m.activate v) ctx = some (regs, m')) : m' = m.activate v := by
  rw [handleMsgWait, Machine.activate_currentVmId, bind_of_eq_some _ getMailbox_activate] at run
  split_ifs at run <;> cases run <;> rfl

/-- MSG_WAIT reports the sender of the message that is pending. -/
theorem msgWait_of_pending (mapped : (m.mailbox v).mapped = true) (pending : (m.mailbox v).msgPending = true) :
    handleMsgWait (m.activate v) ctx =
      some ({ ctx with x0 := ffaSuccess32, x1 := (m.mailbox v).msgSenderId.setWidth 64 }, m.activate v) := by
  rw [handleMsgWait, Machine.activate_currentVmId, bind_of_eq_some _ getMailbox_activate,
    if_neg (by rw [mapped]; decide), if_pos pending]
  rfl

end Calls

namespace MailEvent

theorem outcome (e : MailEvent) : e.Outcome := by
  obtain ⟨m, v, call, ctx, ram, regs, m', ram', returned⟩ := e
  cases call with
  | rxtxMap =>
    obtain ⟨⟨_, _⟩, run, same⟩ := Option.map_eq_some_iff.mp returned
    cases same
    rcases rxtxMap_cases run with ⟨code, refused, kept⟩ | ⟨-, -, free, -, stored⟩
    · exact .refuse code refused kept rfl
    · exact .register rfl free stored rfl
  | rxtxUnmap =>
    obtain ⟨⟨_, _⟩, run, same⟩ := Option.map_eq_some_iff.mp returned
    cases same
    rcases rxtxUnmap_cases run with ⟨code, refused, kept⟩ | stored
    · exact .refuse code refused kept rfl
    · exact .unregister rfl stored rfl
  | rxRelease =>
    obtain ⟨⟨_, _⟩, run, same⟩ := Option.map_eq_some_iff.mp returned
    cases same
    rcases rxRelease_cases run with ⟨code, refused, kept⟩ | ⟨mapped, stored⟩
    · exact .refuse code refused kept rfl
    · exact .release rfl mapped stored rfl
  | partitionInfoGet =>
    rcases partitionInfoGet_cases returned with ⟨code, refused, kept, same⟩ | ⟨success, mapped, held, stored, bytes⟩
    · exact .refuse code refused kept same
    · exact .discover rfl success mapped held stored bytes
  | msgSend2 =>
    rcases msgSend2_cases m v ctx ram with ⟨code, -, run⟩ | ⟨recv, sends, run⟩
    · cases run.symm.trans returned
      exact .refuse code rfl rfl rfl
    · have run := run.symm.trans returned
      obtain ⟨total, -, run⟩ := Option.bind_eq_some_iff.mp run
      obtain ⟨_, copy, run⟩ := Option.bind_eq_some_iff.mp run
      cases run
      exact .deliver rfl rfl recv sends rfl (eqOn_copyNonoverlapping copy (Nat.min_le_right ..))
  | msgWait =>
    obtain ⟨⟨_, _⟩, run, same⟩ := Option.map_eq_some_iff.mp returned
    cases same
    exact .report rfl (msgWait_cases run) rfl

/-! ## What one call preserves -/

variable {e : MailEvent} {w : Fin ffaMaxVms}

/-- The proxy fills a buffer that it holds, and then the VM has it. -/
theorem fills_cases (fills : e.Fills w) :
    (e.call = .partitionInfoGet ∧ (e.before.mailboxes w).mapped = true ∧
      (e.before.mailboxes w).rxHeldByProxy = true ∧
      e.after.mailboxes w = { e.before.mailboxes w with rxHeldByProxy := false }) ∨
    e.call = .msgSend2 ∧ e.before.Deliverable e.vm e.ram w ∧
      e.after.mailboxes w = { e.before.mailboxes w with
        msgPending := true, msgSenderId := vmIdToPartitionId e.vm, rxHeldByProxy := false } := by
  obtain ⟨success, why⟩ := fills
  cases e.outcome with
  | refuse code regs => exact absurd (regs ▸ success) (ffaError_x0_ne (by decide))
  | register call => simp [call] at why
  | unregister call => simp [call] at why
  | release call => simp [call] at why
  | report call => simp [call] at why
  | discover call _ mapped held after =>
    rcases why with ⟨-, rfl⟩ | ⟨other, -⟩
    · refine .inl ⟨call, mapped, held, ?_⟩
      rw [after]
      exact if_pos rfl
    · cases call.symm.trans other
  | deliver call _ recv sends after =>
    rcases why with ⟨other, -⟩ | ⟨-, receiver⟩
    · cases call.symm.trans other
    · obtain rfl : recv = w := Fin.ext (Option.some.inj (sends.receiver.symm.trans receiver))
      refine .inr ⟨call, sends, ?_⟩
      rw [after]
      exact if_pos rfl

/-- A call stores to guest memory through the mailbox it fills, and otherwise not at all. -/
theorem ram_cases (e : MailEvent) : e.ram' = e.ram ∨ ∃ u, e.Fills u ∧ Set.EqOn e.ram' e.ram (e.rxPage u)ᶜ := by
  cases e.outcome with
  | refuse _ _ _ ram => exact .inl ram
  | register _ _ _ ram => exact .inl ram
  | unregister _ _ ram => exact .inl ram
  | release _ _ _ ram => exact .inl ram
  | report _ _ ram => exact .inl ram
  | discover call success _ _ _ ram => exact .inr ⟨_, ⟨success, .inl ⟨call, rfl⟩⟩, ram⟩
  | deliver call success recv sends _ ram => exact .inr ⟨recv, ⟨success, .inr ⟨call, sends.receiver⟩⟩, ram⟩

end MailEvent

/-- The VM of a mailbox has its RX buffer. -/
structure FfaMailbox.Taken (mbox : FfaMailbox) : Prop where
  mapped : mbox.mapped = true
  held : mbox.rxHeldByProxy = false

/-- A mailbox without buffers is a new one, and a message is pending only in a buffer the VM has. -/
structure FfaMailbox.Ok (mbox : FfaMailbox) : Prop where
  unmapped : mbox.mapped = false → mbox = .new
  pending : mbox.msgPending = true → mbox.Taken

theorem FfaMailbox.new_ok : FfaMailbox.new.Ok := ⟨fun _ => rfl, by rintro ⟨⟩⟩

theorem Machine.setMailbox_ok {m : Machine} (ok : ∀ w, (m.mailboxes w).Ok) {vmId : ℕ} {mbox : FfaMailbox}
    (stored : mbox.Ok) (w : Fin ffaMaxVms) : ((m.setMailbox vmId mbox).mailboxes w).Ok := by
  change (if w.val = vmId then mbox else m.mailboxes w).Ok
  split_ifs
  · exact stored
  · exact ok w

namespace MailEvent

variable {e : MailEvent} {w : Fin ffaMaxVms}

theorem ok_after (ok : ∀ w, (e.before.mailboxes w).Ok) : ∀ w, (e.after.mailboxes w).Ok := by
  cases e.outcome with
  | refuse _ _ after => exact after ▸ ok
  | report _ after => exact after ▸ ok
  | register _ free after =>
    have idle : (e.before.mailbox e.vm).msgPending = false := congrArg FfaMailbox.msgPending ((ok _).unmapped free)
    rw [after]
    refine Machine.setMailbox_ok (m := e.before.activate e.vm) ok ⟨by rintro ⟨⟩, fun pending => ?_⟩
    cases idle.symm.trans pending
  | unregister _ after => exact after ▸ Machine.setMailbox_ok (m := e.before.activate e.vm) ok FfaMailbox.new_ok
  | release _ mapped after =>
    rw [after]
    refine Machine.setMailbox_ok (m := e.before.activate e.vm) ok ⟨fun unmapped => ?_, by rintro ⟨⟩⟩
    cases mapped.symm.trans unmapped
  | discover _ _ mapped _ after =>
    rw [after]
    refine Machine.setMailbox_ok (m := e.before.activate e.vm) ok ⟨fun unmapped => ?_, fun _ => ⟨mapped, rfl⟩⟩
    cases mapped.symm.trans unmapped
  | deliver _ _ recv sends after =>
    rw [after]
    refine Machine.setMailbox_ok (m := e.before.activate e.vm) ok
      ⟨fun unmapped => ?_, fun _ => ⟨sends.registered, rfl⟩⟩
    cases sends.registered.symm.trans unmapped

theorem Fills.free (fills : e.Fills w) : ¬ (e.before.mailboxes w).Taken := by
  intro taken
  rcases fills_cases fills with ⟨-, -, held, -⟩ | ⟨-, sends, -⟩
  · cases held.symm.trans taken.held
  · cases sends.held.symm.trans taken.held

theorem Fills.taken (fills : e.Fills w) : (e.after.mailboxes w).Taken := by
  rcases fills_cases fills with ⟨-, mapped, -, after⟩ | ⟨-, sends, after⟩
  · exact after ▸ ⟨mapped, rfl⟩
  · exact after ▸ ⟨sends.registered, rfl⟩

/-- Only the VM itself changes the mailbox of a buffer it has. -/
theorem mailbox_kept (taken : (e.before.mailboxes w).Taken) (keeps : ¬ e.GivesBack w) :
    e.after.mailboxes w = e.before.mailboxes w := by
  have other {u : Fin ffaMaxVms} {mbox : FfaMailbox} (different : u ≠ w) :
      ((e.before.activate e.vm).setMailbox u mbox).mailboxes w = e.before.mailboxes w :=
    if_neg fun same => different (Fin.ext same.symm)
  cases e.outcome with
  | refuse _ _ after => exact after ▸ rfl
  | report _ after => exact after ▸ rfl
  | register _ free after =>
    refine after ▸ other (u := boxOf e.vm) ?_
    rintro rfl
    cases free.symm.trans taken.mapped
  | unregister call after => exact after ▸ other (u := boxOf e.vm) fun same => keeps ⟨same, .inr call⟩
  | release call _ after => exact after ▸ other (u := boxOf e.vm) fun same => keeps ⟨same, .inl call⟩
  | discover _ _ _ held after =>
    refine after ▸ other (u := boxOf e.vm) ?_
    rintro rfl
    cases held.symm.trans taken.held
  | deliver _ _ recv sends after =>
    refine after ▸ other (u := recv) ?_
    rintro rfl
    cases sends.held.symm.trans taken.held

/-- The call does not write through mailbox `w`: memory changes in the RX buffer of another one at most. -/
def Spares (e : MailEvent) (w : Fin ffaMaxVms) : Prop :=
  ¬ e.Fills w ∧ (e.ram' = e.ram ∨ ∃ u, u ≠ w ∧ e.Fills u ∧ Set.EqOn e.ram' e.ram (e.rxPage u)ᶜ)

theorem spares_of_taken (taken : (e.before.mailboxes w).Taken) : e.Spares w := by
  refine ⟨fun fills => fills.free taken, e.ram_cases.imp_right ?_⟩
  rintro ⟨u, fills, bytes⟩
  refine ⟨u, ?_, fills, bytes⟩
  rintro rfl
  exact fills.free taken

end MailEvent

/-! ## What a run preserves -/

namespace MailRun

variable {m₀ m : Machine} {events : List MailEvent} {w : Fin ffaMaxVms}

theorem ok (run : MailRun m₀ events m) (start : ∀ w, (m₀.mailboxes w).Ok) : ∀ w, (m.mailboxes w).Ok := by
  induction run with
  | nil => exact start
  | snoc _ ih => exact MailEvent.ok_after ih

theorem kept (run : MailRun m₀ events m) (taken : (m₀.mailboxes w).Taken) (keeps : ∀ e ∈ events, ¬ e.GivesBack w) :
    m.mailboxes w = m₀.mailboxes w := by
  induction run with
  | nil => rfl
  | @snoc events e run ih =>
    have before := ih fun e' member => keeps e' (List.mem_append_left _ member)
    have last := keeps e (List.mem_append_right _ (List.mem_singleton_self e))
    exact (MailEvent.mailbox_kept (before ▸ taken) last).trans before

end MailRun

/-- In every run of the mailbox calls: a mailbox without buffers is a new one, a message is pending only
in a buffer the VM has, and from a call that fills an RX buffer until its VM gives it back no call writes
through that mailbox. If the call was MSG_SEND2, then every MSG_WAIT meanwhile reports its sender and
leaves the state as it is. -/
theorem rx_ownership {m₀ m : Machine} {events : List MailEvent} (start : ∀ w, m₀.mailboxes w = .new)
    (run : MailRun m₀ events m) (w : Fin ffaMaxVms) :
    ((m.mailboxes w).mapped = false → m.mailboxes w = .new) ∧
    ((m.mailboxes w).msgPending = true → (m.mailboxes w).mapped = true ∧ (m.mailboxes w).rxHeldByProxy = false) ∧
    ∀ (fill : MailEvent) (during : List MailEvent) (m' : Machine), fill.before = m → fill.Fills w →
      MailRun fill.after during m' → (∀ e ∈ during, ¬ e.GivesBack w) →
        (∀ next : MailEvent, next.before = m' → next.Spares w) ∧
        (fill.call = .msgSend2 → ∀ v ctx, boxOf v = w → handleMsgWait (m'.activate v) ctx =
          some ({ ctx with x0 := ffaSuccess32, x1 := (vmIdToPartitionId fill.vm).setWidth 64 }, m'.activate v)) := by
  have ok := run.ok (fun w => start w ▸ FfaMailbox.new_ok) w
  refine ⟨ok.unmapped, fun pending => ⟨(ok.pending pending).mapped, (ok.pending pending).held⟩, ?_⟩
  rintro fill during m' - fills meanwhile keeps
  have kept := meanwhile.kept fills.taken keeps
  have taken : (m'.mailboxes w).Taken := kept ▸ fills.taken
  refine ⟨?_, ?_⟩
  · rintro next rfl
    exact MailEvent.spares_of_taken taken
  · rintro call v ctx rfl
    rcases MailEvent.fills_cases fills with ⟨other, -⟩ | ⟨-, -, after⟩
    · cases other.symm.trans call
    · have message : m'.mailbox v = _ := kept.trans after
      rw [msgWait_of_pending taken.mapped (by rw [message]), message]

/-- A call with what it returns. -/
def MailEvent.of (m : Machine) (v : VmId) (call : MailCall) (ctx : GpRegs) (ram : GuestRam)
    (returns : (call.handle (m.activate v) ctx ram).isSome = true) : MailEvent where
  before := m
  vm := v
  call := call
  ctx := ctx
  ram := ram
  regs := ((call.handle (m.activate v) ctx ram).get returns).1
  after := ((call.handle (m.activate v) ctx ram).get returns).2.1
  ram' := ((call.handle (m.activate v) ctx ram).get returns).2.2
  returned := (Option.some_get returns).symm

/-- Both VMs register buffers and VM 0 sends a message, which VM 1 then finds. -/
theorem rx_ownership_message : ∃ events m, MailRun freshGuests events m ∧ events.length = 3 ∧
    handleMsgWait (m.activate 1) {} = some ({ x0 := ffaSuccess32, x1 := 1 }, m.activate 1) := by
  let map0 := MailEvent.of freshGuests 0 .rxtxMap { x1 := 0x48100000, x2 := 0x48101000, x3 := 1 } (fun _ => 0)
    (by decide)
  let map1 := MailEvent.of map0.after 1 .rxtxMap { x1 := 0x68000000, x2 := 0x68001000, x3 := 1 } (fun _ => 0)
    (by decide)
  let send := MailEvent.of map1.after 0 .msgSend2 {} (messageRam 4) (by decide)
  have run : MailRun freshGuests [map0, map1] send.before :=
    @MailRun.snoc freshGuests [map0] map1 (@MailRun.snoc freshGuests [] map0 .nil)
  have fills : send.Fills (boxOf 1) := ⟨by decide, .inr ⟨rfl, by decide⟩⟩
  obtain ⟨-, -, interval⟩ := rx_ownership (fun _ => rfl) run (boxOf 1)
  obtain ⟨-, reports⟩ := interval send [] send.after rfl fills .nil (fun e member => by cases member)
  exact ⟨[map0, map1] ++ [send], send.after, .snoc run, rfl, reports rfl 1 {} rfl⟩

end Hypervisor
