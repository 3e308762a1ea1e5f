import Hypervisor.Proofs.MultiPcpu

/-! # pCPUs that wake each other

Every handler is verified on its own, under what the other pCPUs may do. So in every interleaving no interrupt is left
behind for a guest that runs, and no `CPU_ON` request for a pCPU that waits.
-/

namespace Hypervisor

open Concurrent

namespace MultiPcpu

/-! ## Where a pCPU stands -/

/-- Which interrupts of a pCPU are covered while it is online, what it may still have to do for others, whether its
terminal flag may be set, whether it has taken a request, and whether a request is sure to be seen. -/
structure Stance where
  online : Bool
  kinds : PendingKind → Prop
  debts : VcpuId → Prop
  signals : Bool
  terminal : Bool
  serving : Bool
  sure : Prop

/-- In the run loop or in the guest, with nothing left to do for others. -/
def calm (kinds : PendingKind → Prop) : Stance := ⟨true, kinds, fun _ => False, false, false, true, False⟩

/-- Before the run loop. -/
def waiting (serving : Bool) (sure : Prop) : Stance :=
  ⟨false, fun _ => False, fun _ => False, false, false, serving, sure⟩

structure Stands (cpu : VcpuId) (st : Stance) (s : Shared) : Prop where
  online : s.vs.isOnline cpu = st.online
  covered : st.online = true → ∀ kind, st.kinds kind → ∀ bit, s.Covered cpu kind bit
  debts : ∀ q, s.owes cpu q = true → st.debts q
  signals : s.signals cpu = true → st.signals = true
  terminal : s.vs.terminalExit cpu = true → st.terminal = true
  serving : cpu ≠ 0 → s.serving cpu = st.serving
  late : cpu ≠ 0 → st.serving = true → s.Requested cpu → s.late cpu = true
  called : st.sure → s.Called cpu

section Programs

open Interference

variable {s : Shared} {self : VcpuId} {st : Stance} {kinds : PendingKind → Prop} {α : Type} {Q : α → Stance}
  {vcpu : Vcpu} {numCpus : ℕ} {ichVtrEl2 : U32} {kind : PendingKind} {place : ℕ → LrBank → Option LrBank}

theorem Stands.weaken {kinds : PendingKind → Prop} {debts : VcpuId → Prop} (here : Stands self st s)
    (fewer : ∀ kind, kinds kind → st.kinds kind) (more : ∀ q, st.debts q → debts q) :
    Stands self { st with kinds, debts } s :=
  { here with
    covered := fun online kind kept => here.covered online kind (fewer kind kept)
    debts := fun q owed => more q (here.debts q owed) }

theorem stable_stands : (interference self).Stable (Stands self st) := fun _ _ keeps here =>
  { online := keeps.online.trans here.online
    covered := fun online kind kept bit =>
      keeps.covered (here.online.trans online) kind bit (here.covered online kind kept bit)
    debts := fun q owed => here.debts q ((keeps.debts q).symm.trans owed)
    signals := fun set => here.signals (keeps.signals.symm.trans set)
    terminal := fun set => here.terminal (keeps.terminal.symm.trans set)
    serving := fun secondary => keeps.serving.trans (here.serving secondary)
    late := fun secondary serving => keeps.late ((here.serving secondary).trans serving) (here.late secondary serving)
    called := fun sure => keeps.called (here.called sure) }

/-- From now on until `prog` ends as `Q` says, the pCPU keeps to what others count on. -/
abbrev wp (self : VcpuId) (Q : α → Stance) : Prog Shared α → Shared → Prop :=
  (interference self).Wp fun result => Stands self (Q result)

theorem wp_done {result : α} (here : Stands self (Q result) s) : wp self Q (.done result) s := Wp.done stable_stands here

theorem wp_modifyGet {f : Shared → α} {update : Shared → Shared} (here : Stands self st s)
    (step : ∀ s, Stands self st s → (interference self).guar s (update s) ∧ Stands self (Q (f s)) (update s)) :
    wp self Q (.modifyGet f update) s := Wp.modifyGet stable_stands (fun _ => stable_stands) here step

theorem wp_modify {update : Shared → Shared} {R : Stance} (here : Stands self st s)
    (step : ∀ s, Stands self st s → (interference self).guar s (update s) ∧ Stands self R (update s)) :
    wp self (fun _ => R) (.modify update) s := wp_modifyGet here step

theorem wp_read {f : Shared → α} (here : Stands self st s) : wp self (fun _ => st) (.read f) s :=
  wp_modifyGet here fun s here => ⟨fun t _ => Keeps.refl t s, here⟩

/-! ## Interrupts -/

theorem wp_orPending {target : VcpuId} {bits : U32} (here : Stands self st s)
    (own : target = self → ¬st.kinds kind) (owed : target ≠ self → st.debts target) :
    wp self (fun _ => st) (.modify (·.orPending self target kind bits)) s := by
  refine wp_modify here fun s here => ⟨keeps_orPending, { here with covered := ?_, debts := ?_ }⟩
  · intro online k kept bit
    exact covered_orPending (fun _ same other => own same (other ▸ kept)) (here.covered online k kept bit)
  · intro q owes
    simp only [Shared.orPending, Bool.or_eq_true, Bool.and_eq_true, decide_eq_true_eq] at owes
    obtain before | ⟨⟨-, rfl⟩, other⟩ := owes
    · exact here.debts q before
    · exact owed other

theorem wp_sendPhysicalSgi (targetList : U16) (here : Stands self st s)
    (all : ∀ q, st.debts q → targetList.getLsbD q.val = true) :
    wp self (fun _ => { st with debts := fun _ => False }) (sendPhysicalSgi self targetList) s := by
  refine wp_modify here fun s here => ⟨keeps_ring, { here with covered := ?_, debts := ?_ }⟩
  · exact fun online k kept bit => covered_ring (here.covered online k kept bit)
  · intro q owes
    simp only [Shared.ring, Bool.and_eq_true, ne_eq, not_true_eq_false, decide_false, Bool.false_or,
      Bool.not_eq_true'] at owes
    exact absurd ((all q (here.debts q owes.1)).symm.trans owes.2) (by decide)

theorem wp_injectSpi (own : ¬kinds .spi) (spi : U32 × U64) (s : Shared) (here : Stands self (calm kinds) s) :
    wp self (fun _ => calm kinds) (injectSpi self spi.1 spi.2) s := by
  simp only [injectSpi]
  split_ifs with outside bound remote
  · exact wp_done here
  · let target : VcpuId := ⟨(spi.2 &&& 0xFF).toNat, bound⟩
    have owing := here.weaken (fun _ => id) (fun q none => (none.elim : q = target))
    refine (wp_orPending owing (fun _ => own) fun _ => rfl).seq fun _ s here => wp_sendPhysicalSgi _ here ?_
    rintro q rfl
    have bit : ∀ target : VcpuId, ((1 : U16) <<< target.val).getLsbD target.val = true := by decide
    exact bit target
  · refine (wp_orPending here (fun _ => own) fun other => ?_).seq fun _ _ => wp_done
    exact other (Fin.ext (not_not.mp remote))
  · exact wp_done here

/-- The loops over what was taken put back what finds no list register. -/
theorem wp_placeAll (all : U32) (bits : List ℕ) (ichLr : LrBank) (here : Stands self st s) :
    wp self (fun _ => st) (placeAll self kind place all bits ichLr) s := by
  induction bits generalizing s ichLr with
  | nil => exact wp_done here
  | cons bit bits ih =>
      rw [placeAll]
      split_ifs
      · exact ih ichLr here
      · cases place bit ichLr with
        | some ichLr => exact ih ichLr here
        | none =>
            exact (wp_modify here fun _ here => ⟨keeps_requeue, { here with
              covered := fun online k kept b => covered_requeue (here.covered online k kept b) }⟩).seq
                fun _ _ here => ih ichLr here

theorem wp_takeAndPlace (ichLr : LrBank) (here : Stands self st s) :
    wp self (fun _ => { st with kinds := fun k => st.kinds k ∨ k = kind }) (takeAndPlace self kind place ichLr) s := by
  refine (wp_modifyGet (Q := fun _ => { st with kinds := fun k => st.kinds k ∨ k = kind }) here fun _ here =>
    ⟨keeps_takePending, { here with covered := ?_ }⟩).seq fun all _ here => ?_
  · intro online k kept b
    exact covered_takePending (kept.symm.imp (fun same => ⟨same, rfl⟩) fun before => here.covered online k before b)
  split_ifs
  · exact wp_done here
  · exact wp_placeAll all _ ichLr here

theorem getLsbD_bitmapOf (chosen : VcpuId → Bool) (q : VcpuId) : (bitmapOf chosen).getLsbD q.val = chosen q := by
  have loop (ids : List VcpuId) (bitmap : U64) :
      (ids.foldl (fun bitmap id => if chosen id then bitmap ||| ((1 : U64) <<< id.val) else bitmap) bitmap).getLsbD q.val =
        (bitmap.getLsbD q.val || (decide (q ∈ ids) && chosen q)) := by
    induction ids generalizing bitmap with
    | nil => simp
    | cons id ids ih =>
        rw [List.foldl_cons, ih]
        rw [apply_ite (BitVec.getLsbD · q.val), BitVec.getLsbD_or, VmGlobalState.getLsbD_vcpuBit]
        by_cases same : q = id
        · subst same
          cases chosen q <;> simp
        · simp [same]
  rw [bitmapOf, loop]
  simp

/-- The SGI is sent to everyone who is owed one. -/
theorem wp_wake {chosen : VcpuId → Bool} {debts : VcpuId → Prop} {quiet : Prop} [Decidable quiet] {ichLr : LrBank}
    (here : Stands self { calm kinds with debts } s) (all : ∀ q, debts q → chosen q = true)
    (why : quiet → bitmapOf chosen = 0 ∨ ∀ q, ¬debts q) :
    wp self (fun _ => calm kinds) (if quiet then .done ichLr
      else (sendPhysicalSgi self ((bitmapOf chosen).setWidth 16)).bind fun _ => .done ichLr) s := by
  have bit (q : VcpuId) (owed : debts q) := (getLsbD_bitmapOf chosen q).trans (all q owed)
  split_ifs with silent
  · refine wp_done (here.weaken (fun _ => id) fun q owed => ?_)
    refine (why silent).elim (fun zero => ?_) fun nobody => nobody q owed
    exact absurd (zero ▸ bit q owed) (by simp)
  · refine (wp_sendPhysicalSgi _ here fun q owed => ?_).seq fun _ _ => wp_done
    have low : q.val < 16 := q.isLt.trans (by decide)
    rw [BitVec.getLsbD_setWidth, bit q owed, decide_eq_true low, Bool.true_and]

/-- What is owed after the loop is owed to targets, and the flag tells of it. -/
theorem wp_queueSgis (targetList intid : U64) (bits : List VcpuId) (ichLr : LrBank) (remoteQueued : Bool)
    (here : Stands self { st with debts := fun q => (hasBit targetList q && q ≠ self) ∧ remoteQueued } s) :
    wp self (fun queued => { st with debts := fun q => (hasBit targetList q && q ≠ self) ∧ queued.2 })
      (queueSgis self ichVtrEl2 targetList intid bits ichLr remoteQueued) s := by
  induction bits generalizing s ichLr remoteQueued with
  | nil => exact wp_done here
  | cons bit bits ih =>
      rw [queueSgis]
      split_ifs with absent own
      · exact ih ichLr remoteQueued here
      · exact ih _ remoteQueued here
      · have target : (hasBit targetList bit && decide (bit ≠ self)) = true := by simpa [own] using absent
        exact (wp_orPending (here.weaken (fun _ => id) fun q owed => ⟨owed.1, rfl⟩) (fun same => absurd same own)
          fun _ => ⟨target, rfl⟩).seq fun _ _ here => ih ichLr true here

theorem wp_handleSgiTrap (value : U64) (ichLr : LrBank) (here : Stands self (calm kinds) s) :
    wp self (fun _ => calm kinds) (handleSgiTrap self ichVtrEl2 value ichLr) s := by
  simp only [handleSgiTrap]
  split_ifs with everyone
  · refine (wp_read here).seq fun online s here => ?_
    let targets := (List.finRange maxVcpus).filter fun id => id ≠ self && hasBit online id
    have others {q : VcpuId} (member : q ∈ targets) : decide (q ≠ self) = true :=
      (Bool.and_eq_true_iff.mp (List.mem_filter.mp member).2).1
    refine (Wp.forEach (P := Stands self { calm kinds with debts := (· ∈ targets) }) stable_stands
      (here.weaken (fun _ => id) fun _ => False.elim) fun id member s here => wp_orPending here
        (fun same => absurd same (of_decide_eq_true (others member))) fun _ => member).seq fun _ s here => ?_
    split_ifs with nobody
    · exact wp_done (here.weaken (fun _ => id) fun q owed => List.eq_nil_iff_forall_not_mem.mp nobody q owed)
    · refine (wp_modifyGet (Q := fun online => { calm kinds with debts := fun q => q ∈ targets ∧ hasBit online q = true })
        here fun s here => ⟨keeps_forgive, { here with covered := ?_, debts := ?_ }⟩).seq fun online s here => ?_
      · exact fun on k kept b => covered_forgive (here.online.trans on) (here.covered on k kept b)
      · intro q owes
        simp only [Shared.forgive, Bool.and_eq_true, ne_eq, not_true_eq_false, decide_false, Bool.false_or] at owes
        exact ⟨here.debts q owes.1, owes.2⟩
      · exact wp_wake here (fun q owed => Bool.and_eq_true_iff.mpr ⟨others owed.1, owed.2⟩) .inl
  · refine (wp_queueSgis _ _ _ ichLr false (here.weaken (fun _ => id) fun _ => False.elim)).seq
      fun queued s here => wp_wake here (fun q => And.left) ?_
    exact fun quiet => quiet.symm.imp_right fun none q owed => absurd (none.symm.trans owed.2) (by decide)

/-! ## The outline -/

/-- Where a pCPU stands between two stretches of hypervisor code. -/
def rest : Mode → Stance
  | .boot _ | .idle => waiting false True
  | .top _ | .stopped | .halted => calm fun _ => False
  | .guest _ => calm fun _ => True

theorem wp_setTerminalExit {f : Shared → α} {value : Bool} (here : Stands self st s) :
    wp self (fun _ => { st with terminal := value }) (.modifyGet f (·.setTerminalExit self value)) s :=
  wp_modifyGet here fun _ here => ⟨keeps_setTerminalExit, { here with
    terminal := fun set => by simpa [Shared.setTerminalExit, VmGlobalState.setTerminalExit] using set }⟩

/-- A pCPU that leaves its guest for good sees the next request, unless it was made too early. -/
theorem wp_leaveGuest {terminal : Bool} (here : Stands self { calm kinds with terminal } s) :
    wp self rest (leaveGuest self vcpu) s := by
  refine (wp_setTerminalExit here).seq fun left s here => ?_
  have top := here.weaken (fun kind (none : False) => none.elim) fun _ => id
  split_ifs with stays primary
  · exact wp_done top
  · exact wp_done top
  · refine (wp_modify (R := waiting false True) top fun s here => ⟨keeps_clearOnline, { here with
      online := ?_, covered := ?_, serving := ?_, late := ?_, called := ?_ }⟩).seq fun _ _ => wp_done
    · simp [Shared.clearOnline, VmGlobalState.isOnline_clearOnline, waiting]
    · exact fun online => absurd online Bool.false_ne_true
    · exact fun _ => Function.update_self ..
    · exact fun _ taken => absurd taken Bool.false_ne_true
    · exact fun _ requested => .inr (.inr (here.late primary rfl requested))

/-- SPIs are taken last. -/
theorem wp_takeSpis (ichLr : LrBank) (here : Stands self (calm kinds) s) (sgis : kinds .sgi) :
    wp self rest ((takeAndPlace self .spi place ichLr).bind fun ichLr => .done (.guest (vcpu.setIchLr ichLr))) s := by
  refine (wp_takeAndPlace ichLr here).seq fun ichLr s here => ?_
  refine wp_done (here.weaken (fun kind _ => ?_) fun _ => id)
  cases kind with
  | sgi => exact .inl sgis
  | spi => exact .inr rfl

theorem wp_enterLoop (spis : List (U32 × U64)) (here : Stands self (calm fun _ => False) s) :
    wp self rest (enterLoop self spis vcpu) s := by
  refine (Wp.forEach stable_stands here fun spi _ => wp_injectSpi id spi).seq fun _ s here => ?_
  exact (wp_takeAndPlace _ here).seq fun ichLr s here => wp_takeSpis ichLr here (.inr rfl)

/-- A request leaves the pCPU as it was. -/
theorem wp_requestCpuOn (target : VcpuId) (entry ctx : U64) (here : Stands self (calm kinds) s) :
    wp self (fun _ => calm kinds) (requestCpuOn self target entry ctx) s := by
  have store {s : Shared} (slot : PerVcpuCpuOnRequest → PerVcpuCpuOnRequest) (here : Stands self (calm kinds) s)
      (same : ∀ request, (slot request).requested = request.requested) :
      wp self (fun _ => calm kinds) (.modify (·.storeSlot target slot)) s :=
    wp_modify here fun _ here => ⟨keeps_storeSlot same, { here with
      late := fun secondary serving requested =>
        here.late secondary serving ((requested_storeSlot same).mp requested)
      called := False.elim }⟩
  refine (store ({ · with entryPoint := entry }) here fun _ => rfl).seq fun _ s here => ?_
  refine (store ({ · with contextId := ctx }) here fun _ => rfl).seq fun _ s here => ?_
  refine (wp_modify (R := { calm kinds with signals := true }) here fun _ here => ⟨keeps_storeRequested, { here with
    signals := fun _ => rfl
    late := fun secondary serving => late_storeRequested (here.serving secondary) (here.late secondary serving)
    called := False.elim }⟩).seq fun _ s here => ?_
  exact wp_modify here fun _ here => ⟨keeps_sendEvent, { here with
    signals := fun set => by simp [Shared.sendEvent] at set
    called := False.elim }⟩

/-- The terminal flag is set only if the guest does not continue. -/
theorem wp_handlePsci (context : VcpuContext) (functionId : U64) (here : Stands self (calm kinds) s) :
    wp self (fun answer => { calm kinds with terminal := answer.any (!·.1) })
      (handlePsci self numCpus context functionId) s := by
  have plain {s : Shared} (answer : Option (Bool × VcpuContext)) (here : Stands self (calm kinds) s) :
      wp self (fun answer => { calm kinds with terminal := answer.any (!·.1) }) (.done answer) s :=
    wp_done { here with terminal := fun set => absurd (here.terminal set) Bool.false_ne_true }
  simp only [handlePsci]
  split_ifs
  · exact (wp_setTerminalExit here).seq fun _ _ => wp_done
  · exact plain _ here
  · exact (wp_requestCpuOn _ _ _ here).seq fun _ _ => plain _
  · exact plain _ here
  · exact (wp_read here).seq fun _ _ => plain _
  · exact (wp_setTerminalExit here).seq fun _ _ => wp_done
  · exact plain _ here

theorem wp_handleTrap (trap : Trap) (here : Stands self (calm fun _ => True) s) :
    wp self rest (handleTrap self numCpus ichVtrEl2 vcpu trap) s := by
  cases trap with
  | sgi value => exact (wp_handleSgiTrap value _ here).seq fun _ _ => wp_done
  | mmio spis handled =>
      -- the SPIs for this pCPU itself come without an SGI
      refine (Wp.forEach (P := Stands self (calm (· = .sgi))) stable_stands (here.weaken (fun _ _ => trivial) fun _ => id)
        fun spi _ => wp_injectSpi PendingKind.noConfusion spi).seq fun _ s here => ?_
      split_ifs
      · exact wp_takeSpis _ here rfl
      · exact wp_leaveGuest here
  | psci functionId =>
      refine (wp_handlePsci vcpu.context functionId here).seq fun answer s here => ?_
      rcases answer with _ | ⟨_ | _, context⟩
      · exact wp_done (here.weaken (fun _ => False.elim) fun _ => id)
      · exact wp_leaveGuest here
      · exact wp_done here
  | irq =>
      -- an acknowledged SGI no longer covers anything
      refine (wp_modifyGet (Q := fun woken => calm fun _ => woken = false) here fun _ here =>
        ⟨keeps_acknowledge, { here with covered := ?_ }⟩).seq fun woken s here => ?_
      · exact fun online k quiet b => (here.covered online k trivial b).mono id rfl
          (fun woken => absurd (woken.symm.trans quiet) (by decide)) fun p => .inr
      split_ifs with leaves
      · exact wp_leaveGuest here
      · exact wp_done (here.weaken (fun _ _ => eq_false_of_ne_true leaves) fun _ => id)
  | other resume =>
      cases resume with
      | true => exact wp_done here
      | false => exact wp_leaveGuest here
  | wfe =>
      exact (wp_modify here fun _ here => ⟨keeps_waitForEvent, { here with called := False.elim }⟩).seq fun _ _ => wp_done

/-- Either a request is taken, or there was none. -/
theorem wp_takeCpuOn (here : Stands self (waiting false False) s) :
    wp self (fun request => waiting request.isSome (request.isSome = false)) (takeCpuOn self) s := by
  refine (wp_modifyGet (Q := fun requested => waiting requested (requested = false)) here fun s here =>
    ⟨keeps_takeRequested, { here with serving := ?_, late := ?_, called := ?_ }⟩).seq fun requested s here => ?_
  · intro secondary
    have now : (s.takeRequested self).serving self = (s.serving self || (s.pendingCpuOn self).requested) :=
      Function.update_self ..
    rw [now, here.serving secondary]
    exact Bool.false_or _
  · exact fun _ _ requested => absurd rfl (requested_takeRequested.mp requested).1
  · exact fun _ requested => absurd rfl (requested_takeRequested.mp requested).1
  cases requested with
  | true => exact (wp_read here).seq fun _ _ here => (wp_read here).seq fun _ _ => wp_done
  | false => exact wp_done here

theorem wp_setOnline {serving : Bool} {sure : Prop} (here : Stands self (waiting serving sure) s)
    (started : self ≠ 0 → serving = true) :
    wp self rest ((Prog.modify (·.setOnline self)).bind fun _ => .done (.top vcpu)) s :=
  (wp_modify (R := calm fun _ => False) here fun _ here => ⟨keeps_setOnline, { here with
    online := VmGlobalState.isOnline_setOnline.mpr (.inl rfl)
    covered := fun _ _ => False.elim
    serving := fun secondary => (here.serving secondary).trans (started secondary)
    late := fun secondary _ => here.late secondary (started secondary)
    called := False.elim }⟩).seq fun _ _ => wp_done

theorem wp_idleRound (mpidrEl1 : U64) (here : Stands self (waiting false True) s) :
    wp self rest (idleRound self mpidrEl1) s := by
  -- once the event is used up, only `take` tells
  refine (wp_modify (R := waiting false False) here fun _ here =>
    ⟨keeps_waitForEvent, { here with called := False.elim }⟩).seq fun _ s here => ?_
  refine (wp_takeCpuOn here).seq fun request s here => ?_
  cases request with
  | none => exact wp_done { here with called := fun _ => here.called rfl }
  | some request => exact wp_setOnline here fun _ => rfl

theorem verified (self : VcpuId) (mode : Mode) (prog : Prog Shared Mode) (s : Shared)
    (code : Code numCpus ichVtrEl2 self mode prog) (here : Stands self (rest mode) s) : wp self rest prog s := by
  cases code with
  | boot vcpu => exact wp_setOnline here (absurd rfl)
  | idle mpidrEl1 => exact wp_idleRound mpidrEl1 here
  | top spis => exact wp_enterLoop spis here
  | guest trap => exact wp_handleTrap trap here

end Programs

def outline (numCpus : ℕ) (ichVtrEl2 : U32) : Outline (Code numCpus ichVtrEl2) where
  inter := interference
  rest self mode := Stands self (rest mode)
  fits _ other _ _ distinct guar := guar other (Ne.symm distinct)
  verified := verified

/-! ## Every interleaving -/

section Interleavings

variable {numCpus : ℕ} {ichVtrEl2 : U32} {c c' : Config VcpuId Shared Mode} {t : VcpuId} {vcpu : Vcpu}

theorem stands_init : Stands t (waiting false True) .init where
  online := by revert t; decide
  covered online := absurd online Bool.false_ne_true
  debts _ owed := absurd owed Bool.false_ne_true
  signals := id
  terminal := id
  serving _ := rfl
  late _ taken := absurd taken Bool.false_ne_true
  called _ requested := absurd requested Bool.false_ne_true

theorem holds_of_reached (reached : Reached numCpus ichVtrEl2 c) : (outline numCpus ichVtrEl2).Holds c := by
  obtain ⟨vcpu, reach⟩ := reached
  refine (Outline.Holds.reach (fun t => ?_) reach).1
  simp only [start]
  split_ifs
  · exact wp_done stands_init
  · exact wp_done stands_init

theorem Reached.step (i : VcpuId) (reached : Reached numCpus ichVtrEl2 c)
    (step : Config.Step (Code numCpus ichVtrEl2) i c c') : Reached numCpus ichVtrEl2 c' := by
  obtain ⟨vcpu, reach⟩ := reached
  exact ⟨vcpu, reach.tail ⟨i, trivial, step⟩⟩

/-- pCPU 0 enters its guest with its list registers full and an SPI put back. -/
theorem exists_put_back : ∃ (c : Config VcpuId Shared Mode) (vcpu : Vcpu), Reached 2 0 c ∧
    c.thread 0 = .done (.guest vcpu) ∧ c.thread 1 = .done .idle ∧ (c.shared.vs.pending .spi 0).getLsbD 1 = true := by
  have boot : Reached 2 0 (start ((default : Vcpu).setIchLr fun _ => 0x4000000000000000)) := ⟨_, .refl⟩
  have top := (boot.step 0 (.start rfl (.boot _))).step 0 (.access rfl)
  have spi := (top.step 0 (.start rfl (.top [(33, 0)] (absurd rfl)))).step 0 (.access rfl)
  have swaps := (spi.step 0 (.access rfl)).step 0 (.access rfl)
  have back := swaps.step 0 (.access rfl)
  exact ⟨_, _, back, rfl, rfl, rfl⟩

/-- A pCPU that owes an SGI or an SEV is in the middle of hypervisor code. -/
theorem busy_of_owes {p : VcpuId} (reached : Reached numCpus ichVtrEl2 c)
    (owes : c.shared.owes p t = true ∨ c.shared.signals p = true) : c.Busy p := by
  intro mode rests
  have here := (holds_of_reached reached).at_rest rests
  have debt : (rest mode).debts t ∨ (rest mode).signals = true := owes.imp (here.debts t) here.signals
  cases mode <;> simp [rest, calm, waiting] at debt

/-- Whatever the other pCPUs do, they take no interrupt from a pCPU. -/
theorem others_take_nothing {kind : PendingKind} {bit : ℕ} (reached : Reached numCpus ichVtrEl2 c)
    (others : Config.Reach (Code numCpus ichVtrEl2) (· ≠ t) c c')
    (pending : (c.shared.vs.pending kind t).getLsbD bit = true) : (c'.shared.vs.pending kind t).getLsbD bit = true := by
  have stable : (interference t).Stable fun s => (s.vs.pending kind t).getLsbD bit = true :=
    fun _ _ keeps => keeps.pending kind bit
  exact stable.env (((holds_of_reached reached).reach others).2 t (not_not.mpr rfl)) pending

theorem others_take_nothing_idle : ∃ c : Config VcpuId Shared Mode, (c.shared.vs.pending .spi 0).getLsbD 1 = true := by
  obtain ⟨c, vcpu, reached, -, waits, pending⟩ := exists_put_back
  have others : Config.Reach (Code 2 0) (· ≠ 0) c _ :=
    .single ⟨1, by decide, .start waits (.idle 0 (by decide))⟩
  exact ⟨_, others_take_nothing reached others pending⟩

end Interleavings

end MultiPcpu

end Hypervisor
