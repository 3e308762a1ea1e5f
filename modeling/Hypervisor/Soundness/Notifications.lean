import Hypervisor.Model.Notifications
import Hypervisor.ToMathlib.Mask

/-! # Whose notifications a call can touch

The handlers take the partitions they act on from the registers and never ask who calls. So the
endpoint of a VM is its own only as long as every call names its caller: as the partition or receiver
where the call acts on an endpoint, and as the sender where it sets bits. Then a set reaches another
endpoint only with bits that the endpoint's VM has bound to the caller.
-/

namespace Hypervisor

/-- A call by a VM. -/
structure NotifEvent where
  caller : VmId
  ctx : GpRegs

/-- The endpoints after a call; other FF-A calls do not change them. -/
def NotifState.after (states : NotifState) (event : NotifEvent) : NotifState :=
  match notifCallOf event.ctx.x0 with
  | none => states
  | some call => (call.handle states event.ctx).2

/-- The endpoints after a sequence of calls. -/
def notifRun (trace : List NotifEvent) : NotifState := trace.foldl NotifState.after .init

/-- The endpoint of a VM. -/
def vmEndpoint (v : VmId) : Fin maxEndpoints := Fin.ofNat maxEndpoints v.val

/-- Bit `i` of VM `v` is bound to the partition `sender`: a record says so, and VM `v` asked for it. -/
def BoundBy (before : List NotifEvent) (v : VmId) (sender : U16) (i : ℕ) : Prop :=
  (∃ bind ∈ (notifRun before (vmEndpoint v)).binds, bind.active = true ∧ bind.senderId = sender ∧
    bind.bitmap.getLsbD i = true) ∧
  ∃ event ∈ before, event.caller = v ∧ notifCallOf event.ctx.x0 = some .bind ∧
    notifReceiver event.ctx = vmIdToPartitionId v ∧ notifSender event.ctx = sender ∧
    (notifBitmap event.ctx).getLsbD i = true

/-- A set of bits of VM `v` that are bound to the caller. -/
def Authorised (before : List NotifEvent) (event : NotifEvent) (v : VmId) : Prop :=
  notifCallOf event.ctx.x0 = some .set ∧ notifReceiver event.ctx = vmIdToPartitionId v ∧
    ∀ i, (notifBitmap event.ctx).getLsbD i = true → BoundBy before v (vmIdToPartitionId event.caller) i

/-- No call of the sequence changes the endpoint of another VM, unless it is authorised. -/
def NotificationsIsolated (trace : List NotifEvent) : Prop :=
  ∀ before event rest, trace = before ++ event :: rest → ∀ v, v ≠ event.caller →
    (notifRun before).after event (vmEndpoint v) ≠ notifRun before (vmEndpoint v) → Authorised before event v

/-- The call names its caller: as the sender of a set, and as the endpoint of every other call. -/
def NotifEvent.namesCaller (event : NotifEvent) : Bool :=
  match notifCallOf event.ctx.x0 with
  | none => true
  | some .infoGet => true
  | some .set => notifSender event.ctx == vmIdToPartitionId event.caller
  | some .bind => notifReceiver event.ctx == vmIdToPartitionId event.caller
  | some .unbind => notifReceiver event.ctx == vmIdToPartitionId event.caller
  | some _ => notifPartition event.ctx == vmIdToPartitionId event.caller

/-! ## One call -/

theorem endpointIndex_vm (v : VmId) : NotifState.endpointIndex (vmIdToPartitionId v) = some (vmEndpoint v) := by
  revert v
  decide

theorem vmEndpoint_injective : Function.Injective vmEndpoint := by decide

/-- No other identifier names the endpoint of a VM. -/
theorem eq_of_endpointIndex {partId : U16} {v : VmId}
    (same : NotifState.endpointIndex partId = some (vmEndpoint v)) : partId = vmIdToPartitionId v := by
  have sps : ∀ v, some (Fin.ofNat maxEndpoints ffaMaxVms) ≠ some (vmEndpoint v) ∧
      some (Fin.ofNat maxEndpoints (ffaMaxVms + 1)) ≠ some (vmEndpoint v) := by decide
  rw [NotifState.endpointIndex, partitionIdToVmId] at same
  by_cases vm : 1 ≤ partId.toNat ∧ partId.toNat ≤ ffaMaxVms
  · rw [if_pos vm] at same
    obtain ⟨low, high⟩ := vm
    have index := congrArg Fin.val (Option.some.inj same)
    have bound := v.isLt
    simp only [Fin.ofNat, vmEndpoint, maxEndpoints, ffaMaxVms, maxVms] at index bound high
    apply BitVec.eq_of_toNat_eq
    rw [vmIdToPartitionId, BitVec.toNat_ofNat]
    omega
  · rw [if_neg vm] at same
    dsimp only at same
    split_ifs at same
    · exact absurd same (sps v).1
    · exact absurd same (sps v).2

/-- What a call can do to the endpoints. -/
inductive NotifEffect (states : NotifState) (ctx : GpRegs) : NotifCall → NotifState → Prop
  | keep (call : NotifCall) : NotifEffect states ctx call states
  | bitmapCreate {idx : Fin maxEndpoints} : NotifState.endpointIndex (notifPartition ctx) = some idx →
      NotifEffect states ctx .bitmapCreate (Function.update states idx { states idx with enabled := true })
  | bitmapDestroy {idx : Fin maxEndpoints} : NotifState.endpointIndex (notifPartition ctx) = some idx →
      NotifEffect states ctx .bitmapDestroy
        (Function.update states idx ⟨false, 0, (states idx).binds.map fun _ => .new⟩)
  | bind {idx : Fin maxEndpoints} {slot : ℕ} : NotifState.endpointIndex (notifReceiver ctx) = some idx →
      NotifEffect states ctx .bind (Function.update states idx
        { states idx with binds := (states idx).binds.set slot ⟨notifSender ctx, notifBitmap ctx, true⟩ })
  | unbind {idx : Fin maxEndpoints} {slot : ℕ} : NotifState.endpointIndex (notifReceiver ctx) = some idx →
      NotifEffect states ctx .unbind (Function.update states idx
        { states idx with binds := (states idx).binds.modify slot (NotifBind.without · (notifBitmap ctx)) })
  | set {idx : Fin maxEndpoints} : NotifState.endpointIndex (notifReceiver ctx) = some idx →
      notifBitmap ctx &&& ~~~NotifState.allowed (states idx).binds (notifSender ctx) = 0 →
      NotifEffect states ctx .set (Function.update states idx
        { states idx with pending := (states idx).pending ||| notifBitmap ctx })
  | get {idx : Fin maxEndpoints} : NotifState.endpointIndex (notifPartition ctx) = some idx →
      NotifEffect states ctx .get (Function.update states idx { states idx with pending := 0 })

theorem getState_bind_ok {α : Type} {partId : U16} {rest : Fin maxEndpoints → Except I32 α} {result : α}
    (ok : (NotifState.getState partId >>= rest) = .ok result) :
    ∃ idx, NotifState.endpointIndex partId = some idx ∧ rest idx = .ok result := by
  rw [NotifState.getState] at ok
  cases named : NotifState.endpointIndex partId with
  | none =>
    rw [named] at ok
    cases ok
  | some idx =>
    rw [named] at ok
    exact ⟨idx, rfl, ok⟩

section Operations

variable {states states' : NotifState} {sender partId receiver : U16} {bitmap mask : U64}

theorem bitmapCreate_ok (ok : states.bitmapCreate partId = .ok states') :
    ∃ idx, NotifState.endpointIndex partId = some idx ∧ (states idx).enabled = false ∧
      states' = Function.update states idx { states idx with enabled := true } := by
  obtain ⟨idx, named, ok⟩ := getState_bind_ok ok
  dsimp only at ok
  split_ifs at ok with enabled
  cases ok
  exact ⟨idx, named, Bool.eq_false_iff.mpr enabled, rfl⟩

theorem bitmapDestroy_ok (ok : states.bitmapDestroy partId = .ok states') :
    ∃ idx, NotifState.endpointIndex partId = some idx ∧
      states' = Function.update states idx ⟨false, 0, (states idx).binds.map fun _ => .new⟩ := by
  obtain ⟨idx, named, ok⟩ := getState_bind_ok ok
  dsimp only at ok
  split_ifs at ok
  cases ok
  exact ⟨idx, named, rfl⟩

/-- A record is made in a free slot, of bits that no other record has. -/
theorem bind_ok (ok : states.bind sender receiver bitmap = .ok states') :
    ∃ idx slot, NotifState.endpointIndex receiver = some idx ∧ (states idx).enabled = true ∧ bitmap ≠ 0 ∧
      (∀ bind ∈ (states idx).binds, bind.active = true → bind.bitmap &&& bitmap = 0) ∧
      (∀ old, (states idx).binds[slot]? = some old → old.active = false) ∧
      states' = Function.update states idx
        { states idx with binds := (states idx).binds.set slot ⟨sender, bitmap, true⟩ } := by
  rw [NotifState.bind] at ok
  split_ifs at ok with empty
  obtain ⟨idx, named, ok⟩ := getState_bind_ok ok
  dsimp only at ok
  split_ifs at ok with disabled overlap
  split at ok
  · cases ok
  · next slot found =>
    cases ok
    refine ⟨idx, slot, named, by simpa using disabled, empty, fun bind member active => ?_, fun old here => ?_, rfl⟩
    · by_contra shared
      exact overlap (List.any_eq_true.mpr ⟨bind, member, by simpa [active] using shared⟩)
    · obtain ⟨inside, free, -⟩ := List.findIdx?_eq_some_iff_getElem.mp found
      rw [List.getElem?_eq_getElem inside] at here
      cases here
      simpa using free

/-- The record of `sender` has some of the bits. -/
def NotifBind.meets (bind : NotifBind) (sender : U16) (bitmap : U64) : Bool :=
  bind.active && bind.senderId == sender && bind.bitmap &&& bitmap != 0

/-- The first record that meets the bits loses them. -/
theorem unbind_eq_ok_iff : states.unbind sender receiver bitmap = .ok states' ↔
    ∃ idx slot, NotifState.endpointIndex receiver = some idx ∧
      (states idx).binds.findIdx? (·.meets sender bitmap) = some slot ∧
      states' = Function.update states idx
        { states idx with binds := (states idx).binds.modify slot (NotifBind.without · bitmap) } := by
  constructor
  · intro ok
    obtain ⟨idx, named, ok⟩ := getState_bind_ok ok
    dsimp only at ok
    split at ok
    · cases ok
    · next found =>
      cases ok
      exact ⟨idx, _, named, found, rfl⟩
  · rintro ⟨idx, slot, named, found, rfl⟩
    have same : (states idx).binds.findIdx? (fun bind =>
        bind.active && bind.senderId == sender && bind.bitmap &&& bitmap != 0) = some slot := found
    rw [NotifState.unbind, NotifState.getState, named]
    simp only [bind, Except.bind, same]

theorem set_ok (ok : states.set sender receiver bitmap = .ok states') :
    ∃ idx, NotifState.endpointIndex receiver = some idx ∧ (states idx).enabled = true ∧
      bitmap &&& ~~~NotifState.allowed (states idx).binds sender = 0 ∧
      states' = Function.update states idx { states idx with pending := (states idx).pending ||| bitmap } := by
  obtain ⟨idx, named, ok⟩ := getState_bind_ok ok
  dsimp only at ok
  split_ifs at ok with disabled bound
  cases ok
  exact ⟨idx, named, by simpa using disabled, not_not.mp bound, rfl⟩

theorem get_ok (ok : states.get receiver = .ok (mask, states')) :
    ∃ idx, NotifState.endpointIndex receiver = some idx ∧ (states idx).enabled = true ∧
      mask = (states idx).pending ∧ states' = Function.update states idx { states idx with pending := 0 } := by
  obtain ⟨idx, named, ok⟩ := getState_bind_ok ok
  dsimp only at ok
  split_ifs at ok with disabled
  cases ok
  exact ⟨idx, named, by simpa using disabled, rfl, rfl⟩

end Operations

theorem notifAnswer_effect {states : NotifState} {ctx : GpRegs} {call : NotifCall} {result : Except I32 NotifState}
    (ok : ∀ states', result = .ok states' → NotifEffect states ctx call states') :
    NotifEffect states ctx call (notifAnswer states ctx result).2 := by
  cases result with
  | error code => exact .keep _
  | ok states' => exact ok states' rfl

theorem NotifCall.effect (call : NotifCall) (states : NotifState) (ctx : GpRegs) :
    NotifEffect states ctx call (call.handle states ctx).2 := by
  cases call with
  | bitmapCreate =>
    refine notifAnswer_effect fun states' ok => ?_
    obtain ⟨idx, named, -, rfl⟩ := bitmapCreate_ok ok
    exact .bitmapCreate named
  | bitmapDestroy =>
    refine notifAnswer_effect fun states' ok => ?_
    obtain ⟨idx, named, rfl⟩ := bitmapDestroy_ok ok
    exact .bitmapDestroy named
  | bind =>
    refine notifAnswer_effect fun states' ok => ?_
    obtain ⟨idx, slot, named, -, -, -, -, rfl⟩ := bind_ok ok
    exact .bind named
  | unbind =>
    refine notifAnswer_effect fun states' ok => ?_
    obtain ⟨idx, slot, named, -, rfl⟩ := unbind_eq_ok_iff.mp ok
    exact .unbind named
  | set =>
    refine notifAnswer_effect fun states' ok => ?_
    obtain ⟨idx, named, -, bound, rfl⟩ := set_ok ok
    exact .set named bound
  | get =>
    rw [NotifCall.handle]
    cases ok : states.get (notifPartition ctx) with
    | error code => exact .keep _
    | ok result =>
      obtain ⟨idx, named, -, -, same⟩ := get_ok ok
      exact same ▸ .get named
  | infoGet =>
    rw [NotifCall.handle]
    dsimp only
    split_ifs <;> exact .keep _

/-! ## Records and the calls that made them -/

/-- The bits that a sender may set come from its records. -/
theorem exists_bind_of_allowed {binds : List NotifBind} {sender : U16} {i : ℕ}
    (bit : (NotifState.allowed binds sender).getLsbD i = true) :
    ∃ bind ∈ binds, bind.active = true ∧ bind.senderId = sender ∧ bind.bitmap.getLsbD i = true := by
  suffices collected : ∀ acc : U64, (binds.foldl (fun acc bind =>
      if bind.active && bind.senderId == sender then acc ||| bind.bitmap else acc) acc).getLsbD i = true →
      acc.getLsbD i = true ∨ ∃ bind ∈ binds, bind.active = true ∧ bind.senderId = sender ∧
        bind.bitmap.getLsbD i = true by
    exact (collected 0 bit).resolve_left (by simp)
  clear bit
  induction binds with
  | nil => exact fun acc bit => .inl bit
  | cons head rest ih =>
    intro acc bit
    rw [List.foldl_cons] at bit
    rcases ih _ bit with bit | ⟨bind, member, found⟩
    · split_ifs at bit with mine
      · rw [BitVec.getLsbD_or, Bool.or_eq_true] at bit
        rw [Bool.and_eq_true, beq_iff_eq] at mine
        exact bit.imp_right fun bit => ⟨head, List.mem_cons_self, mine.1, mine.2, bit⟩
      · exact .inl bit
    · exact .inr ⟨bind, List.mem_cons_of_mem _ member, found⟩

/-- `bind` grants no more than `old`. -/
def NotifBind.Within (bind old : NotifBind) : Prop :=
  old.active = true ∧ old.senderId = bind.senderId ∧ ∀ i, bind.bitmap.getLsbD i = true → old.bitmap.getLsbD i = true

theorem NotifBind.Within.refl {bind : NotifBind} (active : bind.active = true) : bind.Within bind :=
  ⟨active, rfl, fun _ bit => bit⟩

theorem NotifBind.without_within {bind : NotifBind} {bitmap : U64} (active : (bind.without bitmap).active = true) :
    (bind.without bitmap).Within bind := by
  refine ⟨(Bool.and_eq_true_iff.mp active).1, rfl, fun i bit => ?_⟩
  rw [without, BitVec.getLsbD_and] at bit
  exact (Bool.and_eq_true_iff.mp bit).1

theorem mem_binds_update {states : NotifState} {idx j : Fin maxEndpoints} {new : EndpointNotifState}
    {bind : NotifBind}
    (member : bind ∈ (Function.update states idx new j).binds) :
    bind ∈ (states j).binds ∨ idx = j ∧ bind ∈ new.binds := by
  rcases eq_or_ne j idx with rfl | ne
  · rw [Function.update_self] at member
    exact .inr ⟨rfl, member⟩
  · rw [Function.update_of_ne ne] at member
    exact .inl member

/-- An update that leaves the records alone. -/
theorem mem_binds_of_kept {states : NotifState} {idx j : Fin maxEndpoints} {new : EndpointNotifState}
    {bind : NotifBind} (member : bind ∈ (Function.update states idx new j).binds)
    (kept : new.binds = (states idx).binds) : bind ∈ (states j).binds := by
  rcases mem_binds_update member with old | ⟨rfl, inNew⟩
  · exact old
  · rwa [kept] at inNew

/-- A record after a call is what is left of one before it, unless the call made it. -/
theorem NotifEffect.within_or_new {states states' : NotifState} {ctx : GpRegs} {call : NotifCall}
    (effect : NotifEffect states ctx call states') {j : Fin maxEndpoints} {bind : NotifBind}
    (member : bind ∈ (states' j).binds) (active : bind.active = true) :
    (∃ old ∈ (states j).binds, bind.Within old) ∨
      call = .bind ∧ NotifState.endpointIndex (notifReceiver ctx) = some j ∧
        bind = ⟨notifSender ctx, notifBitmap ctx, true⟩ := by
  by_cases before : bind ∈ (states j).binds
  · exact .inl ⟨bind, before, .refl active⟩
  cases effect with
  | keep => exact absurd member before
  | bitmapCreate => exact absurd (mem_binds_of_kept member rfl) before
  | bitmapDestroy =>
    obtain ⟨rfl, inNew⟩ := (mem_binds_update member).resolve_left before
    obtain ⟨_, _, rfl⟩ := List.mem_map.mp inNew
    contradiction
  | bind named =>
    obtain ⟨rfl, inNew⟩ := (mem_binds_update member).resolve_left before
    exact .inr ⟨rfl, named, (List.mem_or_eq_of_mem_set inNew).resolve_left before⟩
  | unbind =>
    obtain ⟨rfl, inNew⟩ := (mem_binds_update member).resolve_left before
    obtain ⟨k, here⟩ := List.mem_iff_getElem?.mp inNew
    rw [List.getElem?_modify] at here
    obtain ⟨old, there, rfl⟩ := Option.map_eq_some_iff.mp here
    refine .inl ⟨old, List.mem_of_getElem? there, ?_⟩
    split_ifs at active ⊢
    · exact NotifBind.without_within active
    · exact .refl active
  | set => exact absurd (mem_binds_of_kept member rfl) before
  | get => exact absurd (mem_binds_of_kept member rfl) before

/-- A call that names its caller changes another endpoint only by setting bits bound to the caller. -/
theorem NotifEffect.set_of_changed {states states' : NotifState} {event : NotifEvent} {call : NotifCall} {v : VmId}
    (effect : NotifEffect states event.ctx call states') (dispatch : notifCallOf event.ctx.x0 = some call)
    (names : event.namesCaller = true) (other : v ≠ event.caller)
    (changed : states' (vmEndpoint v) ≠ states (vmEndpoint v)) :
    call = .set ∧ notifReceiver event.ctx = vmIdToPartitionId v ∧
      notifBitmap event.ctx &&& ~~~NotifState.allowed (states (vmEndpoint v)).binds
        (vmIdToPartitionId event.caller) = 0 := by
  have touched : ∀ {idx new}, states' = Function.update states idx new → vmEndpoint v = idx := by
    rintro idx new rfl
    by_contra ne
    exact changed (Function.update_of_ne ne new states)
  have own : ∀ {partId idx}, partId = vmIdToPartitionId event.caller →
      NotifState.endpointIndex partId = some idx → vmEndpoint v ≠ idx := by
    rintro partId idx rfl named rfl
    rw [endpointIndex_vm] at named
    exact other (vmEndpoint_injective (Option.some.inj named)).symm
  rw [NotifEvent.namesCaller, dispatch] at names
  cases effect with
  | keep => exact absurd rfl changed
  | bitmapCreate named => exact absurd (touched rfl) (own (eq_of_beq names) named)
  | bitmapDestroy named => exact absurd (touched rfl) (own (eq_of_beq names) named)
  | bind named => exact absurd (touched rfl) (own (eq_of_beq names) named)
  | unbind named => exact absurd (touched rfl) (own (eq_of_beq names) named)
  | get named => exact absurd (touched rfl) (own (eq_of_beq names) named)
  | set named bound =>
    obtain rfl := touched rfl
    rw [eq_of_beq names] at bound
    exact ⟨rfl, eq_of_endpointIndex named, bound⟩

/-! ## Sequences of calls -/

theorem notifRun_concat (trace : List NotifEvent) (event : NotifEvent) :
    notifRun (trace ++ [event]) = (notifRun trace).after event := by
  rw [notifRun, List.foldl_append]
  rfl

/-- A BIND call by VM `v` grants what the record grants. -/
def AskedFor (trace : List NotifEvent) (v : VmId) (bind : NotifBind) : Prop :=
  ∃ event ∈ trace, event.caller = v ∧ notifCallOf event.ctx.x0 = some .bind ∧
    notifReceiver event.ctx = vmIdToPartitionId v ∧ notifSender event.ctx = bind.senderId ∧
    ∀ i, bind.bitmap.getLsbD i = true → (notifBitmap event.ctx).getLsbD i = true

theorem AskedFor.within {trace : List NotifEvent} {v : VmId} {bind old : NotifBind} (asked : AskedFor trace v old)
    (within : bind.Within old) (event : NotifEvent) : AskedFor (trace ++ [event]) v bind := by
  obtain ⟨made, inTrace, caller, dispatch, receiver, sender, bits⟩ := asked
  obtain ⟨-, same, fewer⟩ := within
  exact ⟨made, List.mem_append_left _ inTrace, caller, dispatch, receiver, sender.trans same,
    fun i bit => bits i (fewer i bit)⟩

/-- Every active record of a VM goes back to a BIND call that the VM made. -/
theorem askedFor_of_active (trace : List NotifEvent) (names : ∀ event ∈ trace, event.namesCaller = true) (v : VmId)
    {bind : NotifBind} (member : bind ∈ (notifRun trace (vmEndpoint v)).binds) (active : bind.active = true) :
    AskedFor trace v bind := by
  induction trace using List.reverseRecOn generalizing bind with
  | nil =>
    obtain rfl := List.eq_of_mem_replicate member
    contradiction
  | append_singleton trace event ih =>
    have earlier : ∀ {old}, old ∈ (notifRun trace (vmEndpoint v)).binds → bind.Within old →
        AskedFor (trace ++ [event]) v bind := fun before within =>
      (ih (fun event inTrace => names event (List.mem_append_left _ inTrace)) before within.1).within within event
    rw [notifRun_concat, NotifState.after] at member
    cases dispatch : notifCallOf event.ctx.x0 with
    | none =>
      rw [dispatch] at member
      exact earlier member (.refl active)
    | some call =>
      rw [dispatch] at member
      rcases (call.effect _ _).within_or_new member active with ⟨old, before, within⟩ | ⟨rfl, named, rfl⟩
      · exact earlier before within
      · have receiver := eq_of_endpointIndex named
        have last : event ∈ trace ++ [event] := List.mem_append_right _ (List.mem_singleton_self event)
        have own := names event last
        rw [NotifEvent.namesCaller, dispatch] at own
        have caller : event.caller = v := vmIdToPartitionId_injective ((eq_of_beq own).symm.trans receiver)
        exact ⟨event, last, caller, dispatch, receiver, rfl, fun _ bit => bit⟩

/-- Sequences in which every call names its caller keep the endpoints of the VMs apart. -/
theorem notification_isolation (trace : List NotifEvent) (names : ∀ event ∈ trace, event.namesCaller = true) :
    NotificationsIsolated trace := by
  rintro before event rest rfl v other changed
  have names' : ∀ event ∈ before, event.namesCaller = true := fun event member =>
    names event (List.mem_append_left _ member)
  rw [NotifState.after] at changed
  cases dispatch : notifCallOf event.ctx.x0 with
  | none =>
    rw [dispatch] at changed
    exact absurd rfl changed
  | some call =>
    rw [dispatch] at changed
    obtain ⟨rfl, receiver, bound⟩ := (call.effect _ _).set_of_changed dispatch (names event (by simp)) other changed
    refine ⟨dispatch, receiver, fun i bit => ?_⟩
    have permitted := BitVec.and_not_eq_zero_iff.mp bound i bit
    obtain ⟨bind, member, active, sender, bit'⟩ := exists_bind_of_allowed permitted
    obtain ⟨made, inTrace, caller, asked, receiver', sender', bits⟩ :=
      askedFor_of_active before names' v member active
    exact ⟨⟨bind, member, active, sender, bit'⟩,
      ⟨made, inTrace, caller, asked, receiver', sender'.trans sender, bits i bit'⟩⟩

/-- VM 0 has bound notification 0 to VM 1. -/
def boundTrace : List NotifEvent :=
  [⟨0, { x0 := ffaNotificationBitmapCreate, x1 := 1 }⟩, ⟨0, { x0 := ffaNotificationBind, x1 := 0x20001, x3 := 1 }⟩]

/-- VM 1 sets notification 0 of VM 0. -/
def setByVm1 : NotifEvent := ⟨1, { x0 := ffaNotificationSet, x1 := 0x20001, x3 := 1 }⟩

/-- VM 1 may set the notification, and it is pending then. -/
theorem notification_isolation_boundTrace :
    notifRun (boundTrace ++ [setByVm1]) (vmEndpoint 0) ≠ notifRun boundTrace (vmEndpoint 0) ∧
      Authorised boundTrace setByVm1 0 := by
  have changed : (notifRun boundTrace).after setByVm1 (vmEndpoint 0) ≠ notifRun boundTrace (vmEndpoint 0) := by decide
  have isolated := notification_isolation (boundTrace ++ [setByVm1]) (by decide)
  exact ⟨changed, isolated boundTrace setByVm1 [] rfl 0 (by decide) changed⟩

/-- VM 1 takes the pending notification of VM 0. -/
theorem other_vm_consumes_pending :
    (notifRun (boundTrace ++ [setByVm1]) (vmEndpoint 0)).pending = 1 ∧
    (notifRun (boundTrace ++ [setByVm1, ⟨1, { x0 := ffaNotificationGet, x1 := 1 }⟩]) (vmEndpoint 0)).pending = 0 ∧
    ¬NotificationsIsolated (boundTrace ++ [setByVm1, ⟨1, { x0 := ffaNotificationGet, x1 := 1 }⟩]) := by
  refine ⟨by decide, by decide, fun isolated => ?_⟩
  have authorised := isolated (boundTrace ++ [setByVm1]) ⟨1, { x0 := ffaNotificationGet, x1 := 1 }⟩ [] rfl 0
    (by decide)
    (by decide)
  exact absurd authorised.1 (by decide)

end Hypervisor
