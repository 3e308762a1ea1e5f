import Hypervisor.Soundness.Notifications

/-! # The invariant of the notification state

`notification_invariant`, over every sequence of operations on any endpoints: the records of an endpoint
have bits and share none, a disabled endpoint has neither records nor pending bits, an operation that
fails changes nothing, and a get returns the bits that were set since the last get or the creation.
-/

namespace Hypervisor

/-! ## Stores and values -/

namespace EndpointM

section Run

variable {α β : Type} (state : EndpointNotifState)

theorem run_get_bind (k : EndpointNotifState → EndpointM α) : (get >>= k).run.run state = (k state).run.run state := rfl

theorem run_ite (c : Prop) [Decidable c] (a b : EndpointM α) :
    (if c then a else b).run.run state = if c then a.run.run state else b.run.run state := by
  split_ifs <;> rfl

theorem run_modify_bind (f : EndpointNotifState → EndpointNotifState) (k : Unit → EndpointM α) :
    (modify f >>= k).run.run state = (k ()).run.run (f state) := rfl

theorem run_modify (f : EndpointNotifState → EndpointNotifState) :
    (modify f : EndpointM Unit).run.run state = (.ok (), f state) := rfl

theorem run_bind_pure (program : EndpointM α) (f : α → β) :
    (program >>= fun x => pure (f x)).run.run state =
      ((program.run.run state).1.map f, (program.run.run state).2) := by
  rw [ExceptT.run_bind, StateT.run_bind]
  obtain ⟨result, state'⟩ := program.run.run state
  cases result <;> rfl

end Run

section Programs

variable (state : EndpointNotifState)

theorem run_bitmapCreateM : bitmapCreateM.run.run state =
    if state.enabled then (.error ffaDenied, state) else (.ok (), { state with enabled := true }) := by
  simp only [bitmapCreateM, run_get_bind, run_ite]
  rfl

theorem run_bitmapDestroyM : bitmapDestroyM.run.run state =
    if !state.enabled then (.error ffaDenied, state)
    else (.ok (), { enabled := false, pending := 0, binds := state.binds.map fun _ => .new }) := by
  simp only [bitmapDestroyM, run_get_bind, run_ite]
  rfl

theorem run_bindM (sender : U16) (bitmap : U64) : (bindM sender bitmap).run.run state =
    if !state.enabled then (.error ffaDenied, state)
    else if state.binds.any fun bind => bind.active && bind.bitmap &&& bitmap != 0 then (.error ffaDenied, state)
    else match state.binds.findIdx? fun bind => !bind.active with
      | none => (.error ffaNoMemory, state)
      | some slot => (.ok (), { state with binds := state.binds.set slot ⟨sender, bitmap, true⟩ }) := by
  simp only [bindM, run_get_bind, run_ite]
  cases state.binds.findIdx? fun bind => !bind.active with
  | none => rfl
  | some slot =>
    simp only [storeBind, run_modify_bind, run_modify, List.modify_modify_eq, List.set_eq_modify]
    rfl

theorem run_unbindM (sender : U16) (bitmap : U64) : (unbindM sender bitmap).run.run state =
    match state.binds.findIdx? fun bind => bind.active && bind.senderId == sender && bind.bitmap &&& bitmap != 0 with
    | none => (.error ffaDenied, state)
    | some slot => (.ok (), { state with binds := state.binds.modify slot (NotifBind.without · bitmap) }) := by
  have stores : (fun bind : NotifBind => if bind.bitmap == 0 then { bind with active := false } else bind) ∘
      (fun bind => { bind with bitmap := bind.bitmap &&& ~~~bitmap }) = (NotifBind.without · bitmap) := by
    funext bind
    cases rest : bind.bitmap &&& ~~~bitmap == 0 with
    | false =>
      simp only [Function.comp_apply, NotifBind.without, bne, rest, Bool.not_false, Bool.and_true, Bool.false_eq_true,
        if_false]
    | true => simp only [Function.comp_apply, NotifBind.without, bne, rest, Bool.not_true, Bool.and_false, if_true]
  simp only [unbindM, run_get_bind]
  cases state.binds.findIdx? fun bind => bind.active && bind.senderId == sender && bind.bitmap &&& bitmap != 0 with
  | none => rfl
  | some slot =>
    simp only [storeBind, run_modify_bind, run_modify, List.modify_modify_eq, stores]

theorem run_setM (sender : U16) (bitmap : U64) : (setM sender bitmap).run.run state =
    if !state.enabled then (.error ffaDenied, state)
    else if bitmap &&& ~~~NotifState.allowed state.binds sender ≠ 0 then (.error ffaDenied, state)
    else (.ok (), { state with pending := state.pending ||| bitmap }) := by
  simp only [setM, run_get_bind, run_ite]
  rfl

theorem run_getM : getM.run.run state =
    if !state.enabled then (.error ffaDenied, state) else (.ok state.pending, { state with pending := 0 }) := by
  simp only [getM, run_get_bind, run_ite]
  rfl

end Programs

end EndpointM

namespace NotifOp

/-- The operations on values. -/
def apply (op : NotifOp) (states : NotifState) : Except I32 (Option U64 × NotifState) :=
  match op with
  | bitmapCreate partId => (states.bitmapCreate partId).map (none, ·)
  | bitmapDestroy partId => (states.bitmapDestroy partId).map (none, ·)
  | bind sender receiver bitmap => (states.bind sender receiver bitmap).map (none, ·)
  | unbind sender receiver bitmap => (states.unbind sender receiver bitmap).map (none, ·)
  | set sender receiver bitmap => (states.set sender receiver bitmap).map (none, ·)
  | get receiver => (states.get receiver).map fun (mask, states) => (some mask, states)

/-- New endpoints, or the old ones with an error. -/
def settle (states : NotifState) (result : Except I32 (Option U64 × NotifState)) :
    Except I32 (Option U64) × NotifState :=
  match result with
  | .ok (mask, states) => (.ok mask, states)
  | .error code => (.error code, states)

theorem onEndpoint_eq {α β : Type} {states : NotifState} {partId : U16} {program : EndpointM α} {f : α → Option U64}
    {rest : Fin maxEndpoints → Except I32 β} {g : β → Option U64 × NotifState}
    (agree : ∀ idx, ((program.run.run (states idx)).1.map f,
      Function.update states idx (program.run.run (states idx)).2) = settle states ((rest idx).map g)) :
    onEndpoint states partId (program >>= fun x => pure (f x)) =
      settle states ((NotifState.getState partId >>= rest).map g) := by
  rw [onEndpoint, NotifState.getState]
  cases NotifState.endpointIndex partId with
  | none => rfl
  | some idx =>
    dsimp only
    rw [EndpointM.run_bind_pure]
    exact agree idx

/-- The stores of an operation that fails leave its endpoint as it was. -/
theorem exec_eq (op : NotifOp) (states : NotifState) : op.exec states = settle states (op.apply states) := by
  have same (idx : Fin maxEndpoints) (code : I32) :
      ((.error code : Except I32 (Option U64)), Function.update states idx (states idx)) = (.error code, states) := by
    rw [Function.update_eq_self]
  cases op with
  | bitmapCreate partId =>
    rw [exec, apply, NotifState.bitmapCreate]
    refine onEndpoint_eq fun idx => ?_
    rw [EndpointM.run_bitmapCreateM]
    dsimp only
    split_ifs
    · exact same idx _
    · rfl
  | bitmapDestroy partId =>
    rw [exec, apply, NotifState.bitmapDestroy]
    refine onEndpoint_eq fun idx => ?_
    rw [EndpointM.run_bitmapDestroyM]
    dsimp only
    split_ifs
    · exact same idx _
    · rfl
  | bind sender receiver bitmap =>
    rw [exec, apply, NotifState.bind]
    split_ifs
    · rfl
    · refine onEndpoint_eq fun idx => ?_
      rw [EndpointM.run_bindM]
      dsimp only
      split_ifs
      · exact same idx _
      · exact same idx _
      · cases (states idx).binds.findIdx? fun bind => !bind.active with
        | none => exact same idx _
        | some slot => rfl
  | unbind sender receiver bitmap =>
    rw [exec, apply, NotifState.unbind]
    refine onEndpoint_eq fun idx => ?_
    rw [EndpointM.run_unbindM]
    dsimp only
    cases (states idx).binds.findIdx? fun bind =>
        bind.active && bind.senderId == sender && bind.bitmap &&& bitmap != 0 with
    | none => exact same idx _
    | some slot => rfl
  | set sender receiver bitmap =>
    rw [exec, apply, NotifState.set]
    refine onEndpoint_eq fun idx => ?_
    rw [EndpointM.run_setM]
    dsimp only
    split_ifs
    · exact same idx _
    · exact same idx _
    · rfl
  | get receiver =>
    rw [exec, apply, NotifState.get]
    refine onEndpoint_eq fun idx => ?_
    rw [EndpointM.run_getM]
    dsimp only
    split_ifs
    · exact same idx _
    · rfl

/-- What an operation that succeeds does. -/
inductive Effect (states : NotifState) : NotifOp → Option U64 → NotifState → Prop
  | bitmapCreate {partId : U16} {idx : Fin maxEndpoints} (named : NotifState.endpointIndex partId = some idx)
      (disabled : (states idx).enabled = false) :
      Effect states (.bitmapCreate partId) none (Function.update states idx { states idx with enabled := true })
  | bitmapDestroy {partId : U16} {idx : Fin maxEndpoints} (named : NotifState.endpointIndex partId = some idx) :
      Effect states (.bitmapDestroy partId) none
        (Function.update states idx ⟨false, 0, (states idx).binds.map fun _ => .new⟩)
  | bind {sender receiver : U16} {bitmap : U64} {idx : Fin maxEndpoints} (slot : ℕ)
      (named : NotifState.endpointIndex receiver = some idx) (enabled : (states idx).enabled = true)
      (nonempty : bitmap ≠ 0) (apart : ∀ bind ∈ (states idx).binds, bind.active = true → bind.bitmap &&& bitmap = 0) :
      Effect states (.bind sender receiver bitmap) none (Function.update states idx
        { states idx with binds := (states idx).binds.set slot ⟨sender, bitmap, true⟩ })
  | unbind {sender receiver : U16} {bitmap : U64} {idx : Fin maxEndpoints} (slot : ℕ)
      (named : NotifState.endpointIndex receiver = some idx) :
      Effect states (.unbind sender receiver bitmap) none (Function.update states idx
        { states idx with binds := (states idx).binds.modify slot (NotifBind.without · bitmap) })
  | set {sender receiver : U16} {bitmap : U64} {idx : Fin maxEndpoints}
      (named : NotifState.endpointIndex receiver = some idx) (enabled : (states idx).enabled = true) :
      Effect states (.set sender receiver bitmap) none (Function.update states idx
        { states idx with pending := (states idx).pending ||| bitmap })
  | get {receiver : U16} {idx : Fin maxEndpoints} (named : NotifState.endpointIndex receiver = some idx)
      (enabled : (states idx).enabled = true) :
      Effect states (.get receiver) (some (states idx).pending)
        (Function.update states idx { states idx with pending := 0 })

theorem effect_of_apply {op : NotifOp} {states states' : NotifState} {mask : Option U64}
    (ok : op.apply states = .ok (mask, states')) : Effect states op mask states' := by
  cases op with
  | bitmapCreate partId =>
    obtain ⟨_, ok, same⟩ := exceptMap_eq_ok_iff.mp ok
    obtain ⟨idx, named, disabled, rfl⟩ := bitmapCreate_ok ok
    cases same
    exact .bitmapCreate named disabled
  | bitmapDestroy partId =>
    obtain ⟨_, ok, same⟩ := exceptMap_eq_ok_iff.mp ok
    obtain ⟨idx, named, rfl⟩ := bitmapDestroy_ok ok
    cases same
    exact .bitmapDestroy named
  | bind sender receiver bitmap =>
    obtain ⟨_, ok, same⟩ := exceptMap_eq_ok_iff.mp ok
    obtain ⟨idx, slot, named, enabled, nonempty, apart, -, rfl⟩ := bind_ok ok
    cases same
    exact .bind slot named enabled nonempty apart
  | unbind sender receiver bitmap =>
    obtain ⟨_, ok, same⟩ := exceptMap_eq_ok_iff.mp ok
    obtain ⟨idx, slot, named, -, rfl⟩ := unbind_eq_ok_iff.mp ok
    cases same
    exact .unbind slot named
  | set sender receiver bitmap =>
    obtain ⟨_, ok, same⟩ := exceptMap_eq_ok_iff.mp ok
    obtain ⟨idx, named, enabled, -, rfl⟩ := set_ok ok
    cases same
    exact .set named enabled
  | get receiver =>
    obtain ⟨_, ok, same⟩ := exceptMap_eq_ok_iff.mp ok
    obtain ⟨idx, named, enabled, pending, after⟩ := get_ok ok
    cases same
    rw [pending, after]
    exact .get named enabled

/-- An operation fails and changes nothing, or succeeds with its effect. -/
theorem exec_cases (op : NotifOp) (states : NotifState) :
    (∃ code, op.exec states = (.error code, states)) ∨
      ∃ mask states', op.exec states = (.ok mask, states') ∧ Effect states op mask states' := by
  rw [exec_eq]
  cases ok : op.apply states with
  | error code => exact .inl ⟨code, rfl⟩
  | ok result => exact .inr ⟨result.1, result.2, rfl, effect_of_apply ok⟩

end NotifOp

/-! ## The invariant -/

/-- The records of an endpoint have bits and share none, and a disabled endpoint has neither records nor
pending bits. -/
structure EndpointNotifState.Ok (state : EndpointNotifState) : Prop where
  nonempty : ∀ bind ∈ state.binds, bind.active = true → bind.bitmap ≠ 0
  disjoint : ∀ (i j : ℕ) (bind other : NotifBind), i ≠ j → state.binds[i]? = some bind →
    state.binds[j]? = some other → bind.active = true → other.active = true → bind.bitmap &&& other.bitmap = 0
  idle : state.enabled = false → state.pending = 0
  unbound : state.enabled = false → ∀ bind ∈ state.binds, bind.active = false

namespace EndpointNotifState.Ok

variable {state : EndpointNotifState} {slot : ℕ} {sender : U16} {bitmap : U64}

theorem of_inactive (inactive : ∀ bind ∈ state.binds, bind.active = false)
    (idle : state.enabled = false → state.pending = 0) : state.Ok := by
  have clash {bind : NotifBind} (member : bind ∈ state.binds) (active : bind.active = true) : False := by
    cases (inactive bind member).symm.trans active
  refine ⟨fun bind member active => (clash member active).elim, ?_, idle, fun _ => inactive⟩
  intro i j bind other _ here _ active _
  exact (clash (List.mem_of_getElem? here) active).elim

theorem new : EndpointNotifState.new.Ok := of_inactive (by decide) fun _ => rfl

theorem bitmapCreate (ok : state.Ok) : ({ state with enabled := true } : EndpointNotifState).Ok :=
  ⟨ok.nonempty, ok.disjoint, by rintro ⟨⟩, by rintro ⟨⟩⟩

theorem bitmapDestroy : (⟨false, 0, state.binds.map fun _ => .new⟩ : EndpointNotifState).Ok := by
  refine of_inactive (fun bind member => ?_) fun _ => rfl
  obtain ⟨_, -, rfl⟩ := List.mem_map.mp member
  rfl

theorem pending (ok : state.Ok) {pending : U64} (idle : state.enabled = false → pending = 0) :
    ({ state with pending } : EndpointNotifState).Ok := ⟨ok.nonempty, ok.disjoint, idle, ok.unbound⟩

theorem bind (ok : state.Ok) (enabled : state.enabled = true) (nonempty : bitmap ≠ 0)
    (apart : ∀ bind ∈ state.binds, bind.active = true → bind.bitmap &&& bitmap = 0) :
    ({ state with binds := state.binds.set slot ⟨sender, bitmap, true⟩ } : EndpointNotifState).Ok := by
  -- a record is the new one in its slot, or an old one in another slot
  have record {i : ℕ} {bind : NotifBind} (here : (state.binds.set slot ⟨sender, bitmap, true⟩)[i]? = some bind) :
      i = slot ∧ bind.bitmap = bitmap ∨ i ≠ slot ∧ state.binds[i]? = some bind := by
    rw [List.getElem?_set] at here
    split_ifs at here with same inside
    · cases here
      exact .inl ⟨same.symm, rfl⟩
    · exact .inr ⟨Ne.symm same, here⟩
  refine ⟨fun bind member active => ?_, fun i j bind other ne here there active active' => ?_, ?_, ?_⟩
  · rcases List.mem_or_eq_of_mem_set member with old | rfl
    · exact ok.nonempty bind old active
    · exact nonempty
  · rcases record here with ⟨rfl, bits⟩ | ⟨-, old⟩
    · rcases record there with ⟨rfl, -⟩ | ⟨-, old⟩
      · exact absurd rfl ne
      · rw [bits, BitVec.and_comm]
        exact apart other (List.mem_of_getElem? old) active'
    · rcases record there with ⟨-, bits⟩ | ⟨-, old'⟩
      · rw [bits]
        exact apart bind (List.mem_of_getElem? old) active
      · exact ok.disjoint i j bind other ne old old' active active'
  · exact fun disabled => absurd (enabled.symm.trans disabled) (by decide)
  · exact fun disabled => absurd (enabled.symm.trans disabled) (by decide)

end EndpointNotifState.Ok

/-- Records that grant less share less. -/
theorem NotifBind.Within.and_eq_zero {bind old other old' : NotifBind} (within : bind.Within old)
    (within' : other.Within old') (apart : old.bitmap &&& old'.bitmap = 0) : bind.bitmap &&& other.bitmap = 0 := by
  by_contra shared
  obtain ⟨i, bit, bit'⟩ := BitVec.and_ne_zero_iff.mp shared
  exact BitVec.and_ne_zero_iff.mpr ⟨i, within.2.2 i bit, within'.2.2 i bit'⟩ apart

/-- A record after an unbind is an old one, or what is left of it. -/
theorem getElem?_unbind {binds : List NotifBind} {slot i : ℕ} {bitmap : U64} {bind : NotifBind}
    (here : (binds.modify slot (NotifBind.without · bitmap))[i]? = some bind) :
    ∃ old, binds[i]? = some old ∧ (bind = old ∨ bind = old.without bitmap) := by
  rw [List.getElem?_modify] at here
  obtain ⟨old, there, rfl⟩ := Option.map_eq_some_iff.mp here
  refine ⟨old, there, ?_⟩
  split_ifs
  · exact .inr rfl
  · exact .inl rfl

theorem EndpointNotifState.Ok.unbind {state : EndpointNotifState} (ok : state.Ok) (slot : ℕ) (bitmap : U64) :
    ({ state with binds := state.binds.modify slot (NotifBind.without · bitmap) } : EndpointNotifState).Ok := by
  have within {i : ℕ} {bind : NotifBind}
      (here : (state.binds.modify slot (NotifBind.without · bitmap))[i]? = some bind) (active : bind.active = true) :
      ∃ old, state.binds[i]? = some old ∧ bind.Within old ∧ bind.bitmap ≠ 0 := by
    obtain ⟨old, there, rfl | rfl⟩ := getElem?_unbind here
    · exact ⟨bind, there, .refl active, ok.nonempty bind (List.mem_of_getElem? there) active⟩
    · refine ⟨old, there, NotifBind.without_within active, ?_⟩
      exact bne_iff_ne.mp (Bool.and_eq_true_iff.mp active).2
  refine ⟨fun bind member active => ?_, fun i j bind other ne here there active active' => ?_, ok.idle,
    fun disabled bind member => ?_⟩
  · obtain ⟨i, here⟩ := List.mem_iff_getElem?.mp member
    obtain ⟨-, -, -, bits⟩ := within here active
    exact bits
  · obtain ⟨old, before, less, -⟩ := within here active
    obtain ⟨old', before', less', -⟩ := within there active'
    exact less.and_eq_zero less' (ok.disjoint i j old old' ne before before' less.1 less'.1)
  · obtain ⟨i, here⟩ := List.mem_iff_getElem?.mp member
    refine Bool.eq_false_iff.mpr fun active => ?_
    obtain ⟨old, before, less, -⟩ := within here active
    cases (ok.unbound disabled old (List.mem_of_getElem? before)).symm.trans less.1

theorem update_ok {states : NotifState} (ok : ∀ idx, (states idx).Ok) {idx : Fin maxEndpoints}
    {state : EndpointNotifState} (stored : state.Ok) (j : Fin maxEndpoints) :
    (Function.update states idx state j).Ok := by
  rcases eq_or_ne j idx with rfl | other
  · rw [Function.update_self]
    exact stored
  · rw [Function.update_of_ne other]
    exact ok j

theorem NotifOp.Effect.ok {states states' : NotifState} {op : NotifOp} {mask : Option U64}
    (effect : Effect states op mask states') (ok : ∀ idx, (states idx).Ok) : ∀ idx, (states' idx).Ok := by
  cases effect with
  | bitmapCreate => exact update_ok ok (ok _).bitmapCreate
  | bitmapDestroy => exact update_ok ok .bitmapDestroy
  | bind _ _ enabled nonempty apart => exact update_ok ok ((ok _).bind enabled nonempty apart)
  | unbind slot => exact update_ok ok ((ok _).unbind slot _)
  | set _ enabled => exact update_ok ok ((ok _).pending fun disabled => absurd (enabled.symm.trans disabled) (by decide))
  | get => exact update_ok ok ((ok _).pending fun _ => rfl)

/-! ## Sequences of operations -/

/-- An operation and what it returned. -/
structure NotifDone where
  op : NotifOp
  result : Except I32 (Option U64)

/-- Perform one more operation. -/
def perform (log : List NotifDone × NotifState) (op : NotifOp) : List NotifDone × NotifState :=
  (log.1 ++ [⟨op, (op.exec log.2).1⟩], (op.exec log.2).2)

/-- What was done and the endpoints after it, from the initial ones on. -/
def notifLog (ops : List NotifOp) : List NotifDone × NotifState := ops.foldl perform ([], .init)

namespace NotifDone

/-- The endpoint that a creation or a get empties. -/
def empties (d : NotifDone) : Option (Fin maxEndpoints) :=
  match d.op, d.result with
  | .bitmapCreate partId, .ok _ => NotifState.endpointIndex partId
  | .get receiver, .ok _ => NotifState.endpointIndex receiver
  | _, _ => none

/-- The bits that a successful set gives to an endpoint. -/
def bitsFor (d : NotifDone) (idx : Fin maxEndpoints) : U64 :=
  match d.op, d.result with
  | .set _ receiver bitmap, .ok _ => if NotifState.endpointIndex receiver = some idx then bitmap else 0
  | _, _ => 0

end NotifDone

/-- The bitwise OR of the bitmaps of the successful sets to an endpoint. -/
def setBits (idx : Fin maxEndpoints) (done : List NotifDone) : U64 :=
  done.foldl (fun acc d => acc ||| d.bitsFor idx) 0

/-- `mask` is what was set for an endpoint since it was emptied last. -/
def SetSince (done : List NotifDone) (idx : Fin maxEndpoints) (mask : U64) : Prop :=
  ∃ before start since, done = before ++ start :: since ∧ start.empties = some idx ∧
    (∀ d ∈ since, d.empties ≠ some idx) ∧ mask = setBits idx since

theorem SetSince.concat {done : List NotifDone} {idx : Fin maxEndpoints} {mask : U64} (before : SetSince done idx mask)
    {d : NotifDone} (other : d.empties ≠ some idx) : SetSince (done ++ [d]) idx (mask ||| d.bitsFor idx) := by
  obtain ⟨earlier, start, since, rfl, starts, none, rfl⟩ := before
  refine ⟨earlier, start, since ++ [d], by simp, starts, fun d' member => ?_, ?_⟩
  · rcases List.mem_append.mp member with old | new
    · exact none d' old
    · cases List.mem_singleton.mp new
      exact other
  · rw [setBits, setBits, List.foldl_append]
    rfl

theorem setSince_start {done : List NotifDone} {idx : Fin maxEndpoints} {d : NotifDone}
    (starts : d.empties = some idx) : SetSince (done ++ [d]) idx 0 :=
  ⟨done, d, [], rfl, starts, (by rintro _ ⟨⟩), rfl⟩

theorem SetSince.skip {done : List NotifDone} {idx : Fin maxEndpoints} {mask : U64} (before : SetSince done idx mask)
    {d : NotifDone} (other : d.empties ≠ some idx) (none : d.bitsFor idx = 0) : SetSince (done ++ [d]) idx mask := by
  have longer := before.concat other
  rwa [none, show mask ||| 0 = mask from BitVec.or_zero] at longer

/-- The partition whose endpoint an operation is about. -/
def NotifOp.target : NotifOp → U16
  | bitmapCreate partId => partId
  | bitmapDestroy partId => partId
  | bind _ receiver _ => receiver
  | unbind _ receiver _ => receiver
  | set _ receiver _ => receiver
  | get receiver => receiver

/-- An operation that failed counts for no endpoint. -/
theorem NotifDone.of_error (op : NotifOp) (code : I32) (idx : Fin maxEndpoints) :
    (⟨op, .error code⟩ : NotifDone).empties ≠ some idx ∧ (⟨op, .error code⟩ : NotifDone).bitsFor idx = 0 := by
  cases op <;> exact ⟨(Option.some_ne_none idx).symm, rfl⟩

theorem NotifDone.elsewhere (d : NotifDone) {idx : Fin maxEndpoints}
    (other : NotifState.endpointIndex d.op.target ≠ some idx) : d.empties ≠ some idx ∧ d.bitsFor idx = 0 := by
  obtain ⟨op, result⟩ := d
  cases result with
  | error code => exact of_error op code idx
  | ok mask =>
    cases op with
    | bitmapCreate => exact ⟨other, rfl⟩
    | bitmapDestroy => exact ⟨(Option.some_ne_none idx).symm, rfl⟩
    | bind => exact ⟨(Option.some_ne_none idx).symm, rfl⟩
    | unbind => exact ⟨(Option.some_ne_none idx).symm, rfl⟩
    | set => exact ⟨(Option.some_ne_none idx).symm, if_neg other⟩
    | get => exact ⟨other, rfl⟩

section Step

variable {states states' : NotifState} {op : NotifOp} {mask : Option U64} {done : List NotifDone}
  {idx : Fin maxEndpoints}

theorem NotifOp.Effect.target (effect : Effect states op mask states') :
    ∃ idx state, NotifState.endpointIndex op.target = some idx ∧ states' = Function.update states idx state := by
  cases effect with
  | bitmapCreate named => exact ⟨_, _, named, rfl⟩
  | bitmapDestroy named => exact ⟨_, _, named, rfl⟩
  | bind _ named => exact ⟨_, _, named, rfl⟩
  | unbind _ named => exact ⟨_, _, named, rfl⟩
  | set named => exact ⟨_, _, named, rfl⟩
  | get named => exact ⟨_, _, named, rfl⟩

/-- The pending bits of an enabled endpoint stay what was set since it was emptied. -/
theorem NotifOp.Effect.setSince (effect : Effect states op mask states') (ok : (states idx).Ok)
    (enabled : (states' idx).enabled = true)
    (history : (states idx).enabled = true → SetSince done idx (states idx).pending) :
    SetSince (done ++ [⟨op, .ok mask⟩]) idx (states' idx).pending := by
  obtain ⟨j, state, named, changed⟩ := effect.target
  rcases ne_or_eq idx j with other | rfl
  · rw [changed, Function.update_of_ne other] at enabled ⊢
    have elsewhere := @NotifDone.elsewhere ⟨op, .ok mask⟩ idx fun same =>
      other (Option.some.inj (same.symm.trans named))
    exact (history enabled).skip elsewhere.1 elsewhere.2
  have here {k : Fin maxEndpoints} (named' : NotifState.endpointIndex op.target = some k) : k = idx :=
    Option.some.inj (named'.symm.trans named)
  clear changed
  cases effect with
  | bitmapCreate named' disabled =>
    obtain rfl := here named'
    rw [Function.update_self]
    exact (ok.idle disabled) ▸ setSince_start named
  | bitmapDestroy named' =>
    obtain rfl := here named'
    rw [Function.update_self] at enabled
    cases enabled
  | bind _ named' enabled' =>
    obtain rfl := here named'
    rw [Function.update_self]
    exact (history enabled').skip (by rintro ⟨⟩) rfl
  | unbind _ named' =>
    obtain rfl := here named'
    rw [Function.update_self] at enabled ⊢
    exact (history enabled).skip (by rintro ⟨⟩) rfl
  | @set sender receiver bitmap _ named' enabled' =>
    obtain rfl := here named'
    rw [Function.update_self]
    have bits : (⟨.set sender receiver bitmap, .ok none⟩ : NotifDone).bitsFor _ = bitmap := if_pos named'
    have longer := (history enabled').concat (d := ⟨.set sender receiver bitmap, .ok none⟩) (by rintro ⟨⟩)
    rwa [bits] at longer
  | get named' =>
    obtain rfl := here named'
    rw [Function.update_self]
    exact setSince_start named

end Step

/-- The invariant of a sequence: the endpoints, and what their pending bits are. -/
structure LogOk (log : List NotifDone × NotifState) : Prop where
  ok : ∀ idx, (log.2 idx).Ok
  history : ∀ idx, (log.2 idx).enabled = true → SetSince log.1 idx (log.2 idx).pending

theorem LogOk.perform {log : List NotifDone × NotifState} (before : LogOk log) (op : NotifOp) :
    LogOk (perform log op) := by
  rw [Hypervisor.perform]
  rcases op.exec_cases log.2 with ⟨code, failed⟩ | ⟨mask, states', succeeded, effect⟩
  · rw [failed]
    refine ⟨before.ok, fun idx enabled => ?_⟩
    have error := NotifDone.of_error op code idx
    exact (before.history idx enabled).skip error.1 error.2
  · rw [succeeded]
    exact ⟨effect.ok before.ok, fun idx enabled => effect.setSince (before.ok idx) enabled (before.history idx)⟩

theorem logOk_foldl (ops : List NotifOp) {log : List NotifDone × NotifState} (before : LogOk log) :
    LogOk (ops.foldl perform log) := by
  induction ops generalizing log with
  | nil => exact before
  | cons op rest ih => exact ih (before.perform op)

theorem logOk_notifLog (ops : List NotifOp) : LogOk (notifLog ops) :=
  logOk_foldl ops ⟨fun _ => .new, fun _ enabled => by cases enabled⟩

/-- After every sequence of operations: the endpoints are sound, an operation that fails changes nothing,
and a get that succeeds returns the bits that were set since the last get or the creation. -/
theorem notification_invariant (ops : List NotifOp) :
    (∀ idx, ((notifLog ops).2 idx).Ok) ∧
    (∀ (op : NotifOp) code, (op.exec (notifLog ops).2).1 = .error code →
      (op.exec (notifLog ops).2).2 = (notifLog ops).2) ∧
    ∀ receiver mask, ((NotifOp.get receiver).exec (notifLog ops).2).1 = .ok mask →
      ∃ idx bits, NotifState.endpointIndex receiver = some idx ∧ mask = some bits ∧
        SetSince (notifLog ops).1 idx bits := by
  have log := logOk_notifLog ops
  refine ⟨log.ok, fun op code failed => ?_, fun receiver mask succeeded => ?_⟩
  · rcases op.exec_cases (notifLog ops).2 with ⟨code', run⟩ | ⟨mask, states', run, -⟩
    · rw [run]
    · rw [run] at failed
      cases failed
  · rcases (NotifOp.get receiver).exec_cases (notifLog ops).2 with ⟨code, run⟩ | ⟨mask', states', run, effect⟩
    · rw [run] at succeeded
      cases succeeded
    · rw [run] at succeeded
      cases succeeded
      cases effect with
      | @get _ idx named enabled => exact ⟨idx, _, named, rfl, log.history idx enabled⟩

end Hypervisor
