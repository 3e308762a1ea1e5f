import Hypervisor.Soundness.NotifInvariant

/-! # What an unbind leaves behind

A binding is a record and a bit. An unbind takes its bits from the first record of the sender that has
one of them, and it does not look at the pending bits. So the bits of a second record stay bound
(`unbind_complete_iff`), and a bit that is pending stays pending without a binding, or under the binding
of the next sender (`no_stale_iff`).
-/

namespace Hypervisor

/-- `sender` may set bit `i` of the endpoint. -/
def EndpointNotifState.Bound (state : EndpointNotifState) (sender : U16) (i : ℕ) : Prop :=
  ∃ bind ∈ state.binds, bind.active = true ∧ bind.senderId = sender ∧ bind.bitmap.getLsbD i = true

theorem NotifBind.meets_iff {bind : NotifBind} {sender : U16} {bitmap : U64} : bind.meets sender bitmap = true ↔
    bind.active = true ∧ bind.senderId = sender ∧ ∃ i, bind.bitmap.getLsbD i = true ∧ bitmap.getLsbD i = true := by
  rw [meets, Bool.and_eq_true, Bool.and_eq_true, beq_iff_eq, bne_iff_ne, BitVec.and_ne_zero_iff, and_assoc]

theorem NotifBind.getLsbD_without (bind : NotifBind) (bitmap : U64) (i : ℕ) :
    (bind.without bitmap).bitmap.getLsbD i = true ↔ bind.bitmap.getLsbD i = true ∧ bitmap.getLsbD i = false :=
  BitVec.getLsbD_and_not _ _ _

section Bound

variable {state : EndpointNotifState} {sender : U16} {i : ℕ}

theorem EndpointNotifState.bound_iff : state.Bound sender i ↔
    ∃ (j : ℕ) (bind : NotifBind), state.binds[j]? = some bind ∧ bind.active = true ∧ bind.senderId = sender ∧
      bind.bitmap.getLsbD i = true := by
  constructor
  · rintro ⟨bind, member, here⟩
    obtain ⟨j, at_j⟩ := List.mem_iff_getElem?.mp member
    exact ⟨j, bind, at_j, here⟩
  · rintro ⟨j, bind, at_j, here⟩
    exact ⟨bind, List.mem_of_getElem? at_j, here⟩

/-- No two records of a sound endpoint have the same bit. -/
theorem EndpointNotifState.Ok.same_slot (ok : state.Ok) {j k : ℕ} {bind other : NotifBind}
    (here : state.binds[j]? = some bind) (there : state.binds[k]? = some other) (active : bind.active = true)
    (active' : other.active = true) (bit : bind.bitmap.getLsbD i = true) (bit' : other.bitmap.getLsbD i = true) :
    j = k := by
  by_contra ne
  exact BitVec.and_ne_zero_iff.mpr ⟨i, bit, bit'⟩ (ok.disjoint j k bind other ne here there active active')

theorem EndpointNotifState.Ok.same_sender (ok : state.Ok) {other : U16} (bound : state.Bound sender i)
    (bound' : state.Bound other i) : sender = other := by
  obtain ⟨j, bind, here, active, rfl, bit⟩ := bound_iff.mp bound
  obtain ⟨k, bind', there, active', rfl, bit'⟩ := bound_iff.mp bound'
  obtain rfl := ok.same_slot here there active active' bit bit'
  rw [Option.some.inj (here.symm.trans there)]

/-- Which bits are bound when a record has lost its share of a bitmap. -/
theorem EndpointNotifState.bound_unbind_iff {slot : ℕ} {bitmap : U64} :
    ({ state with binds := state.binds.modify slot (NotifBind.without · bitmap) } : EndpointNotifState).Bound
        sender i ↔
      ∃ (j : ℕ) (bind : NotifBind), state.binds[j]? = some bind ∧ bind.active = true ∧ bind.senderId = sender ∧
        bind.bitmap.getLsbD i = true ∧ (j = slot → bitmap.getLsbD i = false) := by
  rw [bound_iff]
  constructor
  · rintro ⟨j, bind, here, active, sends, bit⟩
    rw [List.getElem?_modify] at here
    obtain ⟨old, there, rfl⟩ := Option.map_eq_some_iff.mp here
    split_ifs at active sends bit with same
    · rw [NotifBind.getLsbD_without] at bit
      exact ⟨j, old, there, (NotifBind.without_within active).1, sends, bit.1, fun _ => bit.2⟩
    · exact ⟨j, old, there, active, sends, bit, fun same' => absurd same'.symm same⟩
  · rintro ⟨j, old, there, active, sends, bit, kept⟩
    rcases eq_or_ne slot j with same | other
    · have left := (old.getLsbD_without bitmap i).mpr ⟨bit, kept same.symm⟩
      refine ⟨j, old.without bitmap, ?_, ?_, sends, left⟩
      · rw [List.getElem?_modify, there]
        exact congrArg some (if_pos same)
      · exact Bool.and_eq_true_iff.mpr ⟨active, bne_iff_ne.mpr (BitVec.ne_zero_iff_getLsbD.mpr ⟨i, left⟩)⟩
    · refine ⟨j, old, ?_, active, sends, bit⟩
      rw [List.getElem?_modify, there]
      exact congrArg some (if_neg other)

/-- A record in a free slot binds its bits and frees none. -/
theorem EndpointNotifState.Bound.bind {slot : ℕ} {new : NotifBind} (bound : state.Bound sender i)
    (free : ∀ old, state.binds[slot]? = some old → old.active = false) :
    ({ state with binds := state.binds.set slot new } : EndpointNotifState).Bound sender i := by
  obtain ⟨j, bind, here, active, sends, bit⟩ := bound_iff.mp bound
  refine bound_iff.mpr ⟨j, bind, ?_, active, sends, bit⟩
  have other : slot ≠ j := by
    rintro rfl
    cases (free bind here).symm.trans active
  rw [List.getElem?_set_ne other]
  exact here

end Bound

/-! ## Complete unbinding -/

/-- The endpoints after further operations. -/
def NotifState.afterAll (states : NotifState) (ops : List NotifOp) : NotifState :=
  ops.foldl (fun states op => (op.exec states).2) states

/-- The operation binds one of these bits of the receiver to the sender. -/
def NotifOp.Rebinds (op : NotifOp) (sender receiver : U16) (bitmap : U64) : Prop :=
  ∃ receiver' bits, op = .bind sender receiver' bits ∧
    NotifState.endpointIndex receiver' = NotifState.endpointIndex receiver ∧ bits &&& bitmap ≠ 0

/-- What an unbind promises: the bits of the bitmap are no longer bound to the sender, all other bindings
are as before, and a set of such a bit by the sender is denied as long as none is bound again. -/
structure Unbound (states states' : NotifState) (sender receiver : U16) (bitmap : U64) : Prop where
  bindings : ∀ idx other i, (states' idx).Bound other i ↔ (states idx).Bound other i ∧
    ¬(NotifState.endpointIndex receiver = some idx ∧ other = sender ∧ bitmap.getLsbD i = true)
  denied : ∀ later bits, (∀ op ∈ later, ¬op.Rebinds sender receiver bitmap) → bits &&& bitmap ≠ 0 →
    (states'.afterAll later).set sender receiver bits = .error ffaDenied

section Later

variable {states states' : NotifState} {sender receiver : U16} {bitmap bits : U64} {idx : Fin maxEndpoints} {i : ℕ}

/-- Only a bind makes a binding. -/
theorem NotifOp.Effect.bound {op : NotifOp} {mask : Option U64} (effect : Effect states op mask states')
    (bound : (states' idx).Bound sender i) : (states idx).Bound sender i ∨
      ∃ receiver bits, op = .bind sender receiver bits ∧ NotifState.endpointIndex receiver = some idx ∧
        bits.getLsbD i = true := by
  obtain ⟨bind, member, active, sends, bit⟩ := bound
  by_cases before : bind ∈ (states idx).binds
  · exact .inl ⟨bind, before, active, sends, bit⟩
  cases effect with
  | bitmapCreate => exact absurd (mem_binds_of_kept member rfl) before
  | bitmapDestroy =>
    obtain ⟨rfl, inNew⟩ := (mem_binds_update member).resolve_left before
    obtain ⟨_, _, rfl⟩ := List.mem_map.mp inNew
    cases active
  | bind slot named =>
    obtain ⟨rfl, inNew⟩ := (mem_binds_update member).resolve_left before
    obtain rfl := (List.mem_or_eq_of_mem_set inNew).resolve_left before
    obtain rfl := sends
    exact .inr ⟨_, _, rfl, named, bit⟩
  | unbind slot =>
    obtain ⟨rfl, inNew⟩ := (mem_binds_update member).resolve_left before
    obtain ⟨j, bind', here, active', sends', bit', -⟩ :=
      EndpointNotifState.bound_unbind_iff.mp ⟨bind, inNew, active, sends, bit⟩
    exact .inl (EndpointNotifState.bound_iff.mpr ⟨j, bind', here, active', sends', bit'⟩)
  | set => exact absurd (mem_binds_of_kept member rfl) before
  | get => exact absurd (mem_binds_of_kept member rfl) before

theorem bound_of_exec {op : NotifOp} (bound : ((op.exec states).2 idx).Bound sender i) :
    (states idx).Bound sender i ∨
      ∃ receiver bits, op = .bind sender receiver bits ∧ NotifState.endpointIndex receiver = some idx ∧
        bits.getLsbD i = true := by
  rcases op.exec_cases states with ⟨code, failed⟩ | ⟨mask, states', succeeded, effect⟩
  · rw [failed] at bound
    exact .inl bound
  · rw [succeeded] at bound
    exact effect.bound bound

theorem unbound_afterAll (named : NotifState.endpointIndex receiver = some idx) (later : List NotifOp)
    (none : ∀ op ∈ later, ¬op.Rebinds sender receiver bitmap)
    (free : ∀ i, bitmap.getLsbD i = true → ¬(states idx).Bound sender i) :
    ∀ i, bitmap.getLsbD i = true → ¬(states.afterAll later idx).Bound sender i := by
  induction later generalizing states with
  | nil => exact free
  | cons op rest ih =>
    refine ih (fun op' member => none op' (List.mem_cons_of_mem _ member)) fun i bit bound => ?_
    rcases bound_of_exec bound with bound | ⟨receiver', bits, rfl, named', bit'⟩
    · exact free i bit bound
    · exact none _ List.mem_cons_self ⟨receiver', bits, rfl, named'.trans named.symm, BitVec.and_ne_zero_iff.mpr ⟨i, bit', bit⟩⟩

/-- A set of a bit that is not bound to the sender is denied. -/
theorem set_denied (named : NotifState.endpointIndex receiver = some idx) (bit : bits.getLsbD i = true)
    (free : ¬(states idx).Bound sender i) : states.set sender receiver bits = .error ffaDenied := by
  have beyond : bits &&& ~~~NotifState.allowed (states idx).binds sender ≠ 0 := fun none =>
    free (exists_bind_of_allowed (BitVec.and_not_eq_zero_iff.mp none i bit))
  rw [NotifState.set, NotifState.getState, named]
  change (if !(states idx).enabled then _ else if _ then _ else _) = _
  rw [if_pos beyond, ite_self]

end Later

/-- At most one record of the sender on the receiver's endpoint has bits of the bitmap. -/
def OneRecord (states : NotifState) (sender receiver : U16) (bitmap : U64) : Prop :=
  ∀ idx, NotifState.endpointIndex receiver = some idx → ∀ (j k : ℕ) (bind other : NotifBind),
    (states idx).binds[j]? = some bind → (states idx).binds[k]? = some other →
    bind.meets sender bitmap = true → other.meets sender bitmap = true → j = k

section Complete

variable {states : NotifState} {sender receiver : U16} {bitmap : U64} {idx : Fin maxEndpoints} {slot : ℕ}

theorem found_record {binds : List NotifBind} (found : binds.findIdx? (·.meets sender bitmap) = some slot) :
    ∃ bind, binds[slot]? = some bind ∧ bind.meets sender bitmap = true := by
  obtain ⟨inside, meets, -⟩ := List.findIdx?_eq_some_iff_getElem.mp found
  exact ⟨_, List.getElem?_eq_getElem inside, meets⟩

theorem exists_found {binds : List NotifBind} {bind : NotifBind} {j : ℕ} (here : binds[j]? = some bind)
    (meets : bind.meets sender bitmap = true) : ∃ slot, binds.findIdx? (·.meets sender bitmap) = some slot := by
  rw [← Option.isSome_iff_exists, List.findIdx?_isSome, List.any_eq_true]
  exact ⟨bind, List.mem_of_getElem? here, meets⟩

theorem unbound_of_oneRecord (named : NotifState.endpointIndex receiver = some idx)
    (found : (states idx).binds.findIdx? (·.meets sender bitmap) = some slot)
    (one : OneRecord states sender receiver bitmap) :
    Unbound states (Function.update states idx
      { states idx with binds := (states idx).binds.modify slot (NotifBind.without · bitmap) }) sender receiver bitmap := by
  obtain ⟨first, at_slot, meets⟩ := found_record found
  obtain ⟨-, sends, -⟩ := NotifBind.meets_iff.mp meets
  have bindings (j : Fin maxEndpoints) (other : U16) (i : ℕ) :
      (Function.update states idx { states idx with
        binds := (states idx).binds.modify slot (NotifBind.without · bitmap) } j).Bound other i ↔
      (states j).Bound other i ∧
        ¬(NotifState.endpointIndex receiver = some j ∧ other = sender ∧ bitmap.getLsbD i = true) := by
    rcases ne_or_eq j idx with elsewhere | rfl
    · rw [Function.update_of_ne elsewhere, iff_self_and]
      rintro - ⟨named', -⟩
      exact elsewhere (Option.some.inj (named'.symm.trans named))
    · rw [Function.update_self, EndpointNotifState.bound_unbind_iff]
      constructor
      · rintro ⟨k, bind, here, active, rfl, bit, kept⟩
        refine ⟨EndpointNotifState.bound_iff.mpr ⟨k, bind, here, active, rfl, bit⟩, ?_⟩
        rintro ⟨-, mine, taken⟩
        have same := one j named k slot bind first here at_slot (NotifBind.meets_iff.mpr ⟨active, mine, i, bit, taken⟩)
          meets
        cases (kept same).symm.trans taken
      · rintro ⟨bound, spared⟩
        obtain ⟨k, bind, here, active, rfl, bit⟩ := EndpointNotifState.bound_iff.mp bound
        refine ⟨k, bind, here, active, rfl, bit, ?_⟩
        rintro rfl
        obtain rfl := Option.some.inj (here.symm.trans at_slot)
        exact Bool.eq_false_iff.mpr fun taken => spared ⟨named, sends, taken⟩
  refine ⟨bindings, fun later bits none shared => ?_⟩
  obtain ⟨i, bit, taken⟩ := BitVec.and_ne_zero_iff.mp shared
  refine set_denied named bit (unbound_afterAll named later none (fun i taken bound => ?_) i taken)
  exact ((bindings idx sender i).mp bound).2 ⟨named, rfl, taken⟩

theorem bound_of_other_record {j : ℕ} {bind : NotifBind} (here : (states idx).binds[j]? = some bind)
    (meets : bind.meets sender bitmap = true) (other : j ≠ slot) :
    ∃ i, bitmap.getLsbD i = true ∧ ({ states idx with
      binds := (states idx).binds.modify slot (NotifBind.without · bitmap) } : EndpointNotifState).Bound sender i := by
  obtain ⟨active, sends, i, bit, taken⟩ := NotifBind.meets_iff.mp meets
  exact ⟨i, taken, EndpointNotifState.bound_unbind_iff.mpr
    ⟨j, bind, here, active, sends, bit, fun same => absurd same other⟩⟩

end Complete

/-- An unbind that succeeds is complete exactly if one record has all the bits that are to go. -/
theorem unbind_complete_iff (states : NotifState) (sender receiver : U16) (bitmap : U64) :
    (∀ states', states.unbind sender receiver bitmap = .ok states' → Unbound states states' sender receiver bitmap) ↔
      OneRecord states sender receiver bitmap := by
  constructor
  · intro complete idx named j k bind other here there meets meets'
    obtain ⟨slot, found⟩ := exists_found here meets
    have unbound := complete _ (unbind_eq_ok_iff.mpr ⟨idx, slot, named, found, rfl⟩)
    -- a record in another slot keeps its bits
    have only {l : ℕ} {record : NotifBind} (at_l : (states idx).binds[l]? = some record)
        (meets : record.meets sender bitmap = true) : l = slot := by
      by_contra ne
      obtain ⟨i, taken, bound⟩ := bound_of_other_record at_l meets ne
      have after := unbound.bindings idx sender i
      rw [Function.update_self] at after
      exact (after.mp bound).2 ⟨named, rfl, taken⟩
    exact (only here meets).trans (only there meets').symm
  · intro one states' ok
    obtain ⟨idx, slot, named, found, rfl⟩ := unbind_eq_ok_iff.mp ok
    exact unbound_of_oneRecord named found one

/-- VM 0 binds two notifications to VM 1 one after the other. -/
def boundTwice : List NotifOp := [.bitmapCreate 1, .bind 2 1 1, .bind 2 1 2]

/-- An unbind of both bits succeeds, and the second one can still be set. -/
theorem second_record_stays :
    ∃ states', (notifLog boundTwice).2.unbind 2 1 3 = .ok states' ∧
      (∃ states'', states'.set 2 1 2 = .ok states'') ∧
      ¬Unbound (notifLog boundTwice).2 states' 2 1 3 := by
  refine ⟨_, rfl, ⟨_, rfl⟩, fun unbound => ?_⟩
  have denied := unbound.denied [] 2 (by simp) (by decide)
  cases denied

/-! ## Stale notifications -/

/-- A successful set of bit `i` of an endpoint by `sender`. -/
def NotifDone.Sets (d : NotifDone) (idx : Fin maxEndpoints) (sender : U16) (i : ℕ) : Prop :=
  ∃ receiver bitmap mask, d = ⟨.set sender receiver bitmap, .ok mask⟩ ∧
    NotifState.endpointIndex receiver = some idx ∧ bitmap.getLsbD i = true

/-- Every set of the bit that no get has returned yet was made by `sender`. -/
def OnlyFrom (done : List NotifDone) (idx : Fin maxEndpoints) (i : ℕ) (sender : U16) : Prop :=
  ∀ before d since other, done = before ++ d :: since → d.Sets idx other i →
    (∀ d' ∈ since, d'.empties ≠ some idx) → other = sender

/-- Every pending bit of the endpoint is bound, to the sender that has set it. -/
def Fresh (done : List NotifDone) (idx : Fin maxEndpoints) (state : EndpointNotifState) : Prop :=
  ∀ i, state.pending.getLsbD i = true → ∃ sender, state.Bound sender i ∧ OnlyFrom done idx i sender

/-- The pending bits are bound to the senders that have set them, and a get returns bound bits only. -/
structure NoStale (log : List NotifDone × NotifState) : Prop where
  fresh : ∀ idx, Fresh log.1 idx (log.2 idx)
  reported : ∀ receiver mask states', log.2.get receiver = .ok (mask, states') → ∀ i, mask.getLsbD i = true →
    ∃ idx sender, NotifState.endpointIndex receiver = some idx ∧ (log.2 idx).Bound sender i

/-- The record that an unbind changes loses no bit that is pending. -/
def SparesPending (states : NotifState) (sender receiver : U16) (bitmap : U64) : Prop :=
  ∀ idx bind, NotifState.endpointIndex receiver = some idx →
    (states idx).binds.find? (·.meets sender bitmap) = some bind →
    (states idx).pending &&& (bind.bitmap &&& bitmap) = 0

section Fresh

variable {done : List NotifDone} {idx : Fin maxEndpoints} {state state' : EndpointNotifState} {d : NotifDone}
  {i : ℕ} {sender : U16}

theorem OnlyFrom.concat (before : d.empties ≠ some idx → OnlyFrom done idx i sender)
    (now : ∀ other, d.Sets idx other i → other = sender) : OnlyFrom (done ++ [d]) idx i sender := by
  intro earlier d' since other split sets none
  rcases List.eq_nil_or_concat' since with rfl | ⟨since, last, rfl⟩
  · obtain ⟨-, same⟩ := List.append_inj' split rfl
    cases same
    exact now other sets
  · rw [← List.cons_append, ← List.append_assoc] at split
    obtain ⟨same, ends⟩ := List.append_inj' split rfl
    cases ends
    exact before (none d (by simp)) earlier d' since other same sets fun d'' member =>
      none d'' (List.mem_append_left _ member)

theorem getLsbD_setBits {since : List NotifDone} (member : d ∈ since) (bit : (d.bitsFor idx).getLsbD i = true) :
    (setBits idx since).getLsbD i = true := by
  suffices collected : ∀ acc : U64, acc.getLsbD i = true ∨ d ∈ since →
      (since.foldl (fun acc d => acc ||| d.bitsFor idx) acc).getLsbD i = true from collected 0 (.inr member)
  clear member
  induction since with
  | nil => exact fun acc found => found.resolve_right List.not_mem_nil
  | cons first rest ih =>
    intro acc found
    refine ih _ ?_
    rw [BitVec.getLsbD_or, Bool.or_eq_true]
    rcases found with old | member
    · exact .inl (.inl old)
    · rcases List.mem_cons.mp member with rfl | later
      · exact .inl (.inr bit)
      · exact .inr later

theorem NotifDone.Sets.bitsFor (sets : d.Sets idx sender i) : (d.bitsFor idx).getLsbD i = true := by
  obtain ⟨receiver, bitmap, mask, rfl, named, bit⟩ := sets
  have bits : (⟨.set sender receiver bitmap, .ok mask⟩ : NotifDone).bitsFor idx = bitmap := if_pos named
  rw [bits]
  exact bit

theorem NotifDone.Sets.empties (sets : d.Sets idx sender i) (j : Fin maxEndpoints) : d.empties ≠ some j := by
  obtain ⟨receiver, bitmap, mask, rfl, -, -⟩ := sets
  rintro ⟨⟩

/-- A set that no get has returned yet is pending. -/
theorem pending_of_sets {mask : U64} (history : SetSince done idx mask) {before since : List NotifDone}
    (split : done = before ++ d :: since) (sets : d.Sets idx sender i) (none : ∀ d' ∈ since, d'.empties ≠ some idx) :
    mask.getLsbD i = true := by
  obtain ⟨earlier, start, after, split', starts, -, rfl⟩ := history
  refine getLsbD_setBits ?_ sets.bitsFor
  rcases List.append_eq_append_iff.mp (split.symm.trans split') with ⟨gap, -, rest⟩ | ⟨gap, -, rest⟩
  · cases gap with
    | nil =>
      cases rest
      exact absurd starts (sets.empties idx)
    | cons first gap =>
      cases rest
      exact absurd starts (none start (by simp))
  · cases gap with
    | nil =>
      cases rest
      exact absurd starts (sets.empties idx)
    | cons first gap =>
      cases rest
      simp

theorem fresh_of_no_pending (none : state.pending = 0) : Fresh done idx state := by
  intro i bit
  exact absurd none (BitVec.ne_zero_iff_getLsbD.mpr ⟨i, bit⟩)

/-- An operation that sets no bit of the endpoint and unbinds none that is pending. -/
theorem Fresh.skip (fresh : Fresh done idx state) (silent : ∀ other i, ¬d.Sets idx other i)
    (same : state'.pending = state.pending)
    (kept : ∀ sender i, state.pending.getLsbD i = true → state.Bound sender i → state'.Bound sender i) :
    Fresh (done ++ [d]) idx state' := by
  intro i bit
  rw [same] at bit
  obtain ⟨sender, bound, only⟩ := fresh i bit
  exact ⟨sender, kept sender i bit bound, .concat (fun _ => only) fun other sets => absurd sets (silent other i)⟩

theorem Fresh.set {receiver : U16} {bitmap : U64} {mask : Option U64} (fresh : Fresh done idx state) (ok : state.Ok)
    (history : SetSince done idx state.pending) (permitted : bitmap &&& ~~~NotifState.allowed state.binds sender = 0) :
    Fresh (done ++ [⟨.set sender receiver bitmap, .ok mask⟩]) idx { state with pending := state.pending ||| bitmap } := by
  have mine {i : ℕ} (bit : bitmap.getLsbD i = true) : state.Bound sender i :=
    exists_bind_of_allowed (BitVec.and_not_eq_zero_iff.mp permitted i bit)
  have now {other : U16} {i : ℕ} {receiver' : U16}
      (sets : (⟨.set sender receiver' bitmap, .ok mask⟩ : NotifDone).Sets idx other i) :
      other = sender ∧ bitmap.getLsbD i = true := by
    obtain ⟨_, _, _, same, -, bit⟩ := sets
    cases same
    exact ⟨rfl, bit⟩
  intro i bit
  by_cases pending : state.pending.getLsbD i = true
  · -- a bit that was pending is bound to one sender only
    obtain ⟨owner, bound, only⟩ := fresh i pending
    refine ⟨owner, bound, .concat (fun _ => only) fun other sets => ?_⟩
    obtain ⟨rfl, bit⟩ := now sets
    exact ok.same_sender (mine bit) bound
  · rw [BitVec.getLsbD_or, Bool.or_eq_true] at bit
    have bit := bit.resolve_left pending
    refine ⟨sender, mine bit, .concat (fun _ => ?_) fun other sets => (now sets).1⟩
    intro before d since other split sets none
    exact absurd (pending_of_sets history split sets none) pending

/-- The record that is found first. -/
theorem find?_of_findIdx? {binds : List NotifBind} {p : NotifBind → Bool} {slot : ℕ} {bind : NotifBind}
    (found : binds.findIdx? p = some slot) (here : binds[slot]? = some bind) : binds.find? p = some bind := by
  obtain ⟨inside, meets, first⟩ := List.findIdx?_eq_some_iff_getElem.mp found
  rw [List.getElem?_eq_getElem inside] at here
  cases here
  exact List.find?_eq_some_iff_getElem.mpr ⟨meets, slot, inside, rfl, fun j before => by simpa using first j before⟩

/-- An unbind that spares the pending bits leaves their bindings. -/
theorem bound_of_spared {slot : ℕ} {bitmap : U64} {other : U16} (spared : ∀ bind, state.binds[slot]? = some bind →
      state.pending &&& (bind.bitmap &&& bitmap) = 0)
    (pending : state.pending.getLsbD i = true) (bound : state.Bound other i) :
    ({ state with binds := state.binds.modify slot (NotifBind.without · bitmap) } : EndpointNotifState).Bound
      other i := by
  obtain ⟨j, bind, here, active, sends, bit⟩ := EndpointNotifState.bound_iff.mp bound
  refine EndpointNotifState.bound_unbind_iff.mpr ⟨j, bind, here, active, sends, bit, ?_⟩
  rintro rfl
  refine Bool.eq_false_iff.mpr fun taken => BitVec.and_ne_zero_iff.mpr ⟨i, pending, ?_⟩ (spared bind here)
  rw [BitVec.getLsbD_and, bit, taken]
  rfl

end Fresh

/-! ## Runs -/

theorem notifLog_concat (ops : List NotifOp) (op : NotifOp) : notifLog (ops ++ [op]) = perform (notifLog ops) op := by
  rw [notifLog, List.foldl_append]
  rfl

theorem not_sets_of_target {op : NotifOp} {result : Except I32 (Option U64)} {idx : Fin maxEndpoints}
    (elsewhere : NotifState.endpointIndex op.target ≠ some idx) (sender : U16) (i : ℕ) :
    ¬(⟨op, result⟩ : NotifDone).Sets idx sender i := by
  rintro ⟨_, _, _, same, named, -⟩
  cases same
  exact elsewhere named

/-- One operation, on the endpoint that it is about. -/
theorem fresh_of_apply {done : List NotifDone} {states states' : NotifState} {op : NotifOp} {mask : Option U64}
    {idx : Fin maxEndpoints} (ok : op.apply states = .ok (mask, states'))
    (target : NotifState.endpointIndex op.target = some idx) (sound : (states idx).Ok)
    (history : (states idx).enabled = true → SetSince done idx (states idx).pending)
    (fresh : Fresh done idx (states idx))
    (spared : ∀ sender receiver bitmap, op = .unbind sender receiver bitmap →
      SparesPending states sender receiver bitmap) :
    Fresh (done ++ [⟨op, .ok mask⟩]) idx (states' idx) := by
  have here {k : Fin maxEndpoints} (named : NotifState.endpointIndex op.target = some k) : k = idx :=
    Option.some.inj (named.symm.trans target)
  cases op with
  | bitmapCreate partId =>
    obtain ⟨_, ok, same⟩ := exceptMap_eq_ok_iff.mp ok
    obtain ⟨k, named, disabled, rfl⟩ := bitmapCreate_ok ok
    obtain rfl := here named
    cases same
    rw [Function.update_self]
    exact fresh_of_no_pending (sound.idle disabled)
  | bitmapDestroy partId =>
    obtain ⟨_, ok, same⟩ := exceptMap_eq_ok_iff.mp ok
    obtain ⟨k, named, rfl⟩ := bitmapDestroy_ok ok
    obtain rfl := here named
    cases same
    rw [Function.update_self]
    exact fresh_of_no_pending rfl
  | bind sender receiver bitmap =>
    obtain ⟨_, ok, same⟩ := exceptMap_eq_ok_iff.mp ok
    obtain ⟨k, slot, named, -, -, -, free, rfl⟩ := bind_ok ok
    obtain rfl := here named
    cases same
    rw [Function.update_self]
    refine fresh.skip ?_ rfl fun other i _ bound => bound.bind free
    rintro other i ⟨_, _, _, same, -⟩
    cases same
  | unbind sender receiver bitmap =>
    obtain ⟨_, ok, same⟩ := exceptMap_eq_ok_iff.mp ok
    obtain ⟨k, slot, named, found, rfl⟩ := unbind_eq_ok_iff.mp ok
    obtain rfl := here named
    cases same
    rw [Function.update_self]
    refine fresh.skip ?_ rfl fun other i pending bound => bound_of_spared (fun bind record => ?_) pending bound
    · rintro other i ⟨_, _, _, same, -⟩
      cases same
    · exact spared sender receiver bitmap rfl k bind named (find?_of_findIdx? found record)
  | set sender receiver bitmap =>
    obtain ⟨_, ok, same⟩ := exceptMap_eq_ok_iff.mp ok
    obtain ⟨k, named, enabled, permitted, rfl⟩ := set_ok ok
    obtain rfl := here named
    cases same
    rw [Function.update_self]
    exact fresh.set sound (history enabled) permitted
  | get receiver =>
    obtain ⟨_, ok, same⟩ := exceptMap_eq_ok_iff.mp ok
    obtain ⟨k, named, -, -, after⟩ := get_ok ok
    obtain rfl := here named
    cases same
    rw [after, Function.update_self]
    exact fresh_of_no_pending rfl

/-- One operation, on every endpoint. -/
theorem fresh_perform {log : List NotifDone × NotifState} (ok : LogOk log) (op : NotifOp)
    (spared : ∀ sender receiver bitmap, op = .unbind sender receiver bitmap →
      SparesPending log.2 sender receiver bitmap)
    (fresh : ∀ idx, Fresh log.1 idx (log.2 idx)) (idx : Fin maxEndpoints) :
    Fresh (perform log op).1 idx ((perform log op).2 idx) := by
  rw [perform, op.exec_eq]
  cases done : op.apply log.2 with
  | error code =>
    refine (fresh idx).skip ?_ rfl fun _ _ _ bound => bound
    rintro other i ⟨_, _, _, same, -⟩
    cases same
  | ok result =>
    obtain ⟨mask, states'⟩ := result
    obtain ⟨k, state, target, changed⟩ := (NotifOp.effect_of_apply done).target
    rcases ne_or_eq idx k with elsewhere | rfl
    · have silent : NotifState.endpointIndex op.target ≠ some idx := fun same =>
        elsewhere (Option.some.inj (same.symm.trans target))
      have same : states' idx = log.2 idx := by rw [changed, Function.update_of_ne elsewhere]
      change Fresh (log.1 ++ [⟨op, .ok mask⟩]) idx (states' idx)
      rw [same]
      exact (fresh idx).skip (not_sets_of_target silent) rfl fun _ _ _ bound => bound
    · exact fresh_of_apply done target (ok.ok idx) (ok.history idx) (fresh idx) spared

/-- All unbinds of a sequence spare the pending bits. -/
def UnbindsSpare (ops : List NotifOp) : Prop :=
  ∀ before sender receiver bitmap rest, ops = before ++ .unbind sender receiver bitmap :: rest →
    SparesPending (notifLog before).2 sender receiver bitmap

theorem fresh_notifLog (ops : List NotifOp) (spare : UnbindsSpare ops) (idx : Fin maxEndpoints) :
    Fresh (notifLog ops).1 idx ((notifLog ops).2 idx) := by
  induction ops using List.reverseRecOn generalizing idx with
  | nil => exact fresh_of_no_pending rfl
  | append_singleton ops op ih =>
    rw [notifLog_concat]
    refine fresh_perform (logOk_notifLog ops) op ?_ (ih fun before sender receiver bitmap rest split => ?_) idx
    · rintro sender receiver bitmap rfl
      exact spare ops sender receiver bitmap [] rfl
    · exact spare before sender receiver bitmap (rest ++ [op]) (by rw [split, List.append_assoc]; rfl)

theorem noStale_of_fresh {log : List NotifDone × NotifState} (fresh : ∀ idx, Fresh log.1 idx (log.2 idx)) :
    NoStale log := by
  refine ⟨fresh, fun receiver mask states' got i bit => ?_⟩
  obtain ⟨idx, named, -, rfl, -⟩ := get_ok got
  obtain ⟨sender, bound, -⟩ := fresh idx i bit
  exact ⟨idx, sender, named, bound⟩

/-- An unbind of a pending bit leaves it pending and unbound. -/
theorem sparesPending_of_fresh {ops : List NotifOp} {sender receiver : U16} {bitmap : U64}
    (fresh : ∀ idx, Fresh (notifLog (ops ++ [.unbind sender receiver bitmap])).1 idx
      ((notifLog (ops ++ [.unbind sender receiver bitmap])).2 idx)) :
    SparesPending (notifLog ops).2 sender receiver bitmap := by
  intro idx bind named found
  by_contra shared
  obtain ⟨i, pending, both⟩ := BitVec.and_ne_zero_iff.mp shared
  rw [BitVec.getLsbD_and, Bool.and_eq_true] at both
  obtain ⟨bit, taken⟩ := both
  have meets := List.find?_some found
  obtain ⟨active, -⟩ := NotifBind.meets_iff.mp meets
  obtain ⟨j, at_j⟩ := List.mem_iff_getElem?.mp (List.mem_of_find?_eq_some found)
  obtain ⟨slot, first⟩ := exists_found at_j meets
  obtain ⟨record, at_slot, -⟩ := found_record first
  obtain rfl := Option.some.inj (found.symm.trans (find?_of_findIdx? first at_slot))
  have unbound := unbind_eq_ok_iff.mpr ⟨idx, slot, named, first, rfl⟩
  have state : (notifLog (ops ++ [.unbind sender receiver bitmap])).2 = Function.update (notifLog ops).2 idx
      { (notifLog ops).2 idx with
        binds := ((notifLog ops).2 idx).binds.modify slot (NotifBind.without · bitmap) } := by
    rw [notifLog_concat, perform, NotifOp.exec_eq, NotifOp.apply, unbound]
    rfl
  have after := fresh idx i
  rw [state, Function.update_self] at after
  obtain ⟨other, bound, -⟩ := after pending
  obtain ⟨k, bind', at_k, active', -, bit', kept⟩ := EndpointNotifState.bound_unbind_iff.mp bound
  have same := ((logOk_notifLog ops).ok idx).same_slot at_k at_slot active' active bit' bit
  cases (kept same).symm.trans taken

/-- No state of a run has stale notifications exactly if all its unbinds spare the pending bits. -/
theorem no_stale_iff (ops : List NotifOp) :
    (∀ before rest, ops = before ++ rest → NoStale (notifLog before)) ↔ UnbindsSpare ops := by
  constructor
  · intro all before sender receiver bitmap rest split
    have clean := all (before ++ [.unbind sender receiver bitmap]) rest (by rw [split, List.append_assoc]; rfl)
    exact @sparesPending_of_fresh before sender receiver bitmap clean.fresh
  · rintro spare before rest rfl
    refine noStale_of_fresh (fresh_notifLog before fun earlier sender receiver bitmap later split => ?_)
    exact spare earlier sender receiver bitmap (later ++ rest) (by rw [split]; simp)

/-- VM 0 binds a notification to VM 1, which sets it, and unbinds it before it is read. -/
def unboundUnread : List NotifOp := [.bitmapCreate 1, .bind 2 1 1, .set 2 1 1, .unbind 2 1 1]

/-- The bit is still pending, and a get reports it when it is bound to VM 2 already. -/
theorem unread_bit_stays :
    ¬NoStale (notifLog unboundUnread) ∧
      ((NotifOp.get 1).exec (notifLog (unboundUnread ++ [.bind 3 1 1])).2).1 = .ok (some 1) := by
  refine ⟨fun clean => ?_, rfl⟩
  obtain ⟨sender, ⟨bind, member, active, -⟩, -⟩ := clean.fresh 0 0 rfl
  have inactive : ((notifLog unboundUnread).2 0).binds.all fun bind => !bind.active := rfl
  have inactive := List.all_eq_true.mp inactive bind member
  rw [active] at inactive
  cases inactive

end Hypervisor
