import Hypervisor.Model.VirtioDevice
import Hypervisor.Proofs.GuestMemory

/-! # The methods of a virtqueue

Taking a chain divides by the size of the queue and adds to the address of the available ring, and
returning one does the same with the used ring. Nothing else in the two methods can panic, whatever
guest memory holds. What they read and what they write are ranges of guest memory that the setup of
the queue fixes.
-/

namespace Hypervisor

section Checked

variable {α β : Type}

theorem bind_eq_ok_iff {run : Except VirtioStop α} {next : α → Except VirtioStop β} {out : β} :
    (run >>= next) = .ok out ↔ ∃ mid, run = .ok mid ∧ next mid = .ok out := by
  cases run with
  | error stop => exact ⟨nofun, fun ⟨_, run, _⟩ => nomatch run⟩
  | ok mid => exact ⟨fun run => ⟨mid, rfl, run⟩, by rintro ⟨_, ⟨⟩, run⟩; exact run⟩

/-- With a continuation that always returns, the first part decides. -/
theorem exists_bind_ok_iff {run : Except VirtioStop α} {next : α → Except VirtioStop β}
    (returns : ∀ mid, ∃ out, next mid = .ok out) : (∃ out, (run >>= next) = .ok out) ↔ ∃ mid, run = .ok mid := by
  constructor
  · rintro ⟨out, whole⟩
    obtain ⟨mid, first, -⟩ := bind_eq_ok_iff.mp whole
    exact ⟨mid, first⟩
  · rintro ⟨mid, first⟩
    obtain ⟨out, rest⟩ := returns mid
    exact ⟨out, bind_eq_ok_iff.mpr ⟨mid, first, rest⟩⟩

theorem orStop_bind_eq_ok_iff {stop : VirtioStop} {o : Option α} {next : α → Except VirtioStop β} {out : β} :
    (orStop stop o >>= next) = .ok out ↔ ∃ mid, o = some mid ∧ next mid = .ok out := by
  simp only [bind_eq_ok_iff, orStop_eq_ok_iff]

theorem exists_checkedRem_iff {m n : U16} : (∃ rem, checkedRem m n = some rem) ↔ n ≠ 0 := by
  rw [checkedRem]
  split_ifs with zero
  · exact iff_of_false nofun (not_not.mpr zero)
  · exact iff_of_true ⟨_, rfl⟩ zero

end Checked

namespace Virtqueue

variable {q q' : Virtqueue} {ram : GuestRam} {chain : DescChain}

/-- The available ring can be indexed. -/
structure CanTake (q : Virtqueue) : Prop where
  num_ne : q.num ≠ 0
  ring : q.availAddr.toNat + 4 < 2 ^ 64

/-- A chain can be returned in the used ring, or there is no used ring. -/
def CanComplete (q : Virtqueue) : Prop := q.usedAddr = 0 ∨ q.num ≠ 0 ∧ q.usedAddr.toNat + 4 < 2 ^ 64

/-- The queue that is left when one entry has been taken. -/
def taken (q : Virtqueue) : Virtqueue := { q with lastAvailIdx := q.lastAvailIdx + 1 }

theorem getAvailDesc_of_canTake (can : q.CanTake) (ram : GuestRam) : ∃ out, q.getAvailDesc ram = .ok out := by
  obtain ⟨base, sum⟩ := (exists_checkedAdd_iff (y := 4)).mpr can.ring
  obtain ⟨idx, rem⟩ := (exists_checkedRem_iff (m := q.lastAvailIdx)).mpr can.num_ne
  rw [getAvailDesc, sum, rem]
  split_ifs
  · exact ⟨_, rfl⟩
  · exact ⟨_, rfl⟩

theorem hasAvail_of_not_ready (closed : q.ready = false) (ram : GuestRam) : q.hasAvail ram = false := by
  rw [hasAvail, closed]
  rfl

theorem getAvailDesc_of_not_ready (closed : q.ready = false) : q.getAvailDesc ram = .ok none := by
  rw [getAvailDesc, hasAvail_of_not_ready closed]
  rfl

theorem exists_putUsed_iff (head : U16) (len : U32) :
    (∃ ram', q.putUsed ram head len = .ok ram') ↔ q.CanComplete := by
  rw [putUsed]
  split_ifs with none
  · exact iff_of_true ⟨ram, rfl⟩ (.inl none)
  · refine ⟨fun ⟨ram', run⟩ => ?_, fun can => ?_⟩
    · obtain ⟨idx, rem, run⟩ := orStop_bind_eq_ok_iff.mp run
      obtain ⟨base, sum, -⟩ := orStop_bind_eq_ok_iff.mp run
      exact .inr ⟨exists_checkedRem_iff.mp ⟨idx, rem⟩, exists_checkedAdd_iff.mp ⟨base, sum⟩⟩
    · obtain ⟨num, ring⟩ := can.resolve_left none
      obtain ⟨base, sum⟩ := (exists_checkedAdd_iff (y := 4)).mpr ring
      obtain ⟨idx, rem⟩ := (exists_checkedRem_iff (m := readU16 ram (q.usedAddr.toNat + 2))).mpr num
      dsimp only
      rw [sum, rem]
      exact ⟨_, rfl⟩

/-! ## Taking a chain -/

/-- The index up to which the guest has published entries. -/
def availIdx (q : Virtqueue) (ram : GuestRam) : U16 := readU16 ram (q.availAddr.toNat + 2)

/-- How many entries the guest has published that are not taken yet. -/
def published (q : Virtqueue) (ram : GuestRam) : ℕ := (q.availIdx ram - q.lastAvailIdx).toNat

/-- The chain of this head. -/
def chainOf (q : Virtqueue) (ram : GuestRam) (head : U16) : DescChain :=
  ⟨head, q.walkChain ram 4 head, q.length_walkChain_le ram 4 head⟩

/-- The chain that the next entry of the available ring names. -/
def nextChain (q : Virtqueue) (ram : GuestRam) : DescChain :=
  q.chainOf ram (readU16 ram (q.availAddr.toNat + 4 + 2 * (q.lastAvailIdx.toNat % q.num.toNat)))

/-- The bytes from which the queue reads its chains: index and entries of the available ring, and the
descriptor table. -/
def inputBytes (q : Virtqueue) : Set ℕ :=
  bytesAt (q.availAddr.toNat + 2) (2 + 2 * q.num.toNat) ∪ bytesAt q.descAddr.toNat (16 * q.num.toNat)

theorem getAvailDesc_of_not_hasAvail (empty : q.hasAvail ram = false) : q.getAvailDesc ram = .ok none := by
  rw [getAvailDesc, empty]
  rfl

theorem getAvailDesc_of_hasAvail (can : q.CanTake) (avail : q.hasAvail ram = true) :
    q.getAvailDesc ram = .ok (some (q.nextChain ram, q.taken)) := by
  obtain ⟨base, sum⟩ := (exists_checkedAdd_iff (y := 4)).mpr can.ring
  have ring : base.toNat = q.availAddr.toNat + 4 := checkedAdd_eq_some_iff.mp sum
  rw [getAvailDesc, avail, sum, checkedRem, if_neg can.num_ne, nextChain, ← ring, ← BitVec.toNat_umod]
  rfl

theorem canTake_of_getAvailDesc (avail : q.hasAvail ram = true) {out : Option (DescChain × Virtqueue)}
    (run : q.getAvailDesc ram = .ok out) : q.CanTake := by
  rw [getAvailDesc, avail] at run
  obtain ⟨base, sum, run⟩ := orStop_bind_eq_ok_iff.mp run
  obtain ⟨idx, rem, -⟩ := orStop_bind_eq_ok_iff.mp run
  exact ⟨exists_checkedRem_iff.mp ⟨idx, rem⟩, exists_checkedAdd_iff.mp ⟨base, sum⟩⟩

theorem getAvailDesc_eq_none_iff : q.getAvailDesc ram = .ok none ↔ q.hasAvail ram = false := by
  refine ⟨fun run => ?_, getAvailDesc_of_not_hasAvail⟩
  by_contra avail
  rw [Bool.not_eq_false] at avail
  rw [getAvailDesc_of_hasAvail (canTake_of_getAvailDesc avail run) avail] at run
  cases run

theorem getAvailDesc_eq_some_iff : q.getAvailDesc ram = .ok (some (chain, q')) ↔
    q.hasAvail ram = true ∧ q.CanTake ∧ chain = q.nextChain ram ∧ q' = q.taken := by
  constructor
  · intro run
    cases avail : q.hasAvail ram with
    | false =>
      rw [getAvailDesc_of_not_hasAvail avail] at run
      cases run
    | true =>
      have can := canTake_of_getAvailDesc avail run
      rw [getAvailDesc_of_hasAvail can avail] at run
      cases run
      exact ⟨rfl, can, rfl, rfl⟩
  · rintro ⟨avail, can, rfl, rfl⟩
    exact getAvailDesc_of_hasAvail can avail

theorem getAvailDesc_some (run : q.getAvailDesc ram = .ok (some (chain, q'))) : q' = q.taken :=
  (getAvailDesc_eq_some_iff.mp run).2.2.2

theorem published_eq_zero_iff : q.published ram = 0 ↔ q.availIdx ram = q.lastAvailIdx := by
  rw [published, ← BitVec.toNat_inj, BitVec.toNat_sub]
  omega

/-- A ready queue with an available ring has entries to take if the guest has published some. -/
theorem hasAvail_iff : q.hasAvail ram = true ↔ q.ready = true ∧ q.availAddr ≠ 0 ∧ q.published ram ≠ 0 := by
  rw [ne_eq (q.published ram), published_eq_zero_iff, hasAvail, availIdx]
  cases q.ready <;> simp

/-- The descriptors `descs` are linked in guest memory, from index `idx` to one without a successor. -/
def Links (q : Virtqueue) (ram : GuestRam) : U16 → List VirtqDesc → Prop
  | _, [] => False
  | idx, desc :: rest =>
      idx < q.num ∧ readVirtqDesc ram q.descAddr.toNat idx = desc ∧
        match rest with
        | [] => desc.flags &&& virtqDescFNext = 0
        | _ :: _ => desc.flags &&& virtqDescFNext ≠ 0 ∧ Links q ram desc.next rest

/-- The walk sees the first descriptors of a chain, as many as it has room for. -/
theorem walkChain_of_links {idx : U16} {descs : List VirtqDesc} (links : q.Links ram idx descs) (n : ℕ) :
    q.walkChain ram n idx = descs.take n := by
  induction n generalizing idx descs with
  | zero => rfl
  | succ n ih =>
    match descs with
    | [] => exact links.elim
    | [desc] =>
      obtain ⟨inside, read, last⟩ := links
      rw [walkChain, if_neg (BitVec.not_le.mpr inside), read, List.take_succ_cons, List.take_nil]
      exact if_pos last
    | desc :: next :: rest =>
      obtain ⟨inside, read, more, links⟩ := links
      rw [walkChain, if_neg (BitVec.not_le.mpr inside), read]
      dsimp only
      rw [if_neg more, ih links, List.take_succ_cons]

theorem walkChain_congr {ram' : GuestRam} (same : Set.EqOn ram' ram (bytesAt q.descAddr.toNat (16 * q.num.toNat)))
    (n : ℕ) (idx : U16) : q.walkChain ram' n idx = q.walkChain ram n idx := by
  induction n generalizing idx with
  | zero => rfl
  | succ n ih =>
    rw [walkChain, walkChain]
    split_ifs with past
    · rfl
    · have inside : idx.toNat < q.num.toNat := BitVec.lt_def.mp (BitVec.not_le.mp past)
      rw [readVirtqDesc_congr (same.mono (bytesAt_subset (by omega) (by omega)))]
      dsimp only
      rw [ih]

theorem nextChain_congr {ram' : GuestRam} (num : q.num ≠ 0) (same : Set.EqOn ram' ram q.inputBytes) :
    q.nextChain ram' = q.nextChain ram := by
  have slot : q.lastAvailIdx.toNat % q.num.toNat < q.num.toNat :=
    Nat.mod_lt _ (Nat.pos_of_ne_zero fun zero => num (BitVec.eq_of_toNat_eq zero))
  have head := readU16_congr ((same.mono Set.subset_union_left).mono
    (@bytesAt_subset (q.availAddr.toNat + 4 + 2 * (q.lastAvailIdx.toNat % q.num.toNat)) 2 _ _ (by omega) (by omega)))
  rw [nextChain, nextChain, head, chainOf, chainOf, DescChain.mk.injEq]
  exact ⟨rfl, walkChain_congr (same.mono Set.subset_union_right) 4 _⟩

/-! ## Returning a chain -/

/-- The index of the used ring. -/
def usedIdx (q : Virtqueue) (ram : GuestRam) : U16 := readU16 ram (q.usedAddr.toNat + 2)

/-- The address of the entry of the used ring for an index. -/
def usedEntry (q : Virtqueue) (idx : U16) : ℕ := q.usedAddr.toNat + 4 + 8 * (idx.toNat % q.num.toNat)

/-- The bytes of the used ring that the device writes. -/
def usedBytes (q : Virtqueue) : Set ℕ := {a | q.usedAddr ≠ 0 ∧ a ∈ bytesAt (q.usedAddr.toNat + 2) (2 + 8 * q.num.toNat)}

/-- The chain with this head has been added to the used ring, and nothing else has happened. -/
structure Placed (q : Virtqueue) (head : U16) (ram ram' : GuestRam) : Prop where
  idx : q.usedIdx ram' = q.usedIdx ram + 1
  entry : readU32 ram' (q.usedEntry (q.usedIdx ram)) = head.setWidth 32
  rest : Set.EqOn ram' ram (bytesAt (q.usedEntry (q.usedIdx ram)) 8 ∪ bytesAt (q.usedAddr.toNat + 2) 2)ᶜ

section PutUsed

variable {ram' : GuestRam} {head : U16} {len : U32}

/-- What `put_used` leaves of guest memory if there is a used ring. -/
theorem putUsed_eq_ok (present : q.usedAddr ≠ 0) (run : q.putUsed ram head len = .ok ram') :
    ram' = writeU16 (writeU32 (writeU32 ram (q.usedEntry (q.usedIdx ram)) (head.setWidth 32))
      (q.usedEntry (q.usedIdx ram) + 4) len) (q.usedAddr.toNat + 2) (q.usedIdx ram + 1) := by
  rw [putUsed, if_neg present] at run
  obtain ⟨idx, rem, run⟩ := orStop_bind_eq_ok_iff.mp run
  obtain ⟨base, sum, run⟩ := orStop_bind_eq_ok_iff.mp run
  have ring : base.toNat = q.usedAddr.toNat + 4 := checkedAdd_eq_some_iff.mp sum
  rw [checkedRem] at rem
  split_ifs at rem with num
  obtain rfl := Option.some.inj rem
  rw [usedEntry, usedIdx, ← ring, ← BitVec.toNat_umod]
  exact (Except.ok.inj run).symm

theorem putUsed_placed (present : q.usedAddr ≠ 0) (run : q.putUsed ram head len = .ok ram') :
    q.Placed head ram ram' := by
  obtain rfl := putUsed_eq_ok present run
  have behind : q.usedAddr.toNat + 4 ≤ q.usedEntry (q.usedIdx ram) := by
    rw [usedEntry]
    omega
  refine ⟨readU16_writeU16 _ _ _, ?_, ?_⟩
  · -- length and index are written behind and before the head
    refine (readU32_congr (((eqOn_writeU16 _ _ _).mono ?_).trans ((eqOn_writeU32 _ _ _).mono ?_))).trans
      (readU32_writeU32 _ _ _)
    all_goals
      intro a inside
      rw [Set.mem_compl_iff, mem_bytesAt]
      rw [mem_bytesAt] at inside
      omega
  · refine ((eqOn_writeU16 _ _ _).mono ?_).trans (((eqOn_writeU32 _ _ _).mono ?_).trans ((eqOn_writeU32 _ _ _).mono ?_))
    all_goals
      refine Set.compl_subset_compl.mpr fun a inside => ?_
      rw [Set.mem_union, mem_bytesAt, mem_bytesAt]
      rw [mem_bytesAt] at inside
      omega

theorem putUsed_length (present : q.usedAddr ≠ 0) (run : q.putUsed ram head len = .ok ram') :
    readU32 ram' (q.usedEntry (q.usedIdx ram) + 4) = len := by
  obtain rfl := putUsed_eq_ok present run
  have behind : q.usedAddr.toNat + 4 ≤ q.usedEntry (q.usedIdx ram) := by
    rw [usedEntry]
    omega
  exact (readU32_congr (eqOn_of_apart (eqOn_writeU16 _ _ _) (by omega))).trans (readU32_writeU32 _ _ _)

theorem putUsed_eqOn (run : q.putUsed ram head len = .ok ram') : Set.EqOn ram' ram q.usedBytesᶜ := by
  by_cases none : q.usedAddr = 0
  · rw [putUsed, if_pos none] at run
    obtain rfl := Except.ok.inj run
    exact Set.eqOn_refl _ _
  · refine (putUsed_placed none run).rest.mono (Set.compl_subset_compl.mpr fun a inside => ⟨none, ?_⟩)
    have num := (((exists_putUsed_iff head len).mp ⟨ram', run⟩).resolve_left none).1
    have slot : (q.usedIdx ram).toNat % q.num.toNat < q.num.toNat :=
      Nat.mod_lt _ (Nat.pos_of_ne_zero fun zero => num (BitVec.eq_of_toNat_eq zero))
    rw [Set.mem_union, mem_bytesAt, mem_bytesAt, usedEntry] at inside
    rw [mem_bytesAt]
    omega

end PutUsed

end Virtqueue

/-! ## Panics of the queue

A device can panic for reasons of its own; what follows is about panics inside the virtqueue. -/

/-- No method of the virtqueue has panicked. -/
def QueueSafe {α : Type} (run : Except VirtioStop α) : Prop := run ≠ .error .queuePanic

section QueueSafe

variable {α β : Type} {run : Except VirtioStop α} {next : α → Except VirtioStop β}

theorem queueSafe_ok (a : α) : QueueSafe (.ok a) := nofun

theorem queueSafe_orStop (o : Option α) : QueueSafe (orStop .devicePanic o) := by
  cases o <;> nofun

theorem QueueSafe.of_exists (returns : ∃ a, run = .ok a) : QueueSafe run := by
  obtain ⟨a, rfl⟩ := returns
  exact queueSafe_ok a

theorem QueueSafe.bind (first : QueueSafe run) (later : ∀ a, run = .ok a → QueueSafe (next a)) :
    QueueSafe (run >>= next) := by
  cases run with
  | error stop => exact fun panic => first (congrArg Except.error (Except.error.inj panic))
  | ok a => exact later a rfl

end QueueSafe

section Drain

variable {handle : Virtqueue → DescChain → VirtioEnv → Except VirtioStop VirtioEnv} {fuel : ℕ} {q q' : Virtqueue}
  {env env' : VirtioEnv}

theorem drain_queueSafe (safe : ∀ q chain env, q.CanComplete → QueueSafe (handle q chain env))
    (take : q.CanTake) (complete : q.CanComplete) : QueueSafe (q.drain handle fuel env) := by
  induction fuel generalizing q env with
  | zero => nofun
  | succ fuel ih =>
    refine QueueSafe.bind (.of_exists (q.getAvailDesc_of_canTake take env.ram)) fun out found => ?_
    match out with
    | none => exact queueSafe_ok _
    | some (chain, rest) =>
      obtain rfl := Virtqueue.getAvailDesc_some found
      exact QueueSafe.bind (safe _ chain env complete) fun env' _ => ih ⟨take.num_ne, take.ring⟩ complete

/-- `n` rounds of the loop, in each of which a chain is taken and handled. -/
inductive Rounds (handle : Virtqueue → DescChain → VirtioEnv → Except VirtioStop VirtioEnv) :
    ℕ → Virtqueue → VirtioEnv → Virtqueue → VirtioEnv → Prop
  | start (q : Virtqueue) (env : VirtioEnv) : Rounds handle 0 q env q env
  | next {n : ℕ} {q q₁ q' : Virtqueue} {env env₁ env' : VirtioEnv} {chain : DescChain} :
      q.getAvailDesc env.ram = .ok (some (chain, q₁)) → handle q₁ chain env = .ok env₁ →
      Rounds handle n q₁ env₁ q' env' → Rounds handle (n + 1) q env q' env'

theorem add_ofNat_succ (idx : U16) (n : ℕ) : idx + BitVec.ofNat 16 n + 1 = idx + BitVec.ofNat 16 (n + 1) := by
  rw [BitVec.ofNat_add, ← BitVec.add_assoc]
  rfl

/-- A round only moves the index up to which entries have been taken. -/
theorem Rounds.setup {n : ℕ} (rounds : Rounds handle n q env q' env') :
    q' = { q with lastAvailIdx := q.lastAvailIdx + BitVec.ofNat 16 n } := by
  induction rounds with
  | start q env => rw [BitVec.add_zero]
  | @next n q q₁ q' env env₁ env' chain found handled rounds ih =>
    obtain rfl := Virtqueue.getAvailDesc_some found
    rw [ih, Virtqueue.taken]
    dsimp only
    rw [BitVec.add_assoc, BitVec.add_comm 1, ← BitVec.add_assoc, add_ofNat_succ]

/-- The loop returns after some rounds, when no entry is left to take, and the fuel is more than the
number of chains that it has taken. -/
theorem drain_eq_ok_iff : q.drain handle fuel env = .ok (q', env') ↔
    ∃ n < fuel, Rounds handle n q env q' env' ∧ q'.getAvailDesc env'.ram = .ok none := by
  induction fuel generalizing q env with
  | zero => exact ⟨by rintro ⟨⟩, by rintro ⟨n, ⟨⟩, -⟩⟩
  | succ fuel ih =>
    constructor
    · intro run
      obtain ⟨out, found, run⟩ := bind_eq_ok_iff.mp run
      cases out with
      | none =>
        cases run
        exact ⟨0, Nat.succ_pos fuel, .start _ _, found⟩
      | some taken =>
        obtain ⟨chain, q₁⟩ := taken
        obtain ⟨env₁, handled, run⟩ := bind_eq_ok_iff.mp run
        obtain ⟨n, enough, rounds, empty⟩ := ih.mp run
        exact ⟨n + 1, Nat.succ_lt_succ enough, .next found handled rounds, empty⟩
    · rintro ⟨n, enough, rounds, empty⟩
      cases rounds with
      | start => exact bind_eq_ok_iff.mpr ⟨none, empty, rfl⟩
      | @next n _ q₁ _ _ env₁ _ chain found handled rounds =>
        have rest := ih.mpr ⟨n, Nat.lt_of_succ_lt_succ enough, rounds, empty⟩
        exact bind_eq_ok_iff.mpr ⟨some (chain, q₁), found, bind_eq_ok_iff.mpr ⟨env₁, handled, rest⟩⟩

/-- The loop only moves the index up to which entries have been taken. -/
theorem drain_setup (run : q.drain handle fuel env = .ok (q', env')) : ∃ idx, q' = { q with lastAvailIdx := idx } := by
  obtain ⟨n, -, rounds, -⟩ := drain_eq_ok_iff.mp run
  exact ⟨_, rounds.setup⟩

theorem Virtqueue.published_taken {ram ram' : GuestRam} (some : q.published ram ≠ 0)
    (same : q.availIdx ram' = q.availIdx ram) : q.taken.published ram' + 1 = q.published ram := by
  have taken : q.taken.published ram' = (q.availIdx ram - (q.lastAvailIdx + 1)).toNat := by
    rw [← same]
    rfl
  rw [published, BitVec.toNat_sub] at some
  rw [taken, published, BitVec.toNat_sub, BitVec.toNat_sub, BitVec.toNat_add]
  have one : (1 : U16).toNat = 1 := rfl
  rw [one]
  omega

/-- If every round handles its chain and leaves the index of the available ring alone, then the loop
takes the chains that are published when it starts, and returns. -/
theorem exists_drain {keeps : Virtqueue → VirtioEnv → Prop}
    (round : ∀ q env, keeps q env → q.hasAvail env.ram = true → q.CanTake ∧
      ∃ env', handle q.taken (q.nextChain env.ram) env = .ok env' ∧ keeps q.taken env' ∧
        q.availIdx env'.ram = q.availIdx env.ram)
    (start : keeps q env) : ∃ out, q.drain handle (q.published env.ram + 1) env = .ok out := by
  induction left : q.published env.ram generalizing q env with
  | zero =>
    have empty : q.hasAvail env.ram = false := by
      rw [← Bool.not_eq_true, Virtqueue.hasAvail_iff]
      exact fun avail => avail.2.2 left
    exact ⟨_, drain_eq_ok_iff.mpr ⟨0, Nat.succ_pos _, .start q env, Virtqueue.getAvailDesc_of_not_hasAvail empty⟩⟩
  | succ n ih =>
    cases avail : q.hasAvail env.ram with
    | false =>
      exact ⟨_, drain_eq_ok_iff.mpr ⟨0, Nat.succ_pos _, .start q env, Virtqueue.getAvailDesc_of_not_hasAvail avail⟩⟩
    | true =>
      obtain ⟨can, env₁, handled, kept, same⟩ := round q env start avail
      have fewer := Virtqueue.published_taken (by omega) same
      obtain ⟨out, run⟩ := ih kept (by omega)
      refine ⟨out, ?_⟩
      have found := Virtqueue.getAvailDesc_of_hasAvail can avail
      exact bind_eq_ok_iff.mpr ⟨_, found, bind_eq_ok_iff.mpr ⟨env₁, handled, run⟩⟩

end Drain

end Hypervisor
