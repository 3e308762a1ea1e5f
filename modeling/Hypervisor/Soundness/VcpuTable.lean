import Hypervisor.Proofs.Turns
import Hypervisor.ToMathlib.Prefix
import Mathlib.Data.Finset.Card

/-! # The table of vCPUs

`vcpu_count` counts the vCPUs, is the slot that `add_vcpu` fills next, and bounds the ids that `vcpu` and `vcpu_mut`
look up. The three agree as long as the slots are filled in order. `create_vcpu` and `CPU_ON` take any free slot.
-/

namespace Hypervisor

namespace GuestVm

variable {vm vm' : GuestVm} {e : El2} {slot : VcpuId} {n : ℕ}

/-! ## Slots -/

/-- What is in the slot with a number, if there is one. -/
def slotAt (vm : GuestVm) (n : ℕ) : Option GuestVcpu := if bound : n < maxVcpus then vm.vcpus ⟨n, bound⟩ else none

@[simp] theorem slotAt_coe (vm : GuestVm) (slot : VcpuId) : vm.slotAt slot = vm.vcpus slot := dif_pos slot.isLt

theorem slotAt_isSome_iff : (vm.slotAt n).isSome ↔ ∃ slot : VcpuId, slot.val = n ∧ (vm.vcpus slot).isSome := by
  constructor
  · intro there
    rcases Nat.lt_or_ge n maxVcpus with bound | large
    · exact ⟨⟨n, bound⟩, rfl, by rwa [slotAt, dif_pos bound] at there⟩
    · rw [slotAt, dif_neg (Nat.not_lt.mpr large)] at there
      cases there
  · rintro ⟨slot, rfl, there⟩
    rwa [slotAt_coe]

theorem slotAt_new (id : VmId) (n : ℕ) : ¬((new id).slotAt n).isSome := by
  rw [slotAt_isSome_iff]
  rintro ⟨slot, -, there⟩
  cases there

theorem Placed.slotAt_isSome_iff (placed : vm.Placed slot vm') :
    (vm'.slotAt n).isSome ↔ n = slot ∨ (vm.slotAt n).isSome := by
  obtain ⟨vcpu, -, vcpus⟩ := placed.vcpus
  rw [GuestVm.slotAt_isSome_iff, GuestVm.slotAt_isSome_iff, vcpus]
  constructor
  · rintro ⟨other, rfl, there⟩
    by_cases same : other = slot
    · exact .inl (congrArg Fin.val same)
    · exact .inr ⟨other, rfl, by rwa [Function.update_of_ne same] at there⟩
  · rintro (rfl | ⟨other, rfl, there⟩)
    · exact ⟨slot, rfl, by rw [Function.update_self]; rfl⟩
    · refine ⟨other, rfl, ?_⟩
      rw [Function.update_apply]
      split_ifs
      · rfl
      · exact there

/-- The slots that have a vCPU. -/
def occupied (vm : GuestVm) : Finset VcpuId := Finset.univ.filter fun slot => (vm.vcpus slot).isSome

theorem mem_occupied : slot ∈ vm.occupied ↔ (vm.vcpus slot).isSome := by simp [occupied]

/-- The slots are filled in order. -/
def Compact (vm : GuestVm) : Prop := ∀ n, (vm.slotAt n).isSome ↔ n < vm.vcpuCount

theorem Compact.image_occupied (compact : vm.Compact) : vm.occupied.image Fin.val = Finset.range vm.vcpuCount := by
  ext n
  rw [Finset.mem_range, ← compact n, slotAt_isSome_iff, Finset.mem_image]
  simp only [mem_occupied, and_comm]

theorem card_image_occupied (vm : GuestVm) : (vm.occupied.image Fin.val).card = vm.occupied.card :=
  Finset.card_image_of_injective _ Fin.val_injective

/-- A vCPU in a free slot keeps the order exactly if the slot is the next one. -/
theorem Compact.placed_iff (compact : vm.Compact) (placed : vm.Placed slot vm') (free : slot.val ≥ vm.vcpuCount) :
    vm'.Compact ↔ slot.val = vm.vcpuCount := by
  have occupied (n : ℕ) : (vm'.slotAt n).isSome ↔ n = slot ∨ n < vm.vcpuCount := by
    rw [placed.slotAt_isSome_iff, compact n]
  simp only [Compact, occupied, placed.vcpuCount]
  constructor
  · intro all
    have next := (all vm.vcpuCount).mpr (Nat.lt_succ_self _)
    omega
  · intro same n
    omega

/-! ## Looking up -/

theorem vcpu_of_lt (small : n < vm.vcpuCount) (there : (vm.slotAt n).isSome) : vm.vcpu n = some (vm.slotAt n) := by
  obtain ⟨slot, rfl, -⟩ := slotAt_isSome_iff.mp there
  rw [vcpu, if_pos small, dif_pos slot.isLt, slotAt_coe]

theorem vcpu_of_le (large : vm.vcpuCount ≤ n) : vm.vcpu n = some none := by
  rw [vcpu, if_neg (Nat.not_lt.mpr large)]

/-! ## Booting -/

/-- The slot in which a pending `CPU_ON` boots a vCPU. -/
def bootTarget (vm : GuestVm) (e : El2) : Option VcpuId :=
  let request := (e.vmState vm.id).pendingCpuOn
  let vcpuId := (request.targetCpu &&& 0xFF).toNat
  if bound : vcpuId < maxVcpus then
    if request.requested && (vm.vcpus ⟨vcpuId, bound⟩).isNone then some ⟨vcpuId, bound⟩ else none
  else none

theorem bootTarget_eq_some_iff : vm.bootTarget e = some slot ↔
    (e.vmState vm.id).pendingCpuOn.requested = true ∧ vm.Names e slot ∧ vm.vcpus slot = none := by
  rw [bootTarget, Names]
  constructor
  · intro target
    split_ifs at target with bound boots
    obtain rfl := Option.some.inj target
    rw [Bool.and_eq_true, Option.isNone_iff_eq_none] at boots
    exact ⟨boots.1, rfl, boots.2⟩
  · rintro ⟨requested, names, free⟩
    have bound : ((e.vmState vm.id).pendingCpuOn.targetCpu &&& 0xFF).toNat < maxVcpus := names ▸ slot.isLt
    obtain rfl : ⟨_, bound⟩ = slot := Fin.ext names
    simp only [dif_pos bound, requested, free, Option.isNone_none, Bool.and_self, if_true]

theorem takeCpuOn_of_bootTarget_none (none : vm.bootTarget e = none) : (vm.takeCpuOn e).1 = vm := by
  have took := took_takeCpuOn vm e
  generalize (vm.takeCpuOn e).1 = vm', (vm.takeCpuOn e).2 = e' at took
  cases took with
  | nothing => rfl
  | dropped => rfl
  | booted t names free requested =>
    cases none.symm.trans (bootTarget_eq_some_iff.mpr ⟨requested, names, free⟩)

theorem placed_takeCpuOn (target : vm.bootTarget e = some slot) : vm.Placed slot (vm.takeCpuOn e).1 := by
  obtain ⟨requested, names, free⟩ := bootTarget_eq_some_iff.mp target
  have took := took_takeCpuOn vm e
  generalize (vm.takeCpuOn e).1 = vm', (vm.takeCpuOn e).2 = e' at took
  cases took with
  | nothing idle => cases requested.symm.trans idle
  | dropped occupied => exact absurd free (occupied slot names)
  | booted t names' =>
    obtain rfl : t = slot := Fin.ext (names'.symm.trans names)
    exact ⟨rfl, ⟨_, rfl, rfl⟩, rfl⟩

end GuestVm

/-! ## Calls -/

inductive TableCall
  | createVcpu (mpidrEl1 : U64) (vcpuId : ℕ)
  | addVcpu (mpidrEl1 entryPoint stackPointer : U64)
  /-- An iteration takes the pending `CPU_ON`, if any. -/
  | cpuOn (e : El2)

structure TableUse where
  vm : GuestVm
  /-- Ghost: the ids of the vCPUs that were created. -/
  created : List ℕ

namespace TableUse

variable {use : TableUse} {call : TableCall} {slot : VcpuId}

def new (id : VmId) : TableUse := ⟨.new id, []⟩

def step (use : TableUse) : TableCall → TableUse
  | .createVcpu mpidrEl1 vcpuId =>
      match use.vm.createVcpu mpidrEl1 vcpuId with
      | .ok vm => ⟨vm, use.created ++ [vcpuId]⟩
      | .error _ => use
  | .addVcpu mpidrEl1 entryPoint stackPointer =>
      match use.vm.addVcpu mpidrEl1 entryPoint stackPointer with
      | .ok added => ⟨added.2, use.created ++ [added.1.val]⟩
      | .error _ => use
  | .cpuOn e => ⟨(use.vm.takeCpuOn e).1, use.created ++ (use.vm.bootTarget e).toList.map Fin.val⟩

def run (use : TableUse) (calls : List TableCall) : TableUse := calls.foldl step use

theorem run_concat (use : TableUse) (calls : List TableCall) (call : TableCall) :
    use.run (calls ++ [call]) = (use.run calls).step call := List.foldl_concat ..

/-- A call that takes a free slot takes the next one. -/
def InOrder (use : TableUse) : TableCall → Prop
  | .createVcpu _ vcpuId => ∀ slot : VcpuId, slot.val = vcpuId → use.vm.vcpus slot = none → vcpuId = use.vm.vcpuCount
  | .addVcpu _ _ _ => True
  | .cpuOn e => ∀ slot : VcpuId, (e.vmState use.vm.id).pendingCpuOn.requested = true → use.vm.Names e slot →
      use.vm.vcpus slot = none → slot.val = use.vm.vcpuCount

/-- A call that puts a vCPU into a slot. -/
structure Fills (use : TableUse) (call : TableCall) (slot : VcpuId) : Prop where
  placed : use.vm.Placed slot (use.step call).vm
  created : (use.step call).created = use.created ++ [slot.val]
  free : slot.val = use.vm.vcpuCount ∨ use.vm.vcpus slot = none
  inOrder_iff : use.InOrder call ↔ slot.val = use.vm.vcpuCount

/-- All that a call can do to the table. -/
theorem step_cases (use : TableUse) (call : TableCall) :
    use.step call = use ∧ use.InOrder call ∨ ∃ slot, use.Fills call slot := by
  cases call with
  | createVcpu mpidrEl1 vcpuId =>
    cases out : use.vm.createVcpu mpidrEl1 vcpuId with
    | error message =>
      refine .inl ⟨by rw [step, out], ?_⟩
      rintro slot rfl free
      rw [GuestVm.createVcpu, dif_pos slot.isLt, free] at out
      cases out
    | ok vm =>
      obtain ⟨slot, rfl, free, placed, -⟩ := GuestVm.createVcpu_eq_ok out
      have after : use.step (.createVcpu mpidrEl1 slot) = ⟨vm, use.created ++ [slot.val]⟩ := by rw [step, out]
      refine .inr ⟨slot, after ▸ placed, congrArg created after, .inr free, fun inOrder => inOrder slot rfl free, ?_⟩
      exact fun next _ _ _ => next
  | addVcpu mpidrEl1 entryPoint stackPointer =>
    cases out : use.vm.addVcpu mpidrEl1 entryPoint stackPointer with
    | error message => exact .inl ⟨by rw [step, out], True.intro⟩
    | ok added =>
      obtain ⟨slot, vm⟩ := added
      obtain ⟨next, placed, -⟩ := GuestVm.addVcpu_eq_ok out
      have after : use.step (.addVcpu mpidrEl1 entryPoint stackPointer) = ⟨vm, use.created ++ [slot.val]⟩ := by
        rw [step, out]
      exact .inr ⟨slot, after ▸ placed, congrArg created after, .inl next, iff_of_true True.intro next⟩
  | cpuOn e =>
    cases target : use.vm.bootTarget e with
    | none =>
      refine .inl ⟨?_, fun slot requested names free => ?_⟩
      · rw [step, GuestVm.takeCpuOn_of_bootTarget_none target, target]
        simp
      · cases target.symm.trans (GuestVm.bootTarget_eq_some_iff.mpr ⟨requested, names, free⟩)
    | some slot =>
      obtain ⟨requested, names, free⟩ := GuestVm.bootTarget_eq_some_iff.mp target
      have created : (use.step (.cpuOn e)).created = use.created ++ [slot.val] := by
        rw [step, target]
        rfl
      refine .inr ⟨slot, GuestVm.placed_takeCpuOn target, created, .inr free, ?_, ?_⟩
      · exact fun inOrder => inOrder slot requested names free
      · intro next other _ names' _
        rwa [Fin.ext (names'.symm.trans names)]

/-! ## Runs -/

/-- What every sequence of calls keeps. -/
structure Recorded (use : TableUse) : Prop where
  created : ∀ n, n ∈ use.created ↔ (use.vm.slotAt n).isSome
  ids : ∀ slot vcpu, use.vm.vcpus slot = some vcpu → vcpu.id = slot

theorem recorded_new (id : VmId) : (new id).Recorded := by
  refine ⟨fun n => iff_of_false List.not_mem_nil (GuestVm.slotAt_new id n), fun slot vcpu there => ?_⟩
  cases there

theorem Recorded.fills (recorded : use.Recorded) (fills : use.Fills call slot) : (use.step call).Recorded := by
  constructor
  · intro n
    rw [fills.created, fills.placed.slotAt_isSome_iff, List.mem_append, List.mem_singleton, recorded.created n]
    exact or_comm
  · intro other vcpu there
    obtain ⟨placed, own, vcpus⟩ := fills.placed.vcpus
    rw [vcpus, Function.update_apply] at there
    split_ifs at there with same
    · cases there
      rw [own, same]
    · exact recorded.ids other vcpu there

theorem Recorded.step (recorded : use.Recorded) (call : TableCall) : (use.step call).Recorded := by
  rcases use.step_cases call with ⟨same, -⟩ | ⟨slot, fills⟩
  · rwa [same]
  · exact recorded.fills fills

theorem recorded_run (id : VmId) (calls : List TableCall) : ((new id).run calls).Recorded := by
  induction calls using List.reverseRecOn with
  | nil => exact recorded_new id
  | append_singleton calls call ih =>
    rw [run_concat]
    exact ih.step call

theorem compact_step_iff (compact : use.vm.Compact) (call : TableCall) :
    (use.step call).vm.Compact ↔ use.InOrder call := by
  rcases use.step_cases call with ⟨same, inOrder⟩ | ⟨slot, fills⟩
  · rw [same]
    exact iff_of_true compact inOrder
  · rw [fills.inOrder_iff]
    refine compact.placed_iff fills.placed ?_
    rcases fills.free with next | free
    · exact next.ge
    · refine Nat.not_lt.mp fun small => ?_
      have there := (compact slot).mpr small
      rw [GuestVm.slotAt_coe, free] at there
      cases there

/-! ## Consistency -/

/-- A lookup finds exactly the vCPUs that were created, each under its own id. -/
def Finds (use : TableUse) (lookup : ℕ → Option (Option GuestVcpu)) : Prop :=
  ∀ vcpuId, ∃ found, lookup vcpuId = some found ∧ (found.isSome ↔ vcpuId ∈ use.created) ∧
    ∀ vcpu, found = some vcpu → vcpu.id.val = vcpuId

structure Consistent (use : TableUse) : Prop where
  vcpuCount : use.vm.vcpuCount = use.vm.occupied.card
  vcpu : use.Finds use.vm.vcpu
  vcpuMut : use.Finds use.vm.vcpuMut
  /-- `add_vcpu` replaces no vCPU. -/
  addVcpu : ∀ mpidrEl1 entryPoint stackPointer slot vm,
    use.vm.addVcpu mpidrEl1 entryPoint stackPointer = .ok (slot, vm) → use.vm.vcpus slot = none
  ids : ∀ slot vcpu, use.vm.vcpus slot = some vcpu → vcpu.id = slot

theorem Recorded.finds (recorded : use.Recorded) (compact : use.vm.Compact) : use.Finds use.vm.vcpu := by
  intro n
  rcases Nat.lt_or_ge n use.vm.vcpuCount with small | large
  · have there := (compact n).mpr small
    refine ⟨_, GuestVm.vcpu_of_lt small there, (recorded.created n).symm, fun vcpu same => ?_⟩
    obtain ⟨slot, rfl, -⟩ := GuestVm.slotAt_isSome_iff.mp there
    rw [GuestVm.slotAt_coe] at same
    rw [recorded.ids slot vcpu same]
  · refine ⟨none, GuestVm.vcpu_of_le large, iff_of_false Bool.false_ne_true ?_, fun vcpu none => by cases none⟩
    rw [recorded.created n, compact n]
    exact Nat.not_lt.mpr large

theorem Consistent.compact (recorded : use.Recorded) (consistent : use.Consistent) : use.vm.Compact := by
  have small (n : ℕ) (there : (use.vm.slotAt n).isSome) : n < use.vm.vcpuCount := by
    obtain ⟨found, lookup, created, -⟩ := consistent.vcpu n
    by_contra large
    rw [GuestVm.vcpu_of_le (Nat.not_lt.mp large)] at lookup
    cases lookup
    exact absurd (created.mpr ((recorded.created n).mpr there)) Bool.false_ne_true
  have subset : use.vm.occupied.image Fin.val ⊆ Finset.range use.vm.vcpuCount := by
    intro n member
    obtain ⟨slot, occupied, rfl⟩ := Finset.mem_image.mp member
    refine Finset.mem_range.mpr (small slot ?_)
    rwa [GuestVm.slotAt_coe, ← GuestVm.mem_occupied]
  -- they are as many as the numbers below the count, so these are all occupied
  have all : use.vm.occupied.image Fin.val = Finset.range use.vm.vcpuCount := by
    refine Finset.eq_of_subset_of_card_le subset ?_
    rw [Finset.card_range, GuestVm.card_image_occupied, consistent.vcpuCount]
  intro n
  refine ⟨small n, fun inside => GuestVm.slotAt_isSome_iff.mpr ?_⟩
  rw [← Finset.mem_range, ← all] at inside
  obtain ⟨slot, occupied, same⟩ := Finset.mem_image.mp inside
  exact ⟨slot, same, GuestVm.mem_occupied.mp occupied⟩

theorem Recorded.consistent_iff (recorded : use.Recorded) : use.Consistent ↔ use.vm.Compact := by
  refine ⟨fun consistent => consistent.compact recorded, fun compact => ?_⟩
  have finds := recorded.finds compact
  refine ⟨?_, finds, finds, ?_, recorded.ids⟩
  · rw [← GuestVm.card_image_occupied, compact.image_occupied, Finset.card_range]
  · intro mpidrEl1 entryPoint stackPointer slot vm added
    obtain ⟨next, -⟩ := GuestVm.addVcpu_eq_ok added
    have free := (compact slot).not.mpr (Nat.not_lt.mpr next.ge)
    rwa [GuestVm.slotAt_coe, Option.not_isSome_iff_eq_none] at free

end TableUse

open TableUse in
/-- Whatever vCPUs are created, added and booted: the table is consistent all along, exactly if every call that takes
a free slot takes the next one. -/
theorem vcpu_table_consistent_iff (id : VmId) (calls : List TableCall) :
    (∀ k ≤ calls.length, ((new id).run (calls.take k)).Consistent) ↔
      ∀ (k : ℕ) (call : TableCall), calls[k]? = some call → ((new id).run (calls.take k)).InOrder call := by
  refine List.forall_take_iff (P := fun past => ((new id).run past).Consistent)
    (C := fun past call => ((new id).run past).InOrder call) ?_ ?_ calls
  · rw [(recorded_run id []).consistent_iff]
    exact fun n => iff_of_false (GuestVm.slotAt_new id n) (Nat.not_lt_zero n)
  · intro past call consistent
    have recorded := recorded_run id past
    rw [run_concat, (recorded.step call).consistent_iff]
    exact compact_step_iff (recorded.consistent_iff.mp consistent) call

open TableUse in
/-- With vCPU 1 created first, `add_vcpu` replaces it; vCPU 3 is created and not found. -/
theorem vcpu_table_inconsistent :
    ((new 0).run [.createVcpu 0 1]).vm.vcpus 1 ≠ none ∧
      (((new 0).run [.createVcpu 0 1]).vm.addVcpu 0 0x40080000 0).map Prod.fst = .ok 1 ∧
      ((new 0).run [.createVcpu 0 1, .addVcpu 0 0x40080000 0]).vm.vcpuCount = 2 ∧
      ((new 0).run [.createVcpu 0 1, .addVcpu 0 0x40080000 0]).vm.occupied.card = 1 ∧
      ((new 0).run [.createVcpu 0 3]).created = [3] ∧
      (((new 0).run [.createVcpu 0 3]).vm.vcpu 3).map Option.isSome = some false := by
  refine ⟨Option.some_ne_none _, rfl, rfl, by decide, rfl, rfl⟩

end Hypervisor
