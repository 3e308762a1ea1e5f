import Hypervisor.Model.Tlb
import Hypervisor.Soundness.Snapshot

/-! # Revoked permissions and the TLB

`set_s2ap` and `unmap_page` take a permission out of the tables and flush by IPA. A combined
translation that was cached before survives that flush, so the permission is gone from the caches only
where there was none to take away, or where a 2MB block was split on the way and everything flushed.
-/

namespace Hypervisor

inductive Access where
  | read
  | write
  | fetch
deriving DecidableEq, Repr

def TlbEntry.permits (entry : TlbEntry) : Access → Bool
  | .read => entry.read
  | .write => entry.write
  | .fetch => entry.fetch

/-- Instructions are fetched from readable pages that are not execute-never. -/
def Translation.permits (tr : Translation) : Access → Bool
  | .read => tr.readable
  | .write => tr.writable
  | .fetch => tr.readable && !tr.attrs.getLsbD 54

/-- What is cached for the VMID comes from the tables; the first stage may permit less. -/
def Consistent (vmid : U16) (sees : ℕ → Option Leaf) (tlb : List TlbEntry) : Prop :=
  ∀ entry ∈ tlb, entry.vmid = vmid → ∀ a, entry.covers a = true → ∃ leaf, sees a = some leaf ∧
    entry.outputAt a = leaf.translation.output ∧
    ∀ access, entry.permits access = true → leaf.translation.permits access = true

/-- No entry of the VMID permits an access to page `a` that its leaf forbids. -/
def Revoked (vmid : U16) (sees : ℕ → Option Leaf) (a : ℕ) (tlb : List TlbEntry) : Prop :=
  ∀ entry ∈ tlb, entry.vmid = vmid → entry.covers a = true → ∀ access, entry.permits access = true →
    ∃ leaf, sees a = some leaf ∧ leaf.translation.permits access = true

section Flush

variable {vmid : U16} {ipa : U64} {tlb : List TlbEntry} {sees sees' : ℕ → Option Leaf} {leaf : Leaf} {a : ℕ}

theorem Revoked.of_tlbiAll : Revoked vmid sees a (tlbiIpa vmid ipa (tlbiAll vmid tlb)) := by
  intro entry member same
  have kept := (List.mem_filter.mp (List.mem_filter.mp member).1).2
  rw [same] at kept
  simp at kept

/-- What both stages make of page `a` when the first one permits everything. -/
def combinedEntry (vmid : U16) (a : ℕ) (tr : Translation) : TlbEntry :=
  ⟨vmid, .combined (pageAddr a), a, 1, tr.output, tr.permits .read, tr.permits .write, tr.permits .fetch⟩

theorem combinedEntry_permits (tr : Translation) (access : Access) :
    (combinedEntry vmid a tr).permits access = tr.permits access := by
  cases access <;> rfl

theorem combinedEntry_covers (tr : Translation) {b : ℕ} : (combinedEntry vmid a tr).covers b = true ↔ b = a := by
  rw [TlbEntry.covers, Bool.and_eq_true, decide_eq_true_iff, decide_eq_true_iff]
  change a ≤ b ∧ b < a + 1 ↔ b = a
  omega

theorem combinedEntry_consistent (mapped : sees a = some leaf) :
    Consistent vmid sees [combinedEntry vmid a leaf.translation] := by
  intro entry member _ b covers
  obtain rfl := List.mem_singleton.mp member
  obtain rfl := (combinedEntry_covers _).mp covers
  refine ⟨leaf, mapped, ?_, fun access permits => (combinedEntry_permits _ access).symm.trans permits⟩
  rw [TlbEntry.outputAt, combinedEntry, Nat.sub_self]
  bv_omega

/-- A flush by IPA revokes nothing that a combined entry may hold. -/
theorem revoked_tlbiIpa_iff (mapped : sees a = some leaf) :
    (∀ tlb, Consistent vmid sees tlb → Revoked vmid sees' a (tlbiIpa vmid ipa tlb)) ↔
      ∀ access, leaf.translation.permits access = true →
        ∃ new, sees' a = some new ∧ new.translation.permits access = true := by
  constructor
  · intro revoked access permits
    have survives :
        combinedEntry vmid a leaf.translation ∈ tlbiIpa vmid ipa [combinedEntry vmid a leaf.translation] :=
      List.mem_filter.mpr ⟨List.mem_singleton_self _, by simp [combinedEntry]⟩
    refine revoked _ (combinedEntry_consistent mapped) _ survives rfl ((combinedEntry_covers _).mpr rfl) access ?_
    rw [combinedEntry_permits, permits]
  · intro keeps tlb consistent entry member same covers access permits
    obtain ⟨old, sees, -, allowed⟩ := consistent entry (List.mem_filter.mp member).1 same a covers
    obtain rfl := Option.some.inj (mapped.symm.trans sees)
    exact keeps access (allowed access permits)

end Flush

/-! ## The walker with its flushes -/

section Cached

variable {walker : Stage2Walker} {vmid : U16} {ipa : U64} {s2ap : U8} {s s' : Phys} {tlb tlb' : List TlbEntry}

theorem splitBlockIfNeededCached_eq : walker.splitBlockIfNeededCached vmid ipa s tlb =
    if (walk s.mem walker.l0Table (pageOf ipa)).height = 1 ∧
        (s.mem (walk s.mem walker.l0Table (pageOf ipa)).slot).getLsbD 0 = true then
      Stage2Walker.split2mbBlockAtL2Cached vmid (walk s.mem walker.l0Table (pageOf ipa)).slot
        (s.mem (walk s.mem walker.l0Table (pageOf ipa)).slot) s tlb
    else some (.ok (), s, tlb) := by
  simp only [Stage2Walker.splitBlockIfNeededCached, walk_eq, l0Idx_eq, l1Idx_eq, l2Idx_eq, ne_eq,
    and_pteValid_eq_zero, and_pteTable_eq_zero, isTable_eq]
  grind

/-- The flushes change nothing else, and the page that was in a block has been flushed altogether. -/
theorem setS2apCached_ok_iff :
    walker.setS2apCached vmid ipa s2ap s tlb = some (.ok (), s', tlb') ↔
      walker.setS2ap ipa s2ap s = some (.ok (), s') ∧
        tlb' = tlbiIpa vmid ipa
          (if (walk s.mem walker.l0Table (pageOf ipa)).height = 1 ∧
              (s.mem (walk s.mem walker.l0Table (pageOf ipa)).slot).getLsbD 0 = true then
            tlbiAll vmid (tlbiAll vmid tlb) else tlb) := by
  rw [Stage2Walker.setS2apCached, Stage2Walker.setS2ap, Stage2Walker.editLeaf, splitBlockIfNeededCached_eq,
    Stage2Walker.splitBlockIfNeeded_eq]
  -- Both versions walk to the leaf in the same memory once the block is split.
  split_ifs with block
  · rw [Stage2Walker.split2mbBlockAtL2Cached]
    cases Stage2Walker.split2mbBlockAtL2 (walk s.mem walker.l0Table (pageOf ipa)).slot
        (s.mem (walk s.mem walker.l0Table (pageOf ipa)).slot) s with
    | none => simp
    | some split =>
      obtain ⟨result, s₁⟩ := split
      cases result with
      | error text => simp
      | ok _ => cases found : walker.walkToLeafPtr s₁.mem ipa <;> simp [found, eq_comm]
  · cases found : walker.walkToLeafPtr s.mem ipa <;> simp [found, eq_comm]

theorem unmapPageCached_ok_iff : walker.unmapPageCached vmid ipa s tlb = (.ok (), s', tlb') ↔
    walker.unmapPage ipa s = (.ok (), s') ∧ tlb' = tlbiIpa vmid ipa tlb := by
  rw [Stage2Walker.unmapPageCached, Stage2Walker.unmapPage]
  cases walker.walkToL3Ptr s.mem ipa with
  | none => simp
  | some l3Ptr => simp [eq_comm]

end Cached

/-! ## What a change of the leaf takes away -/

theorem and_three_eq_zero_iff (x : U8) : x &&& 3 = 0 ↔ x.getLsbD 0 = false ∧ x.getLsbD 1 = false := by
  rw [show (3 : U8) = BitVec.mask 0 2 by decide, BitVec.and_mask_eq_zero_iff]
  constructor
  · intro clear
    exact ⟨clear 0 le_rfl (by decide), clear 1 (by decide) (by decide)⟩
  · rintro ⟨zero, one⟩ i - bound
    interval_cases i
    · exact zero
    · exact one

/-- A leaf permits nothing when both bits of S2AP are clear. -/
theorem permits_nothing_iff (tr : Translation) : (∀ access, ¬tr.permits access = true) ↔ tr.s2ap &&& 3 = 0 := by
  rw [and_three_eq_zero_iff]
  constructor
  · intro none
    exact ⟨Bool.eq_false_iff.mpr (none .read), Bool.eq_false_iff.mpr (none .write)⟩
  · rintro ⟨read, write⟩ access permits
    cases access with
    | read => exact Bool.eq_false_iff.mp read permits
    | write => exact Bool.eq_false_iff.mp write permits
    | fetch => exact Bool.eq_false_iff.mp read (Bool.and_eq_true_iff.mp permits).1

/-- Setting S2AP takes nothing away when every bit that was set stays set. -/
theorem permits_withS2ap_iff (tr : Translation) (s2ap : U8) :
    (∀ access, tr.permits access = true → ({ tr with s2ap := s2ap &&& 3 } : Translation).permits access = true) ↔
      tr.s2ap &&& ~~~s2ap &&& 3 = 0 := by
  have low : ∀ i < 2, (s2ap &&& 3).getLsbD i = s2ap.getLsbD i := by
    intro i bound
    rw [show (3 : U8) = BitVec.mask 0 2 by decide, BitVec.getLsbD_and, BitVec.getLsbD_mask]
    simp [bound, Nat.lt_trans bound]
  have bit : ∀ i < 2, (tr.s2ap &&& ~~~s2ap).getLsbD i = false ↔
      (tr.s2ap.getLsbD i = true → (s2ap &&& 3).getLsbD i = true) := by
    intro i bound
    rw [low i bound, BitVec.getLsbD_and, BitVec.getLsbD_not]
    simp [Nat.lt_trans bound]
  rw [and_three_eq_zero_iff, bit 0 (by decide), bit 1 (by decide)]
  constructor
  · intro keeps
    exact ⟨keeps .read, keeps .write⟩
  · rintro ⟨read, write⟩ access permits
    cases access with
    | read => exact read permits
    | write => exact write permits
    | fetch =>
      obtain ⟨readable, executable⟩ := Bool.and_eq_true_iff.mp permits
      exact Bool.and_eq_true_iff.mpr ⟨read readable, executable⟩

section Operations

variable {root : VmId → U64} {s s' : Phys} {space : Space} {v : VmId} {vmid : U16} {ipa : U64} {s2ap : U8}
  {leaf : Leaf}

/-- The leaf that `set_s2ap` leaves, when it returns Ok. -/
theorem setS2ap_leaf (refines : Refines root s space) (booted : root v ≠ 0)
    (run : (⟨root v⟩ : Stage2Walker).setS2ap ipa s2ap s = some (.ok (), s')) :
    ∃ leaf, space.view v (pageOf ipa) = some leaf ∧ view root s'.mem v (pageOf ipa) =
      some (leaf.toPage.retype fun tr => { tr with s2ap := s2ap &&& 3 }) := by
  obtain ⟨result, s₁, edit, refines', edited⟩ := refines.editLeaf booted ipa (.withS2ap s2ap)
  cases edit.symm.trans run
  obtain ⟨leaf, mapped, after⟩ := edited rfl
  exact ⟨leaf, mapped, (congrFun₂ refines'.2.1 v _).trans after⟩

theorem setS2ap_revoked_iff (refines : Refines root s space) (booted : root v ≠ 0)
    (run : (⟨root v⟩ : Stage2Walker).setS2ap ipa s2ap s = some (.ok (), s')) :
    (∀ tlb tlb', Consistent vmid (space.view v) tlb →
      (⟨root v⟩ : Stage2Walker).setS2apCached vmid ipa s2ap s tlb = some (.ok (), s', tlb') →
      Revoked vmid (view root s'.mem v) (pageOf ipa) tlb') ↔
    ∃ leaf, space.view v (pageOf ipa) = some leaf ∧
      (leaf.height = 1 ∨ leaf.translation.s2ap &&& ~~~s2ap &&& 3 = 0) := by
  obtain ⟨leaf, mapped, after⟩ := setS2ap_leaf refines booted run
  obtain ⟨-, valid, same⟩ := (refines.view_eq_some booted ipa).mp mapped
  have block : leaf.height = (walk s.mem (root v) (pageOf ipa)).height := congrArg Leaf.height same
  simp only [setS2apCached_ok_iff, run, true_and, valid, and_true, ← block, mapped, Option.some.injEq,
    exists_eq_left', forall_eq_apply_imp_iff]
  by_cases split : leaf.height = 1
  · simp only [split, if_true, true_or, iff_true]
    exact fun tlb _ => .of_tlbiAll
  · simp only [split, if_false, false_or]
    rw [revoked_tlbiIpa_iff mapped, ← permits_withS2ap_iff, after]
    simp only [Option.some.injEq, exists_eq_left', Leaf.retype, Leaf.toPage]

/-- The leaf that `unmap_page` removes, when it returns Ok. -/
theorem unmapPage_leaf (refines : Refines root s space) (booted : root v ≠ 0)
    (run : (⟨root v⟩ : Stage2Walker).unmapPage ipa s = (.ok (), s')) :
    ∃ leaf, space.view v (pageOf ipa) = some leaf ∧ view root s'.mem v (pageOf ipa) = none := by
  have after := (refines.unmapPage booted ipa).2.1
  rw [run] at after
  rw [Stage2Walker.unmapPage, Stage2Walker.walkToL3Ptr_eq] at run
  split_ifs at run with page
  · have height : (walk s.mem (root v) (pageOf ipa)).height = 0 := page.1
    have mapped := (refines.view_eq_some booted ipa).mpr ⟨by omega, page.2, rfl⟩
    refine ⟨_, mapped, (congrFun₂ after v _).trans ?_⟩
    simp [Space.unmap, mapped, height]
  · cases run

theorem unmapPage_revoked_iff (refines : Refines root s space) (booted : root v ≠ 0)
    (run : (⟨root v⟩ : Stage2Walker).unmapPage ipa s = (.ok (), s')) :
    (∀ tlb tlb', Consistent vmid (space.view v) tlb →
      (⟨root v⟩ : Stage2Walker).unmapPageCached vmid ipa s tlb = (.ok (), s', tlb') →
      Revoked vmid (view root s'.mem v) (pageOf ipa) tlb') ↔
    ∃ leaf, space.view v (pageOf ipa) = some leaf ∧ leaf.translation.s2ap &&& 3 = 0 := by
  obtain ⟨leaf, mapped, after⟩ := unmapPage_leaf refines booted run
  simp only [unmapPageCached_ok_iff, run, true_and, mapped, Option.some.injEq, exists_eq_left',
    forall_eq_apply_imp_iff]
  rw [revoked_tlbiIpa_iff mapped, ← permits_nothing_iff, after]
  simp only [reduceCtorEq, false_and, exists_false, imp_false]

end Operations

/-- After `set_s2ap` or `unmap_page` no cached translation permits what the new leaf forbids: for every
TLB exactly when a block was split on the way or nothing was taken away. -/
theorem tlb_revocation {m : Machine} {v : VmId} (wf : m.Wf) (booted : m.perVmVttbr v ≠ 0) (vmid : U16) (ipa : U64) :
    (∀ s2ap s', (⟨m.perVmVttbr v⟩ : Stage2Walker).setS2ap ipa s2ap m.phys = some (.ok (), s') →
      ((∀ tlb tlb', Consistent vmid (m.view v) tlb →
          (⟨m.perVmVttbr v⟩ : Stage2Walker).setS2apCached vmid ipa s2ap m.phys tlb = some (.ok (), s', tlb') →
          Revoked vmid (view m.perVmVttbr s'.mem v) (pageOf ipa) tlb') ↔
        ∃ leaf, m.view v (pageOf ipa) = some leaf ∧
          (leaf.height = 1 ∨ leaf.translation.s2ap &&& ~~~s2ap &&& 3 = 0))) ∧
    ∀ s', (⟨m.perVmVttbr v⟩ : Stage2Walker).unmapPage ipa m.phys = (.ok (), s') →
      ((∀ tlb tlb', Consistent vmid (m.view v) tlb →
          (⟨m.perVmVttbr v⟩ : Stage2Walker).unmapPageCached vmid ipa m.phys tlb = (.ok (), s', tlb') →
          Revoked vmid (view m.perVmVttbr s'.mem v) (pageOf ipa) tlb') ↔
        ∃ leaf, m.view v (pageOf ipa) = some leaf ∧ leaf.translation.s2ap &&& 3 = 0) := by
  obtain ⟨room, refines⟩ := wf.refines
  exact ⟨fun s2ap s' run => setS2ap_revoked_iff refines booted run,
    fun s' run => unmapPage_revoked_iff refines booted run⟩

/-- Taking the stores from a page of a 2MB block reaches every TLB, since the block is split. -/
theorem tlb_revocation_freshGuests : ∃ s',
    (⟨freshGuests.perVmVttbr 0⟩ : Stage2Walker).setS2ap 0x48000000 1 freshGuests.phys = some (.ok (), s') ∧
    ∀ tlb tlb', Consistent 1 (freshGuests.view 0) tlb →
      (⟨freshGuests.perVmVttbr 0⟩ : Stage2Walker).setS2apCached 1 0x48000000 1 freshGuests.phys tlb =
        some (.ok (), s', tlb') →
      Revoked 1 (view freshGuests.perVmVttbr s'.mem 0) (pageOf 0x48000000) tlb' := by
  obtain ⟨⟨result, s'⟩, run, ok⟩ := Option.map_eq_some_iff.mp
    (by decide : ((⟨freshGuests.perVmVttbr 0⟩ : Stage2Walker).setS2ap 0x48000000 1 freshGuests.phys).map
      (fun result => result.1.toOption) = some (some ()))
  cases result with
  | error text => contradiction
  | ok _ =>
    refine ⟨s', run, ((tlb_revocation freshGuests_initial.wf (by decide) 1 0x48000000).1 1 s' run).mpr ?_⟩
    exact ⟨⟨1, 0x48000000, 0x73C, 0, 3⟩, by decide, .inl rfl⟩

/-- A cached store to page 0x08080000 of VM 0, which is mapped as a 4KB page, is still permitted after
`set_s2ap` made the page read-only. -/
theorem combined_entry_survives :
    Consistent 1 (freshGuests.view 0) [combinedEntry 1 0x8080 ⟨0x08080000, 0x400, 0, 3⟩] ∧
    ((⟨freshGuests.perVmVttbr 0⟩ : Stage2Walker).setS2apCached 1 0x08080000 1 freshGuests.phys
        [combinedEntry 1 0x8080 ⟨0x08080000, 0x400, 0, 3⟩]).map
      (fun (result, s', tlb) => (result.toOption, (view freshGuests.perVmVttbr s'.mem 0 0x8080).map
        (·.translation.permits .write), tlb.map (·.permits .write))) =
      some (some (), some false, [true]) := by
  have mapped : freshGuests.view 0 0x8080 = some ⟨0, ⟨0x08080000, 0x400, 0, 3⟩⟩ := by decide
  exact ⟨combinedEntry_consistent mapped, by decide⟩

end Hypervisor
