import Hypervisor.BoundedMap.Basic
import Hypervisor.Soundness.SwitchDelivery

/-! # The table of the switch is a bounded map

Entries are never given up between two resets, so the slots in use are the first ones of the table, in
the order in which their addresses were learned. The table is then the map with at most sixteen keys that
learns the source of each frame.
-/

namespace Hypervisor.VSwitch

variable {switch : VSwitch} {ports : PortRx} {mac : List U8} {table : List (List U8 × ℕ)}

/-! ## Slots in use -/

/-- The slot in use for an address and its port. -/
def slot (known : List U8 × ℕ) : MacEntry := ⟨known.1, known.2, true⟩

/-- The first slots of the table hold the entries of `table`, and the others are free. -/
structure Refines (switch : VSwitch) (table : List (List U8 × ℕ)) : Prop where
  slots : ∃ free : List MacEntry, switch.macTable = table.map slot ++ free ∧ ∀ entry ∈ free, entry.valid = false
  size : switch.macTable.length = macTableSize
  count : switch.macCount = table.length

theorem isFor_slot (known : List U8 × ℕ) (mac : List U8) : (slot known).isFor mac = decide (known.1 = mac) :=
  (Bool.true_and _).trans (beq_eq_decide _ _)

theorem isFor_of_free {entry : MacEntry} (free : entry.valid = false) : entry.isFor mac = false := by
  rw [MacEntry.isFor, free, Bool.false_and]

theorem refines_reset (size : switch.macTable.length = macTableSize) : switch.reset.Refines [] where
  slots := by
    refine ⟨switch.reset.macTable, rfl, ?_⟩
    intro entry member
    obtain ⟨old, -, rfl⟩ := List.mem_map.mp member
    rfl
  size := (List.length_map _).trans size
  count := rfl

theorem Refines.find_eq (refines : switch.Refines table) (mac : List U8) :
    (switch.macTable.find? fun entry => entry.isFor mac) = (table.find? fun known => decide (known.1 = mac)).map slot := by
  obtain ⟨free, slots, unused⟩ := refines.slots
  have nothing : (free.find? fun entry => entry.isFor mac) = none := by
    rw [List.find?_eq_none]
    intro entry member
    rw [isFor_of_free (unused entry member)]
    exact Bool.false_ne_true
  rw [slots, List.find?_append, nothing, Option.or_none, List.find?_map]
  simp only [Function.comp_def, isFor_slot]

theorem Refines.lookup_eq (refines : switch.Refines table) (mac : List U8) :
    switch.lookup mac = BoundedMap.lookup table mac := by
  rw [lookup, refines.find_eq, Option.map_map]
  rfl

/-- The first slot for a known address gets its new port. -/
theorem modify_slots (known : mac ∈ BoundedMap.keys table) (port : ℕ) (free : List MacEntry) :
    ∃ i, ((table.map slot ++ free).findIdx? fun entry => entry.isFor mac) = some i ∧
      ((table.map slot ++ free).modify i fun entry => { entry with portId := port }) =
        (BoundedMap.update table mac port).map slot ++ free := by
  induction table with
  | nil => cases known
  | cons first rest ih =>
      rw [BoundedMap.update, List.map_cons, List.cons_append, List.findIdx?_cons, isFor_slot]
      by_cases same : first.1 = mac
      · refine ⟨0, by rw [decide_eq_true same, if_pos rfl], ?_⟩
        rw [if_pos same, List.modify_zero_cons, ← same]
        rfl
      · obtain ⟨i, found, modified⟩ := ih ((List.mem_cons.mp known).resolve_left (Ne.symm same))
        refine ⟨i + 1, by rw [decide_eq_false same, if_neg Bool.false_ne_true, found]; rfl, ?_⟩
        rw [if_neg same, List.modify_succ_cons, modified]
        rfl

/-- The first free slot is the one behind those in use. -/
theorem findIdx_free {free : List MacEntry} {next : MacEntry} (unused : next.valid = false) :
    ((table.map slot ++ next :: free).findIdx? fun entry => !entry.valid) = some table.length := by
  induction table with
  | nil => rw [List.map_nil, List.nil_append, List.findIdx?_cons, unused]; rfl
  | cons first rest ih =>
      rw [List.map_cons, List.cons_append, List.findIdx?_cons, ih]
      rfl

/-- Learning is learning in the map. -/
theorem Refines.learn (refines : switch.Refines table) (mac : List U8) (port : ℕ) :
    (switch.learn mac port).Refines (BoundedMap.learn macTableSize table mac port) := by
  have found := refines.find_eq mac
  obtain ⟨⟨free, slots, unused⟩, size, count⟩ := refines
  rw [slots, List.length_append, List.length_map] at size
  rw [BoundedMap.learn, if_congr BoundedMap.isSome_lookup rfl rfl, VSwitch.learn]
  by_cases known : mac ∈ BoundedMap.keys table
  · obtain ⟨i, here, modified⟩ := modify_slots known port free
    have length : (BoundedMap.update table mac port).length = table.length := by
      rw [← BoundedMap.length_keys, BoundedMap.keys_update, BoundedMap.length_keys]
    rw [if_pos known, slots, here]
    dsimp only
    rw [modified]
    refine ⟨⟨free, rfl, unused⟩, ?_, count.trans length.symm⟩
    rw [List.length_append, List.length_map, length, size]
  · have absent : (switch.macTable.findIdx? fun entry => entry.isFor mac) = none := by
      rw [← BoundedMap.lookup_eq_none_iff, BoundedMap.lookup, Option.map_eq_none_iff] at known
      rw [known, Option.map_none, List.find?_eq_none] at found
      exact List.findIdx?_eq_none_iff.mpr fun entry member => Bool.eq_false_iff.mpr (found entry member)
    rw [if_neg known, absent, count]
    dsimp only
    split_ifs with room
    · cases free with
      | nil =>
          rw [List.length_nil, Nat.add_zero] at size
          exact absurd size (Nat.ne_of_lt room)
      | cons next free =>
          rw [slots, findIdx_free (unused next List.mem_cons_self)]
          have behind : (table.map slot ++ next :: free).set table.length (slot (mac, port)) =
              (table ++ [(mac, port)]).map slot ++ free := by
            rw [List.set_append_right _ _ (by rw [List.length_map]), List.length_map, Nat.sub_self, List.map_append,
              List.append_assoc]
            rfl
          refine ⟨⟨free, behind, fun entry member => unused entry (List.mem_cons_of_mem _ member)⟩, ?_, ?_⟩
          · rw [List.length_set, List.length_append, List.length_map, size]
          · rw [List.length_append, List.length_singleton]
    · exact ⟨⟨free, slots, unused⟩, by rw [slots, List.length_append, List.length_map, size], count⟩

/-- The slots in use, in the order of the table. -/
theorem Refines.filter_valid (refines : switch.Refines table) :
    switch.macTable.filter (·.valid) = table.map slot := by
  obtain ⟨free, slots, unused⟩ := refines.slots
  have kept : (table.map slot).filter (·.valid) = table.map slot := by
    rw [List.filter_eq_self]
    intro entry member
    obtain ⟨known, -, rfl⟩ := List.mem_map.mp member
    rfl
  have dropped : free.filter (·.valid) = [] := by
    rw [List.filter_eq_nil_iff]
    intro entry member
    rw [unused entry member]
    exact Bool.false_ne_true
  rw [slots, List.filter_append, kept, dropped, List.append_nil]

/-! ## Runs of frames -/

/-- Forward frames in turn, each from its port. -/
def forwardAll (switch : VSwitch) (ports : PortRx) : List (Fin maxPorts × List U8) → Option (VSwitch × PortRx)
  | [] => some (switch, ports)
  | sent :: frames => (switch.forward ports sent.1 sent.2).bind fun next => next.1.forwardAll next.2 frames

/-- The source of a frame and the port it came from. A frame that is too short for a header has none. -/
def source? (sent : Fin maxPorts × List U8) : Option (List U8 × ℕ) :=
  if sent.2.length < 14 then none else some (srcMac sent.2, sent.1)

/-- The table is what the frames since a reset make of it. -/
structure Learned (switch : VSwitch) (frames : List (Fin maxPorts × List U8)) : Prop where
  distinct : ((switch.macTable.filter (·.valid)).map (·.mac)).Nodup
  count : switch.macCount = (switch.macTable.filter (·.valid)).length
  bound : switch.macCount ≤ 16
  /-- The known addresses are the first sixteen different sources. -/
  known : ∀ mac, (∃ entry ∈ switch.macTable, entry.valid = true ∧ entry.mac = mac) ↔
    BoundedMap.FirstDistinct 16 ((frames.filterMap source?).map Prod.fst) mac
  /-- Each has the port of its last frame. -/
  latest : ∀ mac, BoundedMap.FirstDistinct 16 ((frames.filterMap source?).map Prod.fst) mac →
    ∃ port, BoundedMap.lastValue (frames.filterMap source?) mac = some port ∧ switch.lookup mac = some port
  unknown : ∀ mac, ¬BoundedMap.FirstDistinct 16 ((frames.filterMap source?).map Prod.fst) mac →
    switch.lookup mac = none

/-- A table with the slots of the map that reflects the sources. -/
theorem Refines.learned (refines : switch.Refines table) {frames : List (Fin maxPorts × List U8)}
    (reflects : BoundedMap.Reflects macTableSize table (frames.filterMap source?)) : switch.Learned frames := by
  have macs : (switch.macTable.filter (·.valid)).map (·.mac) = BoundedMap.keys table := by
    rw [refines.filter_valid, List.map_map]
    rfl
  constructor
  · rw [macs]
    exact reflects.nodup
  · rw [refines.filter_valid, List.length_map, refines.count]
  · rw [refines.count]
    exact reflects.bound
  · intro mac
    rw [← BoundedMap.keys, ← macTableSize, ← reflects.seen, ← macs, List.mem_map]
    simp only [List.mem_filter, and_assoc]
  · intro mac first
    have known := (reflects.seen mac).mpr first
    obtain ⟨port, found⟩ := Option.isSome_iff_exists.mp (BoundedMap.isSome_lookup.mpr known)
    exact ⟨port, (reflects.value mac known).symm.trans found, (refines.lookup_eq mac).trans found⟩
  · intro mac unseen
    rw [refines.lookup_eq, BoundedMap.lookup_eq_none_iff, reflects.seen]
    exact unseen

/-- Every frame with a header is learned in the map. -/
theorem forwardAll_refines (refines : switch.Refines table) (exist : switch.PortsExist) (ports : PortRx)
    (frames : List (Fin maxPorts × List U8)) : ∃ last ports', switch.forwardAll ports frames = some (last, ports') ∧
      last.Refines ((frames.filterMap source?).foldl
        (fun table entry => BoundedMap.learn macTableSize table entry.1 entry.2) table) := by
  induction frames generalizing switch ports table with
  | nil => exact ⟨switch, ports, rfl, refines⟩
  | cons sent frames ih =>
      rw [forwardAll, List.filterMap_cons, source?]
      split_ifs with short
      · rw [forward, if_pos short, Option.bind_some]
        exact ih refines exist ports
      · rw [forward_eq exist sent.1.isLt (Nat.le_of_not_lt short), Option.bind_some]
        exact ih (refines.learn _ _) (exist.learn sent.1.isLt) _

theorem portsExist_reset (switch : VSwitch) : switch.reset.PortsExist := by
  intro entry member valid
  obtain ⟨old, -, rfl⟩ := List.mem_map.mp member
  cases valid

/-- After a reset, the table is the map that learns the sources of the frames. -/
theorem learned_since_reset (size : switch.macTable.length = macTableSize) (ports : PortRx)
    (frames : List (Fin maxPorts × List U8)) :
    ∃ last ports', switch.reset.forwardAll ports frames = some (last, ports') ∧ last.Learned frames := by
  obtain ⟨last, ports', ran, refines⟩ :=
    forwardAll_refines (refines_reset size) (portsExist_reset switch) ports frames
  exact ⟨last, ports', ran, refines.learned (BoundedMap.reflects_ofHistory _)⟩

theorem learned_new : ∃ last ports', VSwitch.new.reset.forwardAll (fun _ => .new)
    [(0, List.replicate 14 2), (1, List.replicate 60 2)] = some (last, ports') ∧
      last.Learned [(0, List.replicate 14 2), (1, List.replicate 60 2)] :=
  learned_since_reset (List.length_replicate ..) _ _

end Hypervisor.VSwitch
