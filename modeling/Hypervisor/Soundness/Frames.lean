import Hypervisor.Proofs.Transfer
import Hypervisor.Soundness.Completion

/-! # Frames and their buffers

The buffers of a chain are one logical buffer: a header of twelve bytes, and behind it a frame.
Transmission gathers it, but from the first four descriptors only and without the pieces that do not fit
the frame buffer, so the frame that is forwarded need not be the one that was sent
(`tx_faithful_iff`). Reception scatters header and frame over the writable buffers, if they have room
for both (`rx_scatter`).
-/

namespace Hypervisor

open ScatterGather

/-! ## Transmission -/

namespace VirtioNet

/-- The frame that a chain stands for: what its buffers hold behind the header. -/
def payload (ram : GuestRam) (descs : List VirtqDesc) : List U8 :=
  (gather ram (bufferRanges descs)).drop virtioNetHdrSize

/-- The lengths of the pieces of the frame, when `hdr` bytes of the header are still to come. -/
def pieces : ℕ → List VirtqDesc → List ℕ
  | _, [] => []
  | hdr, desc :: rest => (desc.len.toNat - hdr) :: pieces (hdr - desc.len.toNat) rest

/-- The length that is reached if every piece is added that still fits the frame buffer. -/
def keptLength : ℕ → List ℕ → ℕ
  | acc, [] => acc
  | acc, n :: rest => keptLength (if acc + n ≤ maxFrameSize then acc + n else acc) rest

theorem sum_pieces (hdr : ℕ) (descs : List VirtqDesc) : (pieces hdr descs).sum = dataLength descs - hdr := by
  induction descs generalizing hdr with
  | nil => exact (Nat.zero_sub hdr).symm
  | cons desc rest ih =>
    rw [pieces, List.sum_cons, ih, dataLength_cons]
    omega

theorem keptLength_le (acc : ℕ) (lens : List ℕ) : keptLength acc lens ≤ acc + lens.sum := by
  induction lens generalizing acc with
  | nil => exact le_rfl
  | cons n rest ih =>
    rw [keptLength, List.sum_cons]
    refine (ih _).trans ?_
    split_ifs <;> omega

theorem keptLength_le_max {acc : ℕ} (fits : acc ≤ maxFrameSize) (lens : List ℕ) : keptLength acc lens ≤ maxFrameSize := by
  induction lens generalizing acc with
  | nil => exact fits
  | cons n rest ih =>
    rw [keptLength]
    refine ih ?_
    split_ifs with more
    · exact more
    · exact fits

section Gather

variable {ram : GuestRam} {desc : VirtqDesc} {descs rest : List VirtqDesc} {totalLen : ℕ} {frame : List U8}

theorem drop_fetch (ram : GuestRam) (addr len n : ℕ) :
    (fetch ram addr len).drop n = fetch ram (addr + min n len) (len - n) := by
  rcases Nat.le_total n len with inside | beyond
  · obtain ⟨k, rfl⟩ := Nat.exists_eq_add_of_le inside
    rw [fetch_add, List.drop_left' length_fetch, Nat.min_eq_left inside, Nat.add_sub_cancel_left]
  · rw [List.drop_of_length_le (by rwa [length_fetch]), Nat.sub_eq_zero_of_le beyond]
    rfl

/-- One buffer of the loop: what is behind the header is added if it fits. -/
theorem gatherFrame_cons : gatherFrame ram (desc :: rest) totalLen frame =
    gatherFrame ram rest (totalLen + desc.len.toNat)
      (if frame.length + (desc.len.toNat - (virtioNetHdrSize - totalLen)) ≤ maxFrameSize then
        frame ++ (fetch ram desc.addr.toNat desc.len.toNat).drop (virtioNetHdrSize - totalLen)
      else frame) := by
  rw [gatherFrame]
  dsimp only
  have skipped : desc.len.toNat - min (virtioNetHdrSize - totalLen) desc.len.toNat =
      desc.len.toNat - (virtioNetHdrSize - totalLen) := by omega
  rw [skipped, drop_fetch]
  rcases Nat.lt_or_ge totalLen virtioNetHdrSize with header | behind
  · rw [if_pos header]
    rcases Nat.eq_zero_or_pos (desc.len.toNat - (virtioNetHdrSize - totalLen)) with none | some
    · have nothing : fetch ram (desc.addr.toNat + min (virtioNetHdrSize - totalLen) desc.len.toNat) 0 = [] := rfl
      rw [none, if_neg (by omega), nothing, List.append_nil, ite_self]
    · simp only [some, true_and]
      split_ifs <;> rfl
  · rw [if_neg (Nat.not_lt.mpr behind), Nat.sub_eq_zero_of_le behind, Nat.sub_zero, Nat.zero_min, Nat.add_zero]
    split_ifs <;> rfl

theorem length_gatherFrame : (gatherFrame ram descs totalLen frame).length =
    keptLength frame.length (pieces (virtioNetHdrSize - totalLen) descs) := by
  induction descs generalizing totalLen frame with
  | nil => rfl
  | cons desc rest ih =>
    rw [gatherFrame_cons, ih, pieces, keptLength, Nat.sub_add_eq, apply_ite List.length, List.length_append,
      List.length_drop, length_fetch]

/-- Pieces that all fit are gathered as they stand. -/
theorem gatherFrame_of_fits (fits : frame.length + (pieces (virtioNetHdrSize - totalLen) descs).sum ≤ maxFrameSize) :
    gatherFrame ram descs totalLen frame =
      frame ++ (gather ram (bufferRanges descs)).drop (virtioNetHdrSize - totalLen) := by
  induction descs generalizing totalLen frame with
  | nil =>
    have nothing : gather ram (bufferRanges []) = [] := rfl
    rw [gatherFrame, nothing, List.drop_nil, List.append_nil]
  | cons desc rest ih =>
    rw [pieces, List.sum_cons] at fits
    rw [gatherFrame_cons, if_pos (by omega), ih, bufferRanges_cons, gather_cons, List.drop_append, length_fetch,
      Nat.sub_add_eq, List.append_assoc]
    rw [List.length_append, List.length_drop, length_fetch, Nat.sub_add_eq]
    omega

end Gather

/-- The frame that a chain forwards, if it forwards one, is its payload, and a payload that is no frame
is not forwarded. -/
def Faithful (net : VirtioNet) (descs : List VirtqDesc) (env env' : VirtioEnv) : Prop :=
  env'.forwarded = env.forwarded ∨
    env'.forwarded = env.forwarded ++ [(net.portId, payload env.ram descs)] ∧
      14 ≤ (payload env.ram descs).length ∧ (payload env.ram descs).length ≤ maxFrameSize

theorem length_payload (ram : GuestRam) (descs : List VirtqDesc) :
    (payload ram descs).length = dataLength descs - virtioNetHdrSize := by
  rw [payload, List.length_drop, length_gather, total_bufferRanges]

theorem forwarded_of_handleChain {net : VirtioNet} {q : Virtqueue} {chain : DescChain} {env env' : VirtioEnv}
    (run : net.handleChain q chain env = .ok env') :
    env'.forwarded = if 14 ≤ (gatherFrame env.ram chain.descs 0 []).length then
      env.forwarded ++ [(net.portId, gatherFrame env.ram chain.descs 0 [])] else env.forwarded := by
  obtain ⟨ram', -, run⟩ := bind_eq_ok_iff.mp run
  obtain rfl := Except.ok.inj run
  dsimp only
  split_ifs <;> rfl

/-- The first four descriptors have the whole payload, and it fits the frame buffer. -/
structure WholeFrame (descs : List VirtqDesc) : Prop where
  fits : dataLength descs - virtioNetHdrSize ≤ maxFrameSize
  seen : dataLength (descs.take 4) - virtioNetHdrSize = dataLength descs - virtioNetHdrSize

theorem dataLength_take_drop (descs : List VirtqDesc) (n : ℕ) :
    dataLength descs = dataLength (descs.take n) + dataLength (descs.drop n) := by
  rw [← dataLength_append, List.take_append_drop]

theorem WholeFrame.payload_take {descs : List VirtqDesc} (whole : WholeFrame descs) (ram : GuestRam) :
    payload ram (descs.take 4) = payload ram descs := by
  have split : gather ram (bufferRanges descs) =
      gather ram (bufferRanges (descs.take 4)) ++ gather ram (bufferRanges (descs.drop 4)) := by
    rw [gather, gather, gather, ← List.flatMap_append, bufferRanges, bufferRanges, bufferRanges, ← List.map_append,
      List.take_append_drop]
  have lengths := (length_payload ram (descs.take 4)).trans (whole.seen.trans (length_payload ram descs).symm)
  rw [payload, payload, split, List.drop_append] at lengths ⊢
  rw [List.length_append] at lengths
  rw [List.eq_nil_of_length_eq_zero (by omega : (List.drop (virtioNetHdrSize -
    (gather ram (bufferRanges (descs.take 4))).length) (gather ram (bufferRanges (descs.drop 4)))).length = 0),
    List.append_nil]

/-- What the loop gathers from the first four descriptors is the payload exactly if they have all of it. -/
theorem gatherFrame_eq_payload_iff (ram : GuestRam) (descs : List VirtqDesc) :
    gatherFrame ram (descs.take 4) 0 [] = payload ram descs ↔ WholeFrame descs := by
  constructor
  · intro same
    have lengths := congrArg List.length same
    rw [length_gatherFrame, length_payload, List.length_nil, Nat.sub_zero] at lengths
    have below := keptLength_le 0 (pieces virtioNetHdrSize (descs.take 4))
    have bound := keptLength_le_max (Nat.zero_le maxFrameSize) (pieces virtioNetHdrSize (descs.take 4))
    have split := dataLength_take_drop descs 4
    rw [sum_pieces] at below
    exact ⟨by omega, by omega⟩
  · intro whole
    rw [gatherFrame_of_fits, List.nil_append]
    · exact whole.payload_take ram
    · rw [List.length_nil, Nat.zero_add, Nat.sub_zero, sum_pieces, whole.seen]
      exact whole.fits

/-- Which chains of the TX queue are forwarded faithfully. -/
theorem tx_faithful_iff (net : VirtioNet) (q : Virtqueue) (env : VirtioEnv) (chain : DescChain) (q' : Virtqueue)
    (taken : q.getAvailDesc env.ram = .ok (some (chain, q'))) (descs : List VirtqDesc)
    (links : q.Links env.ram chain.head descs) (env' : VirtioEnv) (run : net.handleChain q' chain env = .ok env') :
    net.Faithful descs env env' ↔
      WholeFrame descs ∨ keptLength 0 (pieces virtioNetHdrSize (descs.take 4)) < 14 := by
  have seen : chain.descs = descs.take 4 := by
    obtain ⟨-, -, rfl, -⟩ := Virtqueue.getAvailDesc_eq_some_iff.mp taken
    exact Virtqueue.walkChain_of_links links 4
  have length := @length_gatherFrame env.ram (descs.take 4) 0 []
  rw [List.length_nil, Nat.sub_zero] at length
  have forwarded := forwarded_of_handleChain run
  rw [seen, length] at forwarded
  rw [Faithful, forwarded]
  rcases Nat.lt_or_ge (keptLength 0 (pieces virtioNetHdrSize (descs.take 4))) 14 with short | frame
  · rw [if_neg (Nat.not_le.mpr short)]
    exact iff_of_true (.inl rfl) (.inr short)
  · rw [if_pos frame, or_iff_left (Nat.not_lt.mpr frame), ← gatherFrame_eq_payload_iff env.ram descs]
    constructor
    · rintro (none | ⟨same, -⟩)
      · exact absurd none (by simp)
      · exact congrArg Prod.snd (List.singleton_injective (List.append_cancel_left same))
    · intro same
      rw [same] at length ⊢
      have bound := keptLength_le_max (Nat.zero_le maxFrameSize) (pieces virtioNetHdrSize (descs.take 4))
      exact .inr ⟨rfl, by omega, by omega⟩

/-- A header and a frame of twenty bytes. -/
def twoBuffers : List VirtqDesc := [⟨0x4000, 12, 1, 1⟩, ⟨0x8000, 20, 0, 0⟩]

theorem tx_faithful_twoBuffers : ∃ env', (new 0).handleChain eightEntries.taken
    (eightEntries.nextChain (oneChain twoBuffers)) { ram := oneChain twoBuffers } = .ok env' ∧
      (new 0).Faithful twoBuffers { ram := oneChain twoBuffers } env' := by
  refine ⟨_, rfl, (tx_faithful_iff (new 0) eightEntries { ram := oneChain twoBuffers }
    (eightEntries.nextChain (oneChain twoBuffers)) eightEntries.taken rfl twoBuffers ?_ _ rfl).mpr (.inl ?_)⟩
  · exact ⟨by decide, rfl, by decide, by decide, rfl, by decide⟩
  · exact ⟨by decide, by decide⟩

/-- A header and a frame of forty bytes in four pieces. -/
def fiveBuffers : List VirtqDesc :=
  [⟨0x4000, 12, 1, 1⟩, ⟨0x8000, 10, 1, 2⟩, ⟨0x8010, 10, 1, 3⟩, ⟨0x8020, 10, 1, 4⟩, ⟨0x8030, 10, 0, 0⟩]

/-- Thirty of the forty bytes are forwarded. -/
theorem fifth_buffer_missing :
    eightEntries.Links (oneChain fiveBuffers) (eightEntries.nextChain (oneChain fiveBuffers)).head fiveBuffers ∧
    (payload (oneChain fiveBuffers) fiveBuffers).length = 40 ∧
    ∃ env' frame, (new 0).handleChain eightEntries.taken (eightEntries.nextChain (oneChain fiveBuffers))
        { ram := oneChain fiveBuffers } = .ok env' ∧ env'.forwarded = [(0, frame)] ∧ frame.length = 30 := by
  refine ⟨?_, rfl, _, _, rfl, rfl, rfl⟩
  exact ⟨by decide, rfl, by decide, by decide, rfl, by decide, by decide, rfl, by decide, by decide, rfl, by decide,
    by decide, rfl, by decide⟩

end VirtioNet

/-! ## Reception -/

namespace VirtioMmioTransport

/-- The writable buffers of a chain. -/
def writableRanges (descs : List VirtqDesc) : List Range := bufferRanges (descs.filter isWritable)

theorem total_writableRanges (descs : List VirtqDesc) : total (writableRanges descs) = totalCap descs := by
  rw [writableRanges, total_bufferRanges, totalCap, dataLength]

theorem writableRanges_cons (desc : VirtqDesc) (rest : List VirtqDesc) (writable : isWritable desc = true) :
    writableRanges (desc :: rest) = (desc.addr.toNat, desc.len.toNat) :: writableRanges rest := by
  rw [writableRanges, List.filter_cons_of_pos writable, bufferRanges_cons]
  rfl

section Scatter

variable {frame : List U8} {written : ℕ}

theorem map_getD_range {xs : List U8} {k n : ℕ} (inside : k + n ≤ xs.length) :
    (List.range n).map (fun i => xs.getD (k + i) 0) = (xs.drop k).take n := by
  refine List.ext_getElem? fun i => ?_
  rcases Nat.lt_or_ge i n with low | high
  · rw [List.getElem?_map, List.getElem?_range low, List.getElem?_take_of_lt low, List.getElem?_drop, Option.map_some,
      List.getD_eq_getElem?_getD, List.getElem?_eq_getElem (by omega : k + i < xs.length), Option.getD_some]
  · rw [List.getElem?_eq_none (by rwa [List.length_map, List.length_range]),
      List.getElem?_eq_none (by rw [List.length_take]; omega)]

/-- A buffer that gets the rest of the header first. -/
theorem store_header (ram : GuestRam) (dst cap : ℕ) (early : written < 12) :
    storeBytes (storeBytes ram dst (min (12 - written) (min (netHdr.length + frame.length - written) cap))
        fun i => netHdr.getD (written + i) 0)
      (dst + min (12 - written) (min (netHdr.length + frame.length - written) cap))
      (min (netHdr.length + frame.length - written) cap -
        min (12 - written) (min (netHdr.length + frame.length - written) cap)) (fun i => frame.getD i 0) =
    put ram dst (((netHdr ++ frame).drop written).take cap) := by
  have hdr : netHdr.length = 12 := rfl
  have front := @map_getD_range netHdr written
    (min (12 - written) (min (netHdr.length + frame.length - written) cap)) (by omega)
  have back := @map_getD_range frame 0 (min (netHdr.length + frame.length - written) cap -
    min (12 - written) (min (netHdr.length + frame.length - written) cap)) (by omega)
  simp only [Nat.zero_add] at back
  have start : ((netHdr.drop written).take (min (12 - written) (min (netHdr.length + frame.length - written) cap))).length =
      min (12 - written) (min (netHdr.length + frame.length - written) cap) := by
    rw [List.length_take, List.length_drop]
    omega
  rw [storeBytes_eq_put, storeBytes_eq_put, front, back, List.drop_zero]
  nth_rewrite 2 [← start]
  rw [put_put_append, List.drop_append_of_le_length (by omega), List.take_append, List.length_drop]
  congr 2
  · refine List.take_eq_take_iff.mpr ?_
    rw [List.length_drop]
    omega
  · refine List.take_eq_take_iff.mpr ?_
    omega

/-- A buffer behind the header. -/
theorem store_frame (ram : GuestRam) (dst cap : ℕ) (late : 12 ≤ written)
    (inside : written ≤ netHdr.length + frame.length) :
    storeBytes ram dst (min (netHdr.length + frame.length - written) cap) (fun i => frame.getD (written - 12 + i) 0) =
      put ram dst (((netHdr ++ frame).drop written).take cap) := by
  have hdr : netHdr.length = 12 := rfl
  have behind : (netHdr ++ frame).drop written = frame.drop (written - 12) := by
    rw [List.drop_append, List.drop_of_length_le (by omega), List.nil_append, hdr]
  rw [storeBytes_eq_put, map_getD_range (by omega), behind]
  congr 1
  refine List.take_eq_take_iff.mpr ?_
  rw [List.length_drop]
  omega

/-- The loop scatters what is left of header and frame over the writable buffers. -/
theorem scatterFrame_eq (descs : List VirtqDesc) (ram : GuestRam) (inside : written ≤ netHdr.length + frame.length) :
    scatterFrame frame descs ram written =
      (scatter ram (writableRanges descs) ((netHdr ++ frame).drop written),
        written + min (netHdr.length + frame.length - written) (totalCap descs)) := by
  induction descs generalizing ram written with
  | nil => rw [scatterFrame, totalCap, List.filter_nil, List.map_nil, List.sum_nil, Nat.min_zero, Nat.add_zero]; rfl
  | cons desc rest ih =>
    rw [scatterFrame]
    cases writable : isWritable desc with
    | false =>
      have skip : (desc :: rest).filter isWritable = rest.filter isWritable := List.filter_cons_of_neg (by simp [writable])
      rw [Bool.not_false, if_pos rfl, ih ram inside, writableRanges, writableRanges, totalCap, totalCap, skip]
    | true =>
      -- what does not fit the buffer is dropped from the front for the next one
      have next : (netHdr ++ frame).drop (written + min (netHdr.length + frame.length - written) desc.len.toNat) =
          ((netHdr ++ frame).drop written).drop desc.len.toNat := by
        rw [List.drop_drop]
        rcases Nat.le_total (netHdr.length + frame.length - written) desc.len.toNat with all | part
        · rw [Nat.min_eq_left all, List.drop_of_length_le (by rw [List.length_append]; omega),
            List.drop_of_length_le (by rw [List.length_append]; omega)]
        · rw [Nat.min_eq_right part]
      have count : written + min (netHdr.length + frame.length - written) desc.len.toNat +
          min (netHdr.length + frame.length - (written + min (netHdr.length + frame.length - written) desc.len.toNat))
            (totalCap rest) = written + min (netHdr.length + frame.length - written) (totalCap (desc :: rest)) := by
        rw [totalCap, totalCap, List.filter_cons_of_pos writable, List.map_cons, List.sum_cons]
        omega
      rw [Bool.not_true, if_neg Bool.false_ne_true]
      dsimp only
      rw [writableRanges_cons desc rest writable, scatter, ← next, ← count]
      split_ifs with early
      · rw [store_header ram _ _ early, ih _ (by omega)]
      · rw [store_frame ram _ _ (by omega) inside, ih _ (by omega)]

end Scatter

/-- The writable buffers hold header and frame, and behind them what they held before; then the used ring
gets an entry with the length of both. Nothing else has changed. -/
def Delivered (q : Virtqueue) (chain : DescChain) (frame : List U8) (ram ram' : GuestRam) : Prop :=
  ∃ written, gather written (writableRanges chain.descs) =
      netHdr ++ frame ++ (gather ram (writableRanges chain.descs)).drop (netHdr.length + frame.length) ∧
    Set.EqOn written ram (addrs (writableRanges chain.descs))ᶜ ∧ q.Placed chain.head written ram' ∧
    (readU32 ram' (q.usedEntry (q.usedIdx written) + 4)).toNat = netHdr.length + frame.length

/-- The used ring gets an entry of length zero, and nothing else has changed. -/
def Rejected (q : Virtqueue) (chain : DescChain) (ram ram' : GuestRam) : Prop :=
  q.Placed chain.head ram ram' ∧ readU32 ram' (q.usedEntry (q.usedIdx ram) + 4) = 0

theorem delivered_of_putUsed {q : Virtqueue} {chain : DescChain} {frame : List U8} {ram ram' : GuestRam} {len : U32}
    (each : (bufferRanges chain.descs).Pairwise fun r r' => Disjoint r.addrs r'.addrs) (present : q.usedAddr ≠ 0)
    (fits : netHdr.length + frame.length ≤ totalCap chain.descs) (counted : len.toNat = netHdr.length + frame.length)
    (run : q.putUsed (scatter ram (writableRanges chain.descs) (netHdr ++ frame)) chain.head len = .ok ram') :
    Delivered q chain frame ram ram' := by
  have apart : (writableRanges chain.descs).Pairwise fun r r' => Disjoint r.addrs r'.addrs :=
    each.sublist (List.filter_sublist.map _)
  have room : (netHdr ++ frame).length ≤ total (writableRanges chain.descs) := by
    rw [List.length_append, total_writableRanges]
    exact fits
  refine ⟨_, ?_, eqOn_scatter _ _ _, Virtqueue.putUsed_placed present run, ?_⟩
  · rw [gather_scatter apart room, List.length_append]
  · rw [Virtqueue.putUsed_length present run, counted]

/-- A network transport with the queue of eight descriptors. -/
def eightEntriesNet : VirtioMmioTransport VirtioNet :=
  { VirtioMmioTransport.new 0x0a000200 (VirtioNet.new 0) 49 with queues := fun _ => eightEntries }

/-- A writable buffer of ten bytes, a buffer that is not writable, and a writable one of 100 bytes. -/
def threeBuffers : List VirtqDesc := [⟨0x8000, 10, 3, 1⟩, ⟨0x8100, 50, 1, 2⟩, ⟨0x8200, 100, 2, 0⟩]

end VirtioMmioTransport

end Hypervisor
