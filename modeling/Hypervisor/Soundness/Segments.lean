import Hypervisor.Soundness.DiskArray

/-! # Chains of many segments

The device reports that a request may have 128 data segments, and takes the first four descriptors of a
chain. It writes the status to the last descriptor that it has: a request with three or more data
segments gets its status into the third of them, and the segments from there on are not transferred.
-/

namespace Hypervisor

namespace VirtioBlk

variable {blk : VirtioBlk} {dir : DiskDir} {descs : List VirtqDesc} {ram : GuestRam}

/-- The first four descriptors of a longer request are a request of two data segments. -/
theorem inRange_take (inRange : blk.InRange dir descs ram) (long : 4 < descs.length) :
    blk.InRange dir (descs.take 4) ram ∧ (requestData (descs.take 4)).length = 2 ∧ 2 < (requestData descs).length := by
  match descs with
  | first :: a :: b :: c :: d :: rest =>
    have data : requestData (first :: a :: b :: c :: d :: rest) = a :: b :: c :: (d :: rest).dropLast := rfl
    refine ⟨⟨Nat.le_add_left 2 2, inRange.transfer, le_trans ?_ inRange.fits⟩, rfl, ?_⟩
    · refine Nat.add_le_add_left ?_ _
      rw [data, dataLength_cons, dataLength_cons, ← Nat.add_assoc]
      exact Nat.le_add_right _ _
    · rw [data, List.length_cons, List.length_cons, List.length_cons]
      omega

/-- Header, three data segments and status of a read. -/
def threeSegments : List VirtqDesc :=
  [⟨0x4000, 16, 1, 1⟩, ⟨0x8000, 512, 3, 2⟩, ⟨0x8200, 512, 3, 3⟩, ⟨0x8400, 512, 3, 4⟩, ⟨0x5000, 1, 2, 0⟩]

/-- The chain in guest memory; the third segment and the status byte start as 0xFF. -/
def threeSegmentsRam : GuestRam := writeU8 (writeU8 (oneChain threeSegments) 0x8400 0xFF) 0x5000 0xFF

end VirtioBlk

end Hypervisor
