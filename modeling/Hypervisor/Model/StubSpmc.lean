import Hypervisor.Model.Descriptors

/-! # The share-record table of the stub SPMC

`ffa/stub_spmc.rs`: sixteen slots for share records and a counter that issues handles. Every
mutator scans the slots in order and updates the first one that matches, so all of them are one
definition, `updateFirst`, applied to their own test and update. A record keeps its first
`MAX_SHARE_RANGES` ranges.
-/

namespace Hypervisor

def maxShareRanges : ℕ := 4
def maxShares : ℕ := 16

structure MemShareRecord where
  handle : U64
  senderId : U16
  receiverId : U16
  /-- The first `range_count` entries of the source's array. -/
  ranges : List AddrRange
  totalPageCount : U32
  active : Bool
  isLend : Bool
  retrieved : Bool
deriving DecidableEq, Repr

namespace MemShareRecord

def empty : MemShareRecord := ⟨0, 0, 0, [], 0, false, false, false⟩

/-- `record.active && record.handle == handle`. -/
def holds (record : MemShareRecord) (handle : U64) : Bool := record.active && record.handle == handle

end MemShareRecord

/-- The information returned by `lookup_share_full`. -/
structure ShareInfoFull where
  senderId : U16
  receiverId : U16
  ranges : List AddrRange
  totalPageCount : U32
  isLend : Bool
  retrieved : Bool
deriving DecidableEq, Repr

def MemShareRecord.info (record : MemShareRecord) : ShareInfoFull :=
  ⟨record.senderId, record.receiverId, record.ranges, record.totalPageCount, record.isLend,
    record.retrieved⟩

/-- Update the first record that passes the test; `none` when no record does. -/
def updateFirst (test : MemShareRecord → Bool) (update : MemShareRecord → MemShareRecord) :
    List MemShareRecord → Option (List MemShareRecord)
  | [] => none
  | record :: rest =>
      if test record then some (update record :: rest)
      else (updateFirst test update rest).map (record :: ·)

/-- `SHARE_RECORDS` and `NEXT_HANDLE`. -/
structure StubSpmc where
  records : List MemShareRecord
  nextHandle : U64
deriving DecidableEq, Repr

namespace StubSpmc

def init : StubSpmc := ⟨List.replicate maxShares .empty, 1⟩

/-- `fetch_add` wraps. -/
def allocHandle (spmc : StubSpmc) : U64 × StubSpmc :=
  (spmc.nextHandle, { spmc with nextHandle := spmc.nextHandle + 1 })

/-- Record a share in the first free slot. The handle is spent even when there is none. -/
def recordShare (spmc : StubSpmc) (senderId receiverId : U16) (ranges : List AddrRange)
    (totalPageCount : U32) (isLend : Bool) : Option U64 × StubSpmc :=
  let (handle, spmc) := spmc.allocHandle
  let record : MemShareRecord :=
    { handle, senderId, receiverId, ranges := ranges.take maxShareRanges, totalPageCount,
      active := true, isLend, retrieved := false }
  match updateFirst (fun r => !r.active) (fun _ => record) spmc.records with
  | some records => (some handle, { spmc with records })
  | none => (none, spmc)

def lookupShareFull (spmc : StubSpmc) (handle : U64) : Option ShareInfoFull :=
  (spmc.records.find? (·.holds handle)).map MemShareRecord.info

/-- The mutators that search by handle; the source's boolean result says whether one matched. -/
def updateByHandle (spmc : StubSpmc) (test : MemShareRecord → Bool)
    (update : MemShareRecord → MemShareRecord) (handle : U64) : Bool × StubSpmc :=
  match updateFirst (fun r => r.holds handle && test r) update spmc.records with
  | some records => (true, { spmc with records })
  | none => (false, spmc)

def markRetrieved (spmc : StubSpmc) (handle : U64) : Bool × StubSpmc :=
  spmc.updateByHandle (fun r => !r.retrieved) (fun r => { r with retrieved := true }) handle

def markRelinquished (spmc : StubSpmc) (handle : U64) : Bool × StubSpmc :=
  spmc.updateByHandle (fun r => r.retrieved) (fun r => { r with retrieved := false }) handle

def reclaimShare (spmc : StubSpmc) (handle : U64) : Bool × StubSpmc :=
  spmc.updateByHandle (fun _ => true) (fun r => { r with active := false }) handle

end StubSpmc

end Hypervisor
