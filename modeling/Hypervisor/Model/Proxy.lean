import Hypervisor.Model.Machine

/-! # The memory-management handlers of the FF-A proxy

`ffa/proxy.rs` in the `linux_guest` build: MEM_SHARE, MEM_LEND, MEM_RECLAIM, MEM_RETRIEVE_REQ and
MEM_RELINQUISH. The nested loops over ranges and pages visit `pages ranges` in order; each visit
first computes `base_ipa + p * PAGE_SIZE_4KB`, which panics on overflow. Results that the source
drops with `let _ =` are dropped here. The handlers always continue the guest, so the constant
`true` they return is left out.
-/

namespace Hypervisor

/-- The `(base_ipa, p)` pairs that a loop over ranges and pages visits. -/
def pages (ranges : List AddrRange) : List (U64 × ℕ) :=
  ranges.flatMap fun (base, count) => (List.range count.toNat).map (base, ·)

/-- `base_ipa + p * PAGE_SIZE_4KB`. -/
def pageIpa (page : U64 × ℕ) : Option U64 := checkedAdd page.1 (BitVec.ofNat 64 page.2 * pageSize4kb)

/-- `x1` and `x2` carry the halves of a handle. -/
def handleOf (ctx : GpRegs) : U64 := (ctx.x1 &&& 0xFFFFFFFF) ||| ((ctx.x2 &&& 0xFFFFFFFF) <<< 32)

/-! ## Loops over pages -/

/-- Every page must be mapped and owned. -/
def validatePages (walker : Stage2Walker) (mem : PhysMem) :
    List (U64 × ℕ) → Option (Except I32 Unit)
  | [] => some (.ok ())
  | page :: rest => do
      let ipa ← pageIpa page
      match walker.readSwBits mem ipa with
      | none => return .error ffaDenied
      | some sw =>
          match validatePageForShare sw with
          | .error code => return .error code
          | .ok _ => validatePages walker mem rest

/-- Set the SW bits and the permissions of every page, ignoring errors. -/
def transitionPages (walker : Stage2Walker) (sw s2ap : U8) : List (U64 × ℕ) → Phys → Option Phys
  | [], s => some s
  | page :: rest, s => do
      let ipa ← pageIpa page
      let (_, s) ← walker.writeSwBits ipa sw s
      let (_, s) ← walker.setS2ap ipa s2ap s
      transitionPages walker sw s2ap rest s

/-- Unmap every page, ignoring errors. -/
def unmapPages (walker : Stage2Walker) : List (U64 × ℕ) → Phys → Option Phys
  | [], s => some s
  | page :: rest, s => do
      let ipa ← pageIpa page
      unmapPages walker rest (walker.unmapPage ipa s).2

/-- Map pages `p`, `p + 1`, ... of one range. On an error, roll back the ranges before it and the
first `p` pages of this one. -/
def mapRange (walker : Stage2Walker) (s2ap sw : U8) (before : List AddrRange) (base : U64) :
    ℕ → ℕ → Phys → Option (Except I32 Unit × Phys)
  | 0, _, s => some (.ok (), s)
  | count + 1, p, s => do
      let ipa ← pageIpa (base, p)
      let (mapped, s) ← walker.mapPage ipa s2ap sw s
      match mapped with
      | .ok _ => mapRange walker s2ap sw before base count (p + 1) s
      | .error _ =>
          let s ← unmapPages walker (pages before ++ (List.range p).map (base, ·)) s
          return (.error ffaDenied, s)

def mapRanges (walker : Stage2Walker) (s2ap sw : U8) (before : List AddrRange) :
    List AddrRange → Phys → Option (Except I32 Unit × Phys)
  | [], s => some (.ok (), s)
  | (base, count) :: rest, s => do
      let (mapped, s) ← mapRange walker s2ap sw before base count.toNat 0 s
      match mapped with
      | .error code => return (.error code, s)
      | .ok _ => mapRanges walker s2ap sw (before ++ [(base, count)]) rest s

/-! ## MEM_SHARE and MEM_LEND -/

/-- What a share or lend asks for, from the descriptor or from the registers. -/
structure ShareRequest where
  senderId : U16
  receiverId : U16
  ranges : List AddrRange
  totalPageCount : U32
deriving DecidableEq, Repr

/-- Parse the descriptor in the TX buffer; fragments are not supported. -/
def parseShareDescriptor (ctx : GpRegs) (mbox : FfaMailbox) (ram : GuestRam) :
    Except I32 ShareRequest :=
  let totalLength : U32 := ctx.x1.setWidth 32
  let fragmentLength : U32 := ctx.x2.setWidth 32
  if totalLength ≠ fragmentLength ∨ totalLength = 0 then .error ffaInvalidParameters
  else
    (parseMemRegion (fun off => ram (mbox.txIpa.toNat + off)) totalLength).map fun parsed =>
      ⟨parsed.senderId, parsed.receiverId, parsed.ranges, parsed.totalPageCount⟩

/-- Descriptor form when the mailbox is mapped, register form otherwise. -/
def shareRequest (ctx : GpRegs) (mbox : FfaMailbox) (ram : GuestRam) : Except I32 ShareRequest :=
  if mbox.mapped then parseShareDescriptor ctx mbox ram
  else
    let pageCount : U32 := ctx.x4.setWidth 32
    if pageCount = 0 then .error ffaInvalidParameters
    else .ok ⟨0, ctx.x5.setWidth 16, [(ctx.x3, pageCount)], pageCount⟩

/-- The checks of `handle_mem_share_or_lend`, up to the validation of page ownership. -/
def checkShare (m : Machine) (ctx : GpRegs) (ram : GuestRam) : Option (Except I32 ShareRequest) := do
  let mbox ← m.getMailbox m.currentVmId
  match shareRequest ctx mbox ram with
  | .error code => return .error code
  | .ok request =>
      if !isValidReceiver request.receiverId then return .error ffaInvalidParameters
      let expectedSender := vmIdToPartitionId m.currentVmId
      if request.senderId ≠ 0 ∧ request.senderId ≠ expectedSender then
        return .error ffaInvalidParameters
      let walker := Stage2Walker.fromVttbr m.vttbrEl2
      if walker.hasStage2 then
        let valid ← validatePages walker m.phys.mem (pages request.ranges)
        return valid.map fun _ => request
      return .ok request

/-- The permissions a share or a lend leaves the sender. -/
def senderS2ap (isLend : Bool) : U8 :=
  if isLend then (s2apNone >>> s2apShift).setWidth 8 else (s2apRo >>> s2apShift).setWidth 8

/-- The effects of `handle_mem_share_or_lend` once a request passed the checks. -/
def commitShare (m : Machine) (ctx : GpRegs) (request : ShareRequest) (isLend : Bool) :
    Option (GpRegs × Machine) := do
  let walker := Stage2Walker.fromVttbr m.vttbrEl2
  let phys ←
    if walker.hasStage2 then
      transitionPages walker PageOwnership.sharedOwned.bits (senderS2ap isLend)
        (pages request.ranges) m.phys
    else some m.phys
  let (handle, spmc) := m.spmc.recordShare (vmIdToPartitionId m.currentVmId) request.receiverId
    request.ranges request.totalPageCount isLend
  let m := { m with phys, spmc }
  match handle with
  | none => return (ffaError ctx ffaNoMemory, m)
  | some handle =>
      return ({ ctx with x0 := ffaSuccess32, x2 := handle &&& 0xFFFFFFFF, x3 := handle >>> 32 }, m)

def handleMemShareOrLend (m : Machine) (ctx : GpRegs) (ram : GuestRam) (isLend : Bool) :
    Option (GpRegs × Machine) := do
  match ← checkShare m ctx ram with
  | .error code => return (ffaError ctx code, m)
  | .ok request => commitShare m ctx request isLend

def handleMemShare (m : Machine) (ctx : GpRegs) (ram : GuestRam) : Option (GpRegs × Machine) :=
  handleMemShareOrLend m ctx ram false

def handleMemLend (m : Machine) (ctx : GpRegs) (ram : GuestRam) : Option (GpRegs × Machine) :=
  handleMemShareOrLend m ctx ram true

/-! ## MEM_RECLAIM, MEM_RETRIEVE_REQ and MEM_RELINQUISH -/

/-- Restores the caller's pages and drops the record. The caller is not compared with the sender. -/
def handleMemReclaim (m : Machine) (ctx : GpRegs) : Option (GpRegs × Machine) := do
  let handle := handleOf ctx
  match m.spmc.lookupShareFull handle with
  | none => return (ffaError ctx ffaInvalidParameters, m)
  | some info =>
      if info.retrieved then return (ffaError ctx ffaDenied, m)
      let walker := Stage2Walker.fromVttbr m.vttbrEl2
      let phys ←
        if walker.hasStage2 then
          transitionPages walker PageOwnership.owned.bits ((s2apRw >>> s2apShift).setWidth 8)
            (pages info.ranges) m.phys
        else some m.phys
      let (_, spmc) := m.spmc.reclaimShare handle
      return ({ ctx with x0 := ffaSuccess32 }, { m with phys, spmc })

/-- Map the pages for a receiver that is a VM; secure partitions have no stage-2 tables here. -/
def mapIntoReceiver (m : Machine) (info : ShareInfoFull) : Option (Except I32 Unit × Phys) :=
  match partitionIdToVmId info.receiverId with
  | none => some (.ok (), m.phys)
  | some recvVmId => do
      let l0Pa ← m.loadPerVmVttbr recvVmId
      if l0Pa ≠ 0 then
        mapRanges ⟨l0Pa⟩ ((s2apRw >>> s2apShift).setWidth 8) PageOwnership.sharedBorrowed.bits []
          info.ranges m.phys
      else some (.ok (), m.phys)

/-- Unmap the pages from a receiver that is a VM. -/
def unmapFromReceiver (m : Machine) (info : ShareInfoFull) : Option Phys :=
  match partitionIdToVmId info.receiverId with
  | none => some m.phys
  | some recvVmId => do
      let l0Pa ← m.loadPerVmVttbr recvVmId
      if l0Pa ≠ 0 then unmapPages ⟨l0Pa⟩ (pages info.ranges) m.phys else some m.phys

def handleMemRetrieveReq (m : Machine) (ctx : GpRegs) : Option (GpRegs × Machine) := do
  let handle := handleOf ctx
  match m.spmc.lookupShareFull handle with
  | none => return (ffaError ctx ffaInvalidParameters, m)
  | some info =>
      let callerId := vmIdToPartitionId m.currentVmId
      if callerId ≠ info.receiverId then return (ffaError ctx ffaDenied, m)
      if info.retrieved then return (ffaError ctx ffaDenied, m)
      let (mapped, phys) ← mapIntoReceiver m info
      match mapped with
      | .error code => return (ffaError ctx code, { m with phys })
      | .ok _ =>
          let (_, spmc) := m.spmc.markRetrieved handle
          return ({ ctx with x0 := ffaMemRetrieveResp, x1 := 0, x2 := handle &&& 0xFFFFFFFF,
                             x3 := handle >>> 32 }, { m with phys, spmc })

def handleMemRelinquish (m : Machine) (ctx : GpRegs) : Option (GpRegs × Machine) := do
  let handle := handleOf ctx
  match m.spmc.lookupShareFull handle with
  | none => return (ffaError ctx ffaInvalidParameters, m)
  | some info =>
      let callerId := vmIdToPartitionId m.currentVmId
      if callerId ≠ info.receiverId then return (ffaError ctx ffaDenied, m)
      if !info.retrieved then return (ffaError ctx ffaDenied, m)
      let phys ← unmapFromReceiver m info
      let (_, spmc) := m.spmc.markRelinquished handle
      return ({ ctx with x0 := ffaSuccess32 }, { m with phys, spmc })

/-! ## Dispatch -/

/-- The memory-management calls among the FF-A functions. -/
inductive MemCall where
  | share
  | lend
  | reclaim
  | retrieveReq
  | relinquish
deriving DecidableEq, Repr

/-- `handle_ffa_call` on the memory-management function identifiers. -/
def memCallOf (functionId : U64) : Option MemCall :=
  if functionId = ffaMemShare32 ∨ functionId = ffaMemShare64 then some .share
  else if functionId = ffaMemLend32 ∨ functionId = ffaMemLend64 then some .lend
  else if functionId = ffaMemReclaim then some .reclaim
  else if functionId = ffaMemRetrieveReq32 ∨ functionId = ffaMemRetrieveReq64 then some .retrieveReq
  else if functionId = ffaMemRelinquish then some .relinquish
  else none

/-- Run the handler of a memory-management call. -/
def MemCall.handle (call : MemCall) (m : Machine) (ctx : GpRegs) (ram : GuestRam) :
    Option (GpRegs × Machine) :=
  match call with
  | share => handleMemShare m ctx ram
  | lend => handleMemLend m ctx ram
  | reclaim => handleMemReclaim m ctx
  | retrieveReq => handleMemRetrieveReq m ctx
  | relinquish => handleMemRelinquish m ctx

end Hypervisor
