import Hypervisor.Model.Memory

/-! # Split virtqueues

`devices/virtio/queue.rs`. The descriptor table, the available ring and the used ring of a queue
stand in guest memory at addresses that the guest programs, and EL2 reads and writes them through
the identity map. The sums `avail_addr + 4` and `used_addr + 4` are `u64` sums and panic on
overflow; what `ptr::add` and a field of a pointer add is pointer arithmetic and is not checked.
-/

namespace Hypervisor

/-- Why a device does not return to the guest. -/
inductive VirtioStop where
  /-- A panic in a method of the virtqueue. -/
  | queuePanic
  /-- A panic in the device itself. -/
  | devicePanic
  /-- A loop has used up the `fuel` of the model. -/
  | outOfFuel
deriving DecidableEq, Repr

/-- A checked operation, with the panic it stands for. -/
def orStop {α : Type} (stop : VirtioStop) : Option α → Except VirtioStop α
  | some a => .ok a
  | none => .error stop

/-- Remainder of `u16` values: zero as divisor panics. -/
def checkedRem (x y : U16) : Option U16 := if y = 0 then none else some (x % y)

section Checked

variable {α : Type} {stop : VirtioStop} {o : Option α} {a : α}

@[simp] theorem orStop_some : orStop stop (some a) = .ok a := rfl

@[simp] theorem orStop_none : orStop stop (none : Option α) = .error stop := rfl

theorem orStop_eq_ok_iff : orStop stop o = .ok a ↔ o = some a := by
  cases o <;> simp

end Checked

/-! ## Layout in guest memory -/

structure VirtqDesc where
  /-- Guest physical address of the buffer. -/
  addr : U64
  /-- Length of the buffer in bytes. -/
  len : U32
  flags : U16
  /-- Index of the next descriptor of the chain, if the NEXT flag is set. -/
  next : U16
deriving DecidableEq, Repr

def virtqDescFNext : U16 := 1
def virtqDescFWrite : U16 := 2

/-- The descriptor of index `idx` in the table at `descBase`; a descriptor has 16 bytes. -/
def readVirtqDesc (ram : GuestRam) (descBase : ℕ) (idx : U16) : VirtqDesc :=
  let ptr := descBase + 16 * idx.toNat
  ⟨readU64 ram ptr, readU32 ram (ptr + 8), readU16 ram (ptr + 12), readU16 ram (ptr + 14)⟩

/-- The descriptors that `get_avail_desc` has read, without the unused rest of its array of four. -/
structure DescChain where
  /-- Index of the first descriptor, which `put_used` reports. -/
  head : U16
  descs : List VirtqDesc
  count_le : descs.length ≤ 4

/-- Number of valid descriptors. -/
def DescChain.count (chain : DescChain) : ℕ := chain.descs.length

/-! ## The queue -/

structure Virtqueue where
  descAddr : U64 := 0
  availAddr : U64 := 0
  usedAddr : U64 := 0
  /-- Number of descriptors. -/
  num : U16 := 0
  /-- The available index up to which entries have been taken. -/
  lastAvailIdx : U16 := 0
  ready : Bool := false
deriving DecidableEq, Repr

/-- An address from the two halves that the driver writes. -/
def joinHalves (low high : U32) : U64 := low.setWidth 64 ||| high.setWidth 64 <<< 32

namespace Virtqueue

def new : Virtqueue := {}

def setDescAddr (q : Virtqueue) (low high : U32) : Virtqueue := { q with descAddr := joinHalves low high }

def setAvailAddr (q : Virtqueue) (low high : U32) : Virtqueue := { q with availAddr := joinHalves low high }

def setUsedAddr (q : Virtqueue) (low high : U32) : Virtqueue := { q with usedAddr := joinHalves low high }

def descAddrLow (q : Virtqueue) : U32 := q.descAddr.setWidth 32

def availAddrLow (q : Virtqueue) : U32 := q.availAddr.setWidth 32

def usedAddrLow (q : Virtqueue) : U32 := q.usedAddr.setWidth 32

def reset (q : Virtqueue) : Virtqueue :=
  { q with descAddr := 0, availAddr := 0, usedAddr := 0, num := 0, lastAvailIdx := 0, ready := false }

/-- The guest has published entries that are not taken yet. -/
def hasAvail (q : Virtqueue) (ram : GuestRam) : Bool :=
  if !q.ready || q.availAddr == 0 then false
  else readU16 ram (q.availAddr.toNat + 2) != q.lastAvailIdx

/-- The loop over at most `n` descriptors, the next of which has index `idx`. -/
def walkChain (q : Virtqueue) (ram : GuestRam) : ℕ → U16 → List VirtqDesc
  | 0, _ => []
  | n + 1, idx =>
      if q.num ≤ idx then []
      else
        let desc := readVirtqDesc ram q.descAddr.toNat idx
        if desc.flags &&& virtqDescFNext = 0 then [desc] else desc :: walkChain q ram n desc.next

theorem length_walkChain_le (q : Virtqueue) (ram : GuestRam) (n : ℕ) (idx : U16) :
    (q.walkChain ram n idx).length ≤ n := by
  induction n generalizing idx with
  | zero => exact le_rfl
  | succ n ih =>
    rw [walkChain]
    dsimp only
    split_ifs
    · exact Nat.zero_le _
    · exact Nat.le_add_left 1 n
    · exact Nat.succ_le_succ (ih _)

/-- Take the next chain from the available ring. -/
def getAvailDesc (q : Virtqueue) (ram : GuestRam) : Except VirtioStop (Option (DescChain × Virtqueue)) := do
  if !q.hasAvail ram then return none
  let ringBase ← orStop .queuePanic (checkedAdd q.availAddr 4)
  let ringIdx ← orStop .queuePanic (checkedRem q.lastAvailIdx q.num)
  let head := readU16 ram (ringBase.toNat + 2 * ringIdx.toNat)
  return some (⟨head, q.walkChain ram 4 head, q.length_walkChain_le ram 4 head⟩,
    { q with lastAvailIdx := q.lastAvailIdx + 1 })

/-- Return a chain in the used ring: first the entry, then the index. -/
def putUsed (q : Virtqueue) (ram : GuestRam) (head : U16) (len : U32) : Except VirtioStop GuestRam := do
  if q.usedAddr = 0 then return ram
  let usedIdx := readU16 ram (q.usedAddr.toNat + 2)
  let ringIdx ← orStop .queuePanic (checkedRem usedIdx q.num)
  let elemBase ← orStop .queuePanic (checkedAdd q.usedAddr 4)
  let elem := elemBase.toNat + 8 * ringIdx.toNat
  let ram := writeU32 (writeU32 ram elem (head.setWidth 32)) (elem + 4) len
  return writeU16 ram (q.usedAddr.toNat + 2) (usedIdx + 1)

end Virtqueue

end Hypervisor
