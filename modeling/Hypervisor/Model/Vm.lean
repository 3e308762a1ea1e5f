import Hypervisor.Model.Machine
import Hypervisor.Model.Mmu

/-! # How a VM gets its memory

`Vm::init_memory` of `vm.rs` in the `linux_guest` build and the two guests that `guest_loader.rs`
boots. The guest region is mapped around the heap, the GIC region is mapped as device memory, and
the GIC frames that are emulated are taken out again. Entry points, device trees and vCPUs do not
reach the tables and are left out.
-/

namespace Hypervisor

/-- `platform::MAX_SMP_CPUS`. -/
def maxSmpCpus : ℕ := 8

/-- The part of `dtb::PlatformInfo` that decides which GIC frames are emulated. -/
structure PlatformInfo where
  gicdBase : U64
  gicrBase : U64
  numCpus : ℕ
deriving DecidableEq, Repr

namespace PlatformInfo

/-- The values used when there is no usable device tree. -/
def default : PlatformInfo := ⟨0x08000000, 0x080A0000, 4⟩

/-- `gicr_rd_base`. -/
def gicrRdBase (info : PlatformInfo) (cpuId : ℕ) : Option U64 :=
  checkedAdd info.gicrBase (BitVec.ofNat 64 cpuId * 0x20000)

/-- The base address and the number of pages of each emulated frame, in the order of the loops. -/
def frames (info : PlatformInfo) : List (Option U64 × ℕ) :=
  (some info.gicdBase, 16) :: (List.range info.numCpus).map fun cpu => (info.gicrRdBase cpu, 32)

end PlatformInfo

/-- `Result::expect`: an error is a panic. -/
def expectOk {α β : Type} : Except String α × β → Option (α × β)
  | (.ok value, state) => some (value, state)
  | (.error _, _) => none

/-- Unmap pages `page`, `page + 1`, ... of a frame. -/
def unmapFrame (mapper : DynamicIdentityMapper) (base : U64) : ℕ → ℕ → Phys → Option Phys
  | 0, _, s => some s
  | count + 1, page, s => do
      let addr ← checkedAdd base (BitVec.ofNat 64 page * pageSize4kb)
      let (_, s) ← expectOk (← mapper.unmap4kbPage addr s)
      unmapFrame mapper base count (page + 1) s

def unmapFrames (mapper : DynamicIdentityMapper) : List (Option U64 × ℕ) → Phys → Option Phys
  | [], s => some s
  | (base, count) :: rest, s => do
      let s ← unmapFrame mapper (← base) count 0 s
      unmapFrames mapper rest s

/-- The region from one address to another, if there is one, as a base address and a size. -/
def regionBetween (start stop : U64) : Option (List (U64 × U64)) :=
  if start < stop then (checkedSub stop start).map fun size => [(start, size)] else some []

/-- The guest region without the part that the heap occupies: the portions before and after it. -/
def guestRegions (startAligned sizeAligned : U64) : Option (List (U64 × U64)) := do
  let heapEnd ← checkedAdd heapStart heapSize
  let endAligned ← checkedAdd startAligned sizeAligned
  let overlapStart := if startAligned < heapStart then heapStart else startAligned
  let overlapEnd := if heapEnd < endAligned then heapEnd else endAligned
  if overlapStart < overlapEnd then
    let before ← regionBetween startAligned overlapStart
    let after ← regionBetween overlapEnd endAligned
    return before ++ after
  return [(startAligned, sizeAligned)]

/-- Map regions with one attribute; an error is a panic. -/
def mapRegions (attr : MemoryAttribute) :
    List (U64 × U64) → DynamicIdentityMapper → Phys → Option (DynamicIdentityMapper × Phys)
  | [], mapper, s => some (mapper, s)
  | (ipa, size) :: rest, mapper, s => do
      let (_, mapper, s) ← expectOk (← mapper.mapRegion ipa size attr s)
      mapRegions attr rest mapper s

/-- Build the tables of a VM; the result is the address of the L0 table. -/
def buildTables (info : PlatformInfo) (startAligned sizeAligned : U64) (s : Phys) :
    Option (U64 × Phys) := do
  let (mapper, s) ← DynamicIdentityMapper.new s
  let (mapper, s) ← mapRegions .normal (← guestRegions startAligned sizeAligned) mapper s
  let (mapper, s) ← mapRegions .device [(gicRegionBase, gicRegionSize)] mapper s
  let s ← unmapFrames mapper info.frames s
  return (mapper.l0Table, s)

/-- `Stage2Config::new_with_vmid`. -/
def vttbrWithVmid (pageTableAddr : U64) (vmid : ℕ) : U64 :=
  (pageTableAddr &&& (0x0000FFFFFFFFFFFE : U64)) ||| (BitVec.ofNat 64 vmid <<< 48)

structure Vm where
  id : VmId
  memoryInitialized : Bool
deriving DecidableEq, Repr

namespace Vm

/-- More CPUs than `VirtualGicr::new` has redistributors for are a panic. -/
def new (info : PlatformInfo) (id : VmId) : Option Vm :=
  if info.numCpus ≤ maxSmpCpus then some ⟨id, false⟩ else none

/-- Round the region to 2MB and map it, once. -/
def initMemory (vm : Vm) (info : PlatformInfo) (guestMemStart guestMemSize : U64) (m : Machine) :
    Option (Vm × Machine) := do
  if vm.memoryInitialized then return (vm, m)
  let startAligned := guestMemStart &&& ~~~blockMask2mb
  let sizeAligned := (← checkedSub (← checkedAdd guestMemSize blockSize2mb) 1) / blockSize2mb * blockSize2mb
  let (l0Table, phys) ← buildTables info startAligned sizeAligned m.phys
  let vttbr := vttbrWithVmid l0Table vm.id
  return ({ vm with memoryInitialized := true },
    { m with
      phys
      vmVttbr := Function.update m.vmVttbr vm.id vttbr
      perVmVttbr := Function.update m.perVmVttbr vm.id (vttbr &&& pteAddrMask)
      vttbrEl2 := vttbr })

end Vm

/-- The region that a guest configuration maps. -/
structure GuestConfig where
  loadAddr : U64
  memSize : U64
deriving DecidableEq, Repr

namespace GuestConfig

def linuxDefault : GuestConfig := ⟨guestRamBase, (guestLoadAddr - guestRamBase) + linuxMemSize⟩

def linuxVm1 : GuestConfig :=
  let memStart := vm1GuestLoadAddr - 0x08000000
  ⟨memStart, (vm1GuestLoadAddr - memStart) + vm1LinuxMemSize⟩

end GuestConfig

/-- The memory of the two guests; VM 0 is active again afterwards. -/
def runMultiVmGuests (info : PlatformInfo) (m : Machine) : Option Machine := do
  let vm0 ← Vm.new info 0
  let (_, m) ← vm0.initMemory info GuestConfig.linuxDefault.loadAddr GuestConfig.linuxDefault.memSize m
  let vm0Vttbr := m.vmVttbr 0
  let vm1 ← Vm.new info 1
  let (_, m) ← vm1.initMemory info GuestConfig.linuxVm1.loadAddr GuestConfig.linuxVm1.memSize m
  return { m with vttbrEl2 := vm0Vttbr }

example : GuestConfig.linuxDefault = ⟨0x40000000, 0x48000000⟩ := by decide
example : GuestConfig.linuxVm1 = ⟨0x60000000, 0x18000000⟩ := by decide

end Hypervisor
