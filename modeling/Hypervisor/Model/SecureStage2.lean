import Hypervisor.Model.Mmu

/-! # Stage 2 of a secure partition

`secure_stage2.rs`: the tables of an SP, from a heap in secure memory of which no page is ever freed.
Of the configuration only the root of the tables is kept; `VSTCR_EL2` is a constant.
-/

namespace Hypervisor

def secureHeapStart : U64 := 0x0e500000
def secureHeapSize : U64 := 0x0f000000 - secureHeapStart
def sp1LoadAddr : U64 := 0x0e300000
def sp1MemSize : U64 := 0x100000
def spUartBase : U64 := 0x09000000

/-- `heap::init_at`. -/
def Phys.initAt (s : Phys) (start size : U64) : Option Phys :=
  (BumpAllocator.new start size).map fun alloc => { s with heap := some alloc }

/-- `VSTTBR_EL2` for an L0 table. -/
def vsttbrOf (pageTableAddr : U64) : U64 := pageTableAddr &&& 0x0000FFFFFFFFFFFE

/-- `build_sp_stage2`: the region of the SP as Normal memory, then the block of the UART as Device memory. -/
def buildSpStage2 (spBase spSize : U64) (s : Phys) : Option (Except String DynamicIdentityMapper × Phys) := do
  let (mapper, s) ← DynamicIdentityMapper.new s
  let (result, mapper, s) ← mapper.mapRegion spBase spSize .normal s
  match result with
  | .error text => return (.error text, s)
  | .ok () =>
      let (result, mapper, s) ← mapper.mapRegion spUartBase blockSize2mb .device s
      return (result.map fun _ => mapper, s)

end Hypervisor
