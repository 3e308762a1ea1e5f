import Hypervisor.Model.Vm

/-! # The virtual redistributors

`devices/gic/redistributor.rs`: each vCPU has a frame of control registers (RD) and one for its SGIs and
PPIs (SGI). Nothing is forwarded to hardware. The answer of `write`, which is always `true`, is left out.
-/

namespace Hypervisor

/-- `GICR_PER_CPU`. -/
def gicrPerCpu : U64 := 0x20000

def gicrIpriorityrBase : U64 := 0x0400
/-- The last offset that is matched. -/
def gicrIpriorityrEnd : U64 := 0x041C

/-- The state of one redistributor. -/
structure GicrState where
  ctlr : U32
  waker : U32
  igroupr0 : U32
  isenabler0 : U32
  ispendr0 : U32
  isactiver0 : U32
  /-- Four INTIDs in each register. -/
  ipriorityr : Fin 8 → U32
  icfgr0 : U32
  icfgr1 : U32

/-- At reset the redistributor sleeps; SGIs are edge-triggered. -/
def GicrState.new : GicrState := ⟨0, 0x06, 0, 0, 0, 0, fun _ => 0, 0xAAAAAAAA, 0⟩

/-! ## Registers -/

/-- The registers of an RD frame. `typerHigh` is the upper half of the 64-bit `typer`. -/
inductive RdReg where
  | ctlr | iidr | typer | typerHigh | statusr | waker | pidr2
deriving DecidableEq, Repr

namespace RdReg

def offset : RdReg → U64
  | ctlr => 0x0000
  | iidr => 0x0004
  | typer => 0x0008
  | typerHigh => 0x000C
  | statusr => 0x0010
  | waker => 0x0014
  | pidr2 => 0xFFE8

def all : List RdReg := [ctlr, iidr, typer, typerHigh, statusr, waker, pidr2]

/-- The register that a `match` on the offset selects. -/
def ofOffset (off : U64) : Option RdReg := all.find? fun reg => reg.offset == off

end RdReg

/-- The registers of an SGI frame. -/
inductive SgiReg where
  | igroupr0 | isenabler0 | icenabler0 | ispendr0 | icpendr0 | isactiver0 | icactiver0
  | ipriorityr (idx : Fin 8)
  | icfgr0 | icfgr1
deriving DecidableEq, Repr

namespace SgiReg

/-- The registers that have an offset of their own. -/
def single : List (U64 × SgiReg) :=
  [(0x0080, igroupr0), (0x0100, isenabler0), (0x0180, icenabler0), (0x0200, ispendr0), (0x0280, icpendr0),
    (0x0300, isactiver0), (0x0380, icactiver0), (0x0C00, icfgr0), (0x0C04, icfgr1)]

def ofOffset (off : U64) : Option SgiReg :=
  if gicrIpriorityrBase ≤ off ∧ off ≤ gicrIpriorityrEnd then
    if bound : ((off - gicrIpriorityrBase) / 4).toNat < 8 then
      some (ipriorityr ⟨((off - gicrIpriorityrBase) / 4).toNat, bound⟩)
    else none
  else (single.find? fun entry => entry.1 == off).map Prod.snd

end SgiReg

/-! ## The device -/

structure VirtualGicr where
  state : Fin maxSmpCpus → GicrState
  numVcpus : ℕ
  /-- Asserted by `new`. -/
  le : numVcpus ≤ maxSmpCpus

namespace VirtualGicr

def new (numVcpus : ℕ) (le : numVcpus ≤ maxSmpCpus) : VirtualGicr := ⟨fun _ => .new, numVcpus, le⟩

/-- Replace the state of one redistributor. -/
def setState (gicr : VirtualGicr) (vcpuId : Fin maxSmpCpus) (st : GicrState) : VirtualGicr :=
  { gicr with state := Function.update gicr.state vcpuId st }

/-- Affinity, processor number, and a flag for the last redistributor. -/
def typerValue (gicr : VirtualGicr) (vcpuId : Fin maxSmpCpus) : U64 :=
  let aff0 := BitVec.ofNat 64 vcpuId.val <<< 32
  let procNum := BitVec.ofNat 64 vcpuId.val <<< 8
  let last : U64 := if vcpuId.val + 1 = gicr.numVcpus then 1 <<< 4 else 0
  aff0 ||| procNum ||| last

/-- The vCPU, whether it is its SGI frame, and the offset in the frame. -/
def decodeOffset (gicr : VirtualGicr) (offset : U64) : Option (Fin maxSmpCpus × Bool × U64) :=
  if bound : (offset / gicrPerCpu).toNat < gicr.numVcpus then
    let vcpuId : Fin maxSmpCpus := ⟨(offset / gicrPerCpu).toNat, Nat.lt_of_lt_of_le bound gicr.le⟩
    let within := offset % gicrPerCpu
    if within < 0x10000 then some (vcpuId, false, within) else some (vcpuId, true, within - 0x10000)
  else none

/-- Only the type register looks at the size. -/
def readRd (gicr : VirtualGicr) (vcpuId : Fin maxSmpCpus) (offset : U64) (size : U8) : U64 :=
  match RdReg.ofOffset offset with
  | some .ctlr => (gicr.state vcpuId).ctlr.setWidth 64
  | some .iidr => 0x0000043B
  | some .typer =>
      if size = 8 then gicr.typerValue vcpuId
      else if size = 4 then gicr.typerValue vcpuId &&& 0xFFFFFFFF
      else 0
  | some .typerHigh => if size = 4 then gicr.typerValue vcpuId >>> 32 else 0
  | some .statusr => 0
  | some .waker => (gicr.state vcpuId).waker.setWidth 64
  | some .pidr2 => 0x30
  | none => 0

def writeRd (st : GicrState) (offset value : U64) : GicrState :=
  match RdReg.ofOffset offset with
  | some .ctlr => { st with ctlr := value.setWidth 32 }
  | some .waker =>
      -- ChildrenAsleep follows ProcessorSleep
      if value.setWidth 32 &&& ((1 : U32) <<< 1) = 0 then { st with waker := 0 }
      else { st with waker := ((1 : U32) <<< 1) ||| ((1 : U32) <<< 2) }
  | _ => st

/-- The size is ignored. -/
def readSgi (st : GicrState) (offset : U64) : U32 :=
  match SgiReg.ofOffset offset with
  | some .igroupr0 => st.igroupr0
  | some .isenabler0 => st.isenabler0
  | some .icenabler0 => st.isenabler0
  | some .ispendr0 => st.ispendr0
  | some .icpendr0 => st.ispendr0
  | some .isactiver0 => st.isactiver0
  | some .icactiver0 => st.isactiver0
  | some (.ipriorityr idx) => st.ipriorityr idx
  | some .icfgr0 => st.icfgr0
  | some .icfgr1 => st.icfgr1
  | none => 0

/-- The size is ignored, also for `IPRIORITYR`. -/
def writeSgi (st : GicrState) (offset value : U64) : GicrState :=
  let val : U32 := value.setWidth 32
  match SgiReg.ofOffset offset with
  | some .igroupr0 => { st with igroupr0 := val }
  | some .isenabler0 => { st with isenabler0 := st.isenabler0 ||| val }
  | some .icenabler0 => { st with isenabler0 := st.isenabler0 &&& ~~~val }
  | some .ispendr0 => { st with ispendr0 := st.ispendr0 ||| val }
  | some .icpendr0 => { st with ispendr0 := st.ispendr0 &&& ~~~val }
  | some .isactiver0 => { st with isactiver0 := st.isactiver0 ||| val }
  | some .icactiver0 => { st with isactiver0 := st.isactiver0 &&& ~~~val }
  | some (.ipriorityr idx) => { st with ipriorityr := Function.update st.ipriorityr idx val }
  | some .icfgr0 => st
  | some .icfgr1 => { st with icfgr1 := val }
  | none => st

def read (gicr : VirtualGicr) (offset : U64) (size : U8) : Option U64 :=
  (gicr.decodeOffset offset).map fun place =>
    if place.2.1 then (readSgi (gicr.state place.1) place.2.2).setWidth 64 else gicr.readRd place.1 place.2.2 size

def write (gicr : VirtualGicr) (offset value : U64) (_size : U8) : VirtualGicr :=
  match gicr.decodeOffset offset with
  | some place =>
      if place.2.1 then gicr.setState place.1 (writeSgi (gicr.state place.1) place.2.2 value)
      else gicr.setState place.1 (writeRd (gicr.state place.1) place.2.2 value)
  | none => gicr

end VirtualGicr

end Hypervisor
