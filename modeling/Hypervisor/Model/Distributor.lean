import Hypervisor.Model.Defs
import Mathlib.Logic.Function.Basic

/-! # The virtual distributor

`devices/gic/distributor.rs`: guest accesses to the GICD are served from shadow registers, and writes are
also forwarded to the physical distributor. Accesses never fail, so only their values and effects are here.
-/

namespace Hypervisor

def gicdCtlrAreNs : U32 := 1 <<< 4
def gicdCtlr : U64 := 0x000
def gicdTyper : U64 := 0x004
def gicdIidr : U64 := 0x008
def gicdIgrouprBase : U64 := 0x080
def gicdIgrouprEnd : U64 := 0x0FC
def gicdIsenablerBase : U64 := 0x100
def gicdIsenablerEnd : U64 := 0x17C
def gicdIcenablerBase : U64 := 0x180
def gicdIcenablerEnd : U64 := 0x1FC
def gicdIspendrBase : U64 := 0x200
def gicdIspendrEnd : U64 := 0x27C
def gicdIcpendrBase : U64 := 0x280
def gicdIcpendrEnd : U64 := 0x2FC
def gicdIsactiverBase : U64 := 0x300
def gicdIsactiverEnd : U64 := 0x37C
def gicdIcactiverBase : U64 := 0x380
def gicdIcactiverEnd : U64 := 0x3FC
def gicdIpriorityrBase : U64 := 0x400
def gicdIpriorityrEnd : U64 := 0x7FC
def gicdIcfgrBase : U64 := 0xC00
def gicdIcfgrEnd : U64 := 0xCFC
def gicdIrouterBase : U64 := 0x6100
/-- The last offset that is matched. -/
def gicdIrouterEnd : U64 := 0x7FD8
def gicdPidr2 : U64 := 0xFFE8

structure VirtualGicd where
  ctlr : U32
  enabled : Fin 32 → U32
  igroupr : Fin 32 → U32
  ipriorityr : Fin 256 → U32
  icfgr : Fin 64 → U32
  ispendr : Fin 32 → U32
  isactiver : Fin 32 → U32
  /-- One register for each of the INTIDs 32 to 1019. -/
  irouter : Fin 988 → U64
  numCpus : U32

namespace VirtualGicd

def new (numCpus : U32) : VirtualGicd :=
  ⟨0, fun _ => 0, fun _ => 0, fun _ => 0, fun _ => 0, fun _ => 0, fun _ => 0, fun _ => 0, numCpus⟩

def setNumCpus (gicd : VirtualGicd) (n : U32) : VirtualGicd := { gicd with numCpus := n }

/-- The target vCPU of an SPI. -/
def routeSpi (gicd : VirtualGicd) (intid : ℕ) : ℕ :=
  if h : intid < 32 ∨ 1020 ≤ intid then 0
  else (gicd.irouter ⟨intid - 32, by omega⟩ &&& 0xFF).toNat

/-- The register that `read_irouter` and `write_irouter` find at an offset. -/
def irouterIndex (offset : U64) : Option (Fin 988) :=
  let byteOff := offset - gicdIrouterBase
  if byteOff &&& 0x7 ≠ 0 then none
  else if h : (byteOff / 8).toNat < 988 then some ⟨(byteOff / 8).toNat, h⟩
  else none

def readIrouter (gicd : VirtualGicd) (offset : U64) : U64 := (irouterIndex offset).elim 0 gicd.irouter

def writeIrouter (gicd : VirtualGicd) (offset value : U64) : VirtualGicd :=
  match irouterIndex offset with
  | some n => { gicd with irouter := Function.update gicd.irouter n value }
  | none => gicd

def inRange (base last offset : U64) : Bool := base ≤ offset && offset ≤ last

/-- A bank of 32-bit registers from `base` on. -/
def readBank {n : ℕ} (bank : Fin n → U32) (base offset : U64) : U64 :=
  if h : ((offset - base) / 4).toNat < n then (bank ⟨((offset - base) / 4).toNat, h⟩).setWidth 64 else 0

def writeBank {n : ℕ} (bank : Fin n → U32) (base offset : U64) (f : U32 → U32) : Fin n → U32 :=
  if h : ((offset - base) / 4).toNat < n then
    Function.update bank ⟨((offset - base) / 4).toNat, h⟩ (f (bank ⟨((offset - base) / 4).toNat, h⟩))
  else bank

/-- `GICD_TYPER`: 1024 interrupts, the number of CPUs, A3V, No1N and ten bits of INTID. -/
def typer (gicd : VirtualGicd) : U64 :=
  let cpuNum := ((if gicd.numCpus = 0 then 0 else gicd.numCpus - 1) &&& 0x7) <<< 5
  ((31 : U32) ||| cpuNum ||| (1 <<< 24) ||| (1 <<< 25) ||| (9 <<< 19)).setWidth 64

/-- The 32-bit registers. -/
def read32 (gicd : VirtualGicd) (offset : U64) : U64 :=
  if offset = gicdCtlr then (gicd.ctlr ||| gicdCtlrAreNs).setWidth 64
  else if offset = gicdTyper then gicd.typer
  else if offset = gicdIidr then 0x0000043B
  else if inRange gicdIgrouprBase gicdIgrouprEnd offset then readBank gicd.igroupr gicdIgrouprBase offset
  else if inRange gicdIsenablerBase gicdIsenablerEnd offset then readBank gicd.enabled gicdIsenablerBase offset
  else if inRange gicdIcenablerBase gicdIcenablerEnd offset then readBank gicd.enabled gicdIcenablerBase offset
  else if inRange gicdIspendrBase gicdIspendrEnd offset then readBank gicd.ispendr gicdIspendrBase offset
  else if inRange gicdIcpendrBase gicdIcpendrEnd offset then readBank gicd.ispendr gicdIcpendrBase offset
  else if inRange gicdIsactiverBase gicdIsactiverEnd offset then readBank gicd.isactiver gicdIsactiverBase offset
  else if inRange gicdIcactiverBase gicdIcactiverEnd offset then readBank gicd.isactiver gicdIcactiverBase offset
  else if inRange gicdIpriorityrBase gicdIpriorityrEnd offset then readBank gicd.ipriorityr gicdIpriorityrBase offset
  else if inRange gicdIcfgrBase gicdIcfgrEnd offset then readBank gicd.icfgr gicdIcfgrBase offset
  else if offset = gicdPidr2 then 0x30
  else 0

/-- A read of `size` bytes. IROUTER registers have 64 bits, of which a half may be read. -/
def read (gicd : VirtualGicd) (offset : U64) (size : U8) : U64 :=
  if inRange gicdIrouterBase gicdIrouterEnd offset ∧ size = 8 then gicd.readIrouter offset
  else if inRange gicdIrouterBase gicdIrouterEnd offset ∧ size = 4 then
    let full := gicd.readIrouter (offset &&& ~~~0x7)
    if offset &&& 0x4 = 0 then full &&& 0xFFFFFFFF else full >>> 32
  else if size ≠ 4 then 0
  else gicd.read32 offset

def write32 (gicd : VirtualGicd) (offset : U64) (val : U32) : VirtualGicd :=
  if offset = gicdCtlr then { gicd with ctlr := val ||| gicdCtlrAreNs }
  else if inRange gicdIgrouprBase gicdIgrouprEnd offset then
    { gicd with igroupr := writeBank gicd.igroupr gicdIgrouprBase offset fun _ => val }
  else if inRange gicdIsenablerBase gicdIsenablerEnd offset then
    { gicd with enabled := writeBank gicd.enabled gicdIsenablerBase offset (· ||| val) }
  else if inRange gicdIcenablerBase gicdIcenablerEnd offset then
    { gicd with enabled := writeBank gicd.enabled gicdIcenablerBase offset (· &&& ~~~val) }
  else if inRange gicdIspendrBase gicdIspendrEnd offset then
    { gicd with ispendr := writeBank gicd.ispendr gicdIspendrBase offset (· ||| val) }
  else if inRange gicdIcpendrBase gicdIcpendrEnd offset then
    { gicd with ispendr := writeBank gicd.ispendr gicdIcpendrBase offset (· &&& ~~~val) }
  else if inRange gicdIsactiverBase gicdIsactiverEnd offset then
    { gicd with isactiver := writeBank gicd.isactiver gicdIsactiverBase offset (· ||| val) }
  else if inRange gicdIcactiverBase gicdIcactiverEnd offset then
    { gicd with isactiver := writeBank gicd.isactiver gicdIcactiverBase offset (· &&& ~~~val) }
  else if inRange gicdIpriorityrBase gicdIpriorityrEnd offset then
    { gicd with ipriorityr := writeBank gicd.ipriorityr gicdIpriorityrBase offset fun _ => val }
  else if inRange gicdIcfgrBase gicdIcfgrEnd offset then
    { gicd with icfgr := writeBank gicd.icfgr gicdIcfgrBase offset fun _ => val }
  else gicd

/-- A write of `size` bytes to the shadow registers. -/
def write (gicd : VirtualGicd) (offset value : U64) (size : U8) : VirtualGicd :=
  if inRange gicdIrouterBase gicdIrouterEnd offset ∧ size = 8 then gicd.writeIrouter offset value
  else if inRange gicdIrouterBase gicdIrouterEnd offset ∧ size = 4 then
    let aligned := offset &&& ~~~0x7
    let old := gicd.readIrouter aligned
    let val32 := value &&& 0xFFFFFFFF
    gicd.writeIrouter aligned
      (if offset &&& 0x4 = 0 then (old &&& 0xFFFFFFFF00000000) ||| val32
        else (old &&& 0x00000000FFFFFFFF) ||| (val32 <<< 32))
  else if size ≠ 4 then gicd
  else gicd.write32 offset (value.setWidth 32)

/-- The value that a write of `size` bytes stores to the physical distributor, at the same offset and size. -/
def forward (offset value : U64) (size : U8) : Option U64 :=
  let fwdValue := if offset = gicdCtlr then value ||| gicdCtlrAreNs.setWidth 64 else value
  if offset = gicdTyper ∨ offset = gicdIidr ∨ offset = gicdPidr2 then none
  else if size = 1 then some ((fwdValue.setWidth 8).setWidth 64)
  else if size = 2 then some ((fwdValue.setWidth 16).setWidth 64)
  else if size = 4 then some ((fwdValue.setWidth 32).setWidth 64)
  else if size = 8 then some fwdValue
  else none

end VirtualGicd

end Hypervisor
