import Hypervisor.Model.Defs

/-! # The virtual real-time clock

`devices/pl031.rs`: seconds since a load, counted by the architectural counter. The counter and its
frequency are arguments of the operations that read them; `none` is the panic of an addition.
-/

namespace Hypervisor

inductive RtcReg where
  | dr | mr | lr | cr | imsc | ris | mis | icr
  | periphid0 | periphid1 | periphid2 | periphid3
  | pcellid0 | pcellid1 | pcellid2 | pcellid3
deriving DecidableEq, Repr

namespace RtcReg

def offset : RtcReg → U64
  | dr => 0x000
  | mr => 0x004
  | lr => 0x008
  | cr => 0x00C
  | imsc => 0x010
  | ris => 0x014
  | mis => 0x018
  | icr => 0x01C
  | periphid0 => 0xFE0
  | periphid1 => 0xFE4
  | periphid2 => 0xFE8
  | periphid3 => 0xFEC
  | pcellid0 => 0xFF0
  | pcellid1 => 0xFF4
  | pcellid2 => 0xFF8
  | pcellid3 => 0xFFC

def all : List RtcReg :=
  [dr, mr, lr, cr, imsc, ris, mis, icr, periphid0, periphid1, periphid2, periphid3, pcellid0, pcellid1, pcellid2,
    pcellid3]

/-- The register that a `match` on the offset selects. -/
def ofOffset (off : U64) : Option RtcReg := all.find? fun reg => reg.offset == off

end RtcReg

structure VirtualPl031 where
  /-- The epoch that was loaded, in seconds. -/
  loadValue : U64
  /-- The counter when it was loaded. -/
  loadCounter : U64
  matchValue : U32
  /-- Bit 0 enables the clock. -/
  control : U32
  imsc : U32
  ris : U32
deriving DecidableEq, Repr

namespace VirtualPl031

def new (cntvct : U64) : VirtualPl031 := ⟨0, cntvct, 0, 1, 0, 0⟩

/-- The time in seconds: a clock that is disabled shows the value that was loaded. -/
def currentTime (rtc : VirtualPl031) (cntfrq cntvct : U64) : Option U64 :=
  if rtc.control &&& 1 = 0 then some rtc.loadValue
  else if cntfrq = 0 then some rtc.loadValue
  else checkedAdd rtc.loadValue ((cntvct - rtc.loadCounter) / cntfrq)

/-- The registers other than the data register. -/
def readReg (rtc : VirtualPl031) : RtcReg → U32
  | .mr => rtc.matchValue
  | .cr => rtc.control
  | .imsc => rtc.imsc
  | .ris => rtc.ris
  | .mis => rtc.ris &&& rtc.imsc
  | .periphid0 => 0x31
  | .periphid1 => 0x10
  | .periphid2 => 0x04
  | .periphid3 => 0x00
  | .pcellid0 => 0x0D
  | .pcellid1 => 0xF0
  | .pcellid2 => 0x05
  | .pcellid3 => 0xB1
  | .dr | .lr | .icr => 0

def read (rtc : VirtualPl031) (cntfrq cntvct offset : U64) (size : U8) : Option U64 :=
  if size ≠ 4 then some 0
  else
    match RtcReg.ofOffset offset with
    | some .dr => rtc.currentTime cntfrq cntvct
    | some reg => some ((rtc.readReg reg).setWidth 64)
    | none => some 0

def writeReg (rtc : VirtualPl031) (cntvct value : U64) : RtcReg → VirtualPl031
  | .mr => { rtc with matchValue := value.setWidth 32 }
  | .lr => { rtc with loadValue := value &&& 0xFFFFFFFF, loadCounter := cntvct }
  | .cr => { rtc with control := (value &&& 1).setWidth 32 }
  | .imsc => { rtc with imsc := (value &&& 1).setWidth 32 }
  | .icr => { rtc with ris := rtc.ris &&& ~~~(value.setWidth 32) }
  | _ => rtc

def write (rtc : VirtualPl031) (cntvct offset value : U64) (size : U8) : VirtualPl031 :=
  if size ≠ 4 then rtc
  else
    match RtcReg.ofOffset offset with
    | some reg => rtc.writeReg cntvct value reg
    | none => rtc

end VirtualPl031

end Hypervisor
