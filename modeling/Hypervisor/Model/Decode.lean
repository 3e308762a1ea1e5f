import Hypervisor.Model.Defs

/-! # Decoding trapped loads and stores

`arch/aarch64/hypervisor/decode.rs`: a data abort is described by the syndrome if that is valid (ISV), and
by the instruction itself otherwise.
-/

namespace Hypervisor

inductive MmioAccess where
  | load (reg size : U8) (signExtend : Bool)
  | store (reg size : U8)
deriving DecidableEq, Repr

namespace MmioAccess

/-- The bytes of an access by the two bits that encode it. -/
def sizeOf (sas : U32) : U8 :=
  if sas = 0 then 1
  else if sas = 1 then 2
  else if sas = 2 then 4
  else 8

/-- Decode the instruction when the syndrome is not valid. -/
def decodeInstruction (insn : U32) : Option MmioAccess :=
  if insn &&& 0x3B000000 = 0x39000000 then
    let sizeBits := (insn >>> 30) &&& 0x3
    let size : U8 := (1 : U8) <<< sizeBits.toNat
    let rt : U8 := (insn &&& 0x1F).setWidth 8
    let isLoad := (insn >>> 22) &&& 1
    some (if isLoad = 1 then load rt size false else store rt size)
  else none

def decode (insn iss : U32) : Option MmioAccess :=
  let isv := (iss >>> 24) &&& 1
  if isv = 0 then decodeInstruction insn
  else
    let sas := (iss >>> 22) &&& 0x3
    let srt := (iss >>> 16) &&& 0x1F
    let wnr := (iss >>> 6) &&& 1
    let sext := (iss >>> 23) &&& 1
    some (if wnr = 1 then store (srt.setWidth 8) (sizeOf sas) else load (srt.setWidth 8) (sizeOf sas) (sext ≠ 0))

def reg : MmioAccess → U8
  | load reg _ _ => reg
  | store reg _ => reg

def size : MmioAccess → U8
  | load _ size _ => size
  | store _ size => size

def isStore : MmioAccess → Bool
  | load _ _ _ => false
  | store _ _ => true

end MmioAccess

end Hypervisor
