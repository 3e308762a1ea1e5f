import Hypervisor.Model.Defs
import Mathlib.Logic.Function.Basic

/-! # The virtual UART

`devices/pl011/emulator.rs`: transmitted characters go to the physical UART at once, received ones wait
in a ring until the guest reads them.
-/

namespace Hypervisor

/-- `RX_BUF_SIZE`. -/
abbrev rxBufSize : ℕ := 64

theorem rxBufSize_pos : 0 < rxBufSize := Nat.succ_pos 63

def frTxfe : U32 := 1 <<< 7
def frRxff : U32 := 1 <<< 6
def frRxfe : U32 := 1 <<< 4
def intRx : U32 := 1 <<< 4
def intTx : U32 := 1 <<< 5

inductive UartReg where
  | dr | rsr | fr | ilpr | ibrd | fbrd | lcrH | cr | ifls | imsc | ris | mis | icr | dmacr
  | periphid0 | periphid1 | periphid2 | periphid3
  | pcellid0 | pcellid1 | pcellid2 | pcellid3
deriving DecidableEq, Repr

namespace UartReg

def offset : UartReg → U64
  | dr => 0x000
  | rsr => 0x004
  | fr => 0x018
  | ilpr => 0x020
  | ibrd => 0x024
  | fbrd => 0x028
  | lcrH => 0x02C
  | cr => 0x030
  | ifls => 0x034
  | imsc => 0x038
  | ris => 0x03C
  | mis => 0x040
  | icr => 0x044
  | dmacr => 0x048
  | periphid0 => 0xFE0
  | periphid1 => 0xFE4
  | periphid2 => 0xFE8
  | periphid3 => 0xFEC
  | pcellid0 => 0xFF0
  | pcellid1 => 0xFF4
  | pcellid2 => 0xFF8
  | pcellid3 => 0xFFC

def all : List UartReg :=
  [dr, rsr, fr, ilpr, ibrd, fbrd, lcrH, cr, ifls, imsc, ris, mis, icr, dmacr, periphid0, periphid1, periphid2,
    periphid3, pcellid0, pcellid1, pcellid2, pcellid3]

/-- The register that a `match` on the offset selects. -/
def ofOffset (off : U64) : Option UartReg := all.find? fun reg => reg.offset == off

end UartReg

structure VirtualUart where
  cr : U32
  lcrH : U32
  ibrd : U32
  fbrd : U32
  ifls : U32
  imsc : U32
  ris : U32
  dmacr : U32
  rxBuf : Fin rxBufSize → U8
  /-- The next read position. -/
  rxHead : Fin rxBufSize
  /-- The next write position. -/
  rxTail : Fin rxBufSize

namespace VirtualUart

def new : VirtualUart := ⟨0x0301, 0x60, 1, 0, 0x12, 0, 0, 0, fun _ => 0, ⟨0, rxBufSize_pos⟩, ⟨0, rxBufSize_pos⟩⟩

def next (i : Fin rxBufSize) : Fin rxBufSize := ⟨(i.val + 1) % rxBufSize, Nat.mod_lt _ (Nat.succ_pos _)⟩

/-- Push a received byte; it is dropped if the buffer is full. -/
def pushRx (uart : VirtualUart) (ch : U8) : VirtualUart :=
  if next uart.rxTail = uart.rxHead then uart
  else { uart with
    rxBuf := Function.update uart.rxBuf uart.rxTail ch
    rxTail := next uart.rxTail
    ris := uart.ris ||| intRx }

/-- The last byte takes the RX interrupt with it. -/
def popRx (uart : VirtualUart) : Option U8 × VirtualUart :=
  if uart.rxHead = uart.rxTail then (none, uart)
  else
    let rxHead := next uart.rxHead
    (some (uart.rxBuf uart.rxHead),
      { uart with rxHead, ris := if rxHead = uart.rxTail then uart.ris &&& ~~~intRx else uart.ris })

def rxHasData (uart : VirtualUart) : Bool := uart.rxHead ≠ uart.rxTail

def getFlags (uart : VirtualUart) : U32 :=
  let fr := if uart.rxHasData then frTxfe else frTxfe ||| frRxfe
  let count := (uart.rxTail.val + rxBufSize - uart.rxHead.val) % rxBufSize
  if rxBufSize - 1 ≤ count then fr ||| frRxff else fr

/-- The sizes of an access that the device takes. -/
def accepts (size : U8) : Bool := size = 1 || size = 2 || size = 4

/-- The registers other than the data register. -/
def readReg (uart : VirtualUart) : UartReg → U32
  | .fr => uart.getFlags
  | .ibrd => uart.ibrd
  | .fbrd => uart.fbrd
  | .lcrH => uart.lcrH
  | .cr => uart.cr
  | .ifls => uart.ifls
  | .imsc => uart.imsc
  | .ris => uart.ris
  | .mis => uart.ris &&& uart.imsc
  | .dmacr => uart.dmacr
  | .periphid0 => 0x11
  | .periphid1 => 0x10
  | .periphid2 => 0x14
  | .periphid3 => 0x00
  | .pcellid0 => 0x0D
  | .pcellid1 => 0xF0
  | .pcellid2 => 0x05
  | .pcellid3 => 0xB1
  | .dr | .rsr | .ilpr | .icr => 0

/-- Reading the data register takes a byte from the buffer. -/
def read (uart : VirtualUart) (offset : U64) (size : U8) : U64 × VirtualUart :=
  if !accepts size then (0, uart)
  else
    match UartReg.ofOffset offset with
    | some .dr => ((uart.popRx.1.getD 0).setWidth 64, uart.popRx.2)
    | some reg => ((uart.readReg reg).setWidth 64, uart)
    | none => (0, uart)

/-- The character that is sent to the physical UART, and the device after the write. -/
def writeReg (uart : VirtualUart) (value : U64) : UartReg → Option U8 × VirtualUart
  | .dr => (some ((value &&& 0xFF).setWidth 8), { uart with ris := uart.ris ||| intTx })
  | .ibrd => (none, { uart with ibrd := (value &&& 0xFFFF).setWidth 32 })
  | .fbrd => (none, { uart with fbrd := (value &&& 0x3F).setWidth 32 })
  | .lcrH => (none, { uart with lcrH := (value &&& 0xFF).setWidth 32 })
  | .cr => (none, { uart with cr := (value &&& 0xFFFF).setWidth 32 })
  | .ifls => (none, { uart with ifls := (value &&& 0x3F).setWidth 32 })
  | .imsc => (none, { uart with imsc := (value &&& 0x7FF).setWidth 32 })
  | .icr => (none, { uart with ris := uart.ris &&& ~~~(value.setWidth 32) })
  | .dmacr => (none, { uart with dmacr := (value &&& 0x07).setWidth 32 })
  | _ => (none, uart)

def write (uart : VirtualUart) (offset value : U64) (size : U8) : Option U8 × VirtualUart :=
  if !accepts size then (none, uart)
  else
    match UartReg.ofOffset offset with
    | some reg => uart.writeReg value reg
    | none => (none, uart)

end VirtualUart

end Hypervisor
