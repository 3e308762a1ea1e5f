import Hypervisor.Model.Pl011
import Hypervisor.Model.RunLoop
import Hypervisor.Model.RxRings

/-! # Console input

Bytes from the physical UART wait in `UART_RX` and are handed to a virtual UART by the run loop: the handler
of INTID 33 in `exception.rs` pushes them, `run_one_iteration` of `vm.rs` pops them. Of the device table of a
VM only its first UART is here, which `uart_mut` finds.
-/

namespace Hypervisor

inductive UartAccess where
  | read (offset : U64) (size : U8)
  | write (offset value : U64) (size : U8)

/-- The UART after an access of its guest. -/
def VirtualUart.access (uart : VirtualUart) : UartAccess → VirtualUart
  | .read offset size => (uart.read offset size).2
  | .write offset value size => (uart.write offset value size).2

structure Console where
  /-- `UART_RX`. -/
  ring : UartRxRing
  uarts : VmId → Option VirtualUart
  /-- A record of the bytes that `UART_RX` took. -/
  accepted : List U8 := []
  /-- A record of the bytes that the UARTs took. -/
  delivered : VmId → List U8 := fun _ => []

namespace Console

def boot (uarts : VmId → Option VirtualUart) : Console := { ring := .new, uarts }

/-- A byte from the physical UART. -/
def receive (c : Console) (ch : U8) : Console :=
  { c with
    ring := c.ring.push ch
    accepted := if UartRxRing.next c.ring.tail = c.ring.head then c.accepted else c.accepted ++ [ch] }

/-- `push_rx` of the UART of VM `v`, if it has one. -/
def deliver (c : Console) (v : VmId) (ch : U8) : Console :=
  match c.uarts v with
  | some uart =>
      { c with
        uarts := Function.update c.uarts v (some (uart.pushRx ch))
        delivered :=
          if VirtualUart.next uart.rxTail = uart.rxHead then c.delivered
          else Function.update c.delivered v (c.delivered v ++ [ch]) }
  | none => c

/-- The loop `while let Some(ch) = UART_RX.pop()`, with a bound on its passes. -/
def drain (v : VmId) : ℕ → Console → Console
  | 0, c => c
  | fuel + 1, c =>
      match c.ring.pop with
      | (some ch, ring) => drain v fuel ({ c with ring }.deliver v ch)
      | (none, _) => c

def access (v : VmId) (c : Console) (access : UartAccess) : Console :=
  { c with uarts := Function.update c.uarts v ((c.uarts v).map (·.access access)) }

/-- An iteration in which a vCPU of VM `v` runs: input is drained, then the guest uses its UART, then bytes
arrive. -/
def turn (c : Console) (v : VmId) (accesses : List UartAccess) (bytes : List U8) : Console :=
  bytes.foldl receive (accesses.foldl (access v) (c.drain v uartRxRingSize))

end Console

/-! ## In the loop over the VMs -/

/-- What a turn takes from outside: besides that of the loop, the accesses of the guest to its UART, and the
bytes in the physical UART should its interrupt end the turn. -/
structure ConsoleInputs (Other : Type) extends Inputs Other where
  accesses : List UartAccess
  bytes : List U8

namespace MultiVm

variable {Other : Type} [DecidableEq Other]

/-- Whether a vCPU runs in the turn, and then whether the UART's interrupt ends it. -/
def runs (m : MultiVm) (inputs : Inputs Other) : Option Bool :=
  if m.done m.next then none
  else
    match (m.sys.vms m.next).beforeRun inputs.drained (m.sys.activate m.next).el2 with
    | some (.entry _ _ _ e) =>
        match runGuest inputs.events e with
        | .left last _ =>
            match last.cause with
            | .irq intid => some (intid = 33)
            | .sync _ _ => some false
        | _ => none
    | _ => none

def consoleStep (s : MultiVm × Console) (inputs : ConsoleInputs Other) : Option (MultiVm × Console) :=
  (s.1.step inputs.toInputs).map fun m =>
    match s.1.runs inputs.toInputs with
    | some interrupt => (m, s.2.turn s.1.next inputs.accesses (if interrupt then inputs.bytes else []))
    | none => (m, s.2)

/-- The loop and the console after some turns; `none` if one of them does not end. -/
def consoleRun (s : MultiVm × Console) (turns : List (ConsoleInputs Other)) : Option (MultiVm × Console) :=
  turns.foldlM consoleStep s

end MultiVm

end Hypervisor
