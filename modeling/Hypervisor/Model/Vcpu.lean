import Hypervisor.Model.Defs

/-! # Entering and leaving a vCPU

`vcpu.rs`, `vcpu_arch_state.rs` and `exception.S`: what `Vcpu::run` puts into the registers of the
physical CPU before a guest runs and what it takes out of them afterwards. The exception vectors keep
one part in `VcpuContext` and `VcpuArchState` keeps another; SP_EL1, ELR_EL1 and SPSR_EL1 are in both,
and the context is restored last. `CPTR_EL2.TFP` is clear while guests run, so the FP and SIMD
registers are theirs as well. `Other` stands for further registers that guests reach without a trap.
-/

namespace Hypervisor

instance neZero_gpRegs : NeZero 31 := ⟨by decide⟩

/-- The registers of a physical CPU that guest code uses, under its own or a virtual name. -/
inductive Reg (Other : Type) where
  | x (n : Fin 31)
  /-- The guest's PC while it is not running. -/
  | elrEl2
  /-- The guest's PSTATE while it is not running. -/
  | spsrEl2
  | vmpidrEl2
  | ichLrEl2 (n : Fin 4)
  | ichVmcrEl2
  | ichHcrEl2
  | cntvCtlEl0
  | cntvCvalEl0
  | sctlrEl1
  | ttbr0El1
  | ttbr1El1
  | tcrEl1
  | mairEl1
  | vbarEl1
  | cpacrEl1
  | contextidrEl1
  | tpidrEl1
  | tpidrroEl0
  | tpidrEl0
  | parEl1
  | cntkctlEl1
  | spEl1
  | elrEl1
  | spsrEl1
  | afsr0El1
  | afsr1El1
  | esrEl1
  | farEl1
  | amairEl1
  | mdscrEl1
  | spEl0
  | apiaKeyLo
  | apiaKeyHi
  | apibKeyLo
  | apibKeyHi
  | apdaKeyLo
  | apdaKeyHi
  | apdbKeyLo
  | apdbKeyHi
  | apgaKeyLo
  | apgaKeyHi
  | v (n : Fin 32)
  | fpsr
  | fpcr
  | other (o : Other)
deriving DecidableEq

/-- SIMD registers have 128 bits. -/
def Reg.width {Other : Type} : Reg Other → ℕ
  | .v _ => 128
  | _ => 64

/-- The contents of the registers. -/
abbrev Cpu (Other : Type) := (r : Reg Other) → BitVec r.width

/-- The part of `VcpuContext` that `exception.S` uses. It also stores the stack pointer of EL2, which
nothing reads. -/
structure VcpuContext where
  gpRegs : Fin 31 → U64
  spEl1 : U64
  elrEl1 : U64
  spsrEl1 : U64
  pc : U64
  spsrEl2 : U64
deriving Inhabited

def spsrEl1h : U64 := 0b0101
def spsrEl1hDaifMasked : U64 := 0x3C5

structure VcpuArchState where
  ichLr : Fin 4 → U64
  ichVmcr : U64
  ichHcr : U64
  cntvCtl : U64
  cntvCval : U64
  vmpidr : U64
  sctlrEl1 : U64
  ttbr0El1 : U64
  ttbr1El1 : U64
  tcrEl1 : U64
  mairEl1 : U64
  vbarEl1 : U64
  cpacrEl1 : U64
  contextidrEl1 : U64
  tpidrEl1 : U64
  tpidrroEl0 : U64
  tpidrEl0 : U64
  parEl1 : U64
  cntkctlEl1 : U64
  spEl1 : U64
  elrEl1 : U64
  spsrEl1 : U64
  afsr0El1 : U64
  afsr1El1 : U64
  esrEl1 : U64
  farEl1 : U64
  amairEl1 : U64
  mdscrEl1 : U64
  spEl0 : U64
  apiaKeyLo : U64
  apiaKeyHi : U64
  apibKeyLo : U64
  apibKeyHi : U64
  apdaKeyLo : U64
  apdaKeyHi : U64
  apdbKeyLo : U64
  apdbKeyHi : U64
  apgaKeyLo : U64
  apgaKeyHi : U64
deriving Inhabited

section Switch

variable {Other : Type}

/-- `VcpuArchState::save`. VMPIDR_EL2 is not read back. -/
def VcpuArchState.save (self : VcpuArchState) (cpu : Cpu Other) : VcpuArchState where
  ichLr n := cpu (.ichLrEl2 n)
  ichVmcr := cpu .ichVmcrEl2
  ichHcr := cpu .ichHcrEl2
  cntvCtl := cpu .cntvCtlEl0
  cntvCval := cpu .cntvCvalEl0
  vmpidr := self.vmpidr
  sctlrEl1 := cpu .sctlrEl1
  ttbr0El1 := cpu .ttbr0El1
  ttbr1El1 := cpu .ttbr1El1
  tcrEl1 := cpu .tcrEl1
  mairEl1 := cpu .mairEl1
  vbarEl1 := cpu .vbarEl1
  cpacrEl1 := cpu .cpacrEl1
  contextidrEl1 := cpu .contextidrEl1
  tpidrEl1 := cpu .tpidrEl1
  tpidrroEl0 := cpu .tpidrroEl0
  tpidrEl0 := cpu .tpidrEl0
  parEl1 := cpu .parEl1
  cntkctlEl1 := cpu .cntkctlEl1
  spEl1 := cpu .spEl1
  elrEl1 := cpu .elrEl1
  spsrEl1 := cpu .spsrEl1
  afsr0El1 := cpu .afsr0El1
  afsr1El1 := cpu .afsr1El1
  esrEl1 := cpu .esrEl1
  farEl1 := cpu .farEl1
  amairEl1 := cpu .amairEl1
  mdscrEl1 := cpu .mdscrEl1
  spEl0 := cpu .spEl0
  apiaKeyLo := cpu .apiaKeyLo
  apiaKeyHi := cpu .apiaKeyHi
  apibKeyLo := cpu .apibKeyLo
  apibKeyHi := cpu .apibKeyHi
  apdaKeyLo := cpu .apdaKeyLo
  apdaKeyHi := cpu .apdaKeyHi
  apdbKeyLo := cpu .apdbKeyLo
  apdbKeyHi := cpu .apdbKeyHi
  apgaKeyLo := cpu .apgaKeyLo
  apgaKeyHi := cpu .apgaKeyHi

/-- `VcpuArchState::restore`. -/
def VcpuArchState.restore (self : VcpuArchState) (cpu : Cpu Other) : Cpu Other
  | .vmpidrEl2 => self.vmpidr
  | .ichLrEl2 n => self.ichLr n
  | .ichVmcrEl2 => self.ichVmcr
  | .ichHcrEl2 => self.ichHcr
  | .cntvCtlEl0 => self.cntvCtl
  | .cntvCvalEl0 => self.cntvCval
  | .sctlrEl1 => self.sctlrEl1
  | .ttbr0El1 => self.ttbr0El1
  | .ttbr1El1 => self.ttbr1El1
  | .tcrEl1 => self.tcrEl1
  | .mairEl1 => self.mairEl1
  | .vbarEl1 => self.vbarEl1
  | .cpacrEl1 => self.cpacrEl1
  | .contextidrEl1 => self.contextidrEl1
  | .tpidrEl1 => self.tpidrEl1
  | .tpidrroEl0 => self.tpidrroEl0
  | .tpidrEl0 => self.tpidrEl0
  | .parEl1 => self.parEl1
  | .cntkctlEl1 => self.cntkctlEl1
  | .spEl1 => self.spEl1
  | .elrEl1 => self.elrEl1
  | .spsrEl1 => self.spsrEl1
  | .afsr0El1 => self.afsr0El1
  | .afsr1El1 => self.afsr1El1
  | .esrEl1 => self.esrEl1
  | .farEl1 => self.farEl1
  | .amairEl1 => self.amairEl1
  | .mdscrEl1 => self.mdscrEl1
  | .spEl0 => self.spEl0
  | .apiaKeyLo => self.apiaKeyLo
  | .apiaKeyHi => self.apiaKeyHi
  | .apibKeyLo => self.apibKeyLo
  | .apibKeyHi => self.apibKeyHi
  | .apdaKeyLo => self.apdaKeyLo
  | .apdaKeyHi => self.apdaKeyHi
  | .apdbKeyLo => self.apdbKeyLo
  | .apdbKeyHi => self.apdbKeyHi
  | .apgaKeyLo => self.apgaKeyLo
  | .apgaKeyHi => self.apgaKeyHi
  | r => cpu r

/-- What the exception vectors save before they call a handler. -/
def saveContext (cpu : Cpu Other) : VcpuContext where
  gpRegs n := cpu (.x n)
  spEl1 := cpu .spEl1
  elrEl1 := cpu .elrEl1
  spsrEl1 := cpu .spsrEl1
  pc := cpu .elrEl2
  spsrEl2 := cpu .spsrEl2

/-- What `enter_guest` loads, and the vectors after a handler that continues the guest. -/
def enterGuest (context : VcpuContext) (cpu : Cpu Other) : Cpu Other
  | .x n => context.gpRegs n
  | .spEl1 => context.spEl1
  | .elrEl1 => context.elrEl1
  | .spsrEl1 => context.spsrEl1
  | .elrEl2 => context.pc
  | .spsrEl2 => context.spsrEl2
  | r => cpu r

/-- The parts of a vCPU that hold registers. -/
structure Vcpu where
  context : VcpuContext
  archState : VcpuArchState
deriving Inhabited

namespace Vcpu

/-- `Vcpu::run` up to the ERET. -/
def enter (vcpu : Vcpu) (cpu : Cpu Other) : Cpu Other := enterGuest vcpu.context (vcpu.archState.restore cpu)

/-- `Vcpu::run` from the last exception on: the vector saves the context, the handler edits it for the
trap that it emulates, and the rest is saved when the handler has decided to leave the guest. -/
def exit (vcpu : Vcpu) (emulate : VcpuContext → VcpuContext) (cpu : Cpu Other) : Vcpu where
  context := emulate (saveContext cpu)
  archState := vcpu.archState.save cpu

end Vcpu

end Switch

end Hypervisor
