import Hypervisor.Model.Vcpu
import Hypervisor.Model.VmState

/-! # PSCI calls of a guest

`handle_psci` of `exception.rs` in a build for one physical CPU. The flag it returns is whether the
guest continues; `none` is the panic of a shift by more than 63. The console output is left out.
-/

namespace Hypervisor

def psciVersion : U64 := 0x84000000
def psciCpuSuspend32 : U64 := 0x84000001
def psciCpuOff : U64 := 0x84000002
def psciCpuOn32 : U64 := 0x84000003
def psciCpuOn64 : U64 := 0xC4000003
def psciAffinityInfo32 : U64 := 0x84000004
def psciAffinityInfo64 : U64 := 0xC4000004
def psciMigrateInfoType : U64 := 0x84000006
def psciSystemOff : U64 := 0x84000008
def psciSystemReset : U64 := 0x84000009
def psciFeatures : U64 := 0x8400000A

def psciSuccess : U64 := 0
def psciNotSupported : U64 := 0xFFFFFFFF
def psciVersion02 : U64 := 0x00000002

def isPsciFunction (fid : U64) : Bool :=
  fid ∈ [psciVersion, psciCpuSuspend32, psciCpuOff, psciCpuOn32, psciCpuOn64, psciAffinityInfo32,
    psciAffinityInfo64, psciMigrateInfoType, psciSystemOff, psciSystemReset, psciFeatures]

def VcpuContext.setX (context : VcpuContext) (n : Fin 31) (value : U64) : VcpuContext :=
  { context with gpRegs := Function.update context.gpRegs n value }

section SetX

variable (context : VcpuContext) (n : Fin 31) (value : U64)

@[simp] theorem VcpuContext.setX_same : (context.setX n value).gpRegs n = value := Function.update_self ..

@[simp] theorem VcpuContext.setX_pc : (context.setX n value).pc = context.pc := rfl

end SetX

/-- `1 << amount` on a `u64`, with the overflow check. -/
def checkedShl (amount : U64) : Option U64 := if amount.toNat < 64 then some ((1 : U64) <<< amount.toNat) else none

/-- `PSCI_FEATURES`: the answer for each function. -/
def psciFeature (featureId : U64) : U64 :=
  if featureId ∈ [psciVersion, psciCpuOff, psciSystemOff, psciSystemReset, psciFeatures, psciCpuOn32,
    psciCpuOn64, psciAffinityInfo32, psciAffinityInfo64] then psciSuccess else psciNotSupported

/-- `PSCI_AFFINITY_INFO`: 0 is ON and 1 is OFF. -/
def affinityInfo (targetAffinity onlineMask : U64) : Option U64 := do
  let vcpuId := targetAffinity &&& 0xFF
  let bit ← checkedShl vcpuId
  return if onlineMask &&& bit ≠ 0 then 0 else 1

/-- The terminal exits set the flag of the calling vCPU and leave the guest. -/
def terminate (context : VcpuContext) (vs : VmGlobalState) : Bool × VcpuContext × VmGlobalState :=
  (false, context, vs.setTerminalExit vs.currentVcpuId true)

def handlePsci (context : VcpuContext) (functionId : U64) (vs : VmGlobalState) :
    Option (Bool × VcpuContext × VmGlobalState) :=
  if functionId = psciVersion then some (true, context.setX 0 psciVersion02, vs)
  else if functionId = psciFeatures then some (true, context.setX 0 (psciFeature (context.gpRegs 1)), vs)
  else if functionId = psciCpuOff then some (terminate (context.setX 0 psciSuccess) vs)
  else if functionId = psciCpuOn32 ∨ functionId = psciCpuOn64 then
    let pendingCpuOn := vs.pendingCpuOn.request (context.gpRegs 1) (context.gpRegs 2) (context.gpRegs 3)
    -- the run loop picks the request up
    some (false, context.setX 0 psciSuccess, { vs with pendingCpuOn })
  else if functionId = psciAffinityInfo32 ∨ functionId = psciAffinityInfo64 then
    (affinityInfo (context.gpRegs 1) vs.vcpuOnlineMask).map fun state => (true, context.setX 0 state, vs)
  else if functionId = psciMigrateInfoType then some (true, context.setX 0 2, vs)
  else if functionId = psciSystemOff then some (terminate context vs)
  else if functionId = psciSystemReset then some (terminate context vs)
  else if functionId = psciCpuSuspend32 then some (true, context.setX 0 psciSuccess, vs)
  else some (true, context.setX 0 psciNotSupported, vs)

end Hypervisor
