import Hypervisor.Radix.Update
import Hypervisor.Radix.Walk
import Hypervisor.ToMathlib.Mask
import Hypervisor.ReadTree.Basic
import Hypervisor.Model.Allocator
import Hypervisor.Model.Defs
import Hypervisor.Model.Descriptors
import Hypervisor.Model.Ffa
import Hypervisor.Model.Machine
import Hypervisor.Model.Mailbox
import Hypervisor.Model.Memory
import Hypervisor.Model.Mmu
import Hypervisor.Model.Notifications
import Hypervisor.Model.Proxy
import Hypervisor.Model.Stage2Walker
import Hypervisor.Model.StubSpmc
import Hypervisor.Model.Tlb
import Hypervisor.Model.TxReads
import Hypervisor.Model.Vcpu
import Hypervisor.Model.VirtioDevice
import Hypervisor.Model.VirtioMmio
import Hypervisor.Model.Virtqueue
import Hypervisor.Model.Vm
import Hypervisor.Proofs.Boot
import Hypervisor.Proofs.Descriptor
import Hypervisor.Proofs.Handlers
import Hypervisor.Proofs.Heap
import Hypervisor.Proofs.Loops
import Hypervisor.Proofs.Mailbox
import Hypervisor.Proofs.Mapper
import Hypervisor.Proofs.Plan
import Hypervisor.Proofs.Records
import Hypervisor.Proofs.Retag
import Hypervisor.Proofs.Space
import Hypervisor.Proofs.Tables
import Hypervisor.Proofs.Virtqueue
import Hypervisor.Proofs.Walker
import Hypervisor.Soundness.Authority
import Hypervisor.Soundness.Borrow
import Hypervisor.Soundness.Confinement
import Hypervisor.Soundness.ContextSwitch
import Hypervisor.Soundness.DiskConfinement
import Hypervisor.Soundness.Handles
import Hypervisor.Soundness.Isolation
import Hypervisor.Soundness.Ledger
import Hypervisor.Soundness.Messages
import Hypervisor.Soundness.Notifications
import Hypervisor.Soundness.Ownership
import Hypervisor.Soundness.Pages
import Hypervisor.Soundness.Registration
import Hypervisor.Soundness.RoundTrip
import Hypervisor.Soundness.Sharing
import Hypervisor.Soundness.SingleWriter
import Hypervisor.Soundness.Snapshot
import Hypervisor.Soundness.TlbRevocation
import Hypervisor.Soundness.TxBounds
import Hypervisor.Soundness.VirtioRings
import Hypervisor.Model.Scheduler
import Hypervisor.Model.VmState
import Hypervisor.Model.ListRegisters
import Hypervisor.Model.Exception
import Hypervisor.Model.RunLoop
import Hypervisor.Proofs.Exception
import Hypervisor.Proofs.Scheduler
import Hypervisor.Proofs.RunLoop
import Hypervisor.Proofs.Turns
import Hypervisor.Soundness.Power
import Hypervisor.Soundness.Progress
import Hypervisor.Model.Spmc
import Hypervisor.Soundness.SpCalls
import Hypervisor.Model.SecureStage2
import Hypervisor.Proofs.SpTables
import Hypervisor.Soundness.SpConfinement
import Hypervisor.Soundness.Completion
import Hypervisor.Soundness.BoundedNotify
import Hypervisor.Soundness.Mapping
import Hypervisor.Soundness.GuestMap
import Hypervisor.Soundness.PageEdits
import Hypervisor.Soundness.Parser
import Hypervisor.Soundness.RxOwnership
import Hypervisor.Soundness.NotifInvariant
import Hypervisor.Soundness.NotifBindings
import Hypervisor.Ring.Basic
import Hypervisor.Soundness.QueueOrder
import Hypervisor.Proofs.Transfer
import Hypervisor.Soundness.DiskArray
import Hypervisor.Soundness.Segments
import Hypervisor.Soundness.Frames
import Hypervisor.Model.VSwitch
import Hypervisor.Soundness.QueueSetup
import Hypervisor.Soundness.SwitchDelivery
import Hypervisor.BoundedMap.Basic
import Hypervisor.Soundness.MacTable
import Hypervisor.Model.RxRings
import Hypervisor.Soundness.RxRings
import Hypervisor.FirstFit.Basic
import Hypervisor.Proofs.ListRegisters
import Hypervisor.Soundness.Injection
import Hypervisor.Soundness.LrUniqueness
import Hypervisor.Soundness.InjectionResults
import Hypervisor.Soundness.Sgi
import Hypervisor.Model.Distributor
import Hypervisor.Soundness.Irouter
import Hypervisor.Model.Decode
import Hypervisor.Model.Devices
import Hypervisor.Emulation.Basic
import Hypervisor.Soundness.Priorities
import Hypervisor.Soundness.MmioDecode
import Hypervisor.Proofs.Devices
import Hypervisor.Soundness.MmioLoads
import Hypervisor.Soundness.MmioStores
import Hypervisor.Soundness.Rtc
import Hypervisor.Soundness.Fairness
import Hypervisor.Model.Console
import Hypervisor.Soundness.Console
import Hypervisor.Proofs.Allocator
import Hypervisor.Soundness.Allocator
import Hypervisor.Atomic.Basic
import Hypervisor.Model.SpinLock
import Hypervisor.Soundness.SpinLock
import Hypervisor.Soundness.SchedulerState
import Hypervisor.Soundness.VcpuTable
import Hypervisor.Concurrent.Basic
import Hypervisor.Model.MultiPcpu
import Hypervisor.Proofs.MultiPcpu
import Hypervisor.Soundness.MultiPcpu
