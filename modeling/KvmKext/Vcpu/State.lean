import KvmKext.Ept.Table
import Mathlib.Tactic.Basic

/-!
# The vCPU, its VMCS and the shared run page

`struct vcpu` with the fields the modelled code reads or writes, the VMCS as a map from field to
value with the processor's launch state, and `struct kvm_run`, the page shared with userspace.
Pointers are kernel addresses, 0 for NULL. Every VMCS access, `LOAD_VMCS`, `RELEASE_VMCS`,
`vmcs_clear` and VM entry is appended to `Machine.trace`, so that the load discipline can be
stated over whole runs. The host's descriptor-table save area, `host_rsp` and `pio_data` (always
the page after `kvm_vcpu`) are not modelled.
-/

namespace KvmKext

/-- `VCPU_REGS_*`: slots of `vcpu->regs`, `NR_VCPU_REGS = 17`. -/
def vcpuRegsRax : Fin 17 := 0
def vcpuRegsRcx : Fin 17 := 1
def vcpuRegsRdx : Fin 17 := 2
def vcpuRegsRbx : Fin 17 := 3
def vcpuRegsRsp : Fin 17 := 4
def vcpuRegsRbp : Fin 17 := 5
def vcpuRegsRsi : Fin 17 := 6
def vcpuRegsRdi : Fin 17 := 7
def vcpuRegsR8 : Fin 17 := 8
def vcpuRegsR9 : Fin 17 := 9
def vcpuRegsR10 : Fin 17 := 10
def vcpuRegsR11 : Fin 17 := 11
def vcpuRegsR12 : Fin 17 := 12
def vcpuRegsR13 : Fin 17 := 13
def vcpuRegsR14 : Fin 17 := 14
def vcpuRegsR15 : Fin 17 := 15
def vcpuRegsRip : Fin 17 := 16

/-- `IRQ_MAX`: the interrupt lines `KVM_IRQ_LINE` accepts. -/
def irqMax : Nat := 16

def secondaryExecUnrestrictedGuest : BitVec 32 := 0x80

/-- `(1 << 31)`: an `int`, so sign-extended where it meets an `unsigned long`. -/
def intBit31 : BitVec 64 := ((1 : BitVec 32) <<< 31).signExtend 64

/-- `VCPU_SREG_*`. -/
inductive Sreg | cs | ss | ds | es | fs | gs | tr | ldtr
  deriving DecidableEq, Repr

/-- The VMCS fields the kext reads or writes. -/
inductive VmcsField
  | guestCr0 | guestCr3 | guestCr4 | guestRflags | guestRsp | guestRip
  | guestCsSelector | guestSsSelector | guestDsSelector | guestEsSelector
  | guestFsSelector | guestGsSelector | guestTrSelector | guestLdtrSelector
  | guestCsBase | guestSsBase | guestDsBase | guestEsBase
  | guestFsBase | guestGsBase | guestTrBase | guestLdtrBase
  | guestCsLimit | guestSsLimit | guestDsLimit | guestEsLimit
  | guestFsLimit | guestGsLimit | guestTrLimit | guestLdtrLimit
  | guestCsArBytes | guestSsArBytes | guestDsArBytes | guestEsArBytes
  | guestFsArBytes | guestGsArBytes | guestTrArBytes | guestLdtrArBytes
  | guestIdtrLimit | guestIdtrBase | guestGdtrLimit | guestGdtrBase | guestIa32Efer
  | guestIa32Debugctl | guestPendingDbgExceptions | guestInterruptibilityInfo
  | guestActivityState | guestSysenterCs | guestSysenterEsp | guestSysenterEip
  | hostCr0 | hostCr3 | hostCr4
  | hostCsSelector | hostSsSelector | hostDsSelector | hostEsSelector
  | hostFsSelector | hostGsSelector | hostTrSelector
  | hostFsBase | hostGsBase | hostTrBase | hostGdtrBase | hostIdtrBase
  | hostIa32SysenterCs | hostIa32SysenterEsp | hostIa32SysenterEip | hostRsp | hostRip
  | pinBasedVmExecControl | cpuBasedVmExecControl | secondaryVmExecControl | exceptionBitmap
  | pageFaultErrorCodeMask | pageFaultErrorCodeMatch | cr3TargetCount
  | cr3TargetValue0 | cr3TargetValue1 | cr3TargetValue2 | cr3TargetValue3
  | vmExitControls | vmEntryControls | vmExitMsrStoreCount | vmExitMsrLoadCount
  | vmEntryMsrLoadCount | vmExitMsrStoreAddr | vmExitMsrLoadAddr | vmEntryMsrLoadAddr
  | vmcsLinkPointer | eptPointer | virtualApicPageAddr | apicAccessAddr | tprThreshold
  | cr0GuestHostMask | cr0ReadShadow | cr4GuestHostMask | cr4ReadShadow
  | vmEntryIntrInfoField | vmEntryExceptionErrorCode | vmEntryInstructionLen
  | vmxPreemptionTimerValue
  | vmExitReason | exitQualification | vmExitInstructionLen | guestPhysicalAddress
  | vmInstructionError | idtVectoringInfoField
  deriving DecidableEq, Repr

/-- A row of `kvm_vmx_segment_fields`: the selector, base, limit and access-rights fields of a
guest segment register. -/
structure SegmentFields where
  selector : VmcsField
  base : VmcsField
  limit : VmcsField
  arBytes : VmcsField

/-- `kvm_vmx_segment_fields`. -/
def kvmVmxSegmentFields : Sreg → SegmentFields
  | .cs => ⟨.guestCsSelector, .guestCsBase, .guestCsLimit, .guestCsArBytes⟩
  | .ss => ⟨.guestSsSelector, .guestSsBase, .guestSsLimit, .guestSsArBytes⟩
  | .ds => ⟨.guestDsSelector, .guestDsBase, .guestDsLimit, .guestDsArBytes⟩
  | .es => ⟨.guestEsSelector, .guestEsBase, .guestEsLimit, .guestEsArBytes⟩
  | .fs => ⟨.guestFsSelector, .guestFsBase, .guestFsLimit, .guestFsArBytes⟩
  | .gs => ⟨.guestGsSelector, .guestGsBase, .guestGsLimit, .guestGsArBytes⟩
  | .tr => ⟨.guestTrSelector, .guestTrBase, .guestTrLimit, .guestTrArBytes⟩
  | .ldtr => ⟨.guestLdtrSelector, .guestLdtrBase, .guestLdtrLimit, .guestLdtrArBytes⟩

/-- A VMCS region: its fields, and whether it has been launched since the last VMCLEAR. -/
structure Vmcs where
  field : VmcsField → BitVec 64
  launched : Bool

/-- The VMCS operations the trace records: `LOAD_VMCS`, `RELEASE_VMCS`, a bare `vmcs_clear`,
field accesses, and VM entries with whether the guest was entered. -/
inductive VmcsOp
  | load | release | clear
  | read (f : VmcsField) | write (f : VmcsField)
  | launch (entered : Bool) | resume (entered : Bool)
  deriving DecidableEq, Repr

/-- `struct kvm_run` as the kext writes it, with the PIO data page after it (`pio_data`). -/
structure KvmRun where
  exitReason : BitVec 32
  ioDirection : BitVec 8
  ioSize : BitVec 8
  ioPort : BitVec 16
  ioCount : BitVec 32
  ioDataOffset : BitVec 64
  pioData : Nat → BitVec 8

/-- `struct kvm_cpuid_entry2` without `flags` and the padding, which nothing reads. -/
structure KvmCpuidEntry2 where
  function : BitVec 32
  index : BitVec 32
  eax : BitVec 32
  ebx : BitVec 32
  ecx : BitVec 32
  edx : BitVec 32
  deriving DecidableEq, Repr

/-- `struct kvm_msr_entry` without the reserved word. -/
structure KvmMsrEntry where
  index : BitVec 32
  data : BitVec 64
  deriving DecidableEq, Repr

/-- `struct vcpu`. `cpuids` and `msrs` are the tables' addresses; their contents, whose lengths
are `cpuid_count` and `msr_count`, are `cpuidEntries` and `msrEntries`. `kvmRun` is the page
`kvm_vcpu` points to. `fail` is the byte `setbe` stores. -/
structure Vcpu where
  vmcs : Nat
  kvmVcpu : Nat
  md : Nat
  mm : Nat
  kvmRun : KvmRun
  regs : Fin 17 → BitVec 64
  rflags : BitVec 64
  cr2 : BitVec 64
  launched : BitVec 64
  fail : Bool
  pendingIo : Bool
  cr3Shadow : BitVec 64
  exitQualification : BitVec 64
  exitInstructionLen : BitVec 32
  phys : BitVec 64
  irqLevel : Fin 16 → BitVec 32
  pendingIrq : BitVec 32
  cpuids : Nat
  cpuidEntries : List KvmCpuidEntry2
  msrs : Nat
  msrEntries : List KvmMsrEntry
  virtualApicPage : Nat
  apicAccess : Nat
  vmcsLoaded : Bool
  pml4 : Nat
  paging : Bool

/-- What the host processor answers when the code asks it: CPUID leaves by function and index,
MSR values, and the host state `init_host_values` copies into the VMCS. A `Host` is one processor
at one moment; answers that differ between processors, such as the APIC id of CPUID leaf 1, are
two `Host`s. -/
structure Host where
  cpuid : BitVec 32 → BitVec 32 → BitVec 32 × BitVec 32 × BitVec 32 × BitVec 32
  rdmsr : BitVec 32 → BitVec 64
  state : VmcsField → BitVec 64

/-- The vCPU with its VMCS, kernel memory, the host it runs on, and the VMCS operations so far. -/
structure Machine where
  vcpu : Vcpu
  vmcs : Vmcs
  heap : Heap
  host : Host
  trace : List VmcsOp

namespace Machine

/-- Record one VMCS operation. -/
@[simps] def log (m : Machine) (op : VmcsOp) : Machine := { m with trace := m.trace ++ [op] }

/-- `vmcs_writel` and `vmcs_write64`. -/
@[simps] def vmcsWritel (m : Machine) (f : VmcsField) (v : BitVec 64) : Machine :=
  { m with vmcs := { m.vmcs with field := Function.update m.vmcs.field f v },
           trace := m.trace ++ [.write f] }

/-- Write each field of a list, in order. -/
def vmcsWriteAll (m : Machine) (l : List (VmcsField × BitVec 64)) : Machine :=
  l.foldl (fun m w => m.vmcsWritel w.1 w.2) m

/-- `vmcs_write32`: the field keeps the 32-bit value. -/
def vmcsWrite32 (m : Machine) (f : VmcsField) (v : BitVec 32) : Machine :=
  m.vmcsWritel f (v.zeroExtend 64)

/-- `vmcs_write16`: the field keeps the 16-bit value. -/
def vmcsWrite16 (m : Machine) (f : VmcsField) (v : BitVec 16) : Machine :=
  m.vmcsWritel f (v.zeroExtend 64)

/-- `vmcs_readl`. -/
def vmcsReadl (m : Machine) (f : VmcsField) : BitVec 64 × Machine :=
  (m.vmcs.field f, m.log (.read f))

/-- `vmcs_read32`: the low 32 bits of the field. -/
def vmcsRead32 (m : Machine) (f : VmcsField) : BitVec 32 × Machine :=
  ((m.vmcs.field f).truncate 32, m.log (.read f))

/-- `vmcs_read16`: the low 16 bits of the field. -/
def vmcsRead16 (m : Machine) (f : VmcsField) : BitVec 16 × Machine :=
  ((m.vmcs.field f).truncate 16, m.log (.read f))

/-- `LOAD_VMCS`: take the vCPU's spin lock, make its VMCS current, set `vmcs_loaded`. -/
@[simps vcpu vmcs heap host trace] def loadVmcs (m : Machine) : Machine :=
  { m with vcpu := { m.vcpu with vmcsLoaded := true }, trace := m.trace ++ [.load] }

/-- `RELEASE_VMCS`: VMCLEAR the VMCS, which makes its launch state clear, drop the lock, clear
`vmcs_loaded`. -/
@[simps vcpu vmcs_field vmcs_launched heap host trace] def releaseVmcs (m : Machine) : Machine :=
  { m with vcpu := { m.vcpu with vmcsLoaded := false }, vmcs := { m.vmcs with launched := false },
           trace := m.trace ++ [.release] }

/-- `vmcs_clear` alone. -/
@[simps] def vmcsClear (m : Machine) : Machine :=
  { m with vmcs := { m.vmcs with launched := false }, trace := m.trace ++ [.clear] }

/-- Replace the vCPU record, as the C code's stores through `vcpu` do. -/
@[simps] def setVcpu (m : Machine) (v : Vcpu) : Machine := { m with vcpu := v }

@[simp] theorem vmcsWrite32_eq (m : Machine) (f : VmcsField) (v : BitVec 32) :
    m.vmcsWrite32 f v = m.vmcsWritel f (v.zeroExtend 64) := rfl

@[simp] theorem vmcsWrite16_eq (m : Machine) (f : VmcsField) (v : BitVec 16) :
    m.vmcsWrite16 f v = m.vmcsWritel f (v.zeroExtend 64) := rfl

@[simp] theorem vmcsReadl_fst (m : Machine) (f : VmcsField) :
    (m.vmcsReadl f).1 = m.vmcs.field f := rfl

@[simp] theorem vmcsReadl_snd (m : Machine) (f : VmcsField) :
    (m.vmcsReadl f).2 = m.log (.read f) := rfl

@[simp] theorem vmcsRead32_fst (m : Machine) (f : VmcsField) :
    (m.vmcsRead32 f).1 = (m.vmcs.field f).truncate 32 := rfl

@[simp] theorem vmcsRead32_snd (m : Machine) (f : VmcsField) :
    (m.vmcsRead32 f).2 = m.log (.read f) := rfl

@[simp] theorem vmcsRead16_fst (m : Machine) (f : VmcsField) :
    (m.vmcsRead16 f).1 = (m.vmcs.field f).truncate 16 := rfl

@[simp] theorem vmcsRead16_snd (m : Machine) (f : VmcsField) :
    (m.vmcsRead16 f).2 = m.log (.read f) := rfl

@[simp] theorem vmcsWriteAll_nil (m : Machine) : m.vmcsWriteAll [] = m := rfl

@[simp] theorem vmcsWriteAll_cons (m : Machine) (w : VmcsField × BitVec 64) (l) :
    m.vmcsWriteAll (w :: l) = (m.vmcsWritel w.1 w.2).vmcsWriteAll l := rfl

section WriteAll

variable (l : List (VmcsField × BitVec 64))

@[simp] theorem vmcsWriteAll_vcpu (m : Machine) : (m.vmcsWriteAll l).vcpu = m.vcpu := by
  induction l generalizing m <;> simp [*]

@[simp] theorem vmcsWriteAll_heap (m : Machine) : (m.vmcsWriteAll l).heap = m.heap := by
  induction l generalizing m <;> simp [*]

@[simp] theorem vmcsWriteAll_host (m : Machine) : (m.vmcsWriteAll l).host = m.host := by
  induction l generalizing m <;> simp [*]

@[simp] theorem vmcsWriteAll_launched (m : Machine) :
    (m.vmcsWriteAll l).vmcs.launched = m.vmcs.launched := by
  induction l generalizing m <;> simp [*]

@[simp] theorem vmcsWriteAll_trace (m : Machine) :
    (m.vmcsWriteAll l).trace = m.trace ++ l.map fun w => .write w.1 := by
  induction l generalizing m <;> simp [*]

/-- A field the list does not name keeps its value. -/
theorem vmcsWriteAll_field {f : VmcsField} (hf : f ∉ l.map Prod.fst) (m : Machine) :
    (m.vmcsWriteAll l).vmcs.field f = m.vmcs.field f := by
  induction l generalizing m with
  | nil => rfl
  | cons w l ih =>
    simp only [List.map_cons, List.mem_cons, not_or] at hf
    simp [ih hf.2, Function.update_apply, hf.1]

/-- A field holds the value of the last write to it, or its old value. -/
theorem vmcsWriteAll_field_eq (f : VmcsField) (m : Machine) :
    (m.vmcsWriteAll l).vmcs.field f =
      l.foldl (fun v w => if f = w.1 then w.2 else v) (m.vmcs.field f) := by
  induction l generalizing m with
  | nil => rfl
  | cons w l ih => simp [ih, Function.update_apply]

end WriteAll

end Machine

end KvmKext
