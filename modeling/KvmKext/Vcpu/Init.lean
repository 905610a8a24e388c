import KvmKext.Vcpu.State

/-!
# Creating the vCPU

The `KVM_CREATE_VM` case of `kvm_dev_ioctl` and `vcpu_init`: allocate the record, the page-table
root, the VMCS and the shared run page, VMCLEAR the VMCS, and write the fixed initial
configuration while it is loaded. The control-field constants come from the VMX headers the
source includes.
-/

namespace KvmKext

def pinBasedExtIntrMask : BitVec 32 := 0x1
def pinBasedNmiExiting : BitVec 32 := 0x8
def pinBasedAlwaysonWithoutTrueMsr : BitVec 32 := 0x16
def cpuBasedCr3LoadExiting : BitVec 32 := 0x8000
def cpuBasedCr3StoreExiting : BitVec 32 := 0x10000
def cpuBasedTprShadow : BitVec 32 := 0x200000
def cpuBasedMovDrExiting : BitVec 32 := 0x800000
def cpuBasedUncondIoExiting : BitVec 32 := 0x1000000
def cpuBasedActivateSecondaryControls : BitVec 32 := 0x80000000
def cpuBasedAlwaysonWithoutTrueMsr : BitVec 32 := 0x401e172
def secondaryExecVirtualizeApicAccesses : BitVec 32 := 0x1
def secondaryExecEnableEpt : BitVec 32 := 0x2
def vmExitAlwaysonWithoutTrueMsr : BitVec 32 := 0x36dff
def vmExitHostAddrSpaceSize : BitVec 32 := 0x200
def vmEntryAlwaysonWithoutTrueMsr : BitVec 32 := 0x11ff
def guestActivityActive : BitVec 32 := 0
def msrIa32SysenterCs : BitVec 32 := 0x174
def msrIa32SysenterEsp : BitVec 32 := 0x175
def msrIa32SysenterEip : BitVec 32 := 0x176

/-- `VCPU_SIZE`: the run page and the PIO data page after it. -/
def vcpuSize : Nat := pageSize * 2

/-- A zeroed `struct kvm_run` page. -/
def KvmRun.zero : KvmRun := ⟨0, 0, 0, 0, 0, 0, fun _ => 0⟩

/-- A zeroed `struct vcpu`, as `IOCalloc` returns it. -/
def Vcpu.zero : Vcpu where
  vmcs := 0
  kvmVcpu := 0
  md := 0
  mm := 0
  kvmRun := .zero
  regs := fun _ => 0
  rflags := 0
  cr2 := 0
  launched := 0
  fail := false
  pendingIo := false
  cr3Shadow := 0
  exitQualification := 0
  exitInstructionLen := 0
  phys := 0
  irqLevel := fun _ => 0
  pendingIrq := 0
  cpuids := 0
  cpuidEntries := []
  msrs := 0
  msrEntries := []
  virtualApicPage := 0
  apicAccess := 0
  vmcsLoaded := false
  pml4 := 0
  paging := false

/-- Modelled from the spec: `allocate_vmcs` (in a helper header outside the source tree) hands out
the hardware control structure, one zeroed page that `kvm_dev_close` frees with
`IOFree(vmcs, PAGE_SIZE)`. -/
def allocateVmcs (h : Heap) : Nat × Heap := ioCallocAligned h pageSize

/-- A fresh VMCS region: all fields 0, launch state clear. -/
def Vmcs.zero : Vmcs := ⟨fun _ => 0, false⟩

/-- Allocate a zeroed page and store its address in the vCPU with `set`. -/
def Machine.allocPage (m : Machine) (set : Vcpu → Nat → Vcpu) : Machine :=
  { m with vcpu := set m.vcpu (ioCallocAligned m.heap pageSize).1,
           heap := (ioCallocAligned m.heap pageSize).2 }

/-- The constant writes of `vcpu_init` after the APIC pages, in order; 32-bit values as the
fields hold them. -/
def vcpuInitWrites : List (VmcsField × BitVec 64) :=
  [(.pinBasedVmExecControl,
      (pinBasedAlwaysonWithoutTrueMsr ||| pinBasedNmiExiting ||| pinBasedExtIntrMask).zeroExtend 64),
   (.cpuBasedVmExecControl,
      (cpuBasedAlwaysonWithoutTrueMsr &&& ~~~(cpuBasedCr3LoadExiting ||| cpuBasedCr3StoreExiting) |||
        cpuBasedTprShadow ||| cpuBasedActivateSecondaryControls ||| cpuBasedUncondIoExiting |||
        cpuBasedMovDrExiting).zeroExtend 64),
   (.secondaryVmExecControl, (secondaryExecUnrestrictedGuest ||| secondaryExecEnableEpt |||
      secondaryExecVirtualizeApicAccesses).zeroExtend 64),
   (.vmExitControls, (vmExitAlwaysonWithoutTrueMsr ||| vmExitHostAddrSpaceSize).zeroExtend 64),
   (.vmEntryControls, vmEntryAlwaysonWithoutTrueMsr.zeroExtend 64),
   (.pageFaultErrorCodeMask, 0), (.pageFaultErrorCodeMatch, 0), (.cr3TargetCount, 0),
   (.vmExitMsrStoreCount, 0), (.vmExitMsrLoadCount, 0), (.vmEntryMsrLoadCount, 0),
   (.vmcsLinkPointer, -1), (.guestIa32Debugctl, 0),
   (.vmExitMsrStoreAddr, -1), (.vmExitMsrLoadAddr, -1), (.vmEntryMsrLoadAddr, -1),
   (.vmEntryExceptionErrorCode, 0), (.vmEntryInstructionLen, 0), (.tprThreshold, 0),
   (.cr0GuestHostMask, intBit31), (.cr0ReadShadow, 0),
   (.cr4GuestHostMask, 1 <<< 13), (.cr4ReadShadow, 0),
   (.cr3TargetValue0, 0), (.cr3TargetValue1, 0), (.cr3TargetValue2, 0), (.cr3TargetValue3, 0),
   (.guestPendingDbgExceptions, 0), (.guestInterruptibilityInfo, 0),
   (.guestActivityState, guestActivityActive.zeroExtend 64), (.vmxPreemptionTimerValue, 0)]

/-- `vcpu_init`: exception bitmap, EPT pointer, the two APIC pages (the access page also mapped at
guest physical 0xfee00000), the constant writes with unrestricted guest on, and the guest SYSENTER
MSRs copied from the host. -/
def vcpuInit (pa : Nat → Nat) (m : Machine) : Machine :=
  let m := m.vmcsWrite32 .exceptionBitmap 0
  let m := m.vmcsWritel .eptPointer (BitVec.ofNat 64 (eptPointer pa m.vcpu.pml4))
  let m := m.allocPage fun v p => { v with virtualApicPage := p }
  let m := m.vmcsWritel .virtualApicPageAddr (BitVec.ofNat 64 (pa m.vcpu.virtualApicPage))
  let m := m.allocPage fun v p => { v with apicAccess := p }
  let m := m.vmcsWritel .apicAccessAddr (BitVec.ofNat 64 (pa m.vcpu.apicAccess))
  let m := { m with heap := eptAddPage pa m.heap m.vcpu.pml4 0xfee00000 (pa m.vcpu.apicAccess) }
  let m := m.vmcsWriteAll vcpuInitWrites
  m.vmcsWriteAll [(.guestSysenterCs, m.host.rdmsr msrIa32SysenterCs),
    (.guestSysenterEsp, m.host.rdmsr msrIa32SysenterEsp),
    (.guestSysenterEip, m.host.rdmsr msrIa32SysenterEip)]

/-- The fields `vcpu_init` writes, in order. -/
def vcpuInitFields : List VmcsField :=
  [.exceptionBitmap, .eptPointer, .virtualApicPageAddr, .apicAccessAddr] ++
    vcpuInitWrites.map Prod.fst ++ [.guestSysenterCs, .guestSysenterEsp, .guestSysenterEip]

section VcpuInit

variable (pa : Nat → Nat) (m : Machine)

/-- `vcpu_init` changes only the two APIC page addresses of the record. -/
theorem vcpuInit_vcpu : (vcpuInit pa m).vcpu = { m.vcpu with
    virtualApicPage := (ioCallocAligned m.heap pageSize).1,
    apicAccess := (ioCallocAligned (ioCallocAligned m.heap pageSize).2 pageSize).1 } := by
  simp only [vcpuInit, Machine.vmcsWriteAll_vcpu, Machine.allocPage, Machine.vmcsWrite32_eq,
    Machine.vmcsWritel_vcpu, Machine.vmcsWritel_heap]

/-- `vcpu_init` allocates the two APIC pages and maps the access page at guest 0xfee00000. -/
theorem vcpuInit_heap : (vcpuInit pa m).heap =
    eptAddPage pa (ioCallocAligned (ioCallocAligned m.heap pageSize).2 pageSize).2 m.vcpu.pml4
      0xfee00000 (pa (ioCallocAligned (ioCallocAligned m.heap pageSize).2 pageSize).1) := by
  simp only [vcpuInit, Machine.vmcsWriteAll_heap, Machine.allocPage, Machine.vmcsWrite32_eq,
    Machine.vmcsWritel_vcpu, Machine.vmcsWritel_heap]

@[simp] theorem vcpuInit_launched : (vcpuInit pa m).vmcs.launched = m.vmcs.launched := by
  simp only [vcpuInit, Machine.vmcsWriteAll_launched, Machine.allocPage, Machine.vmcsWrite32_eq,
    Machine.vmcsWritel_vmcs_launched]

@[simp] theorem vcpuInit_host : (vcpuInit pa m).host = m.host := by
  simp only [vcpuInit, Machine.vmcsWriteAll_host, Machine.allocPage, Machine.vmcsWrite32_eq,
    Machine.vmcsWritel_host]

/-- `vcpu_init` only writes fields: its trace is the list of fields it writes. -/
theorem vcpuInit_trace : (vcpuInit pa m).trace = m.trace ++ vcpuInitFields.map .write := by
  simp only [vcpuInit, Machine.vmcsWriteAll_trace, Machine.allocPage, Machine.vmcsWrite32_eq,
    Machine.vmcsWritel_trace, vcpuInitFields, List.map_append, List.append_assoc, List.map_map]
  rfl

theorem vcpuInit_field {f : VmcsField} (hf : f ∉ vcpuInitFields) :
    (vcpuInit pa m).vmcs.field f = m.vmcs.field f := by
  simp only [vcpuInitFields, List.mem_append, List.mem_cons, List.not_mem_nil, or_false,
    not_or] at hf
  obtain ⟨⟨⟨h1, h2, h3, h4⟩, hw⟩, h5, h6, h7⟩ := hf
  simp only [vcpuInit, Machine.vmcsWriteAll_field _ hw, Machine.allocPage, Machine.vmcsWrite32_eq,
    Machine.vmcsWritel_vmcs_field, Machine.vmcsWriteAll_cons, Machine.vmcsWriteAll_nil,
    Function.update_apply, h1, h2, h3, h4, h5, h6, h7, if_false]

end VcpuInit

/-- The `KVM_CREATE_VM` case: a zeroed record of `sizeofVcpu` bytes, `ept_init`, `allocate_vmcs`,
the run page, `vmcs_clear`, then `vcpu_init` between `LOAD_VMCS` and `RELEASE_VMCS`. Returns the
record's address and the new vCPU; its trace starts empty. -/
def kvmCreateVm (pa : Nat → Nat) (sizeofVcpu : Nat) (host : Host) (h : Heap) : Nat × Machine :=
  let (vcpu, h) := ioCallocAligned h sizeofVcpu
  let (pml4, h) := eptInit h
  let (vmcs, h) := allocateVmcs h
  let (kvmVcpu, h) := ioCallocAligned h vcpuSize
  let v := { Vcpu.zero with pml4, vmcs, kvmVcpu, pendingIo := false }
  (vcpu, (vcpuInit pa (Machine.vmcsClear ⟨v, .zero, h, host, []⟩).loadVmcs).releaseVmcs)


section CreateVm

variable (pa : Nat → Nat) (sizeofVcpu : Nat) (host : Host) (h : Heap)

/-- The new record is zero apart from the five addresses `KVM_CREATE_VM` stores in it. -/
theorem kvmCreateVm_vcpu : ∃ pml4 vmcs kvmVcpu virtualApicPage apicAccess,
    (kvmCreateVm pa sizeofVcpu host h).2.vcpu = { Vcpu.zero with
      pml4, vmcs, kvmVcpu, virtualApicPage, apicAccess } := by
  simp only [kvmCreateVm, Machine.releaseVmcs_vcpu, vcpuInit_vcpu, Machine.loadVmcs_vcpu,
    Machine.vmcsClear_vcpu]
  exact ⟨_, _, _, _, _, rfl⟩

@[simp] theorem kvmCreateVm_launched : (kvmCreateVm pa sizeofVcpu host h).2.vmcs.launched = false :=
  rfl

@[simp] theorem kvmCreateVm_host : (kvmCreateVm pa sizeofVcpu host h).2.host = host := by
  simp [kvmCreateVm]

/-- A field `vcpu_init` does not write keeps the 0 of the fresh region. -/
theorem kvmCreateVm_field {f : VmcsField} (hf : f ∉ vcpuInitFields) :
    (kvmCreateVm pa sizeofVcpu host h).2.vmcs.field f = 0 := by
  simp only [kvmCreateVm, Machine.releaseVmcs_vmcs_field, vcpuInit_field _ _ hf,
    Machine.loadVmcs_vmcs, Machine.vmcsClear_vmcs_field]
  rfl

/-- A field of the constant table holds the table's last value for it. -/
theorem kvmCreateVm_field_writes {f : VmcsField}
    (hf : f ∉ [.exceptionBitmap, .eptPointer, .virtualApicPageAddr, .apicAccessAddr,
      .guestSysenterCs, .guestSysenterEsp, .guestSysenterEip]) :
    (kvmCreateVm pa sizeofVcpu host h).2.vmcs.field f =
      vcpuInitWrites.foldl (fun v w => if f = w.1 then w.2 else v) 0 := by
  simp only [List.mem_cons, List.not_mem_nil, or_false, not_or] at hf
  obtain ⟨h1, h2, h3, h4, h5, h6, h7⟩ := hf
  simp only [kvmCreateVm, Machine.releaseVmcs_vmcs_field, vcpuInit, Machine.vmcsWriteAll_field_eq,
    Machine.allocPage, Machine.vmcsWrite32_eq, Machine.vmcsWritel_vmcs_field, List.foldl_cons,
    List.foldl_nil, Function.update_apply, h1, h2, h3, h4, h5, h6, h7, if_false,
    Machine.loadVmcs_vmcs, Machine.vmcsClear_vmcs_field]
  rfl

theorem kvmCreateVm_trace : (kvmCreateVm pa sizeofVcpu host h).2.trace =
    [.clear, .load] ++ vcpuInitFields.map .write ++ [.release] := by
  simp [kvmCreateVm, vcpuInit_trace]

end CreateVm

end KvmKext
