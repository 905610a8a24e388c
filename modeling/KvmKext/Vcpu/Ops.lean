import KvmKext.Vcpu.State
import Mathlib.Data.Fin.VecNotation
import Mathlib.Data.List.Nodup

/-!
# Register access, interrupt lines and override tables

The vCPU operations of `kvm_dev_ioctl` other than `KVM_RUN`: `kvm_get_regs`, `kvm_set_regs`,
`kvm_get_sregs`, `kvm_set_sregs`, `kvm_irq_line`, `kvm_set_cpuid2` and `kvm_set_msrs`. The
`copyin` of a table is taken to deliver the entries given. Beside the definitions stand the
frame lemmas the invariants of later modules use: what each call leaves of the vCPU record, and
the `GUEST_CR0` that `kvm_set_sregs` writes.
-/

namespace KvmKext

/-- `struct kvm_regs`. -/
structure KvmRegs where
  rax : BitVec 64
  rbx : BitVec 64
  rcx : BitVec 64
  rdx : BitVec 64
  rsi : BitVec 64
  rdi : BitVec 64
  rsp : BitVec 64
  rbp : BitVec 64
  r8 : BitVec 64
  r9 : BitVec 64
  r10 : BitVec 64
  r11 : BitVec 64
  r12 : BitVec 64
  r13 : BitVec 64
  r14 : BitVec 64
  r15 : BitVec 64
  rip : BitVec 64
  rflags : BitVec 64
  deriving DecidableEq, Repr

/-- `kvm_get_regs`. -/
def kvmGetRegs (v : Vcpu) : Int × KvmRegs :=
  (0, ⟨v.regs vcpuRegsRax, v.regs vcpuRegsRbx, v.regs vcpuRegsRcx, v.regs vcpuRegsRdx,
    v.regs vcpuRegsRsi, v.regs vcpuRegsRdi, v.regs vcpuRegsRsp, v.regs vcpuRegsRbp,
    v.regs vcpuRegsR8, v.regs vcpuRegsR9, v.regs vcpuRegsR10, v.regs vcpuRegsR11,
    v.regs vcpuRegsR12, v.regs vcpuRegsR13, v.regs vcpuRegsR14, v.regs vcpuRegsR15,
    v.regs vcpuRegsRip, v.rflags⟩)

/-- The register file `kvm_set_regs` stores, slot by slot. -/
def KvmRegs.toSlots (r : KvmRegs) : Fin 17 → BitVec 64 :=
  ![r.rax, r.rcx, r.rdx, r.rbx, r.rsp, r.rbp, r.rsi, r.rdi,
    r.r8, r.r9, r.r10, r.r11, r.r12, r.r13, r.r14, r.r15, r.rip]

/-- `kvm_set_regs`: every slot of `vcpu->regs`, and RFLAGS. -/
def kvmSetRegs (v : Vcpu) (r : KvmRegs) : Int × Vcpu :=
  (0, { v with regs := r.toSlots, rflags := r.rflags })

/-- `struct kvm_segment`, with the access-rights bits kept packed as the VMCS holds them. -/
structure KvmSegment where
  base : BitVec 64
  limit : BitVec 32
  selector : BitVec 16
  ar : BitVec 32

/-- `struct kvm_dtable`. -/
structure KvmDtable where
  base : BitVec 64
  limit : BitVec 16

/-- The fields of `struct kvm_sregs` the kext reads or writes. -/
structure KvmSregs where
  seg : Sreg → KvmSegment
  idt : KvmDtable
  gdt : KvmDtable
  cr0 : BitVec 64
  cr2 : BitVec 64
  cr3 : BitVec 64
  cr4 : BitVec 64
  efer : BitVec 64

/-- The segment registers in the order `kvm_get_sregs` and `kvm_set_sregs` visit them. -/
def sregOrder : List Sreg := [.cs, .ss, .ds, .es, .fs, .gs, .tr, .ldtr]

/-- Modelled from the spec: `kvm_get_segment` (a helper header outside the source tree) reads a
segment register's base, limit, selector and access rights from its guest fields. -/
def kvmGetSegment (m : Machine) (s : Sreg) : KvmSegment × Machine :=
  let sf := kvmVmxSegmentFields s
  let (base, m) := m.vmcsReadl sf.base
  let (limit, m) := m.vmcsRead32 sf.limit
  let (selector, m) := m.vmcsRead16 sf.selector
  let (ar, m) := m.vmcsRead32 sf.arBytes
  (⟨base, limit, selector, ar⟩, m)

/-- Modelled from the spec: `kvm_set_segment` writes the four guest fields of a segment
register. -/
def kvmSetSegment (m : Machine) (seg : KvmSegment) (s : Sreg) : Machine :=
  let sf := kvmVmxSegmentFields s
  (((m.vmcsWritel sf.base seg.base).vmcsWrite32 sf.limit seg.limit).vmcsWrite16 sf.selector
    seg.selector).vmcsWrite32 sf.arBytes seg.ar

/-- The eight `kvm_get_segment` calls of `kvm_get_sregs`. -/
def getSegments (m : Machine) (seg : Sreg → KvmSegment) : (Sreg → KvmSegment) × Machine :=
  sregOrder.foldl (fun (seg, m) s =>
    (Function.update seg s (kvmGetSegment m s).1, (kvmGetSegment m s).2)) (seg, m)

/-- `kvm_get_sregs`: CR0, CR3, CR4, the segments, IDTR, GDTR and EFER from the VMCS while it is
loaded, CR2 from the record. `out` is the caller's buffer, of which only these fields change. -/
def kvmGetSregs (m : Machine) (out : KvmSregs) : Int × KvmSregs × Machine :=
  let m := m.loadVmcs
  let (cr0, m) := m.vmcsReadl .guestCr0
  let cr2 := m.vcpu.cr2
  let (cr3, m) := m.vmcsReadl .guestCr3
  let (cr4, m) := m.vmcsReadl .guestCr4
  let (seg, m) := getSegments m out.seg
  let (idtLimit, m) := m.vmcsRead32 .guestIdtrLimit
  let (idtBase, m) := m.vmcsReadl .guestIdtrBase
  let (gdtLimit, m) := m.vmcsRead32 .guestGdtrLimit
  let (gdtBase, m) := m.vmcsReadl .guestGdtrBase
  let (efer, m) := m.vmcsReadl .guestIa32Efer
  (0, ⟨seg, ⟨idtBase, idtLimit.truncate 16⟩, ⟨gdtBase, gdtLimit.truncate 16⟩, cr0, cr2, cr3, cr4,
    efer⟩, m.releaseVmcs)

/-- `kvm_set_sregs`: CR0 with NE forced, CR2 into the record, CR3, CR4 with VMXE forced, the
segments, IDTR, GDTR and EFER, all while the VMCS is loaded. -/
def kvmSetSregs (m : Machine) (s : KvmSregs) : Int × Machine :=
  let m := m.loadVmcs
  let m := m.vmcsWritel .guestCr0 (s.cr0 ||| 0x20)
  let m := m.setVcpu { m.vcpu with cr2 := s.cr2 }
  let m := (m.vmcsWritel .guestCr3 s.cr3).vmcsWritel .guestCr4 (s.cr4 ||| 1 <<< 13)
  let m := sregOrder.foldl (fun m r => kvmSetSegment m (s.seg r) r) m
  let m := (m.vmcsWrite32 .guestIdtrLimit (s.idt.limit.zeroExtend 32)).vmcsWritel .guestIdtrBase
    s.idt.base
  let m := (m.vmcsWrite32 .guestGdtrLimit (s.gdt.limit.zeroExtend 32)).vmcsWritel .guestGdtrBase
    s.gdt.base
  (0, (m.vmcsWritel .guestIa32Efer s.efer).releaseVmcs)

/-- The four guest fields of a segment register. -/
def SegmentFields.toList (sf : SegmentFields) : List VmcsField :=
  [sf.base, sf.limit, sf.selector, sf.arBytes]

section SetSregs

variable (m : Machine)

@[simp] theorem kvmSetSegment_vcpu (seg : KvmSegment) (r : Sreg) :
    (kvmSetSegment m seg r).vcpu = m.vcpu := by
  simp [kvmSetSegment]

theorem kvmSetSegment_field (seg : KvmSegment) (r : Sreg) {f : VmcsField}
    (hf : f ∉ (kvmVmxSegmentFields r).toList) :
    (kvmSetSegment m seg r).vmcs.field f = m.vmcs.field f := by
  simp only [SegmentFields.toList, List.mem_cons, List.not_mem_nil, or_false, not_or] at hf
  simp [kvmSetSegment, Function.update_apply, hf]

theorem setSegments_vcpu (seg : Sreg → KvmSegment) (l : List Sreg) :
    (l.foldl (fun m r => kvmSetSegment m (seg r) r) m).vcpu = m.vcpu := by
  induction l generalizing m <;> simp [*]

theorem setSegments_field (seg : Sreg → KvmSegment) (l : List Sreg) {f : VmcsField}
    (hf : ∀ r ∈ l, f ∉ (kvmVmxSegmentFields r).toList) :
    (l.foldl (fun m r => kvmSetSegment m (seg r) r) m).vmcs.field f = m.vmcs.field f := by
  induction l generalizing m with
  | nil => rfl
  | cons r l ih =>
    rw [List.foldl_cons, ih _ fun r' h => hf r' (List.mem_cons_of_mem r h),
      kvmSetSegment_field _ _ _ (hf r (List.mem_cons_self r l))]

variable (s : KvmSregs)

/-- `kvm_set_sregs` changes only CR2 in the record. -/
theorem kvmSetSregs_vcpu : (kvmSetSregs m s).2.vcpu = { m.vcpu with cr2 := s.cr2, vmcsLoaded := false } := by
  simp [kvmSetSregs, setSegments_vcpu]

theorem kvmSetSregs_guestCr0 : (kvmSetSregs m s).2.vmcs.field .guestCr0 = s.cr0 ||| 0x20 := by
  have hs : ∀ r, VmcsField.guestCr0 ∉ (kvmVmxSegmentFields r).toList := by
    intro r; cases r <;> decide
  simp [kvmSetSregs, setSegments_field _ _ _ fun r _ => hs r, Function.update_apply]

end SetSregs

section GetSregs

variable (m : Machine)

theorem getSegments_vcpu (seg : Sreg → KvmSegment) : (getSegments m seg).2.vcpu = m.vcpu := by
  simp [getSegments, sregOrder, kvmGetSegment, Machine.vmcsReadl, Machine.vmcsRead32,
    Machine.vmcsRead16]

/-- `kvm_get_sregs` changes nothing in the record but `vmcs_loaded`, which it leaves clear. -/
theorem kvmGetSregs_vcpu (out : KvmSregs) :
    (kvmGetSregs m out).2.2.vcpu = { m.vcpu with vmcsLoaded := false } := by
  simp [kvmGetSregs, getSegments_vcpu, Machine.vmcsReadl, Machine.vmcsRead32]

end GetSregs

/-- `struct kvm_irq_level`. -/
structure KvmIrqLevel where
  irq : BitVec 32
  level : BitVec 32

/-- `kvm_irq_line`: a line below `IRQ_MAX` records its level, and a change from 0 to exactly 1
sets its pending bit. -/
def kvmIrqLine (v : Vcpu) (irq : KvmIrqLevel) : Int × Vcpu :=
  if h : irq.irq.toNat < 16 then
    let n : Fin 16 := ⟨irq.irq.toNat, h⟩
    let v := if v.irqLevel n = 0 ∧ irq.level = 1 then
        { v with pendingIrq := v.pendingIrq ||| (1 : BitVec 32) <<< irq.irq.toNat } else v
    (0, { v with irqLevel := Function.update v.irqLevel n irq.level })
  else (0, v)

/-- `sizeof(struct kvm_cpuid_entry2)` and `sizeof(struct kvm_msr_entry)`. -/
def sizeofKvmCpuidEntry2 : Nat := 40
def sizeofKvmMsrEntry : Nat := 16

/-- `kvm_set_cpuid2`: a new table of `nent` entries; the previous table is not freed. -/
def kvmSetCpuid2 (m : Machine) (entries : List KvmCpuidEntry2) : Int × Machine :=
  let (p, h) := ioCallocAligned m.heap (entries.length * sizeofKvmCpuidEntry2)
  (0, { m with heap := h, vcpu := { m.vcpu with cpuids := p, cpuidEntries := entries } })

/-- `kvm_set_msrs`: a new table of `nmsrs` entries; the previous table is not freed. -/
def kvmSetMsrs (m : Machine) (entries : List KvmMsrEntry) : Int × Machine :=
  let (p, h) := ioCallocAligned m.heap (entries.length * sizeofKvmMsrEntry)
  (0, { m with heap := h, vcpu := { m.vcpu with msrs := p, msrEntries := entries } })

end KvmKext
