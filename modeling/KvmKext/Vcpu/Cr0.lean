import KvmKext.Vcpu.Frame
import KvmKext.Vcpu.Ops
import KvmKext.Vcpu.Init

/-!
# CR0 bookkeeping

The guest's CR0 paging bit is tracked three times: in `vcpu->paging`, in `CR0_READ_SHADOW` (the
value a guest read of a host-owned CR0 bit returns), and in the unrestricted-guest control, which
must be off while paging is on. `handle_cr` updates all three on a MOV to CR0; `kvm_set_sregs`
writes `GUEST_CR0` and none of the others. The mask `1 << 31` is an `int`, so it reaches the
64-bit field sign-extended (`intBit31`), and the shadow written when paging goes on is
`0xffffffff80000000`.
-/

namespace KvmKext

/-- The CR0 bookkeeping as the three agreements it should keep: `paging` is bit 31 of
`GUEST_CR0`, `CR0_READ_SHADOW` is `GUEST_CR0` masked to bit 31, and unrestricted guest is on
exactly while bit 31 is clear. -/
def Cr0Bookkeeping (m : Machine) : Prop :=
  m.vcpu.paging = (m.vmcs.field .guestCr0).getLsbD 31 ∧
  m.vmcs.field .cr0ReadShadow = m.vmcs.field .guestCr0 &&& 0x80000000 ∧
  ((m.vmcs.field .secondaryVmExecControl).truncate 32 &&& secondaryExecUnrestrictedGuest ≠ 0 ↔
    (m.vmcs.field .guestCr0).getLsbD 31 = false)

instance : DecidablePred Cr0Bookkeeping := fun _ => inferInstanceAs (Decidable (_ ∧ _ ∧ _))

/-- `handle_cr` on a MOV to CR0: `GUEST_CR0` takes the register's value, and `paging`, the read
shadow and unrestricted guest follow its test against the sign-extended mask. -/
theorem handleCr_movToCr0 (m : Machine)
    (hn : (m.vcpu.exitQualification &&& controlRegAccessNum).toNat = 0)
    (ht : ((m.vcpu.exitQualification &&& controlRegAccessType) >>> 4).toNat = 0) :
    let val := m.vcpu.regs (Fin.ofNat ((m.vcpu.exitQualification &&& controlRegAccessReg) >>> 8).toNat)
    (handleCr m).2.vmcs.field .guestCr0 = val ∧
    (handleCr m).2.vcpu.paging = decide (val &&& intBit31 ≠ 0) ∧
    (handleCr m).2.vmcs.field .cr0ReadShadow = (if val &&& intBit31 ≠ 0 then intBit31 else 0) ∧
    (handleCr m).2.vmcs.field .secondaryVmExecControl =
      (if val &&& intBit31 ≠ 0 then
        (m.vmcs.field .secondaryVmExecControl).truncate 32 &&& ~~~secondaryExecUnrestrictedGuest
      else (m.vmcs.field .secondaryVmExecControl).truncate 32 ||| secondaryExecUnrestrictedGuest).zeroExtend 64 := by
  intro val
  have h3 : ¬(0 : Nat) = 3 := by decide
  simp only [handleCr, hn, ht, h3, if_false, if_true]
  split_ifs with h <;> simp_all [Function.update_apply, val, skipEmulatedInstruction]

/-- A CR-access exit is dispatched to `handle_cr`. -/
theorem dispatch_cr {r : BitVec 32} (hr : r.toNat = exitReasonCrAccess) (signal : Bool)
    (m : Machine) : dispatch signal r m = handleCr m := by
  have : r = 28 := BitVec.eq_of_toNat_eq hr
  subst this
  rfl

/-- One pass of the loop whose guest exits on a MOV to CR0 from RAX (qualification 0): the
handler sees the guest's RAX. -/
theorem runIteration_movToCr0 {l : RunLoop} (hl : l.m.vmcs.launched = false)
    (hv : l.m.vcpu.launched = 0) {x : VmExit} (hr : x.reason.toNat = exitReasonCrAccess)
    (hq : x.qualification = 0) (signal : Bool) :
    let m := (runIteration ⟨.exit x, signal⟩ l).m
    m.vmcs.field .guestCr0 = x.gprs vcpuRegsRax ∧
    m.vmcs.field .cr0ReadShadow = (if x.gprs vcpuRegsRax &&& intBit31 ≠ 0 then intBit31 else 0) := by
  have hpl : (prepareEntry l).vmcs.launched = false := by simp [hl]
  have hpv : (prepareEntry l).vcpu.launched = 0 := by simp [prepareEntry_vcpu, hv]
  dsimp only
  rw [runIteration_m]
  set e := readExit (kvmRun (.exit x) (prepareEntry l)) with he_def
  have he : e.exitReason.toNat = exitReasonCrAccess := by
    simpa [he_def, readExit_eq, kvmRun_exit_vmcs hpl hpv] using hr
  have hq' : e.m.vcpu.exitQualification = 0 := by
    simp [he_def, readExit_eq, kvmRun_exit_vmcs hpl hpv, hq]
  have hrax : e.m.vcpu.regs vcpuRegsRax = x.gprs vcpuRegsRax := by
    simp [he_def, readExit_eq, kvmRun_exit_vcpu hpl hpv, vcpuRegsRax, vcpuRegsRip, vcpuRegsRsp]
  obtain ⟨h1, -, h3, -⟩ := handleCr_movToCr0 e.m (by simp [hq']) (by simp [hq'])
  simp only [hq'] at h1 h3
  rw [dispatch_cr he, Machine.releaseVmcs_vmcs_field, Machine.releaseVmcs_vmcs_field, h1, h3]
  exact ⟨hrax, by rw [← hrax]; rfl⟩

section CreateVm

variable (pa : Nat → Nat) (sizeofVcpu : Nat) (host : Host) (h : Heap)

/-- `KVM_CREATE_VM` starts with the bookkeeping in place: paging off, `GUEST_CR0` and the shadow 0,
unrestricted guest on. -/
theorem kvmCreateVm_cr0Bookkeeping : Cr0Bookkeeping (kvmCreateVm pa sizeofVcpu host h).2 := by
  obtain ⟨_, _, _, _, _, hv⟩ := kvmCreateVm_vcpu pa sizeofVcpu host h
  have h0 := kvmCreateVm_field pa sizeofVcpu host h (f := .guestCr0) (by decide)
  have hs := kvmCreateVm_field_writes pa sizeofVcpu host h (f := .cr0ReadShadow) (by decide)
  have hc := kvmCreateVm_field_writes pa sizeofVcpu host h (f := .secondaryVmExecControl)
    (by decide)
  refine ⟨by simp [hv, h0, Vcpu.zero], ?_, ?_⟩
  · rw [hs, h0]; rfl
  · rw [hc, h0]; decide

theorem kvmCreateVm_cr0Bookkeeping_broken :
    Cr0Bookkeeping (kvmCreateVm pa sizeofVcpu host h).2 ∧
    (∀ s : KvmSregs, s.cr0.getLsbD 31 = true →
      ¬Cr0Bookkeeping (kvmSetSregs (kvmCreateVm pa sizeofVcpu host h).2 s).2) ∧
    (∀ (x : VmExit) (signal : Bool), x.reason.toNat = exitReasonCrAccess → x.qualification = 0 →
      (x.gprs vcpuRegsRax).getLsbD 31 = true →
      ¬Cr0Bookkeeping (runIteration ⟨.exit x, signal⟩
        ⟨runStart (kvmCreateVm pa sizeofVcpu host h).2, 0, true, 0, 1⟩).m) := by
  obtain ⟨_, _, _, _, _, hv⟩ := kvmCreateVm_vcpu pa sizeofVcpu host h
  refine ⟨kvmCreateVm_cr0Bookkeeping pa sizeofVcpu host h, fun s hs hb => ?_,
    fun x signal hr hq hx hb => ?_⟩
  · -- `kvm_set_sregs` sets the paging bit of `GUEST_CR0` and leaves `paging` off
    have := hb.1
    rw [kvmSetSregs_vcpu, kvmSetSregs_guestCr0, hv] at this
    simp [Vcpu.zero, hs] at this
  · -- `handle_cr` writes the sign-extended mask into the shadow, whose bit 63 is set
    obtain ⟨h1, h3⟩ := runIteration_movToCr0
      (l := ⟨runStart (kvmCreateVm pa sizeofVcpu host h).2, 0, true, 0, 1⟩)
      (by simp) (by simp [hv, Vcpu.zero]) hr hq signal
    have hne : x.gprs vcpuRegsRax &&& intBit31 ≠ 0 := fun h0 => by
      have := congrArg (fun v => v.getLsbD 31) h0
      simp [intBit31, hx] at this
    have := congrArg (fun v => v.getLsbD 63) hb.2.1
    simp only [h1, h3, if_pos hne] at this
    simp [intBit31] at this

end CreateVm

/-- From a fresh vCPU: `KVM_SET_SREGS` with `cr0 = 0x80000011`, and a MOV to CR0 from
`RAX = 0x80000011`. -/
theorem kvmCreateVm_cr0Bookkeeping_broken_pagingOn :
    let m := (kvmCreateVm id pageSize ⟨fun _ _ => (0, 0, 0, 0), fun _ => 0, fun _ => 0⟩ .initial).2
    let s : KvmSregs := ⟨fun _ => ⟨0, 0, 0, 0⟩, ⟨0, 0⟩, ⟨0, 0⟩, 0x80000011, 0, 0, 0, 0⟩
    let x : VmExit :=
      ⟨28, 0, 3, 0, 0, fun _ => 0, fun r => if r = vcpuRegsRax then 0x80000011 else 0, 0⟩
    Cr0Bookkeeping m ∧ (s.cr0.getLsbD 31 = true ∧ ¬Cr0Bookkeeping (kvmSetSregs m s).2) ∧
      x.reason.toNat = exitReasonCrAccess ∧ x.qualification = 0 ∧
      (x.gprs vcpuRegsRax).getLsbD 31 = true ∧
      ¬Cr0Bookkeeping (runIteration ⟨.exit x, false⟩ ⟨runStart m, 0, true, 0, 1⟩).m :=
  have hb := kvmCreateVm_cr0Bookkeeping_broken id pageSize
    ⟨fun _ _ => (0, 0, 0, 0), fun _ => 0, fun _ => 0⟩ .initial
  ⟨hb.1, ⟨by decide, hb.2.1 _ (by decide)⟩, by decide, rfl, by decide,
    hb.2.2 _ false (by decide) rfl (by decide)⟩

end KvmKext
