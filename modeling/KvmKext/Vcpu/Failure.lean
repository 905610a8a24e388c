import KvmKext.Vcpu.Frame
import KvmKext.Vcpu.Init

/-!
# Failed world switches

After `kvm_run` the loop reads the exit fields, dispatches on `VM_EXIT_REASON`, and only then
tests `VM_INSTRUCTION_ERROR`. A failed entry writes only the error field, so the exit fields still
describe the previous exit, and that exit's handler runs a second time. The error field is
written only by failures, so after one failure every later pass reads a non-zero error and stops.
-/

namespace KvmKext

theorem handleCpuid_rip (host : Host) (v : Vcpu) :
    (handleCpuid host v).1 = true ∧
    (handleCpuid host v).2.regs vcpuRegsRip =
      v.regs vcpuRegsRip + v.exitInstructionLen.signExtend 64 := by
  simp [handleCpuid, skipEmulatedInstruction, Function.update_apply, vcpuRegsRip, vcpuRegsRax,
    vcpuRegsRbx, vcpuRegsRcx, vcpuRegsRdx]

/-- A CPUID exit is dispatched to `handle_cpuid`. -/
theorem dispatch_cpuid {r : BitVec 32} (hr : r.toNat = exitReasonCpuid) (signal : Bool)
    (m : Machine) : dispatch signal r m = onVcpu (handleCpuid m.host) m := by
  have : r = 10 := BitVec.eq_of_toNat_eq hr
  subst this
  rfl

/-- A pass whose VMCS holds a CPUID exit after `kvm_run` runs `handle_cpuid`: RIP advances by the
recorded instruction length and the loop is told to continue. -/
theorem runIteration_cpuid {l : RunLoop} (sw : WorldSwitch) (signal : Bool)
    (hr : (((kvmRun sw (prepareEntry l)).vmcs.field .vmExitReason).truncate 32).toNat =
      exitReasonCpuid) :
    (runIteration ⟨sw, signal⟩ l).cont = true ∧
    (runIteration ⟨sw, signal⟩ l).m.vcpu.regs vcpuRegsRip =
      (kvmRun sw (prepareEntry l)).vcpu.regs vcpuRegsRip +
        (((kvmRun sw (prepareEntry l)).vmcs.field .vmExitInstructionLen).truncate 32).signExtend 64 := by
  have he : (readExit (kvmRun sw (prepareEntry l))).exitReason.toNat = exitReasonCpuid := by
    simpa [readExit_eq] using hr
  have hc := handleCpuid_rip (readExit (kvmRun sw (prepareEntry l))).m.host
    (readExit (kvmRun sw (prepareEntry l))).m.vcpu
  rw [runIteration_cont, runIteration_m]
  dsimp only
  rw [dispatch_cpuid he]
  simpa [onVcpu, readExit_eq] using hc

section Pass

variable {l : RunLoop}

/-- A failed entry from a VMCS that holds a CPUID exit: the loop reads the error, yet
`handle_cpuid` runs again on the stale exit and advances RIP by its length once more. -/
theorem runIteration_fail_cpuid (hl : l.m.vmcs.launched = false) (hv : l.m.vcpu.launched = 0)
    {e : BitVec 32} (he : e ≠ 0)
    (hr : ((l.m.vmcs.field .vmExitReason).truncate 32).toNat = exitReasonCpuid) (signal : Bool) :
    (runIteration ⟨.fail e he, signal⟩ l).error = e ∧
    (runIteration ⟨.fail e he, signal⟩ l).m.vmcs.field .vmInstructionError = e.zeroExtend 64 ∧
    (runIteration ⟨.fail e he, signal⟩ l).cont = true ∧
    (runIteration ⟨.fail e he, signal⟩ l).m.vcpu.regs vcpuRegsRip = l.m.vcpu.regs vcpuRegsRip +
      ((l.m.vmcs.field .vmExitInstructionLen).truncate 32).signExtend 64 := by
  have hK := kvmRun_fail_vmcs (prepareEntry_fresh hl hv).1 (prepareEntry_fresh hl hv).2 e he
  have hR := kvmRun_fail_prepareEntry hl hv he (f := .vmExitReason) (by decide)
  have hL := kvmRun_fail_prepareEntry hl hv he (f := .vmExitInstructionLen) (by decide)
  have hc := runIteration_cpuid (l := l) (.fail e he) signal (by rw [hR]; exact hr)
  refine ⟨?_, ?_, hc.1, ?_⟩
  · rw [runIteration_error]; simp [hK]
  · rw [runIteration_field _ _ (by decide)]; simp [hK]
  · rw [hc.2, hL, kvmRun_fail_vcpu (prepareEntry_fresh hl hv).1 (prepareEntry_fresh hl hv).2]
    simp [prepareEntry_vcpu]

/-- A CPUID exit: the handler advances RIP past the guest's CPUID, and the error the loop reads
is whatever the error field already held. -/
theorem runIteration_exit_cpuid (hl : l.m.vmcs.launched = false) (hv : l.m.vcpu.launched = 0)
    {x : VmExit} (hx : x.reason.toNat = exitReasonCpuid) (signal : Bool) :
    (runIteration ⟨.exit x, signal⟩ l).error = (l.m.vmcs.field .vmInstructionError).truncate 32 ∧
    (runIteration ⟨.exit x, signal⟩ l).m.vmcs.field .vmInstructionError =
      l.m.vmcs.field .vmInstructionError ∧
    (runIteration ⟨.exit x, signal⟩ l).m.vmcs.field .vmExitReason = x.reason.zeroExtend 64 ∧
    (runIteration ⟨.exit x, signal⟩ l).m.vmcs.field .vmExitInstructionLen =
      x.instructionLen.zeroExtend 64 ∧
    (runIteration ⟨.exit x, signal⟩ l).cont = true ∧
    (runIteration ⟨.exit x, signal⟩ l).m.vcpu.regs vcpuRegsRip =
      x.guest .guestRip + x.instructionLen.signExtend 64 := by
  have hp := prepareEntry_fresh hl hv
  have hE := kvmRun_exit_vmInstructionError hl hv x
  have hK := kvmRun_exit_vmcs hp.1 hp.2 x
  have hz : (x.reason.zeroExtend 64).truncate 32 = x.reason := by simp
  have hc := runIteration_cpuid (l := l) (.exit x) signal (by simpa [hK, hz] using hx)
  refine ⟨?_, ?_, ?_, ?_, hc.1, ?_⟩
  · rw [runIteration_error]; dsimp only; rw [hE]
  · rw [runIteration_field _ _ (by decide)]; dsimp only; exact hE
  · rw [runIteration_field _ _ (by decide), hK]; simp
  · rw [runIteration_field _ _ (by decide), hK]; simp
  · rw [hc.2, hK, kvmRun_exit_vcpu hp.1 hp.2]
    simp [vcpuRegsRip]

end Pass

theorem kvmRunWrapper_failed_entry (pa : Nat → Nat) (sizeofVcpu : Nat) (host : Host) (h : Heap)
    (turns : Nat → Turn) {x : VmExit} {e : BitVec 32} (he : e ≠ 0) (signal : Bool)
    (hx : x.reason.toNat = exitReasonCpuid) (h0 : turns 0 = ⟨.exit x, signal⟩)
    (h1 : turns 1 = ⟨.fail e he, signal⟩) :
    let m0 := (kvmCreateVm pa sizeofVcpu host h).2
    let l1 := runIteration ⟨.exit x, signal⟩ ⟨runStart m0, 0, true, 0, 1⟩
    let l2 := runIteration ⟨.fail e he, signal⟩ { l1 with maxcont := 2 }
    let l3 := runIteration ⟨.exit x, signal⟩ ⟨runStart l2.m, 0, true, 0, 1⟩
    runLoop turns 1000 ⟨runStart m0, 0, true, 0, 0⟩ = l2 ∧
    l1.error = 0 ∧ l1.cont = true ∧ l2.error = e ∧
    l2.m.vcpu.regs vcpuRegsRip = l1.m.vcpu.regs vcpuRegsRip + x.instructionLen.signExtend 64 ∧
    runLoop turns 1000 ⟨runStart l2.m, 0, true, 0, 0⟩ = l3 ∧ l3.error = e ∧ l3.cont = true := by
  intro m0 l1 l2 l3
  obtain ⟨_, _, _, _, _, hv⟩ := kvmCreateVm_vcpu pa sizeofVcpu host h
  have hE0 : m0.vmcs.field .vmInstructionError = 0 := kvmCreateVm_field _ _ _ _ (by decide)
  -- the first pass: a CPUID exit, handled, no error
  have ha := runIteration_exit_cpuid (l := ⟨runStart m0, 0, true, 0, 1⟩) (by simp [m0])
    (by simp [m0, hv, Vcpu.zero]) hx signal
  have e1 : l1.error = 0 := by rw [ha.1]; simp [hE0]
  have r1 : l1.m.vmcs.field .vmExitReason = x.reason.zeroExtend 64 := ha.2.2.1
  have n1 : l1.m.vmcs.field .vmExitInstructionLen = x.instructionLen.zeroExtend 64 := ha.2.2.2.1
  -- the second pass: the entry fails, and `handle_cpuid` runs on the stale exit
  have hb := runIteration_fail_cpuid (l := { l1 with maxcont := 2 }) (runIteration_launched _ _)
    (by simp [l1, m0, hv, Vcpu.zero]) he (by simpa [r1] using hx) signal
  -- the next `KVM_RUN`: a CPUID exit, handled, but the stale error stops the loop
  have hc := runIteration_exit_cpuid (l := ⟨runStart l2.m, 0, true, 0, 1⟩) (by simp [l2])
    (by simp [l2, l1, m0, hv, Vcpu.zero]) hx signal
  have e3 : l3.error = e := by rw [hc.1]; simp [l2, hb.2.1]
  refine ⟨?_, e1, ha.2.2.2.2.1, hb.1, ?_, ?_, e3, hc.2.2.2.2.1⟩
  · rw [runLoop_next rfl (by simp only [h0]) e1,
      runLoop_stop ha.2.2.2.2.1 (by rw [show l1.maxcont = 1 from rfl, h1]) (hb.1 ▸ he)]
  · rw [hb.2.2.2]
    simp [n1]
  · exact runLoop_stop rfl (by simp only [h0]) (e3 ▸ he)

/-- A 2-byte CPUID exit, then an entry that fails with error 7 (invalid control fields). -/
theorem kvmRunWrapper_failed_entry_cpuid :
    let x : VmExit := ⟨10, 0, 2, 0, 0, fun _ => 0, fun _ => 0, 0⟩
    let turns : Nat → Turn := fun n =>
      if n = 0 then ⟨.exit x, false⟩ else ⟨.fail 7 (by decide), false⟩
    x.reason.toNat = exitReasonCpuid ∧ turns 0 = ⟨.exit x, false⟩ ∧
    turns 1 = ⟨.fail 7 (by decide), false⟩ ∧
    let m0 := (kvmCreateVm id pageSize ⟨fun _ _ => (0, 0, 0, 0), fun _ => 0, fun _ => 0⟩ .initial).2
    let l1 := runIteration ⟨.exit x, false⟩ ⟨runStart m0, 0, true, 0, 1⟩
    let l2 := runIteration ⟨.fail 7 (by decide), false⟩ { l1 with maxcont := 2 }
    let l3 := runIteration ⟨.exit x, false⟩ ⟨runStart l2.m, 0, true, 0, 1⟩
    runLoop turns 1000 ⟨runStart m0, 0, true, 0, 0⟩ = l2 ∧
    l1.error = 0 ∧ l1.cont = true ∧ l2.error = 7 ∧
    l2.m.vcpu.regs vcpuRegsRip = l1.m.vcpu.regs vcpuRegsRip + x.instructionLen.signExtend 64 ∧
    runLoop turns 1000 ⟨runStart l2.m, 0, true, 0, 0⟩ = l3 ∧ l3.error = 7 ∧ l3.cont = true :=
  ⟨by decide, rfl, rfl, kvmRunWrapper_failed_entry id pageSize _ .initial _ _ false (by decide) rfl rfl⟩

end KvmKext
