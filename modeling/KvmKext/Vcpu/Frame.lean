import KvmKext.Vcpu.Run

/-!
# What each step of the run loop changes

One lemma per piece of `kvm_run` and of the loop body, saying what it writes; the proofs about
the run loop cite these and never unfold the pieces. A world switch is taken from a VMCS that is
clear and a record whose `__launched` is 0, the state every entry starts from.
-/

namespace KvmKext

open Machine

/-- The fields `kvm_run` writes before the entry. -/
def loadGuestStateFields : List VmcsField :=
  .guestRflags :: .guestRsp :: .guestRip :: .hostRsp :: hostFields

section Load

variable (m : Machine)

@[simp] theorem loadGuestState_vcpu : (loadGuestState m).vcpu = m.vcpu := by
  simp [loadGuestState, initHostValues]

@[simp] theorem loadGuestState_launched : (loadGuestState m).vmcs.launched = m.vmcs.launched := by
  simp [loadGuestState, initHostValues]

@[simp] theorem loadGuestState_heap : (loadGuestState m).heap = m.heap := by
  simp [loadGuestState, initHostValues]

@[simp] theorem loadGuestState_host : (loadGuestState m).host = m.host := by
  simp [loadGuestState, initHostValues]

theorem loadGuestState_trace :
    (loadGuestState m).trace = m.trace ++ [.write .guestRflags, .write .guestRsp, .write .guestRip] ++
      hostFields.map .write ++ [.write .hostRsp] := by
  simp [loadGuestState, initHostValues, Function.comp_def]

theorem loadGuestState_field {f : VmcsField} (hf : f ∉ loadGuestStateFields) :
    (loadGuestState m).vmcs.field f = m.vmcs.field f := by
  simp only [loadGuestStateFields, List.mem_cons, not_or] at hf
  have hh : f ∉ (hostFields.map fun f => (f, m.host.state f)).map Prod.fst := by
    simpa [Function.comp_def] using hf.2.2.2.2
  simp [loadGuestState, initHostValues, vmcsWriteAll_field _ hh, Function.update_apply, hf.1,
    hf.2.1, hf.2.2.1, hf.2.2.2.1]

/-- The guest RFLAGS, RSP and RIP fields hold the record's values at the entry. -/
theorem loadGuestState_guest :
    (loadGuestState m).vmcs.field .guestRflags = m.vcpu.rflags ∧
    (loadGuestState m).vmcs.field .guestRsp = m.vcpu.regs vcpuRegsRsp ∧
    (loadGuestState m).vmcs.field .guestRip = m.vcpu.regs vcpuRegsRip := by
  simp [loadGuestState, initHostValues, vmcsWriteAll_field, hostFields]

end Load

section Save

variable (m : Machine)

theorem saveGuestState_vcpu : (saveGuestState m).vcpu =
    { m.vcpu with
      rflags := m.vmcs.field .guestRflags
      regs := Function.update (Function.update m.vcpu.regs vcpuRegsRsp (m.vmcs.field .guestRsp))
        vcpuRegsRip (m.vmcs.field .guestRip) } := rfl

@[simp] theorem saveGuestState_vmcs : (saveGuestState m).vmcs = m.vmcs := rfl

@[simp] theorem saveGuestState_heap : (saveGuestState m).heap = m.heap := rfl

@[simp] theorem saveGuestState_host : (saveGuestState m).host = m.host := rfl

theorem saveGuestState_trace : (saveGuestState m).trace =
    m.trace ++ [.read .guestRflags, .read .guestRsp, .read .guestRip] := by
  simp [saveGuestState]

end Save

section Enter

variable (m : Machine)

/-- A VMLAUNCH on a clear VMCS that the guest exits from. -/
theorem enterGuest_exit (hl : m.vmcs.launched = false) (x : VmExit) :
    enterGuest true (.exit x) m =
      { m with
        vcpu := { m.vcpu with
          regs := fun i => if i = vcpuRegsRsp ∨ i = vcpuRegsRip then m.vcpu.regs i else x.gprs i
          cr2 := x.cr2
          fail := false }
        vmcs := ⟨exitFields m.vmcs.field x, true⟩
        trace := m.trace ++ [.launch true] } := by
  simp [enterGuest, hl]

/-- A VMLAUNCH on a clear VMCS that fails. -/
theorem enterGuest_fail (hl : m.vmcs.launched = false) (e : BitVec 32) (he : e ≠ 0) :
    enterGuest true (.fail e he) m =
      { m with
        vcpu := { m.vcpu with fail := true }
        vmcs := { m.vmcs with
          field := Function.update m.vmcs.field .vmInstructionError (e.zeroExtend 64) }
        trace := m.trace ++ [.launch false] } := by
  simp [enterGuest, hl]

end Enter

section ExitFields

variable (old : VmcsField → BitVec 64) (x : VmExit)

@[simp] theorem exitFields_vmExitReason : exitFields old x .vmExitReason = x.reason.zeroExtend 64 :=
  rfl

@[simp] theorem exitFields_exitQualification :
    exitFields old x .exitQualification = x.qualification := rfl

@[simp] theorem exitFields_vmExitInstructionLen :
    exitFields old x .vmExitInstructionLen = x.instructionLen.zeroExtend 64 := rfl

@[simp] theorem exitFields_guestPhysicalAddress :
    exitFields old x .guestPhysicalAddress = x.guestPhysical := rfl

/-- Control, host and error fields are the processor's own: an exit leaves them. -/
theorem exitFields_of_not_mem {f : VmcsField}
    (hx : f ∉ [.vmExitReason, .exitQualification, .vmExitInstructionLen, .guestPhysicalAddress,
      .idtVectoringInfoField, .vmEntryIntrInfoField]) (hg : f ∉ guestStateFields) :
    exitFields old x f = old f := by
  simp only [List.mem_cons, List.not_mem_nil, or_false, not_or] at hx
  have h0 : f ≠ .guestCr0 := fun h => hg (h ▸ by decide)
  have h4 : f ≠ .guestCr4 := fun h => hg (h ▸ by decide)
  simp [exitFields, hx, h0, h4, hg]

end ExitFields

/-- Whether a world switch entered the guest. -/
def WorldSwitch.entered : WorldSwitch → Bool
  | .exit _ => true
  | .fail _ _ => false

section KvmRun

variable {m : Machine}

theorem kvmRun_exit_vmcs (hl : m.vmcs.launched = false) (hv : m.vcpu.launched = 0) (x : VmExit) :
    (kvmRun (.exit x) m).vmcs = ⟨exitFields (loadGuestState m).vmcs.field x, true⟩ := by
  simp [kvmRun, hv, enterGuest_exit _ ((loadGuestState_launched m).trans hl)]

theorem kvmRun_exit_vcpu (hl : m.vmcs.launched = false) (hv : m.vcpu.launched = 0) (x : VmExit) :
    (kvmRun (.exit x) m).vcpu = { m.vcpu with
      rflags := x.guest .guestRflags
      regs := fun i => if i = vcpuRegsRip then x.guest .guestRip
        else if i = vcpuRegsRsp then x.guest .guestRsp else x.gprs i
      cr2 := x.cr2
      fail := false } := by
  have hf : ∀ f, f = VmcsField.guestRflags ∨ f = .guestRsp ∨ f = .guestRip →
      exitFields (loadGuestState m).vmcs.field x f = x.guest f := by
    rintro f (rfl | rfl | rfl) <;> simp [exitFields, guestStateFields]
  simp only [kvmRun, hv, beq_self_eq_true, enterGuest_exit _ ((loadGuestState_launched m).trans hl),
    saveGuestState_vcpu, loadGuestState_vcpu, hf _ (.inl rfl), hf _ (.inr (.inl rfl)),
    hf _ (.inr (.inr rfl))]
  congr 1
  funext i
  by_cases hi : i = vcpuRegsRip <;> by_cases hs : i = vcpuRegsRsp <;> simp_all [Function.update_apply]

theorem kvmRun_fail_vmcs (hl : m.vmcs.launched = false) (hv : m.vcpu.launched = 0) (e : BitVec 32)
    (he : e ≠ 0) : (kvmRun (.fail e he) m).vmcs =
      ⟨Function.update (loadGuestState m).vmcs.field .vmInstructionError (e.zeroExtend 64), false⟩ := by
  simp [kvmRun, hv, enterGuest_fail _ ((loadGuestState_launched m).trans hl), hl]

/-- A failed entry gives back the registers it was handed. -/
theorem kvmRun_fail_vcpu (hl : m.vmcs.launched = false) (hv : m.vcpu.launched = 0) (e : BitVec 32)
    (he : e ≠ 0) : (kvmRun (.fail e he) m).vcpu = { m.vcpu with fail := true } := by
  obtain ⟨h1, h2, h3⟩ := loadGuestState_guest m
  simp only [kvmRun, hv, beq_self_eq_true, enterGuest_fail _ ((loadGuestState_launched m).trans hl),
    saveGuestState_vcpu, loadGuestState_vcpu]
  simp [h1, h2, h3, Function.update_eq_self]

@[simp] theorem kvmRun_heap (sw : WorldSwitch) : (kvmRun sw m).heap = m.heap := by
  simp only [kvmRun, saveGuestState_heap, enterGuest]
  split <;> simp

@[simp] theorem kvmRun_host (sw : WorldSwitch) : (kvmRun sw m).host = m.host := by
  simp only [kvmRun, saveGuestState_host, enterGuest]
  split <;> simp

end KvmRun

/-- What the loop reads after `kvm_run`. -/
theorem readExit_eq (m : Machine) : readExit m =
    ⟨(m.vmcs.field .vmInstructionError).truncate 32, (m.vmcs.field .vmExitReason).truncate 32,
     { m with
       vcpu := { m.vcpu with
         exitInstructionLen := (m.vmcs.field .vmExitInstructionLen).truncate 32
         exitQualification := m.vmcs.field .exitQualification
         phys := m.vmcs.field .guestPhysicalAddress }
       trace := m.trace ++ [.read .vmExitInstructionLen, .read .exitQualification,
         .read .guestPhysicalAddress, .read .vmInstructionError, .read .vmEntryExceptionErrorCode,
         .read .vmExitReason] }⟩ := by
  simp [readExit, Machine.log, Machine.setVcpu]

/-- The VMCS fields an exit handler may write; only `handle_cr` writes any. -/
def handlerFields : List VmcsField := [.guestCr3, .guestCr0, .secondaryVmExecControl, .cr0ReadShadow]

section Handlers

variable (m : Machine)

/-- `handle_cr` leaves the VMCS but for its four fields, and the record but for the CR3 shadow,
the registers and the paging flag. -/
theorem handleCr_frame {f : VmcsField} (hf : f ∉ handlerFields) :
    (handleCr m).2.vmcs.field f = m.vmcs.field f ∧
    (handleCr m).2.vmcs.launched = m.vmcs.launched ∧
    (handleCr m).2.heap = m.heap ∧ (handleCr m).2.host = m.host ∧
    (handleCr m).2.vcpu.pendingIrq = m.vcpu.pendingIrq ∧
    (handleCr m).2.vcpu.irqLevel = m.vcpu.irqLevel ∧
    (handleCr m).2.vcpu.launched = m.vcpu.launched ∧
    (handleCr m).2.vcpu.kvmRun = m.vcpu.kvmRun ∧
    (handleCr m).2.vcpu.pendingIo = m.vcpu.pendingIo := by
  simp only [handlerFields, List.mem_cons, List.not_mem_nil, or_false, not_or] at hf
  obtain ⟨h3, h0, hs, hr⟩ := hf
  simp only [handleCr]
  split_ifs <;> simp [skipEmulatedInstruction, Function.update_apply, h3, h0, hs, hr]

/-- What a handler does to the pending interrupts: only `handle_external_interrupt` changes them,
raising line 0 on a zero qualification. -/
theorem runHandler_pendingIrq (signal : Bool) (h : ExitHandler) :
    (runHandler signal h m).2.vcpu.pendingIrq =
      if h = .externalInterrupt ∧ m.vcpu.exitQualification = 0 then m.vcpu.pendingIrq ||| 1
      else m.vcpu.pendingIrq := by
  cases h <;>
    simp [runHandler, onVcpu, handleExternalInterrupt, handleCpuid, handleIo, handleRdmsr,
      handleWrmsr, handleEptViolation, handlePreemptionTimer, handleApicAccess,
      handleInterruptWindow, handleDr, handleTaskSwitch, skipAndContinue, continueOnly,
      skipEmulatedInstruction, (handleCr_frame m (f := .vmExitReason) (by decide)).2.2.2.2.1]
  · split_ifs <;> rfl
  · split <;> rfl

/-- No handler touches the exit record in the VMCS, the launch state, `__launched` or the line
levels. -/
theorem runHandler_frame (signal : Bool) (h : ExitHandler) {f : VmcsField}
    (hf : f ∉ handlerFields) :
    (runHandler signal h m).2.vmcs.field f = m.vmcs.field f ∧
    (runHandler signal h m).2.vmcs.launched = m.vmcs.launched ∧
    (runHandler signal h m).2.vcpu.launched = m.vcpu.launched ∧
    (runHandler signal h m).2.vcpu.irqLevel = m.vcpu.irqLevel := by
  have hc := handleCr_frame m hf
  cases h <;>
    simp [runHandler, onVcpu, handleExternalInterrupt, handleCpuid, handleIo, handleRdmsr,
      handleWrmsr, handleEptViolation, handlePreemptionTimer, handleApicAccess,
      handleInterruptWindow, handleDr, handleTaskSwitch, skipAndContinue, continueOnly,
      skipEmulatedInstruction, hc.1, hc.2.1, hc.2.2.2.2.2.1, hc.2.2.2.2.2.2.1]
  · split_ifs <;> simp
  · split <;> simp

end Handlers

/-- A designated entry of the table that is not the handler looked for passes the search on. -/
theorem ite_eq_some_of_ne {p : Prop} [Decidable p] {a b : ExitHandler} {x : Option ExitHandler}
    (hab : a ≠ b) (h : (if p then some a else x) = some b) : x = some b := by
  by_cases hp : p
  · rw [if_pos hp] at h; exact absurd (Option.some.inj h) hab
  · rwa [if_neg hp] at h

theorem kvmVmxExitHandlers_eq_externalInterrupt {n : Nat} :
    kvmVmxExitHandlers n = some .externalInterrupt ↔ n = exitReasonExternalInterrupt := by
  refine ⟨fun h => ?_, fun h => by simp [kvmVmxExitHandlers, h]⟩
  by_contra hn
  unfold kvmVmxExitHandlers at h
  rw [if_neg hn] at h
  repeat (replace h := ite_eq_some_of_ne (by decide) h)
  exact absurd h (by simp)

/-- The loop calls `handle_external_interrupt` exactly for exit reason 1. -/
theorem exitHandler_eq_externalInterrupt {r : BitVec 32} :
    exitHandler r = some .externalInterrupt ↔ r.toNat = exitReasonExternalInterrupt := by
  unfold exitHandler
  split_ifs with h
  · exact kvmVmxExitHandlers_eq_externalInterrupt
  · simp only [kvmVmxMaxExitHandlers, exitReasonPreemptionTimer, exitReasonExternalInterrupt] at h ⊢
    simp; omega

section Dispatch

variable (signal : Bool) (r : BitVec 32) (m : Machine)

theorem dispatch_pendingIrq : (dispatch signal r m).2.vcpu.pendingIrq =
    if r.toNat = exitReasonExternalInterrupt ∧ m.vcpu.exitQualification = 0 then
      m.vcpu.pendingIrq ||| 1
    else m.vcpu.pendingIrq := by
  unfold dispatch
  rcases he : exitHandler r with _ | h
  · have : r.toNat ≠ exitReasonExternalInterrupt := fun h' =>
      absurd (exitHandler_eq_externalInterrupt.2 h') (by simp [he])
    simp [this]
  · simp only [runHandler_pendingIrq, ← exitHandler_eq_externalInterrupt, he, Option.some.injEq]

theorem dispatch_frame {f : VmcsField} (hf : f ∉ handlerFields) :
    (dispatch signal r m).2.vmcs.field f = m.vmcs.field f ∧
    (dispatch signal r m).2.vmcs.launched = m.vmcs.launched ∧
    (dispatch signal r m).2.vcpu.launched = m.vcpu.launched ∧
    (dispatch signal r m).2.vcpu.irqLevel = m.vcpu.irqLevel := by
  unfold dispatch
  split
  · exact runHandler_frame m signal _ hf
  · simp

end Dispatch

section Prepare

variable (m : Machine) (i : BitVec 32)

@[simp] theorem writeIntrInfo_vcpu : (writeIntrInfo m i).vcpu = m.vcpu := by
  unfold writeIntrInfo; split_ifs <;> simp

@[simp] theorem writeIntrInfo_launched : (writeIntrInfo m i).vmcs.launched = m.vmcs.launched := by
  unfold writeIntrInfo; split_ifs <;> simp

@[simp] theorem writeIntrInfo_heap : (writeIntrInfo m i).heap = m.heap := by
  unfold writeIntrInfo; split_ifs <;> simp

@[simp] theorem writeIntrInfo_host : (writeIntrInfo m i).host = m.host := by
  unfold writeIntrInfo; split_ifs <;> simp

theorem writeIntrInfo_field (f : VmcsField) : (writeIntrInfo m i).vmcs.field f =
    if f = .vmEntryIntrInfoField ∧ i ≠ 0 then i.zeroExtend 64 else m.vmcs.field f := by
  unfold writeIntrInfo; by_cases hf : f = .vmEntryIntrInfoField <;> split_ifs <;> simp_all

@[simp] theorem requestWindow_vcpu : (requestWindow m).vcpu = m.vcpu := by
  unfold requestWindow; split_ifs <;> simp

@[simp] theorem requestWindow_launched : (requestWindow m).vmcs.launched = m.vmcs.launched := by
  unfold requestWindow; split_ifs <;> simp

@[simp] theorem requestWindow_heap : (requestWindow m).heap = m.heap := by
  unfold requestWindow; split_ifs <;> simp

@[simp] theorem requestWindow_host : (requestWindow m).host = m.host := by
  unfold requestWindow; split_ifs <;> simp

theorem requestWindow_field {f : VmcsField} (hc : f ≠ .cpuBasedVmExecControl) :
    (requestWindow m).vmcs.field f = m.vmcs.field f := by
  unfold requestWindow; split_ifs <;> simp [Function.update_apply, hc]

/-- The window request is set exactly when an interrupt is pending. -/
theorem requestWindow_bit :
    ((requestWindow m).vmcs.field .cpuBasedVmExecControl).getLsbD 2 =
      decide (m.vcpu.pendingIrq ≠ 0) := by
  unfold requestWindow; split_ifs <;> simp_all [cpuBasedVirtualIntrPending]

/-- The scan changes only the bitmap. -/
theorem injectionScan_snd (l : RunLoop) :
    (injectionScan l).2 = { l.m.vcpu with pendingIrq := (injectionScan l).2.pendingIrq } := by
  unfold injectionScan injectIrq
  rcases lowestPending l.m.vcpu.pendingIrq with _ | n <;> split_ifs <;> rfl

variable (l : RunLoop)

@[simp] theorem injectionScan_launched : (injectionScan l).2.launched = l.m.vcpu.launched := by
  rw [injectionScan_snd]

@[simp] theorem injectionScan_irqLevel : (injectionScan l).2.irqLevel = l.m.vcpu.irqLevel := by
  rw [injectionScan_snd]

@[simp] theorem injectionScan_paging : (injectionScan l).2.paging = l.m.vcpu.paging := by
  rw [injectionScan_snd]

@[simp] theorem injectionScan_regs : (injectionScan l).2.regs = l.m.vcpu.regs := by
  rw [injectionScan_snd]

theorem prepareEntry_vcpu :
    (prepareEntry l).vcpu = { (injectionScan l).2 with vmcsLoaded := true } := by
  simp [prepareEntry]

@[simp] theorem prepareEntry_launched : (prepareEntry l).vmcs.launched = l.m.vmcs.launched := by
  simp [prepareEntry]

@[simp] theorem prepareEntry_heap : (prepareEntry l).heap = l.m.heap := by
  simp [prepareEntry]

@[simp] theorem prepareEntry_host : (prepareEntry l).host = l.m.host := by
  simp [prepareEntry]

theorem prepareEntry_field {f : VmcsField} (hi : f ≠ .vmEntryIntrInfoField)
    (hc : f ≠ .cpuBasedVmExecControl) : (prepareEntry l).vmcs.field f = l.m.vmcs.field f := by
  simp [prepareEntry, requestWindow_field _ hc, writeIntrInfo_field, hi]

end Prepare

section Entry

variable {l : RunLoop}

/-- An entry from a clear, never-launched VMCS is a VMLAUNCH that the processor accepts. -/
theorem prepareEntry_fresh (hl : l.m.vmcs.launched = false) (hv : l.m.vcpu.launched = 0) :
    (prepareEntry l).vmcs.launched = false ∧ (prepareEntry l).vcpu.launched = 0 := by
  simp [prepareEntry_vcpu, hl, hv]

/-- A failed entry leaves every field but the error, and those the entry itself writes, as the
last exit left them. -/
theorem kvmRun_fail_prepareEntry (hl : l.m.vmcs.launched = false) (hv : l.m.vcpu.launched = 0)
    {e : BitVec 32} (he : e ≠ 0) {f : VmcsField}
    (hf : f ∉ [.vmInstructionError, .vmEntryIntrInfoField, .cpuBasedVmExecControl] ++
      loadGuestStateFields) :
    (kvmRun (.fail e he) (prepareEntry l)).vmcs.field f = l.m.vmcs.field f := by
  simp only [List.mem_append, List.mem_cons, List.not_mem_nil, or_false, not_or] at hf
  rw [kvmRun_fail_vmcs (prepareEntry_fresh hl hv).1 (prepareEntry_fresh hl hv).2]
  simp only [Function.update_noteq hf.1.1, loadGuestState_field _ hf.2,
    prepareEntry_field _ hf.1.2.1 hf.1.2.2]

/-- A VM exit leaves the VM-instruction error field alone. -/
theorem kvmRun_exit_vmInstructionError (hl : l.m.vmcs.launched = false)
    (hv : l.m.vcpu.launched = 0) (x : VmExit) :
    (kvmRun (.exit x) (prepareEntry l)).vmcs.field .vmInstructionError =
      l.m.vmcs.field .vmInstructionError := by
  rw [kvmRun_exit_vmcs (prepareEntry_fresh hl hv).1 (prepareEntry_fresh hl hv).2]
  dsimp only
  rw [exitFields_of_not_mem (f := .vmInstructionError) _ _ (by decide) (by decide),
    loadGuestState_field (f := .vmInstructionError) _ (by decide),
    prepareEntry_field (f := .vmInstructionError) _ (by decide) (by decide)]

end Entry

/-- `kvm_run` changes only the registers, RFLAGS, CR2 and `fail` of the record. -/
theorem kvmRun_vcpu_frame (sw : WorldSwitch) (m : Machine) :
    ∃ regs rflags cr2 fail, (kvmRun sw m).vcpu =
      { m.vcpu with regs := regs, rflags := rflags, cr2 := cr2, fail := fail } := by
  simp only [kvmRun, saveGuestState_vcpu, enterGuest]
  split <;> exact ⟨_, _, _, _, rfl⟩

section Iteration

variable (t : Turn) (l : RunLoop)

/-- The vCPU after one pass: the handler's result on what the loop read after `kvm_run`. -/
theorem runIteration_m : (runIteration t l).m =
    (dispatch t.signal (readExit (kvmRun t.switch (prepareEntry l))).exitReason
      (readExit (kvmRun t.switch (prepareEntry l))).m).2.releaseVmcs := rfl

theorem runIteration_cont : (runIteration t l).cont =
    (dispatch t.signal (readExit (kvmRun t.switch (prepareEntry l))).exitReason
      (readExit (kvmRun t.switch (prepareEntry l))).m).1 := by simp only [runIteration]

theorem runIteration_error :
    (runIteration t l).error = ((kvmRun t.switch (prepareEntry l)).vmcs.field .vmInstructionError).truncate 32 := by
  simp [runIteration, readExit_eq]

theorem runIteration_field {f : VmcsField} (hf : f ∉ handlerFields) :
    (runIteration t l).m.vmcs.field f = (kvmRun t.switch (prepareEntry l)).vmcs.field f := by
  simp [runIteration, (dispatch_frame _ _ _ hf).1, readExit_eq]

theorem runIteration_exitReason :
    (runIteration t l).exitReason = ((runIteration t l).m.vmcs.field .vmExitReason).truncate 32 := by
  rw [runIteration_field t l (by decide)]
  simp [runIteration, readExit_eq]

@[simp] theorem runIteration_launched : (runIteration t l).m.vmcs.launched = false := by
  simp [runIteration]

@[simp] theorem runIteration_vcpu_launched :
    (runIteration t l).m.vcpu.launched = l.m.vcpu.launched := by
  obtain ⟨_, _, _, _, hk⟩ := kvmRun_vcpu_frame t.switch (prepareEntry l)
  simp [runIteration, (dispatch_frame _ _ _ (f := .vmExitReason) (by decide)).2.2.1, readExit_eq,
    hk, prepareEntry_vcpu]

/-- A pass of the loop clears the bit the scan injects and raises line 0 when the exit record it
dispatches is a host timer exit. -/
theorem runIteration_pendingIrq : (runIteration t l).m.vcpu.pendingIrq =
    if (runIteration t l).exitReason.toNat = exitReasonExternalInterrupt ∧
      (kvmRun t.switch (prepareEntry l)).vmcs.field .exitQualification = 0 then
      (injectionScan l).2.pendingIrq ||| 1
    else (injectionScan l).2.pendingIrq := by
  obtain ⟨_, _, _, _, hk⟩ := kvmRun_vcpu_frame t.switch (prepareEntry l)
  simp [runIteration, dispatch_pendingIrq, readExit_eq, hk, prepareEntry_vcpu]

end Iteration

section Loop

variable {turns : Nat → Turn} {n : Nat} {l l' : RunLoop}

/-- A pass that reads no error and asks to continue leads to the next pass. -/
theorem runLoop_next (hc : l.cont = true)
    (hl : runIteration (turns l.maxcont) { l with maxcont := l.maxcont + 1 } = l')
    (he : l'.error = 0) : runLoop turns (n + 1) l = runLoop turns n l' := by
  rw [runLoop, if_pos hc]
  dsimp only
  rw [hl, if_neg (not_not.2 he)]

/-- A pass that reads an error ends the loop. -/
theorem runLoop_stop (hc : l.cont = true)
    (hl : runIteration (turns l.maxcont) { l with maxcont := l.maxcont + 1 } = l')
    (he : l'.error ≠ 0) : runLoop turns (n + 1) l = l' := by
  rw [runLoop, if_pos hc]
  dsimp only
  rw [hl, if_pos he]

end Loop

/-! The top of `KVM_RUN` touches only RAX, the pending-IN flag and the run page. -/

@[simp] theorem runStart_vmcs (m : Machine) : (runStart m).vmcs = m.vmcs := by
  unfold runStart; split_ifs <;> rfl

@[simp] theorem runStart_pendingIrq (m : Machine) :
    (runStart m).vcpu.pendingIrq = m.vcpu.pendingIrq := by
  unfold runStart; split_ifs <;> rfl

@[simp] theorem runStart_launched (m : Machine) : (runStart m).vcpu.launched = m.vcpu.launched := by
  unfold runStart; split_ifs <;> rfl

end KvmKext