import KvmKext.Vcpu.Io

/-!
# What `KVM_RUN` hands back

`kvm_run_wrapper` loops until a VM-instruction error, a handler that returns to userspace, or the
1000th pass. Whatever the guest and the processor do, the run page then reports `KVM_EXIT_IO`
exactly when the last exit the loop read was an I/O exit, and 0 otherwise, and an IN is left
pending exactly when the page says IN (`kvmRunWrapper_ioReported`).
-/

namespace KvmKext

section Report

theorem kvmVmxExitHandlers_eq_io {n : Nat} (h : kvmVmxExitHandlers n = some .io) :
    n = exitReasonIoInstruction := by
  by_contra hn
  unfold kvmVmxExitHandlers at h
  replace h := ite_eq_some_of_ne (by decide) h
  replace h := ite_eq_some_of_ne (by decide) h
  rw [if_neg hn] at h
  repeat (replace h := ite_eq_some_of_ne (by decide) h)
  exact absurd h (by simp)

theorem exitHandler_eq_io {r : BitVec 32} (h : exitHandler r = some .io) :
    r.toNat = exitReasonIoInstruction := by
  unfold exitHandler at h
  split_ifs at h
  exact kvmVmxExitHandlers_eq_io h

/-- No handler but `handle_io` touches the run page or `pending_io`. -/
theorem runHandler_kvmRun (signal : Bool) {h : ExitHandler} (hh : h ≠ .io) (m : Machine) :
    (runHandler signal h m).2.vcpu.kvmRun = m.vcpu.kvmRun ∧
      (runHandler signal h m).2.vcpu.pendingIo = m.vcpu.pendingIo := by
  cases h
  case io => exact absurd rfl hh
  case cr => exact (handleCr_frame m (f := .vmExitReason) (by decide)).2.2.2.2.2.2.2
  case externalInterrupt =>
    dsimp only [runHandler, onVcpu, Machine.setVcpu_vcpu, handleExternalInterrupt]
    split <;> exact ⟨rfl, rfl⟩
  all_goals exact ⟨rfl, rfl⟩

theorem dispatch_kvmRun (signal : Bool) {r : BitVec 32} (hr : r.toNat ≠ exitReasonIoInstruction)
    (m : Machine) : (dispatch signal r m).2.vcpu.kvmRun = m.vcpu.kvmRun ∧
      (dispatch signal r m).2.vcpu.pendingIo = m.vcpu.pendingIo := by
  unfold dispatch
  split
  · exact runHandler_kvmRun signal (fun h => hr (exitHandler_eq_io (h ▸ ‹_›))) m
  · exact ⟨rfl, rfl⟩

theorem handleIo_pendingIo (v : Vcpu) :
    (handleIo v).2.pendingIo = ((v.exitQualification &&& 8 != 0) || v.pendingIo) := by
  cases hb : (v.exitQualification &&& 8 != 0)
  · simp only [handleIo, hb, Bool.false_eq_true, if_false, Bool.false_or]; rfl
  · simp only [handleIo, hb, if_true, Bool.true_or]; rfl

/-- What the run page and `pending_io` say when the loop stops after this pass: after an I/O exit
the run page reports `KVM_EXIT_IO`, an IN is pending exactly when the page says IN, and the loop
stops; after any other exit the page's `exit_reason` is still 0 and no IN is pending. -/
@[irreducible] def IoReported (l : RunLoop) : Prop :=
  if l.exitReason.toNat = exitReasonIoInstruction then
    l.m.vcpu.kvmRun.exitReason = kvmExitIo ∧
      (l.m.vcpu.pendingIo = true ↔ l.m.vcpu.kvmRun.ioDirection = kvmExitIoIn) ∧ l.cont = false
  else l.m.vcpu.kvmRun.exitReason = 0 ∧ l.m.vcpu.pendingIo = false

/-- A pass that starts from a clear run page and no pending IN leaves what `IoReported` says. -/
theorem runIteration_ioReported (t : Turn) (l : RunLoop) (h0 : l.m.vcpu.kvmRun.exitReason = 0)
    (hp : l.m.vcpu.pendingIo = false) : IoReported (runIteration t l) := by
  have hk : (readExit (kvmRun t.switch (prepareEntry l))).m.vcpu.kvmRun = l.m.vcpu.kvmRun ∧
      (readExit (kvmRun t.switch (prepareEntry l))).m.vcpu.pendingIo = l.m.vcpu.pendingIo := by
    obtain ⟨_, _, _, _, hk⟩ := kvmRun_vcpu_frame t.switch (prepareEntry l)
    rw [readExit_eq]
    simp only [hk, prepareEntry_vcpu]
    rw [injectionScan_snd]
    exact ⟨rfl, rfl⟩
  unfold IoReported
  simp only [runIteration]
  generalize readExit (kvmRun t.switch (prepareEntry l)) = e at hk ⊢
  split_ifs with hr
  · obtain ⟨hc, hx, -, -, -, hd, -⟩ := handleIo_spec e.m.vcpu
    simp only [dispatch_io hr, onVcpu, Machine.releaseVmcs_vcpu, Machine.setVcpu_vcpu]
    refine ⟨hx, ?_, hc⟩
    rw [handleIo_pendingIo, hk.2, hp, hd]
    cases (e.m.vcpu.exitQualification &&& 8 != 0) <;> decide
  · obtain ⟨h1, h2⟩ := dispatch_kvmRun t.signal hr e.m
    simp only [Machine.releaseVmcs_vcpu]
    rw [h1, h2, hk.1, hk.2]
    exact ⟨h0, hp⟩

/-- Every pass the loop makes starts from what the previous one reported: a pass follows only one
that asked to continue, which was not an I/O exit. -/
theorem runLoop_ioReported (turns : Nat → Turn) :
    ∀ n l, IoReported l → IoReported (runLoop turns n l)
  | 0, _, h => h
  | n + 1, l, h => by
    by_cases hc : l.cont
    · have hpre : l.m.vcpu.kvmRun.exitReason = 0 ∧ l.m.vcpu.pendingIo = false := by
        unfold IoReported at h
        split_ifs at h
        · simp [h.2.2] at hc
        · exact h
      have h1 := runIteration_ioReported (turns l.maxcont) { l with maxcont := l.maxcont + 1 }
        hpre.1 hpre.2
      rw [runLoop, if_pos hc]
      dsimp only
      by_cases he : (runIteration (turns l.maxcont) { l with maxcont := l.maxcont + 1 }).error ≠ 0
      · rw [if_pos he]
        exact h1
      · rw [if_neg he]
        exact runLoop_ioReported turns n _ h1
    · rwa [runLoop, if_neg hc]

/-- The top of `KVM_RUN` clears the run page's exit reason and completes any pending IN. -/
theorem runStart_ioReported (m : Machine) : IoReported ⟨runStart m, 0, true, 0, 0⟩ := by
  unfold IoReported runStart
  split_ifs with hr hp <;> simp_all [exitReasonIoInstruction]

theorem kvmRunWrapper_snd (turns : Nat → Turn) (m : Machine) :
    (kvmRunWrapper turns m).2 = (runLoop turns 1000 ⟨runStart m, 0, true, 0, 0⟩).m := rfl

/-- What `IoReported` says of the run page, for the vCPU the loop returns. -/
theorem IoReported.report {l : RunLoop} (h : IoReported l) :
    if l.exitReason.toNat = exitReasonIoInstruction then
      l.m.vcpu.kvmRun.exitReason = kvmExitIo ∧
        (l.m.vcpu.pendingIo = true ↔ l.m.vcpu.kvmRun.ioDirection = kvmExitIoIn)
    else l.m.vcpu.kvmRun.exitReason = 0 ∧ l.m.vcpu.pendingIo = false := by
  unfold IoReported at h
  split_ifs at h ⊢
  · exact ⟨h.1, h.2.1⟩
  · exact h

/-- What `KVM_RUN` hands back in the run page: `KVM_EXIT_IO` when the last exit the loop read was
an I/O exit, with `pending_io` set exactly when the page reports an IN; 0 and no pending IN after
any other exit, a failed entry, a signal, or the last of the 1000 passes. -/
theorem kvmRunWrapper_ioReported (turns : Nat → Turn) (m : Machine) :
    let l := runLoop turns 1000 ⟨runStart m, 0, true, 0, 0⟩
    let v := (kvmRunWrapper turns m).2.vcpu
    if l.exitReason.toNat = exitReasonIoInstruction then
      v.kvmRun.exitReason = kvmExitIo ∧ (v.pendingIo = true ↔ v.kvmRun.ioDirection = kvmExitIoIn)
    else v.kvmRun.exitReason = 0 ∧ v.pendingIo = false := by
  rw [kvmRunWrapper_snd]
  exact (runLoop_ioReported turns 1000 _ (runStart_ioReported m)).report

end Report

end KvmKext
