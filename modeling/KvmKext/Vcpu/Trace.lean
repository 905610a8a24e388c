import KvmKext.Vcpu.Frame
import KvmKext.Vcpu.Ops
import KvmKext.Vcpu.Init

/-!
# The VMCS access policy

`LOAD_VMCS` takes the vCPU's spin lock and makes its VMCS current; `RELEASE_VMCS` VMCLEARs it and
drops the lock. The policy is a monitor over the trace of VMCS operations: a field access or an
entry only while the VMCS is loaded, no `LOAD_VMCS` while it is, every entry a VMLAUNCH of a VMCS
whose launch state is clear, and nothing loaded when an operation returns. Each operation's slice
of the trace is a `LOAD_VMCS`, field accesses and a `RELEASE_VMCS`; a pass of the run loop has one
VMLAUNCH among its accesses, as long as `__launched` stays 0.
-/

namespace KvmKext

/-- A field read or write. -/
def VmcsOp.isAccess : VmcsOp → Bool
  | .read _ | .write _ => true
  | _ => false

/-- A list of field reads and writes. -/
def Accesses (a : List VmcsOp) : Prop := ∀ op ∈ a, op.isAccess = true

theorem Accesses.append {a b : List VmcsOp} (ha : Accesses a) (hb : Accesses b) :
    Accesses (a ++ b) := by
  intro op h
  rcases List.mem_append.1 h with h | h
  exacts [ha op h, hb op h]

theorem accesses_map_read (l : List VmcsField) : Accesses (l.map .read) := by
  simp [Accesses, VmcsOp.isAccess]

theorem accesses_map_write (l : List VmcsField) : Accesses (l.map .write) := by
  simp [Accesses, VmcsOp.isAccess]

/-- The monitor's view of the VMCS: loaded (current, under the vCPU's lock), and its launch
state. -/
structure VmcsView where
  loaded : Bool
  launched : Bool
  deriving DecidableEq, Repr

namespace VmcsView

/-- One operation under the policy; `none` when it breaks the policy. A bare VMCLEAR (the
`vmcs_clear` of `KVM_CREATE_VM`) needs the VMCS not loaded; a VMLAUNCH needs it loaded and clear,
and leaves it launched when the guest ran; a VMRESUME is never allowed. -/
def step (v : VmcsView) : VmcsOp → Option VmcsView
  | .load => if v.loaded then none else some ⟨true, v.launched⟩
  | .release => if v.loaded then some ⟨false, false⟩ else none
  | .clear => if v.loaded then none else some ⟨false, false⟩
  | .read _ | .write _ => if v.loaded then some v else none
  | .launch entered => if v.loaded && !v.launched then some ⟨true, entered⟩ else none
  | .resume _ => none

/-- The monitor over a trace. -/
def run (v : VmcsView) : List VmcsOp → Option VmcsView
  | [] => some v
  | op :: ops => (v.step op).bind fun v => v.run ops

@[simp] theorem run_nil (v : VmcsView) : v.run [] = some v := rfl

@[simp] theorem run_cons (v : VmcsView) (op : VmcsOp) (ops : List VmcsOp) :
    v.run (op :: ops) = (v.step op).bind fun v => v.run ops := rfl

theorem run_append (v : VmcsView) (a b : List VmcsOp) :
    v.run (a ++ b) = (v.run a).bind fun v => v.run b := by
  induction a generalizing v with
  | nil => rfl
  | cons op a ih => simp only [List.cons_append, run_cons, Option.bind_assoc, ih]

/-- Field accesses on a loaded VMCS change nothing the monitor sees. -/
theorem run_accesses {v : VmcsView} (hv : v.loaded = true) {a : List VmcsOp} (ha : Accesses a) :
    v.run a = some v := by
  induction a with
  | nil => rfl
  | cons op a ih =>
    have hop : v.step op = some v := by
      have := ha op (List.mem_cons_self _ _)
      cases op <;> simp_all [VmcsOp.isAccess, step]
    rw [run_cons, hop, Option.some_bind]
    exact ih fun op h => ha op (List.mem_cons_of_mem _ h)

/-- An operation's slice: `LOAD_VMCS`, field accesses, `RELEASE_VMCS`. -/
theorem run_window {a : List VmcsOp} (ha : Accesses a) (b : Bool) :
    run ⟨false, b⟩ (.load :: a ++ [.release]) = some ⟨false, false⟩ := by
  rw [List.cons_append, run_cons]
  simp only [step, Bool.false_eq_true, if_false, Option.some_bind]
  rw [run_append, run_accesses rfl ha]
  rfl

example : run ⟨false, true⟩ [.load, .read .guestCr0, .write .guestCr3, .release] =
    some ⟨false, false⟩ := rfl

/-- The slice of `KVM_CREATE_VM`: a bare VMCLEAR of the new VMCS, then a window. -/
theorem run_create {a : List VmcsOp} (ha : Accesses a) (b : Bool) :
    run ⟨false, b⟩ ([.clear, .load] ++ a ++ [.release]) = some ⟨false, false⟩ := by
  rw [List.append_assoc, List.cons_append, run_cons]
  exact run_window ha false

/-- A pass of the run loop: `LOAD_VMCS`, accesses, one VMLAUNCH, accesses, `RELEASE_VMCS`. -/
theorem run_pass {a b : List VmcsOp} (ha : Accesses a) (hb : Accesses b) (e : Bool) :
    run ⟨false, false⟩ (.load :: a ++ .launch e :: b ++ [.release]) = some ⟨false, false⟩ := by
  simp only [List.cons_append, List.append_assoc, run_cons, step, Bool.false_eq_true, if_false,
    Option.some_bind]
  rw [run_append, run_accesses rfl ha, Option.some_bind, run_cons]
  simp only [step, Bool.not_false, Bool.and_self, if_true, Option.some_bind]
  rw [run_append, run_accesses rfl hb]
  rfl

end VmcsView

/-- The guest-state fields `kvm_get_sregs` reads and `kvm_set_sregs` writes, in order. -/
def sregsFields : List VmcsField :=
  [.guestCr0, .guestCr3, .guestCr4] ++ sregOrder.flatMap (fun r => (kvmVmxSegmentFields r).toList) ++
    [.guestIdtrLimit, .guestIdtrBase, .guestGdtrLimit, .guestGdtrBase, .guestIa32Efer]

theorem kvmGetSegment_trace (m : Machine) (r : Sreg) :
    (kvmGetSegment m r).2.trace = m.trace ++ (kvmVmxSegmentFields r).toList.map .read := by
  simp [kvmGetSegment, Machine.vmcsReadl, Machine.vmcsRead32, Machine.vmcsRead16, SegmentFields.toList]

theorem getSegments_trace (m : Machine) (seg : Sreg → KvmSegment) (l : List Sreg) :
    (l.foldl (fun (seg, m) s => (Function.update seg s (kvmGetSegment m s).1, (kvmGetSegment m s).2))
      (seg, m)).2.trace = m.trace ++ (l.flatMap fun r => (kvmVmxSegmentFields r).toList).map .read := by
  induction l generalizing seg m with
  | nil => simp
  | cons r l ih => simp [ih, kvmGetSegment_trace]

theorem kvmGetSregs_trace (m : Machine) (out : KvmSregs) :
    (kvmGetSregs m out).2.2.trace = m.trace ++ (.load :: sregsFields.map .read ++ [.release]) := by
  simp [kvmGetSregs, getSegments, getSegments_trace, Machine.vmcsReadl, Machine.vmcsRead32, sregsFields]

theorem kvmSetSegment_trace (m : Machine) (seg : KvmSegment) (r : Sreg) :
    (kvmSetSegment m seg r).trace = m.trace ++ (kvmVmxSegmentFields r).toList.map .write := by
  simp [kvmSetSegment, SegmentFields.toList]

theorem setSegments_trace (m : Machine) (seg : Sreg → KvmSegment) (l : List Sreg) :
    (l.foldl (fun m r => kvmSetSegment m (seg r) r) m).trace =
      m.trace ++ (l.flatMap fun r => (kvmVmxSegmentFields r).toList).map .write := by
  induction l generalizing m with
  | nil => simp
  | cons r l ih => simp [ih, kvmSetSegment_trace]

theorem kvmSetSregs_trace (m : Machine) (s : KvmSregs) :
    (kvmSetSregs m s).2.trace = m.trace ++ (.load :: sregsFields.map .write ++ [.release]) := by
  simp [kvmSetSregs, setSegments_trace, sregsFields]

section Pass

theorem prepareEntry_trace (l : RunLoop) : (prepareEntry l).trace = l.m.trace ++ .load ::
    ((if (injectionScan l).1 ≠ 0 then [.write .vmEntryIntrInfoField] else []) ++
      [.read .cpuBasedVmExecControl, .write .cpuBasedVmExecControl]) := by
  simp only [prepareEntry, writeIntrInfo, requestWindow]
  split_ifs <;> simp [Machine.vmcsRead32]

/-- The processor's side of an entry records one VMLAUNCH or VMRESUME. -/
theorem enterGuest_trace (launch : Bool) (sw : WorldSwitch) (m : Machine) :
    ∃ e, (enterGuest launch sw m).trace =
      m.trace ++ [(if launch then VmcsOp.launch else VmcsOp.resume) e] := by
  unfold enterGuest
  dsimp only
  split <;> exact ⟨_, rfl⟩

/-- While `__launched` is 0, `kvm_run` enters with VMLAUNCH, between the writes of the guest and
host state and the reads of the guest state. -/
theorem kvmRun_trace {m : Machine} (hv : m.vcpu.launched = 0) (sw : WorldSwitch) :
    ∃ e, (kvmRun sw m).trace = (loadGuestState m).trace ++
      [.launch e, .read .guestRflags, .read .guestRsp, .read .guestRip] := by
  obtain ⟨e, he⟩ := enterGuest_trace true sw (loadGuestState m)
  refine ⟨e, ?_⟩
  rw [kvmRun, saveGuestState_trace, hv]
  simp only [beq_self_eq_true, he, if_true, List.append_assoc, List.singleton_append]

theorem readExit_trace (m : Machine) : (readExit m).m.trace = m.trace ++
    [.read .vmExitInstructionLen, .read .exitQualification, .read .guestPhysicalAddress,
      .read .vmInstructionError, .read .vmEntryExceptionErrorCode, .read .vmExitReason] := by
  rw [readExit_eq]

theorem handleCr_trace (m : Machine) :
    ∃ a, Accesses a ∧ (handleCr m).2.trace = m.trace ++ a := by
  simp only [handleCr]
  split_ifs <;> refine ⟨_, ?_, by simp [Machine.vmcsRead32]; rfl⟩ <;>
    simp [Accesses, VmcsOp.isAccess]

/-- An exit handler only reads and writes fields. -/
theorem dispatch_trace (signal : Bool) (r : BitVec 32) (m : Machine) :
    ∃ a, Accesses a ∧ (dispatch signal r m).2.trace = m.trace ++ a := by
  unfold dispatch
  split
  · rename_i h _
    cases h
    case cr => exact handleCr_trace m
    all_goals exact ⟨[], by simp [Accesses], by simp [runHandler, onVcpu]⟩
  · exact ⟨[], by simp [Accesses], by simp⟩

/-- One pass of the run loop while `__launched` is 0: `LOAD_VMCS`, field accesses, one
VMLAUNCH, field accesses, `RELEASE_VMCS`. -/
theorem runIteration_trace (t : Turn) {l : RunLoop} (hv : l.m.vcpu.launched = 0) :
    ∃ a e b, Accesses a ∧ Accesses b ∧
      (runIteration t l).m.trace = l.m.trace ++ .load :: a ++ .launch e :: b ++ [.release] := by
  have hp : (prepareEntry l).vcpu.launched = 0 := by simp [prepareEntry_vcpu, hv]
  obtain ⟨e, hk⟩ := kvmRun_trace hp t.switch
  obtain ⟨h, hh, hd⟩ := dispatch_trace t.signal (readExit (kvmRun t.switch (prepareEntry l))).exitReason
    (readExit (kvmRun t.switch (prepareEntry l))).m
  refine ⟨((if (injectionScan l).1 ≠ 0 then [.write .vmEntryIntrInfoField] else []) ++
      [.read .cpuBasedVmExecControl, .write .cpuBasedVmExecControl]) ++
      ([.write .guestRflags, .write .guestRsp, .write .guestRip] ++ hostFields.map .write ++
        [.write .hostRsp]), e,
    [.read .guestRflags, .read .guestRsp, .read .guestRip, .read .vmExitInstructionLen,
      .read .exitQualification, .read .guestPhysicalAddress, .read .vmInstructionError,
      .read .vmEntryExceptionErrorCode, .read .vmExitReason] ++ h, ?_, ?_, ?_⟩
  · refine Accesses.append ?_ (Accesses.append (Accesses.append ?_ (accesses_map_write _)) ?_) <;>
      (try split_ifs) <;> simp [Accesses, VmcsOp.isAccess]
  · exact Accesses.append (by simp [Accesses, VmcsOp.isAccess]) hh
  · rw [runIteration_m, Machine.releaseVmcs_trace, hd, readExit_trace, hk, loadGuestState_trace,
      prepareEntry_trace]
    simp

theorem runStart_trace (m : Machine) : (runStart m).trace = m.trace := by
  unfold runStart
  split_ifs <;> rfl

/-- While `__launched` is 0, the passes of the run loop follow the policy one after another. -/
theorem runLoop_trace (turns : Nat → Turn) : ∀ n {l : RunLoop}, l.m.vcpu.launched = 0 →
    ∃ d, (runLoop turns n l).m.trace = l.m.trace ++ d ∧
      VmcsView.run ⟨false, false⟩ d = some ⟨false, false⟩
  | 0, _, _ => ⟨[], by simp [runLoop], rfl⟩
  | n + 1, l, hv => by
    rw [runLoop]
    by_cases hc : l.cont
    · rw [if_pos hc]
      dsimp only
      generalize hl : runIteration (turns l.maxcont) { l with maxcont := l.maxcont + 1 } = l'
      obtain ⟨a, e, b, ha, hb, ht⟩ :=
        runIteration_trace (turns l.maxcont) (l := { l with maxcont := l.maxcont + 1 }) hv
      have hv' : l'.m.vcpu.launched = 0 := by rw [← hl, runIteration_vcpu_launched]; exact hv
      rw [hl] at ht
      have hp := VmcsView.run_pass ha hb e
      split_ifs
      · exact ⟨_, by rw [ht]; simp, hp⟩
      · obtain ⟨d, hd, hr⟩ := runLoop_trace turns n hv'
        refine ⟨(.load :: a ++ .launch e :: b ++ [.release]) ++ d, by rw [hd, ht]; simp, ?_⟩
        rw [VmcsView.run_append, hp, Option.some_bind, hr]
    · rw [if_neg hc]
      exact ⟨[], by simp, rfl⟩

/-- `KVM_RUN` follows the policy for any exits and handler results, while `__launched` is 0. -/
theorem kvmRunWrapper_trace (turns : Nat → Turn) {m : Machine} (hv : m.vcpu.launched = 0) :
    ∃ d, (kvmRunWrapper turns m).2.trace = m.trace ++ d ∧
      VmcsView.run ⟨false, false⟩ d = some ⟨false, false⟩ := by
  obtain ⟨d, hd, hr⟩ := runLoop_trace turns 1000 (l := ⟨runStart m, 0, true, 0, 0⟩) (by simp [hv])
  exact ⟨d, by rw [kvmRunWrapper]; rw [hd, runStart_trace], hr⟩

end Pass

end KvmKext
