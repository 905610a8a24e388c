import KvmKext.Device.Handle
import KvmKext.Vcpu.Trace
import KvmKext.Vcpu.Interrupts

/-!
# The VMCS policy across calls

Between two calls of `kvm_dev_ioctl` the VMCS of an existing vCPU is clear and `__launched` is
0: `KVM_CREATE_VM` ends with `RELEASE_VMCS`, so does every operation that loads the VMCS, and
nothing ever sets `__launched`. From such a state each call's slice of the VMCS trace follows the
policy, so every state a handle reaches does.
-/

namespace KvmKext

/-- Between calls: the VMCS of an existing vCPU is clear and `__launched` is 0. -/
def Quiescent (s : Handle) : Prop :=
  s.vcpu ≠ 0 → s.m.vmcs.launched = false ∧ s.m.vcpu.launched = 0

/-- A call's slice of the trace follows the policy from a clear, unloaded VMCS: `d` after the
trace so far, or the whole trace of a VMCS `KVM_CREATE_VM` has just made. -/
def FollowsPolicy (s s' : Handle) : Prop :=
  ∃ d, (s'.m.trace = s.m.trace ++ d ∨ s'.m.trace = d) ∧
    VmcsView.run ⟨false, false⟩ d = some ⟨false, false⟩

section Calls

variable {pa : Nat → Nat} {z : Sizes} {s s' : Handle}

theorem kvmGetSregs_launched (m : Machine) (out : KvmSregs) :
    (kvmGetSregs m out).2.2.vmcs.launched = false := by
  simp [kvmGetSregs, Machine.vmcsReadl, Machine.vmcsRead32]

theorem kvmSetSregs_launched (m : Machine) (x : KvmSregs) :
    (kvmSetSregs m x).2.vmcs.launched = false := by
  simp [kvmSetSregs]

/-- `KVM_RUN` leaves the VMCS clear and `__launched` as it was. -/
theorem kvmRunWrapper_quiescent (turns : Nat → Turn) {m : Machine} (hl : m.vmcs.launched = false)
    (hv : m.vcpu.launched = 0) :
    (kvmRunWrapper turns m).2.vmcs.launched = false ∧ (kvmRunWrapper turns m).2.vcpu.launched = 0 := by
  dsimp only [kvmRunWrapper]
  exact runLoop_inv (fun m => m.vmcs.launched = false ∧ m.vcpu.launched = 0)
    (fun t l h => ⟨runIteration_launched t l, (runIteration_vcpu_launched t l).trans h.2⟩) turns
    1000 ⟨runStart m, 0, true, 0, 0⟩ ⟨by rw [runStart_vmcs]; exact hl, by rw [runStart_launched]; exact hv⟩

theorem Quiescent.keep (hs : Quiescent s) {m : Machine} (hl : m.vmcs.launched = s.m.vmcs.launched)
    (hv : m.vcpu.launched = s.m.vcpu.launched) : Quiescent { s with m } :=
  fun h => ⟨hl.trans (hs h).1, hv.trans (hs h).2⟩

/-- A call that leaves the trace alone follows the policy. -/
theorem FollowsPolicy.of_trace (h : s'.m.trace = s.m.trace) : FollowsPolicy s s' :=
  ⟨[], .inl (by rw [h, List.append_nil]), rfl⟩

/-- Every call keeps a handle quiescent, and its slice of the trace follows the policy. -/
theorem Quiescent.ioctl (hs : Quiescent s) {pData : Nat} {c : KvmIoctl} {r : Int}
    (h : kvmDevIoctl pa z s pData c = some (r, s')) : Quiescent s' ∧ FollowsPolicy s s' := by
  unfold kvmDevIoctl at h
  split_ifs at h
  · cases h; exact ⟨hs, .of_trace rfl⟩
  · cases h; exact ⟨hs, .of_trace rfl⟩
  cases c with
  | createVm =>
    cases h
    obtain ⟨_, _, _, _, _, hv⟩ := kvmCreateVm_vcpu pa z.vcpu s.m.host s.m.heap
    refine ⟨fun _ => ⟨kvmCreateVm_launched .., by simp [hv, Vcpu.zero]⟩, _, .inr rfl, ?_⟩
    rw [kvmCreateVm_trace]
    exact VmcsView.run_create (accesses_map_write _) false
  | setUserMemoryRegion um mr =>
    rcases withVcpu_eq_some h with rfl | ⟨-, h⟩
    · exact ⟨hs, .of_trace rfl⟩
    obtain ⟨⟨_, m'⟩, hm, he⟩ := Option.map_eq_some'.1 h
    cases he
    have hf := kvmSetUserMemoryRegion_frame _ hm
    exact ⟨hs.keep (by rw [hf]) (by rw [hf]), .of_trace (by rw [hf])⟩
  | irqLine irq =>
    rcases withVcpu_eq_some h with rfl | ⟨-, h⟩
    · exact ⟨hs, .of_trace rfl⟩
    cases h
    exact ⟨hs.keep rfl (kvmIrqLine_launched _ _), .of_trace rfl⟩
  | getRegs =>
    rcases withVcpu_eq_some h with rfl | ⟨-, h⟩
    · exact ⟨hs, .of_trace rfl⟩
    cases h
    exact ⟨hs, .of_trace rfl⟩
  | setRegs x =>
    rcases withVcpu_eq_some h with rfl | ⟨-, h⟩
    · exact ⟨hs, .of_trace rfl⟩
    cases h
    exact ⟨hs.keep rfl rfl, .of_trace rfl⟩
  | getSregs out =>
    rcases withVcpu_eq_some h with rfl | ⟨hv0, h⟩
    · exact ⟨hs, .of_trace rfl⟩
    cases h
    refine ⟨hs.keep ((kvmGetSregs_launched _ out).trans (hs hv0).1.symm)
      (by rw [kvmGetSregs_vcpu]), _, .inl (kvmGetSregs_trace _ out), ?_⟩
    exact VmcsView.run_window (accesses_map_read sregsFields) false
  | setSregs x =>
    rcases withVcpu_eq_some h with rfl | ⟨hv0, h⟩
    · exact ⟨hs, .of_trace rfl⟩
    cases h
    refine ⟨hs.keep ((kvmSetSregs_launched _ x).trans (hs hv0).1.symm)
      (by rw [kvmSetSregs_vcpu]), _, .inl (kvmSetSregs_trace _ x), ?_⟩
    exact VmcsView.run_window (accesses_map_write sregsFields) false
  | run turns =>
    rcases withVcpu_eq_some h with rfl | ⟨hv0, h⟩
    · exact ⟨hs, .of_trace rfl⟩
    cases h
    obtain ⟨hl, hv⟩ := hs hv0
    obtain ⟨d, hd, hr⟩ := kvmRunWrapper_trace turns hv
    obtain ⟨hl', hv'⟩ := kvmRunWrapper_quiescent turns hl hv
    exact ⟨hs.keep (hl'.trans hl.symm) (hv'.trans hv.symm), d, .inl hd, hr⟩
  | mmapVcpu =>
    rcases withVcpu_eq_some h with rfl | ⟨-, h⟩
    · exact ⟨hs, .of_trace rfl⟩
    cases h
    exact ⟨fun h => hs h, .of_trace rfl⟩
  | setMsrs e =>
    rcases withVcpu_eq_some h with rfl | ⟨-, h⟩
    · exact ⟨hs, .of_trace rfl⟩
    cases h
    exact ⟨hs.keep rfl rfl, .of_trace rfl⟩
  | setCpuid2 e =>
    rcases withVcpu_eq_some h with rfl | ⟨-, h⟩
    · exact ⟨hs, .of_trace rfl⟩
    cases h
    exact ⟨hs.keep rfl rfl, .of_trace rfl⟩

/-- Every state reachable from the first open is quiescent. -/
theorem Quiescent.ioctls (hs : Quiescent s) {cs : List (Nat × KvmIoctl)}
    (h : kvmDevIoctls pa z s cs = some s') : Quiescent s' := by
  induction cs generalizing s with
  | nil => cases h; exact hs
  | cons c cs ih =>
    rw [kvmDevIoctls_cons] at h
    obtain ⟨⟨_, s₁⟩, h₁, h⟩ := Option.bind_eq_some.1 h
    exact ih (hs.ioctl h₁).1 h

end Calls

theorem kvmDevIoctl_vmcsPolicy (pa : Nat → Nat) (z : Sizes) (m : Machine) (mapped : List Nat) :
    ∀ cs s, kvmDevIoctls pa z (kvmDevOpen z ⟨0, 0, 0, m, mapped⟩).2 cs = some s →
      Quiescent s ∧ ∀ pData c r s', kvmDevIoctl pa z s pData c = some (r, s') →
        FollowsPolicy s s' := by
  intro cs s h
  have hs : Quiescent s := Quiescent.ioctls (fun h => absurd rfl h) h
  exact ⟨hs, fun _ _ _ _ h => (hs.ioctl h).2⟩

/-- A handle opened on zeroed kernel memory and given a vCPU by `KVM_CREATE_VM`. -/
theorem kvmDevIoctl_vmcsPolicy_createVm :
    let z : Sizes := ⟨pageSize, 64, 64, 64⟩
    let m : Machine := ⟨Vcpu.zero, ⟨fun _ => 0, false⟩, .initial,
      ⟨fun _ _ => (0, 0, 0, 0), fun _ => 0, fun _ => 0⟩, []⟩
    let s0 := (kvmDevOpen z ⟨0, 0, 0, m, []⟩).2
    let r := kvmCreateVm id z.vcpu m.host s0.m.heap
    let s := { s0 with vcpu := r.1, m := r.2 }
    kvmDevIoctls id z s0 [(pageSize, .createVm)] = some s ∧ Quiescent s ∧
      ∀ pData c r s', kvmDevIoctl id z s pData c = some (r, s') → FollowsPolicy s s' := by
  intro z m s0 r s
  have h : kvmDevIoctls id z s0 [(pageSize, .createVm)] = some s := rfl
  exact ⟨h, kvmDevIoctl_vmcsPolicy id z m [] _ s h⟩

end KvmKext
