import KvmKext.Device.Handle
import KvmKext.Ept.Hardware

/-!
# The page table across a handle's calls

`ept_add_page` keeps the processor's half of every node in step with the host half, and every
node page-aligned (`eptRun_walks_agree`). The table of a handle's vCPU keeps this through any
calls: `KVM_CREATE_VM` builds it with `ept_init` and one `ept_add_page`,
`KVM_SET_USER_MEMORY_REGION` adds pages to it, also when it stops at a page it cannot pin,
`KVM_RUN` and the register calls leave kernel memory alone (`kvmRunWrapper_heap`), the other
calls allocate fresh blocks, and none of them moves `pml4`. So on every handle a process reaches,
the processor's walk from `EPT_POINTER` reads the leaf entry `ept_translate` reads
(`kvmDevIoctls_walks_agree`).
-/

namespace KvmKext

section Frame

theorem runHandler_heap (signal : Bool) (h : ExitHandler) (m : Machine) :
    (runHandler signal h m).2.heap = m.heap := by
  cases h
  case cr => exact (handleCr_frame m (f := .vmExitReason) (by decide)).2.2.1
  all_goals rfl

theorem runIteration_heap (t : Turn) (l : RunLoop) : (runIteration t l).m.heap = l.m.heap := by
  rw [runIteration_m, Machine.releaseVmcs_heap]
  unfold dispatch
  split
  · rw [runHandler_heap]; simp [readExit_eq]
  · simp [readExit_eq]

/-- `KVM_RUN` allocates and frees nothing. -/
theorem kvmRunWrapper_heap (turns : Nat → Turn) (m : Machine) :
    (kvmRunWrapper turns m).2.heap = m.heap := by
  have hs : (runStart m).heap = m.heap := by
    unfold runStart
    split_ifs <;> rfl
  dsimp only [kvmRunWrapper]
  exact runLoop_inv (fun m' => m'.heap = m.heap)
    (fun t l h => (runIteration_heap t l).trans h) turns 1000 ⟨runStart m, 0, true, 0, 0⟩ hs

theorem kvmGetSregs_heap (m : Machine) (out : KvmSregs) :
    (kvmGetSregs m out).2.2.heap = m.heap := by
  simp [kvmGetSregs, getSegments, sregOrder, kvmGetSegment, Machine.vmcsReadl,
    Machine.vmcsRead32, Machine.vmcsRead16]

theorem kvmSetSregs_heap (m : Machine) (x : KvmSregs) : (kvmSetSregs m x).2.heap = m.heap := by
  simp [kvmSetSregs, sregOrder, kvmSetSegment]

end Frame

section Heap

variable {pa : Nat → Nat} {h : Heap} {pml4 : Nat}

/-- A fresh block leaves every node on a walk, and what it holds, as it was. -/
theorem HardwareInv.alloc (hi : HardwareInv pa h pml4) (size : Nat) :
    HardwareInv pa (ioCallocAligned h size).2 pml4 := by
  obtain ⟨⟨lbl, ht⟩, he, hal⟩ := hi
  have hw : ∀ {k} va, k ≤ 3 → walkNode (ioCallocAligned h size).2 pml4 k va = walkNode h pml4 k va :=
    fun va hk => ht.walkNode_ioCallocAligned size hk va
  refine ⟨⟨lbl, ht.alloc size⟩, fun k va i hk hn hi => ?_, fun k va hk => hw va hk ▸ hal k va hk⟩
  rw [hw va hk.le] at hn ⊢
  simp only [ioCallocAligned_mem, (ht.node hk.le hn).1.ne, if_false]
  exact he k va i hk hn hi

theorem HardwareInv.addPage (hi : HardwareInv pa h pml4) (va phys : Nat) :
    HardwareInv pa (eptAddPage pa h pml4 va phys) pml4 := by
  obtain ⟨⟨lbl, ht⟩, he, hal⟩ := hi
  exact ⟨(eptAddPage_spec pa ht va phys).1, eptAddPage_hardware ht he hal va phys⟩

/-- The loop of `kvm_set_user_memory_region` keeps the table sound, however it returns. -/
theorem HardwareInv.region {um : UserMemory} {mr : KvmUserspaceMemoryRegion} :
    ∀ {fuel : Nat} {off : BitVec 64} {h h' : Heap} {r : Int}, HardwareInv pa h pml4 →
      mapRegion pa um mr pml4 fuel off h = some (r, h') → HardwareInv pa h' pml4
  | 0, _, _, _, _, _, hm => by cases hm
  | fuel + 1, off, h, h', r, hi, hm => by
    simp only [mapRegion] at hm
    split_ifs at hm
    · exact HardwareInv.region (hi.addPage _ _) hm
    all_goals
      cases hm
      exact hi

end Heap

/-- `KVM_CREATE_VM` starts the vCPU with a sound table. -/
theorem hardwareInv_kvmCreateVm (pa : Nat → Nat) (sizeofVcpu : Nat) (host : Host) (h : Heap) :
    HardwareInv pa (kvmCreateVm pa sizeofVcpu host h).2.heap
      (kvmCreateVm pa sizeofVcpu host h).2.vcpu.pml4 := by
  simp only [kvmCreateVm, Machine.releaseVmcs_heap, Machine.releaseVmcs_vcpu, vcpuInit_heap,
    vcpuInit_vcpu, Machine.loadVmcs_heap, Machine.loadVmcs_vcpu, Machine.vmcsClear_heap,
    Machine.vmcsClear_vcpu, allocateVmcs]
  have h0 : HardwareInv pa (eptInit (ioCallocAligned h sizeofVcpu).2).2
      (eptInit (ioCallocAligned h sizeofVcpu).2).1 :=
    ⟨⟨_, treeShape_eptInit _⟩, entriesAgree_eptInit pa _, nodesAligned_eptInit _⟩
  exact ((((h0.alloc _).alloc _).alloc _).alloc _).addPage _ _

/-- Once the handle has a vCPU, its table is sound. -/
def EptSound (pa : Nat → Nat) (s : Handle) : Prop :=
  s.vcpu ≠ 0 → HardwareInv pa s.m.heap s.m.vcpu.pml4

namespace EptSound

variable {pa : Nat → Nat} {z : Sizes} {s : Handle}

/-- A call that keeps `state->vcpu` and `pml4`, and whose change to kernel memory keeps a sound
table sound, keeps the handle's table sound. -/
theorem step (he : EptSound pa s) {s' : Handle} (hv : s'.vcpu = s.vcpu)
    (hp : s'.m.vcpu.pml4 = s.m.vcpu.pml4)
    (hh : HardwareInv pa s.m.heap s.m.vcpu.pml4 → HardwareInv pa s'.m.heap s.m.vcpu.pml4) :
    EptSound pa s' :=
  fun h => hp ▸ hh (he (hv ▸ h))

/-- A call that changes only the machine, keeping `pml4` and a sound table sound. -/
theorem keep (he : EptSound pa s) {m : Machine} (hp : m.vcpu.pml4 = s.m.vcpu.pml4)
    (hh : HardwareInv pa s.m.heap s.m.vcpu.pml4 → HardwareInv pa m.heap s.m.vcpu.pml4) :
    EptSound pa { s with m } :=
  he.step rfl hp hh

/-- `KVM_SET_USER_MEMORY_REGION` keeps the table sound, also when it fails part way. -/
theorem region (he : EptSound pa s) {um : UserMemory} {mr : KvmUserspaceMemoryRegion} {r : Int}
    {m' : Machine} (h : kvmSetUserMemoryRegion pa um s.m mr = some (r, m')) :
    EptSound pa { s with m := m' } := by
  have hf := kvmSetUserMemoryRegion_frame s.m h
  refine he.step rfl (by rw [hf]) fun hi => ?_
  unfold kvmSetUserMemoryRegion at h
  split_ifs at h
  · obtain ⟨⟨_, h'⟩, hr, hx⟩ := Option.map_eq_some'.1 h
    cases hx
    exact hi.region hr
  · cases h
    exact hi

/-- Every call keeps the table sound. -/
theorem ioctl (he : EptSound pa s) {pData : Nat} {c : KvmIoctl} {r : Int} {s' : Handle}
    (h : kvmDevIoctl pa z s pData c = some (r, s')) : EptSound pa s' := by
  unfold kvmDevIoctl at h
  split_ifs at h
  · cases h; exact he
  · cases h; exact he
  by_cases hv : s.vcpu = 0
  · cases c with
    | createVm => cases h; exact fun _ => hardwareInv_kvmCreateVm pa _ _ _
    | _ =>
      simp only [withVcpu, if_pos hv, Option.some.injEq] at h
      obtain ⟨-, rfl⟩ := h
      exact he
  cases c with
  | createVm => cases h; exact fun _ => hardwareInv_kvmCreateVm pa _ _ _
  | setUserMemoryRegion um mr =>
    simp only [withVcpu, if_neg hv] at h
    obtain ⟨⟨_, m'⟩, hm, he'⟩ := Option.map_eq_some'.1 h
    cases he'
    exact he.region hm
  | irqLine irq =>
    simp only [withVcpu, if_neg hv, Option.some.injEq] at h
    cases h
    exact he.step rfl (congrArg VcpuRefs.pml4 (kvmIrqLine_refs _ _)) id
  | getRegs =>
    simp only [withVcpu, if_neg hv, Option.some.injEq] at h
    cases h
    exact he
  | setRegs x =>
    simp only [withVcpu, if_neg hv, Option.some.injEq] at h
    cases h
    exact he.step rfl rfl id
  | getSregs out =>
    simp only [withVcpu, if_neg hv, Option.some.injEq] at h
    cases h
    exact he.step rfl (by rw [kvmGetSregs_vcpu]) fun hi => (kvmGetSregs_heap s.m out).symm ▸ hi
  | setSregs x =>
    simp only [withVcpu, if_neg hv, Option.some.injEq] at h
    cases h
    exact he.step rfl (by rw [kvmSetSregs_vcpu]) fun hi => (kvmSetSregs_heap s.m x).symm ▸ hi
  | run turns =>
    simp only [withVcpu, if_neg hv, Option.some.injEq] at h
    cases h
    have hr := congrArg VcpuRefs.pml4 (kvmRunWrapper_refs s.m turns)
    dsimp only [Vcpu.refs] at hr
    have hh := kvmRunWrapper_heap turns s.m
    exact he.keep hr fun hi => by rwa [hh]
  | mmapVcpu =>
    simp only [withVcpu, if_neg hv, Option.some.injEq] at h
    cases h
    exact he.step rfl rfl fun hi => (hi.alloc _).alloc _
  | setMsrs e =>
    simp only [withVcpu, if_neg hv, Option.some.injEq] at h
    cases h
    exact he.step rfl rfl fun hi => hi.alloc _
  | setCpuid2 e =>
    simp only [withVcpu, if_neg hv, Option.some.injEq] at h
    cases h
    exact he.step rfl rfl fun hi => hi.alloc _

/-- A sequence of calls keeps the table sound. -/
theorem ioctls (he : EptSound pa s) {cs : List (Nat × KvmIoctl)} {s' : Handle}
    (h : kvmDevIoctls pa z s cs = some s') : EptSound pa s' := by
  induction cs generalizing s with
  | nil => cases h; exact he
  | cons c cs ih =>
    rw [kvmDevIoctls_cons] at h
    obtain ⟨⟨_, s₁⟩, h₁, h⟩ := Option.bind_eq_some.1 h
    exact ih (he.ioctl h₁) h

end EptSound

end KvmKext
