import KvmKext.Device.Handle

/-!
# Closing the device

`kvm_dev_close` on the last open of a process unlinks its state (see the registry), then frees
through `state->vcpu` every object the vCPU record points to, the page-table nodes with
`ept_free`, the record and the state. Nothing checks that `state->vcpu`, `mm` or `md` was ever
set: a process that closes before `KVM_CREATE_VM`, or before `KVM_MMAP_VCPU`, dereferences NULL.
-/

namespace KvmKext

/-- `IOFree`: NULL is ignored; otherwise the block of that address and size stops being live. -/
def ioFree (h : Heap) (p size : Nat) : Heap :=
  if p = 0 then h else { h with live := h.live.erase (p, size) }

@[simp] theorem ioFree_brk (h : Heap) (p size : Nat) : (ioFree h p size).brk = h.brk := by
  unfold ioFree; split_ifs <;> rfl

/-- One loop of `ept_free` over the 512 host pointers of `node`: `body` on every non-NULL
child. -/
def forChildren (node : Nat) (body : Heap → Nat → Heap) (h : Heap) : Heap :=
  (List.range pageOffset).foldl (fun h i =>
    let child := h.mem node (pageOffset + i)
    if child = 0 then h else body h child) h

/-- `ept_free`: every page table, directory and directory-pointer table below the root, then the
root. -/
def eptFree (h : Heap) (pml4 : Nat) : Heap :=
  let h := forChildren pml4 (fun h pdpt =>
    let h := forChildren pdpt (fun h pd =>
      let h := forChildren pd (fun h pt => ioFree h pt pageSize) h
      ioFree h pd (pageSize * 2)) h
    ioFree h pdpt (pageSize * 2)) h
  ioFree h pml4 (pageSize * 2)

/-- `kvm_dev_close` for the process that owns `s`. A NULL pointer the code dereferences ends the
call with the expression it dereferenced; `ept_free` reads `vcpu->pml4[PAGE_OFFSET]` first. -/
def kvmDevClose (z : Sizes) (s : Handle) : Except String Handle :=
  if s.state = 0 then .error "state" else
  if s.openCount - 1 ≠ 0 then .ok { s with openCount := s.openCount - 1 } else
  if s.vcpu = 0 then .error "state->vcpu" else
  let r := s.m.vcpu.refs
  let h := ioFree s.m.heap r.virtualApicPage pageSize
  let h := ioFree h r.apicAccess pageSize
  let h := ioFree h r.vmcs pageSize
  let h := ioFree h r.msrs (r.msrCount * sizeofKvmMsrEntry)
  let h := ioFree h r.cpuids (r.cpuidCount * sizeofKvmCpuidEntry2)
  if r.mm = 0 then .error "state->vcpu->mm" else
  let h := ioFree h r.mm z.memoryMap
  if r.md = 0 then .error "state->vcpu->md" else
  let h := ioFree (ioFree h r.md z.memoryDescriptor) r.kvmVcpu vcpuSize
  if r.pml4 = 0 then .error "vcpu->pml4" else
  let h := ioFree (ioFree (eptFree h r.pml4) s.vcpu z.vcpu) s.state z.state
  .ok { s with state := 0, openCount := 0, vcpu := 0, m := { s.m with heap := h },
               mapped := s.mapped.erase r.mm }

/-- A handle opened once whose run page was never mapped: it has no vCPU, or one whose `mm` is
NULL. -/
structure Unmapped (s : Handle) : Prop where
  state_ne : s.state ≠ 0
  openCount_eq : s.openCount = 1
  mm : s.vcpu = 0 ∨ s.m.vcpu.mm = 0

section Unmapped

variable {pa : Nat → Nat} {z : Sizes} {s s' : Handle}

theorem kvmDevOpen_unmapped (m : Machine) (mapped : List Nat) :
    Unmapped (kvmDevOpen z ⟨0, 0, 0, m, mapped⟩).2 :=
  ⟨Nat.ne_of_gt m.heap.brk_pos, rfl, .inl rfl⟩

theorem Unmapped.keep (hs : Unmapped s) {m : Machine} (hm : m.vcpu.mm = s.m.vcpu.mm) :
    Unmapped { s with m } :=
  ⟨hs.state_ne, hs.openCount_eq, hm ▸ hs.mm⟩

/-- Every command but `KVM_MMAP_VCPU` keeps a handle unmapped: `KVM_CREATE_VM` installs a record
whose `mm` is NULL, and no other command writes `mm`. -/
theorem Unmapped.ioctl (hs : Unmapped s) {pData : Nat} {c : KvmIoctl} {r : Int}
    (hc : c ≠ .mmapVcpu) (h : kvmDevIoctl pa z s pData c = some (r, s')) : Unmapped s' := by
  unfold kvmDevIoctl at h
  rw [if_neg hs.state_ne] at h
  split_ifs at h
  · cases h; exact hs
  cases c with
  | createVm =>
    cases h
    obtain ⟨_, _, _, _, _, hv⟩ := kvmCreateVm_vcpu pa z.vcpu s.m.host s.m.heap
    exact ⟨hs.state_ne, hs.openCount_eq, .inr (by simp [hv, Vcpu.zero])⟩
  | mmapVcpu => exact absurd rfl hc
  | setUserMemoryRegion um mr =>
    rcases withVcpu_eq_some h with rfl | ⟨-, h⟩
    · exact hs
    obtain ⟨⟨_, m'⟩, hm, he⟩ := Option.map_eq_some'.1 h
    cases he
    exact hs.keep (by rw [kvmSetUserMemoryRegion_frame _ hm])
  | irqLine irq =>
    rcases withVcpu_eq_some h with rfl | ⟨-, h⟩
    · exact hs
    cases h
    exact hs.keep (congrArg VcpuRefs.mm (kvmIrqLine_refs _ _))
  | getRegs =>
    rcases withVcpu_eq_some h with rfl | ⟨-, h⟩
    · exact hs
    cases h; exact hs
  | setRegs x =>
    rcases withVcpu_eq_some h with rfl | ⟨-, h⟩
    · exact hs
    cases h; exact hs.keep rfl
  | getSregs out =>
    rcases withVcpu_eq_some h with rfl | ⟨-, h⟩
    · exact hs
    cases h
    exact hs.keep (by rw [kvmGetSregs_vcpu])
  | setSregs x =>
    rcases withVcpu_eq_some h with rfl | ⟨-, h⟩
    · exact hs
    cases h
    exact hs.keep (by rw [kvmSetSregs_vcpu])
  | run turns =>
    rcases withVcpu_eq_some h with rfl | ⟨-, h⟩
    · exact hs
    cases h
    exact hs.keep (congrArg VcpuRefs.mm (kvmRunWrapper_refs _ _))
  | setMsrs e =>
    rcases withVcpu_eq_some h with rfl | ⟨-, h⟩
    · exact hs
    cases h; exact hs.keep rfl
  | setCpuid2 e =>
    rcases withVcpu_eq_some h with rfl | ⟨-, h⟩
    · exact hs
    cases h; exact hs.keep rfl

/-- A sequence without `KVM_MMAP_VCPU` keeps a handle unmapped. -/
theorem Unmapped.ioctls (hs : Unmapped s) {cs : List (Nat × KvmIoctl)}
    (hc : ∀ c ∈ cs, c.2 ≠ .mmapVcpu) (h : kvmDevIoctls pa z s cs = some s') : Unmapped s' := by
  induction cs generalizing s with
  | nil => cases h; exact hs
  | cons c cs ih =>
    rw [kvmDevIoctls_cons] at h
    obtain ⟨⟨_, s₁⟩, h₁, h⟩ := Option.bind_eq_some.1 h
    exact ih (hs.ioctl (hc c (List.mem_cons_self _ _)) h₁)
      (fun c' hc' => hc c' (List.mem_cons_of_mem _ hc')) h

/-- The last close of an unmapped handle dereferences NULL: `state->vcpu` when no VM was created,
`state->vcpu->mm` otherwise. -/
theorem Unmapped.close (hs : Unmapped s) :
    kvmDevClose z s = .error (if s.vcpu = 0 then "state->vcpu" else "state->vcpu->mm") := by
  unfold kvmDevClose
  rw [if_neg hs.state_ne, hs.openCount_eq, if_neg (by decide)]
  split_ifs with hv
  · rfl
  · dsimp only [Vcpu.refs]
    rw [if_pos (hs.mm.resolve_left hv)]

/-- `KVM_CREATE_VM` on an open handle sets `state->vcpu`. -/
theorem kvmDevIoctl_createVm (hs : s.state ≠ 0) {pData : Nat} (hp : pageSize ≤ pData) :
    ∃ s', kvmDevIoctls pa z s [(pData, .createVm)] = some s' ∧ s'.vcpu ≠ 0 := by
  refine ⟨⟨s.state, s.openCount, (kvmCreateVm pa z.vcpu s.m.host s.m.heap).1,
    (kvmCreateVm pa z.vcpu s.m.host s.m.heap).2, s.mapped⟩, ?_, ?_⟩
  · simp only [kvmDevIoctls_cons, kvmDevIoctl, if_neg hs, if_neg (Nat.not_lt.2 hp)]
    rfl
  · simp only [kvmCreateVm]
    exact Nat.ne_of_gt s.m.heap.brk_pos

end Unmapped

theorem kvmDevClose_dereferences_null (pa : Nat → Nat) (z : Sizes) (m : Machine)
    (mapped : List Nat) :
    let s := (kvmDevOpen z ⟨0, 0, 0, m, mapped⟩).2
    kvmDevClose z s = .error "state->vcpu" ∧
    (∀ pData, pageSize ≤ pData → ∃ s', kvmDevIoctls pa z s [(pData, .createVm)] = some s' ∧
      kvmDevClose z s' = .error "state->vcpu->mm") ∧
    ∀ cs s', (∀ c ∈ cs, c.2 ≠ .mmapVcpu) → kvmDevIoctls pa z s cs = some s' →
      kvmDevClose z s' = .error (if s'.vcpu = 0 then "state->vcpu" else "state->vcpu->mm") := by
  intro s
  have hs : Unmapped s := kvmDevOpen_unmapped m mapped
  refine ⟨hs.close, fun pData hp => ?_, fun cs s' hc h => (hs.ioctls hc h).close⟩
  obtain ⟨s', h, hv⟩ := kvmDevIoctl_createVm hs.state_ne hp
  refine ⟨s', h, ?_⟩
  rw [(hs.ioctls (by simp) h).close, if_neg hv]

end KvmKext
