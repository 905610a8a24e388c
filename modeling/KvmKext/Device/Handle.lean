import KvmKext.Vcpu.Memory
import KvmKext.Vcpu.Frame
import KvmKext.Vcpu.Ops

/-!
# The device handle

What one process holds through the device node: its `struct state`, which `state_find` finds,
and through `state->vcpu` the vCPU with everything `KVM_CREATE_VM`, `KVM_MMAP_VCPU`,
`KVM_SET_CPUID2` and `KVM_SET_MSRS` allocate. `kvm_dev_ioctl` runs the vCPU operations on it. The
commands that touch nothing kept here (the queries, the irqchip and PIT copies, the FPU stubs) are
left out. What the vCPU operations leave alone is the record's `VcpuRefs`, the kernel objects
`kvm_dev_close` frees through it.
-/

namespace KvmKext

/-- The sizes src/ does not fix: `sizeof(struct vcpu)`, `sizeof(struct state)`, and the IOKit
objects `KVM_MMAP_VCPU` creates. -/
structure Sizes where
  vcpu : Nat
  state : Nat
  memoryDescriptor : Nat
  memoryMap : Nat

/-- One process's side of the device: `state` (0 when `state_find` finds none), its `open_count`,
`state->vcpu` (0 for NULL) with the vCPU it points to and kernel memory, and the `IOMemoryMap`s
whose mapping of the run page is in place in the process. -/
structure Handle where
  state : Nat
  openCount : Int
  vcpu : Nat
  m : Machine
  mapped : List Nat

def enoent : Int := 2
def eopnotsupp : Int := 102

/-- `kvm_dev_open`: the first open of a process allocates a zeroed `struct state`, whose `vcpu` is
NULL; every open counts. -/
def kvmDevOpen (z : Sizes) (s : Handle) : Int × Handle :=
  let s := if s.state = 0 then
      let p := ioCallocAligned s.m.heap z.state
      { s with state := p.1, openCount := 0, vcpu := 0, m := { s.m with heap := p.2 } }
    else s
  (0, { s with openCount := s.openCount + 1 })

/-- The commands of `kvm_dev_ioctl` that change what this model keeps, with the arguments `pData`
points to. -/
inductive KvmIoctl
  | createVm
  | setUserMemoryRegion (um : UserMemory) (mr : KvmUserspaceMemoryRegion)
  | irqLine (irq : KvmIrqLevel)
  | getRegs
  | setRegs (r : KvmRegs)
  | getSregs (out : KvmSregs)
  | setSregs (s : KvmSregs)
  | run (turns : Nat → Turn)
  | mmapVcpu
  | setMsrs (entries : List KvmMsrEntry)
  | setCpuid2 (entries : List KvmCpuidEntry2)

/-- The `KVM_MMAP_VCPU` case: a memory descriptor for the run page, and its mapping into the
calling task. Modelled from the IOKit contract: `withAddressRange` and `createMappingInTask` each
return an object holding one reference, which `release()` drops, and the mapping stays in place
until `unmap()`. -/
def kvmMmapVcpu (z : Sizes) (s : Handle) : Int × Handle :=
  let md := ioCallocAligned s.m.heap z.memoryDescriptor
  let mm := ioCallocAligned md.2 z.memoryMap
  (0, { s with m := { s.m with heap := mm.2, vcpu := { s.m.vcpu with md := md.1, mm := mm.1 } },
               mapped := mm.1 :: s.mapped })

/-- Store an operation's vCPU and keep its return value. -/
def Handle.onMachine (s : Handle) (r : Int × Machine) : Int × Handle := (r.1, { s with m := r.2 })

/-- `if (vcpu == NULL) goto fail`, between the first switch and the others. -/
def withVcpu (s : Handle) (k : Option (Int × Handle)) : Option (Int × Handle) :=
  if s.vcpu = 0 then some (eopnotsupp, s) else k

/-- `kvm_dev_ioctl` with the `pData` the caller passes. `none` when the call does not return (a
region that wraps around, see `mapRegion`). -/
def kvmDevIoctl (pa : Nat → Nat) (z : Sizes) (s : Handle) (pData : Nat) (c : KvmIoctl) :
    Option (Int × Handle) :=
  if s.state = 0 then some (enoent, s)
  else if pData < pageSize then some (eopnotsupp, s)
  else match c with
    | .createVm =>
      let r := kvmCreateVm pa z.vcpu s.m.host s.m.heap
      some (0, { s with vcpu := r.1, m := r.2 })
    | .setUserMemoryRegion um mr =>
      withVcpu s ((kvmSetUserMemoryRegion pa um s.m mr).map s.onMachine)
    | .irqLine irq =>
      withVcpu s (some (s.onMachine ((kvmIrqLine s.m.vcpu irq).1,
        s.m.setVcpu (kvmIrqLine s.m.vcpu irq).2)))
    | .getRegs => withVcpu s (some ((kvmGetRegs s.m.vcpu).1, s))
    | .setRegs r =>
      withVcpu s (some (s.onMachine ((kvmSetRegs s.m.vcpu r).1,
        s.m.setVcpu (kvmSetRegs s.m.vcpu r).2)))
    | .getSregs out =>
      withVcpu s (some (s.onMachine ((kvmGetSregs s.m out).1, (kvmGetSregs s.m out).2.2)))
    | .setSregs x => withVcpu s (some (s.onMachine (kvmSetSregs s.m x)))
    | .run turns => withVcpu s (some (s.onMachine (kvmRunWrapper turns s.m)))
    | .mmapVcpu => withVcpu s (some (kvmMmapVcpu z s))
    | .setMsrs e => withVcpu s (some (s.onMachine (kvmSetMsrs s.m e)))
    | .setCpuid2 e => withVcpu s (some (s.onMachine (kvmSetCpuid2 s.m e)))

theorem withVcpu_eq_some {s s' : Handle} {k : Option (Int × Handle)} {r : Int}
    (h : withVcpu s k = some (r, s')) : s' = s ∨ (s.vcpu ≠ 0 ∧ k = some (r, s')) := by
  unfold withVcpu at h
  split_ifs at h with hv
  · cases h; exact .inl rfl
  · exact .inr ⟨hv, h⟩

/-- A sequence of calls, each with its `pData`; `none` if one of them does not return. -/
def kvmDevIoctls (pa : Nat → Nat) (z : Sizes) : Handle → List (Nat × KvmIoctl) → Option Handle
  | s, [] => some s
  | s, (pData, c) :: cs => (kvmDevIoctl pa z s pData c).bind fun r => kvmDevIoctls pa z r.2 cs

@[simp] theorem kvmDevIoctls_nil (pa : Nat → Nat) (z : Sizes) (s : Handle) :
    kvmDevIoctls pa z s [] = some s := rfl

theorem kvmDevIoctls_cons (pa : Nat → Nat) (z : Sizes) (s : Handle) (pData : Nat) (c : KvmIoctl)
    (cs : List (Nat × KvmIoctl)) : kvmDevIoctls pa z s ((pData, c) :: cs) =
      (kvmDevIoctl pa z s pData c).bind fun r => kvmDevIoctls pa z r.2 cs := rfl

/-- The fields of `struct vcpu` that `kvm_dev_close` frees through: the kernel objects the record
points to, and the lengths of its two override tables. -/
structure VcpuRefs where
  virtualApicPage : Nat
  apicAccess : Nat
  vmcs : Nat
  msrs : Nat
  msrCount : Nat
  cpuids : Nat
  cpuidCount : Nat
  mm : Nat
  md : Nat
  kvmVcpu : Nat
  pml4 : Nat

def Vcpu.refs (v : Vcpu) : VcpuRefs :=
  ⟨v.virtualApicPage, v.apicAccess, v.vmcs, v.msrs, v.msrEntries.length, v.cpuids,
    v.cpuidEntries.length, v.mm, v.md, v.kvmVcpu, v.pml4⟩

section Refs

variable (m : Machine)

/-- No exit handler touches the record's kernel objects. -/
theorem runHandler_refs (signal : Bool) (h : ExitHandler) :
    (runHandler signal h m).2.vcpu.refs = m.vcpu.refs := by
  cases h
  case externalInterrupt =>
    dsimp only [runHandler, onVcpu, Machine.setVcpu_vcpu, handleExternalInterrupt]
    split <;> rfl
  case io =>
    dsimp only [runHandler, onVcpu, Machine.setVcpu_vcpu, handleIo]
    split <;> rfl
  case cr =>
    dsimp only [runHandler, handleCr]
    split_ifs <;> rfl
  all_goals rfl

theorem dispatch_refs (signal : Bool) (r : BitVec 32) :
    (dispatch signal r m).2.vcpu.refs = m.vcpu.refs := by
  unfold dispatch
  split
  · exact runHandler_refs m signal _
  · rfl

@[simp] theorem Vcpu.refs_vmcsLoaded (v : Vcpu) (b : Bool) :
    { v with vmcsLoaded := b }.refs = v.refs := rfl

/-- A pass of the run loop keeps the record's kernel objects. -/
theorem runIteration_refs (t : Turn) (l : RunLoop) :
    (runIteration t l).m.vcpu.refs = l.m.vcpu.refs := by
  obtain ⟨_, _, _, _, hk⟩ := kvmRun_vcpu_frame t.switch (prepareEntry l)
  rw [runIteration_m, Machine.releaseVmcs_vcpu, Vcpu.refs_vmcsLoaded, dispatch_refs]
  simp only [readExit_eq, hk, prepareEntry_vcpu]
  rw [injectionScan_snd]
  rfl

/-- What every pass keeps, the whole loop keeps. -/
theorem runLoop_inv (P : Machine → Prop) (hP : ∀ t l, P l.m → P (runIteration t l).m)
    (turns : Nat → Turn) : ∀ n l, P l.m → P (runLoop turns n l).m
  | 0, _, h => h
  | n + 1, l, h => by
    rw [runLoop]
    by_cases hc : l.cont
    · rw [if_pos hc]
      dsimp only
      generalize hl : runIteration (turns l.maxcont) { l with maxcont := l.maxcont + 1 } = l'
      have h1 : P l'.m := by rw [← hl]; exact hP _ _ h
      split_ifs
      · exact h1
      · exact runLoop_inv P hP turns n l' h1
    · rwa [if_neg hc]

theorem kvmRunWrapper_refs (turns : Nat → Turn) :
    (kvmRunWrapper turns m).2.vcpu.refs = m.vcpu.refs := by
  have hs : (runStart m).vcpu.refs = m.vcpu.refs := by
    unfold runStart
    split_ifs <;> rfl
  exact runLoop_inv (fun m' => m'.vcpu.refs = m.vcpu.refs)
    (fun t l h => (runIteration_refs t l).trans h) turns 1000 _ hs

theorem kvmIrqLine_refs (v : Vcpu) (irq : KvmIrqLevel) : (kvmIrqLine v irq).2.refs = v.refs := by
  unfold kvmIrqLine
  dsimp only
  split_ifs <;> rfl

/-- `KVM_SET_USER_MEMORY_REGION` changes kernel memory only. -/
theorem kvmSetUserMemoryRegion_frame {pa : Nat → Nat} {um : UserMemory}
    {mr : KvmUserspaceMemoryRegion} {r : Int} {m' : Machine}
    (h : kvmSetUserMemoryRegion pa um m mr = some (r, m')) : m' = { m with heap := m'.heap } := by
  unfold kvmSetUserMemoryRegion at h
  split_ifs at h
  · obtain ⟨_, _, h⟩ := Option.map_eq_some'.1 h
    cases h
    rfl
  · cases h
    rfl

end Refs

end KvmKext
