import KvmKext.Vcpu.Init
import KvmKext.Ept.Hardware

/-!
# Guest memory regions

`KVM_SET_USER_MEMORY_REGION` wires the caller's range with an `IOMemoryDescriptor` and maps it
page by page with `ept_add_page`. The code checks no alignment and no bound. The physical address
of an unaligned user address keeps its page offset, which lands in the leaf entry's permission and
memory-type bits. A guest range past 2^48 folds onto low guest pages through the 9-bit table
indices.
-/

namespace KvmKext

/-- `EINVAL`. -/
def einval : Int := 22

/-- `struct kvm_userspace_memory_region`: the fields the kext reads (`slot` and `flags` are only
printed). -/
structure KvmUserspaceMemoryRegion where
  guestPhysAddr : BitVec 64
  memorySize : BitVec 64
  userspaceAddr : BitVec 64

/-- Modelled from the IOKit contract: the calling task's memory as an `IOMemoryDescriptor` over
it sees it. `prepare` says whether wiring the range succeeds; `frame` is the physical frame number
of a resident user page. -/
structure UserMemory where
  prepare : Bool
  frame : Nat → Option Nat

/-- Modelled from the IOKit contract: `getPhysicalSegment`, the physical address of the user byte
at `va`, and 0 when it has none. -/
def UserMemory.getPhysicalSegment (um : UserMemory) (va : BitVec 64) : Nat :=
  match um.frame (va.toNat / pageSize) with
  | some pfn => pfn * pageSize + va.toNat % pageSize
  | none => 0

/-- The loop of `kvm_set_user_memory_region` from offset `off`, with `fuel` passes left. `none`
means the loop never ends: a size within a page of 2^64 makes the 64-bit offset wrap. -/
def mapRegion (pa : Nat → Nat) (um : UserMemory) (mr : KvmUserspaceMemoryRegion) (pml4 : Nat) :
    Nat → BitVec 64 → Heap → Option (Int × Heap)
  | 0, _, _ => none
  | fuel + 1, off, h =>
    if off < mr.memorySize then
      let phys := um.getPhysicalSegment (mr.userspaceAddr + off)
      if phys ≠ 0 then
        mapRegion pa um mr pml4 fuel (off + BitVec.ofNat 64 pageSize)
          (eptAddPage pa h pml4 (mr.guestPhysAddr + off).toNat phys)
      else some (einval, h)
    else some (0, h)

/-- Passes enough for every offset below 2^64, and one more to leave the loop. -/
def regionFuel : Nat := 2 ^ 52 + 1

/-- `kvm_set_user_memory_region`: `EINVAL` when wiring fails, otherwise the loop. -/
def kvmSetUserMemoryRegion (pa : Nat → Nat) (um : UserMemory) (m : Machine)
    (mr : KvmUserspaceMemoryRegion) : Option (Int × Machine) :=
  if um.prepare then
    (mapRegion pa um mr m.vcpu.pml4 regionFuel 0 m.heap).map fun r => (r.1, { m with heap := r.2 })
  else some (einval, m)

/-- A well-formed leaf entry: a page-aligned frame address with exactly `EPT_DEFAULTS` and
`EPT_CACHE_WRITEBACK` in the bits below it. -/
def LeafWellFormed (e : Nat) : Prop := e % pageSize = eptDefaults ||| eptCacheWriteback

instance (e : Nat) : Decidable (LeafWellFormed e) := inferInstanceAs (Decidable (_ = _))

/-- A region of one page whose first byte is resident maps that page and returns 0. -/
theorem mapRegion_page {pa : Nat → Nat} {um : UserMemory} {mr : KvmUserspaceMemoryRegion}
    {pml4 : Nat} (hs : mr.memorySize = BitVec.ofNat 64 pageSize)
    (hp : um.getPhysicalSegment mr.userspaceAddr ≠ 0) (n : Nat) (h : Heap) :
    mapRegion pa um mr pml4 (n + 2) 0 h =
      some (0, eptAddPage pa h pml4 mr.guestPhysAddr.toNat (um.getPhysicalSegment mr.userspaceAddr)) := by
  simp [mapRegion, hs, hp, pageSize]

/-- Bits below the page size OR-ed into a value stay below it. -/
theorem or_mod_pageSize {x c : Nat} (hc : c < pageSize) : (x ||| c) % pageSize = x % pageSize ||| c := by
  apply Nat.eq_of_testBit_eq
  intro i
  rw [show pageSize = 2 ^ 12 from rfl] at hc ⊢
  simp only [Nat.testBit_mod_two_pow, Nat.testBit_or]
  by_cases hi : i < 12
  · simp [hi]
  · have hci : c < 2 ^ i := lt_of_lt_of_le hc (Nat.pow_le_pow_right (by decide) (by omega))
    simp [hi, Nat.testBit_lt_two_pow hci]

/-- The walk of the page `ept_add_page` just mapped ends at the entry it stored. -/
theorem softwareWalk_eptAddPage {pa : Nat → Nat} {h : Heap} {pml4 : Nat} {lbl : Nat → List Nat}
    (ht : TreeShape h pml4 lbl) (va phys : Nat) :
    softwareWalk (eptAddPage pa h pml4 va phys) pml4 va =
      .leaf (phys ||| eptDefaults ||| eptCacheWriteback) := by
  obtain ⟨h3, -, n3, hadd⟩ := eptAddPage_eq pa ht va phys
  have hlow : tableIdx 3 va < pageOffset := tableIdx_lt 3 va
  have hz : ∀ k ≤ 3, walkNode h3 pml4 k va ≠ 0 := fun k hk hk0 =>
    n3 (walkNode_eq_zero_of_le _ _ _ hk0 hk)
  rw [hadd]
  simp only [softwareWalk, walkNode_write_low _ _ _ _ _ hlow, hz 1 (by decide), hz 2 (by decide),
    n3, if_false, Heap.write_mem, and_self, if_true]

/-- One resident page mapped into a tree: the call returns 0, the leaf of the guest page holds the
user byte's physical address with the defaults, and every other page keeps its translation. -/
theorem kvmSetUserMemoryRegion_page (pa : Nat → Nat) {m : Machine} {lbl : Nat → List Nat}
    (ht : TreeShape m.heap m.vcpu.pml4 lbl) {um : UserMemory} (hp : um.prepare = true)
    {mr : KvmUserspaceMemoryRegion} (hs : mr.memorySize = BitVec.ofNat 64 pageSize) {pfn : Nat}
    (hf : um.frame (mr.userspaceAddr.toNat / pageSize) = some pfn) (hpfn : 0 < pfn) :
    ∃ m1, kvmSetUserMemoryRegion pa um m mr = some (0, m1) ∧
      softwareWalk m1.heap m1.vcpu.pml4 mr.guestPhysAddr.toNat =
        .leaf ((pfn * pageSize + mr.userspaceAddr.toNat % pageSize) ||| eptDefaults |||
          eptCacheWriteback) ∧
      ∀ a, eptTranslate m1.heap m1.vcpu.pml4 a =
        if SamePage a mr.guestPhysAddr.toNat then
          (pfn * pageSize + mr.userspaceAddr.toNat % pageSize) &&& pageMask
        else eptTranslate m.heap m.vcpu.pml4 a := by
  have hphys : um.getPhysicalSegment mr.userspaceAddr =
      pfn * pageSize + mr.userspaceAddr.toNat % pageSize := by
    simp [UserMemory.getPhysicalSegment, hf]
  have hne : pfn * pageSize + mr.userspaceAddr.toNat % pageSize ≠ 0 := by
    have := Nat.mul_pos hpfn (show 0 < pageSize by decide)
    omega
  generalize pfn * pageSize + mr.userspaceAddr.toNat % pageSize = phys at hphys hne ⊢
  refine ⟨{ m with heap := eptAddPage pa m.heap m.vcpu.pml4 mr.guestPhysAddr.toNat phys }, ?_,
    softwareWalk_eptAddPage ht _ _, (eptAddPage_spec pa ht _ _).2⟩
  rw [kvmSetUserMemoryRegion, if_pos hp, show regionFuel = 2 ^ 52 - 1 + 2 from rfl,
    mapRegion_page hs (hphys ▸ hne), hphys]
  rfl

section CreateVm

variable (pa : Nat → Nat) (sizeofVcpu : Nat) (host : Host) (h : Heap)

/-- After `KVM_CREATE_VM` the table is a tree that maps only the APIC-access page at guest
0xfee00000. -/
theorem kvmCreateVm_ept :
    (∃ lbl, TreeShape (kvmCreateVm pa sizeofVcpu host h).2.heap
      (kvmCreateVm pa sizeofVcpu host h).2.vcpu.pml4 lbl) ∧
    ∀ a, eptTranslate (kvmCreateVm pa sizeofVcpu host h).2.heap
      (kvmCreateVm pa sizeofVcpu host h).2.vcpu.pml4 a =
        if SamePage a 0xfee00000 then
          pa (kvmCreateVm pa sizeofVcpu host h).2.vcpu.apicAccess &&& pageMask
        else 0 := by
  simp only [kvmCreateVm, Machine.releaseVmcs_heap, Machine.releaseVmcs_vcpu, vcpuInit_heap,
    vcpuInit_vcpu, Machine.loadVmcs_heap, Machine.loadVmcs_vcpu, Machine.vmcsClear_heap,
    Machine.vmcsClear_vcpu, allocateVmcs]
  have ht0 := treeShape_eptInit (ioCallocAligned h sizeofVcpu).2
  have ht1 := ht0.alloc pageSize
  have ht2 := ht1.alloc vcpuSize
  have ht3 := ht2.alloc pageSize
  obtain ⟨hts, htr⟩ := eptAddPage_spec pa (ht3.alloc pageSize) 0xfee00000
    (pa (ioCallocAligned (ioCallocAligned _ pageSize).2 pageSize).1)
  refine ⟨hts, fun a => ?_⟩
  rw [htr a]
  split_ifs
  · rfl
  · rw [ht3.eptTranslate_ioCallocAligned, ht2.eptTranslate_ioCallocAligned,
      ht1.eptTranslate_ioCallocAligned, ht0.eptTranslate_ioCallocAligned, eptTranslate_eptInit]

theorem kvmSetUserMemoryRegion_unchecked (um : UserMemory) (hp : um.prepare = true)
    (mr : KvmUserspaceMemoryRegion) (hs : mr.memorySize = BitVec.ofNat 64 pageSize) {pfn : Nat}
    (hf : um.frame (mr.userspaceAddr.toNat / pageSize) = some pfn) (hpfn : 0 < pfn) :
    ∃ m1, kvmSetUserMemoryRegion pa um (kvmCreateVm pa sizeofVcpu host h).2 mr = some (0, m1) ∧
      (∃ e, softwareWalk m1.heap m1.vcpu.pml4 mr.guestPhysAddr.toNat = .leaf e ∧
        (LeafWellFormed e ↔ (mr.userspaceAddr.toNat % pageSize ||| eptDefaults |||
          eptCacheWriteback) = eptDefaults ||| eptCacheWriteback)) ∧
      eptTranslate m1.heap m1.vcpu.pml4 (mr.guestPhysAddr.toNat % 2 ^ 48) =
        (pfn * pageSize + mr.userspaceAddr.toNat % pageSize) &&& pageMask := by
  obtain ⟨⟨lbl, ht⟩, -⟩ := kvmCreateVm_ept pa sizeofVcpu host h
  obtain ⟨m1, h1, h2, h3⟩ := kvmSetUserMemoryRegion_page pa ht hp hs hf hpfn
  have hmod : (pfn * pageSize + mr.userspaceAddr.toNat % pageSize) % pageSize =
      mr.userspaceAddr.toNat % pageSize := by
    simp only [pageSize]
    omega
  refine ⟨m1, h1, ⟨_, h2, ?_⟩, by rw [h3, if_pos (by unfold SamePage pageSize; omega)]⟩
  rw [LeafWellFormed, or_mod_pageSize (by decide), or_mod_pageSize (by decide), hmod]

end CreateVm

/-- One page at guest 2^48 backed by the user address 0x1040, whose offset sets bit 6 (IPAT) in
the leaf. -/
theorem kvmSetUserMemoryRegion_unchecked_ipat :
    let um : UserMemory := ⟨true, fun _ => some 1⟩
    let mr : KvmUserspaceMemoryRegion := ⟨0x1000000000000, 4096, 0x1040⟩
    um.prepare = true ∧ mr.memorySize = BitVec.ofNat 64 pageSize ∧
    um.frame (mr.userspaceAddr.toNat / pageSize) = some 1 ∧ 0 < 1 ∧
    ∃ m1, kvmSetUserMemoryRegion id um
        (kvmCreateVm id pageSize ⟨fun _ _ => (0, 0, 0, 0), fun _ => 0, fun _ => 0⟩ .initial).2
        mr = some (0, m1) ∧
      (∃ e, softwareWalk m1.heap m1.vcpu.pml4 mr.guestPhysAddr.toNat = .leaf e ∧
        (LeafWellFormed e ↔ (mr.userspaceAddr.toNat % pageSize ||| eptDefaults |||
          eptCacheWriteback) = eptDefaults ||| eptCacheWriteback)) ∧
      eptTranslate m1.heap m1.vcpu.pml4 (mr.guestPhysAddr.toNat % 2 ^ 48) =
        (1 * pageSize + mr.userspaceAddr.toNat % pageSize) &&& pageMask :=
  ⟨rfl, rfl, rfl, by decide, kvmSetUserMemoryRegion_unchecked id pageSize _ .initial _ rfl _ rfl rfl
    (by decide)⟩

end KvmKext
