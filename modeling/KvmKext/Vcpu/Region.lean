import KvmKext.Vcpu.Memory

/-!
# Mapping a whole region

For a region whose guest address and size are page multiples and which ends below 2^48, the loop
of `kvm_set_user_memory_region` maps page `k` of the region at guest page `gpa / PAGE_SIZE + k`.
These guest pages are distinct, so each keeps the frame its own pass stored, and a guest page
outside the region keeps whatever it had: earlier regions stay mapped.

The loop stops at the first page the pinning service has no frame for and returns `EINVAL`, but
the pages before it stay mapped: a failed call has changed the table
(`kvmSetUserMemoryRegion_hole`).
-/

namespace KvmKext

/-- `& ~(PAGE_SIZE-1)` keeps a page-aligned 64-bit address. -/
theorem and_pageMask_of_aligned {x : Nat} (hx : x % pageSize = 0) (hlt : x < 2 ^ 64) :
    x &&& pageMask = x := by
  obtain ⟨q, rfl⟩ : ∃ q, x = 2 ^ 12 * q :=
    ⟨x / 2 ^ 12, (Nat.mul_div_cancel' (Nat.dvd_of_mod_eq_zero hx)).symm⟩
  have hq : q < 2 ^ 52 := by simp only [Nat.reducePow] at hlt ⊢; omega
  rw [show pageMask = 2 ^ 12 * (2 ^ 52 - 1) from rfl]
  apply Nat.eq_of_testBit_eq
  intro j
  simp only [Nat.testBit_and, Nat.testBit_mul_pow_two, Nat.testBit_two_pow_sub_one]
  by_cases hj : j - 12 < 52
  · simp [hj]; exact fun h _ => h
  · have hb : q.testBit (j - 12) = false :=
      Nat.testBit_lt_two_pow (Nat.lt_of_lt_of_le hq (Nat.pow_le_pow_right (by decide) (by omega)))
    simp [hj, hb]

section Loop

variable {um : UserMemory} {mr : KvmUserspaceMemoryRegion} {pml4 : Nat}

/-- The region's size in pages. -/
def KvmUserspaceMemoryRegion.pages (mr : KvmUserspaceMemoryRegion) : Nat :=
  mr.memorySize.toNat / pageSize

/-- The physical address the pinning service gives page `k` of the region. -/
def KvmUserspaceMemoryRegion.physOf (um : UserMemory) (mr : KvmUserspaceMemoryRegion) (k : Nat) :
    Nat :=
  um.getPhysicalSegment (mr.userspaceAddr + BitVec.ofNat 64 (k * pageSize))

/-- The region's guest pages are distinct pages below 2^48. -/
theorem samePage_region (hg : mr.guestPhysAddr.toNat % pageSize = 0)
    (hb : mr.guestPhysAddr.toNat + mr.memorySize.toNat ≤ 2 ^ 48) {j k : Nat}
    (hj : j < mr.pages) (hk : k < mr.pages) :
    SamePage (mr.guestPhysAddr.toNat + j * pageSize) (mr.guestPhysAddr.toNat + k * pageSize) ↔
      j = k := by
  have hn : mr.pages * pageSize ≤ mr.memorySize.toNat := Nat.div_mul_le_self _ _
  -- both page numbers lie below 2^36, so `SamePage` compares them whole
  have hlt : ∀ i < mr.pages, mr.guestPhysAddr.toNat / pageSize + i < 2 ^ 36 := fun i hi => by
    have := Nat.div_mul_le_self mr.guestPhysAddr.toNat pageSize
    simp only [pageSize] at *
    omega
  rw [SamePage, Nat.add_mul_div_right _ _ (by decide), Nat.add_mul_div_right _ _ (by decide),
    Nat.mod_eq_of_lt (hlt j hj), Nat.mod_eq_of_lt (hlt k hk)]
  omega

/-- The loop from page `j` up to page `e`, where it stops: at the region's end it returns 0, and at
a page `e` the pinning service gives no frame for it returns `EINVAL`. It keeps the tree, gives
each page `k` from `j` below `e` the frame of its own pass, and changes no page outside them. -/
theorem mapRegion_upTo (pa : Nat → Nat) (hg : mr.guestPhysAddr.toNat % pageSize = 0)
    (hs : mr.memorySize.toNat % pageSize = 0)
    (hb : mr.guestPhysAddr.toNat + mr.memorySize.toNat ≤ 2 ^ 48) {e : Nat} (he : e ≤ mr.pages)
    (hphys : ∀ k < e, mr.physOf um k ≠ 0) (hend : e < mr.pages → mr.physOf um e = 0) :
    ∀ {fuel j : Nat} {h : Heap} {lbl : Nat → List Nat}, TreeShape h pml4 lbl → j ≤ e →
      e - j < fuel →
      ∃ h', mapRegion pa um mr pml4 fuel (BitVec.ofNat 64 (j * pageSize)) h =
          some (if e = mr.pages then 0 else einval, h') ∧
        (∃ lbl', TreeShape h' pml4 lbl') ∧
        (∀ k, j ≤ k → k < e →
          eptTranslate h' pml4 (mr.guestPhysAddr.toNat + k * pageSize) =
            mr.physOf um k &&& pageMask) ∧
        ∀ a, (∀ k, j ≤ k → k < e → ¬SamePage a (mr.guestPhysAddr.toNat + k * pageSize)) →
          eptTranslate h' pml4 a = eptTranslate h pml4 a
  | 0, _, _, _, _, _, hf => absurd hf (Nat.not_lt_zero _)
  | fuel + 1, j, h, lbl, ht, hj, hf => by
    have hsize : mr.memorySize.toNat = mr.pages * pageSize := by
      unfold KvmUserspaceMemoryRegion.pages pageSize at *; omega
    have hoff : (BitVec.ofNat 64 (j * pageSize)).toNat = j * pageSize := by
      rw [BitVec.toNat_ofNat]; apply Nat.mod_eq_of_lt; unfold pageSize at *; omega
    have hlt : BitVec.ofNat 64 (j * pageSize) < mr.memorySize ↔ j < mr.pages := by
      rw [BitVec.lt_def, hoff, hsize]; unfold pageSize; omega
    by_cases hje : j = e
    · subst hje
      refine ⟨h, ?_, ⟨lbl, ht⟩, fun k hk hk' => absurd hk' (by omega), fun _ _ => rfl⟩
      rw [mapRegion]
      by_cases hjp : j = mr.pages
      · rw [if_neg (by rw [hlt]; omega), if_pos hjp]
      · have hjp' : j < mr.pages := by omega
        rw [if_pos (hlt.2 hjp'), if_neg hjp]
        exact if_neg (not_not.2 (hend hjp'))
    have hjn : j < e := by omega
    have hva : (mr.guestPhysAddr + BitVec.ofNat 64 (j * pageSize)).toNat =
        mr.guestPhysAddr.toNat + j * pageSize := by
      rw [BitVec.toNat_add, hoff]; apply Nat.mod_eq_of_lt; unfold pageSize at *; omega
    have hnext : BitVec.ofNat 64 (j * pageSize) + BitVec.ofNat 64 pageSize =
        BitVec.ofNat 64 ((j + 1) * pageSize) := by
      rw [BitVec.ofNat_add_ofNat, Nat.succ_mul]
    obtain ⟨⟨lbl1, ht1⟩, htr1⟩ :=
      eptAddPage_spec pa ht (mr.guestPhysAddr.toNat + j * pageSize) (mr.physOf um j)
    obtain ⟨h', hrun, htree, hin, hout⟩ :=
      mapRegion_upTo pa hg hs hb he hphys hend ht1 (j := j + 1) (by omega)
        (show e - (j + 1) < fuel by omega)
    refine ⟨h', ?_, htree, fun k hk hk' => ?_, fun a ha => ?_⟩
    · rw [mapRegion, if_pos (hlt.2 (by omega))]
      dsimp only
      rw [if_pos (show um.getPhysicalSegment _ ≠ 0 from hphys j hjn), hnext, hva]
      exact hrun
    · rcases Nat.eq_or_lt_of_le hk with rfl | hk
      · rw [hout _ fun k' hk1 hk2 hs' => by
            have := (samePage_region hg hb (by omega) (by omega)).1 hs'; omega, htr1,
          if_pos ((samePage_region hg hb (by omega) (by omega)).2 rfl)]
      · exact hin k hk hk'
    · rw [hout a fun k hk1 hk2 => ha k (by omega) hk2, htr1,
        if_neg (ha j le_rfl hjn)]

/-- The loop from page `j` on, with more passes left than pages: it returns 0, keeps the tree,
gives each page `k ≥ j` the frame of its own pass, and changes no page outside them. -/
theorem mapRegion_spec (pa : Nat → Nat) (hg : mr.guestPhysAddr.toNat % pageSize = 0)
    (hs : mr.memorySize.toNat % pageSize = 0)
    (hb : mr.guestPhysAddr.toNat + mr.memorySize.toNat ≤ 2 ^ 48)
    (hphys : ∀ k < mr.pages, mr.physOf um k ≠ 0) :
    ∀ {fuel j : Nat} {h : Heap} {lbl : Nat → List Nat}, TreeShape h pml4 lbl → j ≤ mr.pages →
      mr.pages - j < fuel →
      ∃ h', mapRegion pa um mr pml4 fuel (BitVec.ofNat 64 (j * pageSize)) h = some (0, h') ∧
        (∃ lbl', TreeShape h' pml4 lbl') ∧
        (∀ k, j ≤ k → k < mr.pages →
          eptTranslate h' pml4 (mr.guestPhysAddr.toNat + k * pageSize) =
            mr.physOf um k &&& pageMask) ∧
        ∀ a, (∀ k, j ≤ k → k < mr.pages → ¬SamePage a (mr.guestPhysAddr.toNat + k * pageSize)) →
          eptTranslate h' pml4 a = eptTranslate h pml4 a := by
  intro fuel j h lbl ht hj hf
  obtain ⟨h', hrun, hrest⟩ := mapRegion_upTo pa hg hs hb le_rfl hphys (absurd · (lt_irrefl _)) ht hj hf
  exact ⟨h', by rwa [if_pos rfl] at hrun, hrest⟩

end Loop

/-- Page `k` of a page-aligned user range has a page-aligned physical address. -/
theorem physOf_aligned (um : UserMemory) {mr : KvmUserspaceMemoryRegion}
    (hu : mr.userspaceAddr.toNat % pageSize = 0) (k : Nat) : mr.physOf um k % pageSize = 0 := by
  have hv : (mr.userspaceAddr + BitVec.ofNat 64 (k * pageSize)).toNat % pageSize = 0 := by
    rw [BitVec.toNat_add, BitVec.toNat_ofNat]
    unfold pageSize at *
    omega
  unfold KvmUserspaceMemoryRegion.physOf UserMemory.getPhysicalSegment
  split
  · rw [Nat.add_mod, Nat.mul_mod_left, hv]; rfl
  · rfl

theorem kvmSetUserMemoryRegion_maps (pa : Nat → Nat) {m : Machine} {lbl : Nat → List Nat}
    (ht : TreeShape m.heap m.vcpu.pml4 lbl) {um : UserMemory} (hp : um.prepare = true)
    {mr : KvmUserspaceMemoryRegion} (hu : mr.userspaceAddr.toNat % pageSize = 0)
    (hg : mr.guestPhysAddr.toNat % pageSize = 0) (hs : mr.memorySize.toNat % pageSize = 0)
    (hb : mr.guestPhysAddr.toNat + mr.memorySize.toNat ≤ 2 ^ 48)
    (hphys : ∀ k < mr.pages, mr.physOf um k ≠ 0 ∧ mr.physOf um k < 2 ^ 64) :
    ∃ m1, kvmSetUserMemoryRegion pa um m mr = some (0, m1) ∧
      (∃ lbl', TreeShape m1.heap m1.vcpu.pml4 lbl') ∧
      (∀ k < mr.pages, eptTranslate m1.heap m1.vcpu.pml4 (mr.guestPhysAddr.toNat + k * pageSize) =
        mr.physOf um k) ∧
      ∀ a < 2 ^ 48, a < mr.guestPhysAddr.toNat ∨ mr.guestPhysAddr.toNat + mr.memorySize.toNat ≤ a →
        eptTranslate m1.heap m1.vcpu.pml4 a = eptTranslate m.heap m.vcpu.pml4 a := by
  have hfuel : mr.pages - 0 < regionFuel := by
    unfold KvmUserspaceMemoryRegion.pages regionFuel pageSize at *; omega
  obtain ⟨h', hrun, htree, hin, hout⟩ :=
    mapRegion_spec pa hg hs hb (fun k hk => (hphys k hk).1) ht (Nat.zero_le _) hfuel
  refine ⟨{ m with heap := h' }, ?_, htree, fun k hk => ?_, fun a ha hr => hout a ?_⟩
  · rw [kvmSetUserMemoryRegion, if_pos hp]
    simp only [Nat.zero_mul] at hrun
    rw [show (0 : BitVec 64) = BitVec.ofNat 64 0 from rfl, hrun]
    rfl
  · rw [hin k (Nat.zero_le _) hk, and_pageMask_of_aligned (physOf_aligned um hu k) (hphys k hk).2]
  · intro k _ hk hsame
    have hn : mr.pages * pageSize ≤ mr.memorySize.toNat := Nat.div_mul_le_self _ _
    unfold SamePage at hsame
    unfold KvmUserspaceMemoryRegion.pages pageSize at *
    omega


/-- Two pages at guest 2 MiB, backed by the user pages at 0x10000, mapped right after
`KVM_CREATE_VM`. -/
theorem kvmSetUserMemoryRegion_maps_twoPages :
    let m := (kvmCreateVm id pageSize ⟨fun _ _ => (0, 0, 0, 0), fun _ => 0, fun _ => 0⟩ .initial).2
    let um : UserMemory := ⟨true, fun n => some (n + 1)⟩
    let mr : KvmUserspaceMemoryRegion := ⟨0x200000, 0x2000, 0x10000⟩
    ∃ lbl, TreeShape m.heap m.vcpu.pml4 lbl ∧ um.prepare = true ∧
      mr.userspaceAddr.toNat % pageSize = 0 ∧ mr.guestPhysAddr.toNat % pageSize = 0 ∧
      mr.memorySize.toNat % pageSize = 0 ∧ mr.guestPhysAddr.toNat + mr.memorySize.toNat ≤ 2 ^ 48 ∧
      (∀ k < mr.pages, mr.physOf um k ≠ 0 ∧ mr.physOf um k < 2 ^ 64) ∧
      ∃ m1, kvmSetUserMemoryRegion id um m mr = some (0, m1) ∧
        (∃ lbl', TreeShape m1.heap m1.vcpu.pml4 lbl') ∧
        (∀ k < mr.pages, eptTranslate m1.heap m1.vcpu.pml4 (mr.guestPhysAddr.toNat + k * pageSize) =
          mr.physOf um k) ∧
        ∀ a < 2 ^ 48, a < mr.guestPhysAddr.toNat ∨ mr.guestPhysAddr.toNat + mr.memorySize.toNat ≤ a →
          eptTranslate m1.heap m1.vcpu.pml4 a = eptTranslate m.heap m.vcpu.pml4 a := by
  intro m um mr
  obtain ⟨⟨lbl, ht⟩, -⟩ :=
    kvmCreateVm_ept id pageSize ⟨fun _ _ => (0, 0, 0, 0), fun _ => 0, fun _ => 0⟩ .initial
  have hphys : ∀ k < mr.pages, mr.physOf um k ≠ 0 ∧ mr.physOf um k < 2 ^ 64 := by decide
  exact ⟨lbl, ht, rfl, by decide, by decide, by decide, by decide, hphys,
    kvmSetUserMemoryRegion_maps id ht rfl (by decide) (by decide) (by decide) (by decide) hphys⟩

end KvmKext
