import KvmKext.Ept.Mapping

/-!
# The processor's walk agrees with the software walk

Every root, pdpt and pd node keeps its two halves in step: entry `i` is 0 when the host pointer
at `PAGE_OFFSET + i` is NULL, and `__pa(child) | EPT_DEFAULTS` otherwise. Nodes are page-aligned
and `__pa` is invertible on kernel memory, so the walk the processor makes through physical
frames meets the nodes of the software walk and reads the same leaf entry.
-/

namespace KvmKext

/-- The kernel's physical map: `__pa` keeps the offset within a page, and `kv` undoes it. -/
structure PhysMap where
  pa : Nat → Nat
  kv : Nat → Nat
  kv_pa : ∀ v, kv (pa v) = v
  pa_offset : ∀ v, pa v % pageSize = v % pageSize

/-- The two halves of every root, pdpt and pd node on a walk agree. -/
def EntriesAgree (pa : Nat → Nat) (h : Heap) (pml4 : Nat) : Prop :=
  ∀ k va i, k < 3 → walkNode h pml4 k va ≠ 0 → i < 512 →
    h.mem (walkNode h pml4 k va) i =
      if h.mem (walkNode h pml4 k va) (pageOffset + i) = 0 then 0
      else pa (h.mem (walkNode h pml4 k va) (pageOffset + i)) ||| eptDefaults

/-- No block is referenced from two host-pointer slots of root, pdpt and pd nodes. -/
def NoSharedChild (h : Heap) (pml4 : Nat) : Prop :=
  ∀ k k' va va' i i', k < 3 → k' < 3 → walkNode h pml4 k va ≠ 0 → walkNode h pml4 k' va' ≠ 0 →
    i < 512 → i' < 512 → h.mem (walkNode h pml4 k va) (pageOffset + i) ≠ 0 →
    h.mem (walkNode h pml4 k va) (pageOffset + i) = h.mem (walkNode h pml4 k' va') (pageOffset + i') →
    walkNode h pml4 k va = walkNode h pml4 k' va' ∧ i = i'

/-- Every node on a walk is page-aligned. -/
def NodesAligned (h : Heap) (pml4 : Nat) : Prop :=
  ∀ k va, k ≤ 3 → walkNode h pml4 k va % pageSize = 0

theorem TreeShape.noSharedChild {h : Heap} {pml4 : Nat} {lbl : Nat → List Nat}
    (ht : TreeShape h pml4 lbl) : NoSharedChild h pml4 := by
  intro k k' va va' i i' hk hk' hn hn' hi hi' hc he
  have h1 := (ht.child k va i hk hn hi hc).2
  have h2 := (ht.child k' va' i' hk' hn' hi' (he ▸ hc)).2
  rw [he, h2] at h1
  have hl : k = k' := by simpa [pathOf] using congrArg List.length h1.symm
  obtain ⟨hp, hs⟩ := List.append_inj h1.symm (by simp [pathOf, hl])
  obtain ⟨rfl, hsame⟩ := pathOf_eq_iff.mp hp
  exact ⟨walkNode_congr h pml4 hsame, by simpa using hs⟩

section invariants

variable {pa : Nat → Nat} {h h' : Heap} {pml4 : Nat} {lbl : Nat → List Nat} {k va size : Nat}

theorem EntriesAgree.allocChild (ht : TreeShape h pml4 lbl) (hk : k < 3)
    (hn : walkNode h pml4 k va ≠ 0) (he : EntriesAgree pa h pml4) :
    EntriesAgree pa (allocChild pa h (walkNode h pml4 k va) (tableIdx k va) size).2 pml4 := by
  by_cases hc : h.mem (walkNode h pml4 k va) (pageOffset + tableIdx k va) = 0
  swap
  · rwa [allocChild_of_ne hc]
  intro j a i hj hm hi
  obtain ⟨hnlt, -⟩ := ht.node (by omega) hn
  have hoff : ∀ t, pageOffset + t ≠ tableIdx k va := fun t => by
    have := tableIdx_lt k va; unfold pageOffset; omega
  have hi' : i ≠ pageOffset + tableIdx k va := by unfold pageOffset at *; omega
  rw [walkNode_allocChild_fresh ht hk hn hc (by omega)] at hm ⊢
  simp only [allocChild_fresh_mem hc]
  by_cases hA : k < j ∧ SamePath (k + 1) a va
  · rw [if_pos hA] at hm ⊢
    have hjk : j = k + 1 := by
      by_contra hjk
      exact hm (if_neg hjk)
    simp [hjk, hnlt.ne']
  rw [if_neg hA] at hm ⊢
  obtain ⟨hmlt, -⟩ := ht.node (by omega) hm
  by_cases hmn : walkNode h pml4 j a = walkNode h pml4 k va ∧ i = tableIdx k va
  · obtain ⟨hmn, rfl⟩ := hmn
    simp [hmn, Nat.pos_iff_ne_zero.mp h.brk_pos, pageOffset]
  have hmn' : ¬(walkNode h pml4 j a = walkNode h pml4 k va ∧
      pageOffset + i = pageOffset + tableIdx k va) := fun ⟨h1, h2⟩ => hmn ⟨h1, by omega⟩
  simp only [hmn, hmn', hoff, hi', hmlt.ne, and_false, if_false]
  exact he j a i hj hm hi

theorem NodesAligned.allocChild (ht : TreeShape h pml4 lbl) (hk : k < 3)
    (hn : walkNode h pml4 k va ≠ 0) (hal : NodesAligned h pml4) :
    NodesAligned (allocChild pa h (walkNode h pml4 k va) (tableIdx k va) size).2 pml4 := by
  by_cases hc : h.mem (walkNode h pml4 k va) (pageOffset + tableIdx k va) = 0
  swap
  · rwa [allocChild_of_ne hc]
  intro j a hj
  rw [walkNode_allocChild_fresh ht hk hn hc hj]
  split_ifs
  · exact h.brk_aligned
  · rfl
  · exact hal j a hj

/-- The halves agree and nodes stay aligned while children are linked. -/
theorem Grows.hardware (hg : Grows pa pml4 h h') (ht : TreeShape h pml4 lbl)
    (he : EntriesAgree pa h pml4) (hal : NodesAligned h pml4) :
    EntriesAgree pa h' pml4 ∧ NodesAligned h' pml4 := by
  induction hg generalizing lbl with
  | refl => exact ⟨he, hal⟩
  | step size hk hn _ ih =>
    obtain ⟨-, -, ⟨lbl1, ht1⟩, -⟩ := allocChild_spec ht hk hn (Prod.mk.eta (p := allocChild pa _ _ _ size)).symm
    exact ih ht1 (he.allocChild ht hk hn) (hal.allocChild ht hk hn)

/-- The leaf store touches a pt node, which no agreement is about. -/
theorem EntriesAgree.write_leaf (ht : TreeShape h pml4 lbl) (he : EntriesAgree pa h pml4)
    {i v : Nat} (hi : i < pageOffset) :
    EntriesAgree pa (h.write (walkNode h pml4 3 va) i v) pml4 := by
  intro j a t hj hm ht'
  rw [walkNode_write_low h pml4 _ i v hi] at hm ⊢
  have hne : walkNode h pml4 j a ≠ walkNode h pml4 3 va := fun heq => by
    have := (ht.node_inj (by omega) le_rfl hm heq).1; omega
  simp only [Heap.write_mem, hne, false_and, if_false]
  exact he j a t hj hm ht'

theorem eptAddPage_hardware (ht : TreeShape h pml4 lbl) (he : EntriesAgree pa h pml4)
    (hal : NodesAligned h pml4) (va phys : Nat) :
    EntriesAgree pa (eptAddPage pa h pml4 va phys) pml4 ∧
      NodesAligned (eptAddPage pa h pml4 va phys) pml4 := by
  obtain ⟨h3, hg, n3, hadd⟩ := eptAddPage_eq pa ht va phys
  obtain ⟨⟨lbl3, ht3⟩, -⟩ := hg.tree ht
  obtain ⟨he3, hal3⟩ := hg.hardware ht he hal
  have hlow : tableIdx 3 va < pageOffset := tableIdx_lt 3 va
  rw [hadd]
  exact ⟨he3.write_leaf ht3 hlow,
    fun j a hj => (walkNode_write_low h3 pml4 _ _ _ hlow j a).symm ▸ hal3 j a hj⟩

end invariants

theorem entriesAgree_eptInit (pa : Nat → Nat) (h : Heap) :
    EntriesAgree pa (eptInit h).2 (eptInit h).1 := by
  intro k va i _ hn _
  rcases Nat.eq_zero_or_pos k with rfl | hk
  · simp [eptInit]
  · exact absurd (walkNode_eptInit h hk va) hn

theorem nodesAligned_eptInit (h : Heap) : NodesAligned (eptInit h).2 (eptInit h).1 := by
  intro k va _
  rcases Nat.eq_zero_or_pos k with rfl | hk
  · exact h.brk_aligned
  · rw [walkNode_eptInit h hk va]; rfl

/-- Where a walk ends: at the depth whose table is missing, or at a leaf entry. -/
inductive WalkEnd
  | missing (depth : Nat)
  | leaf (entry : Nat)
  deriving DecidableEq, Repr

/-- The walk `ept_translate` makes through the host pointers. -/
def softwareWalk (h : Heap) (pml4 va : Nat) : WalkEnd :=
  if walkNode h pml4 1 va = 0 then .missing 1
  else if walkNode h pml4 2 va = 0 then .missing 2
  else if walkNode h pml4 3 va = 0 then .missing 3
  else .leaf (h.mem (walkNode h pml4 3 va) (tableIdx 3 va))

/-- `ept_translate` masks the leaf entry the software walk reads, and is 0 where it stops. -/
theorem eptTranslate_softwareWalk (h : Heap) {pml4 : Nat} (hroot : pml4 ≠ 0) (va : Nat) :
    eptTranslate h pml4 va = match softwareWalk h pml4 va with
      | .missing _ => 0
      | .leaf e => e &&& pageMask := by
  have h13 := walkNode_eq_zero_of_le h pml4 va (k := 1) (j := 3)
  have h23 := walkNode_eq_zero_of_le h pml4 va (k := 2) (j := 3)
  rw [eptTranslate_eq h hroot]
  unfold softwareWalk
  split_ifs <;> simp_all

/-- The frame an EPT entry or `EPT_POINTER` refers to: bits 12 and up. -/
def eptFrame (e : Nat) : Nat := e / pageSize * pageSize

/-- The frame of the table the processor reads at depth `k`; `none` once it met an entry with
none of the read, write and execute bits set. -/
def hwTable (pm : PhysMap) (h : Heap) (eptp va : Nat) : Nat → Option Nat
  | 0 => some (eptFrame eptp)
  | k + 1 => (hwTable pm h eptp va k).bind fun f =>
    let e := h.mem (pm.kv f) (tableIdx k va)
    if e &&& 7 = 0 then none else some (eptFrame e)

/-- The processor's walk of the EPT for the guest-physical address `va`. -/
def hardwareWalk (pm : PhysMap) (h : Heap) (eptp va : Nat) : WalkEnd :=
  match hwTable pm h eptp va 1, hwTable pm h eptp va 2, hwTable pm h eptp va 3 with
  | none, _, _ => .missing 1
  | some _, none, _ => .missing 2
  | some _, some _, none => .missing 3
  | some _, some _, some f => .leaf (h.mem (pm.kv f) (tableIdx 3 va))

theorem or_eq_add_of_aligned {x c : Nat} (hx : x % pageSize = 0) (hc : c < pageSize) :
    x ||| c = x + c := by
  obtain ⟨q, rfl⟩ : ∃ q, x = 2 ^ 12 * q :=
    ⟨x / 2 ^ 12, (Nat.mul_div_cancel' (Nat.dvd_of_mod_eq_zero hx)).symm⟩
  exact (Nat.mul_add_lt_is_or hc q).symm

theorem eptFrame_or {x c : Nat} (hx : x % pageSize = 0) (hc : c < pageSize) :
    eptFrame (x ||| c) = x := by
  rw [or_eq_add_of_aligned hx hc]
  unfold eptFrame pageSize at *
  omega

theorem or_eptDefaults_present {x : Nat} (hx : x % pageSize = 0) : (x ||| eptDefaults) &&& 7 ≠ 0 := by
  rw [or_eq_add_of_aligned hx (by decide), show eptDefaults = 7 from rfl,
    show (7 : Nat) = 2 ^ 3 - 1 from rfl, Nat.and_pow_two_sub_one_eq_mod]
  unfold pageSize at hx
  omega

section walks

variable {h : Heap} {pml4 : Nat}

/-- The processor reaches, at every depth, the frame of the node the software walk reaches. -/
theorem hwTable_eq (pm : PhysMap) (hroot : pml4 ≠ 0) (he : EntriesAgree pm.pa h pml4)
    (hal : NodesAligned h pml4) (va : Nat) {k : Nat} (hk : k ≤ 3) :
    hwTable pm h (eptPointer pm.pa pml4) va k =
      if walkNode h pml4 k va = 0 then none else some (pm.pa (walkNode h pml4 k va)) := by
  have hpa : ∀ j, j ≤ 3 → pm.pa (walkNode h pml4 j va) % pageSize = 0 := fun j hj => by
    rw [pm.pa_offset]; exact hal j va hj
  induction k with
  | zero =>
    rw [walkNode_zero, if_neg hroot]
    exact congrArg some (eptFrame_or (c := 3 <<< 3) (hpa 0 (by omega)) (by decide))
  | succ k ih =>
    rw [hwTable, ih (by omega), walkNode_succ]
    by_cases hz : walkNode h pml4 k va = 0
    · simp [hz]
    simp only [hz, if_false, Option.some_bind, pm.kv_pa]
    rw [he k va _ (by omega) hz (tableIdx_lt k va)]
    by_cases hs : h.mem (walkNode h pml4 k va) (pageOffset + tableIdx k va) = 0
    · simp [hs]
    have hpa' := hpa (k + 1) hk
    rw [walkNode_succ, if_neg hz] at hpa'
    simp only [hs, if_false, or_eptDefaults_present hpa',
      eptFrame_or (c := eptDefaults) hpa' (by decide)]

/-- The processor's walk stops at the same level as the software walk, or reads the same leaf. -/
theorem hardwareWalk_eq (pm : PhysMap) (hroot : pml4 ≠ 0) (he : EntriesAgree pm.pa h pml4)
    (hal : NodesAligned h pml4) (va : Nat) :
    hardwareWalk pm h (eptPointer pm.pa pml4) va = softwareWalk h pml4 va := by
  have h12 := walkNode_eq_zero_of_le h pml4 va (k := 1) (j := 2)
  have h13 := walkNode_eq_zero_of_le h pml4 va (k := 1) (j := 3)
  have h23 := walkNode_eq_zero_of_le h pml4 va (k := 2) (j := 3)
  unfold hardwareWalk softwareWalk
  rw [hwTable_eq pm hroot he hal va (by decide : 1 ≤ 3), hwTable_eq pm hroot he hal va
    (by decide : 2 ≤ 3), hwTable_eq pm hroot he hal va le_rfl]
  split_ifs <;> simp_all [pm.kv_pa]

end walks

/-- The invariant of every table `ept_init` and `ept_add_page` build. -/
def HardwareInv (pa : Nat → Nat) (h : Heap) (pml4 : Nat) : Prop :=
  (∃ lbl, TreeShape h pml4 lbl) ∧ EntriesAgree pa h pml4 ∧ NodesAligned h pml4

private theorem hardwareInv_foldl (pa : Nat → Nat) (pml4 : Nat) (ops : List (Nat × Nat)) :
    ∀ h, HardwareInv pa h pml4 →
      HardwareInv pa (ops.foldl (fun h op => eptAddPage pa h pml4 op.1 op.2) h) pml4 := by
  induction ops with
  | nil => exact fun _ hi => hi
  | cons op ops ih =>
    rintro h ⟨⟨lbl, ht⟩, he, hal⟩
    exact ih _ ⟨(eptAddPage_spec pa ht op.1 op.2).1, eptAddPage_hardware ht he hal op.1 op.2⟩

theorem hardwareInv_eptRun (pa : Nat → Nat) (h : Heap) (ops : List (Nat × Nat)) :
    HardwareInv pa (eptRun pa h ops).2 (eptRun pa h ops).1 :=
  hardwareInv_foldl pa _ ops _
    ⟨⟨_, treeShape_eptInit h⟩, entriesAgree_eptInit pa h, nodesAligned_eptInit h⟩

theorem eptRun_walks_agree (pm : PhysMap) (h : Heap) (ops : List (Nat × Nat)) :
    EntriesAgree pm.pa (eptRun pm.pa h ops).2 (eptRun pm.pa h ops).1 ∧
      NoSharedChild (eptRun pm.pa h ops).2 (eptRun pm.pa h ops).1 ∧
      ∀ va, hardwareWalk pm (eptRun pm.pa h ops).2 (eptPointer pm.pa (eptRun pm.pa h ops).1) va =
        softwareWalk (eptRun pm.pa h ops).2 (eptRun pm.pa h ops).1 va := by
  obtain ⟨⟨lbl, ht⟩, he, hal⟩ := hardwareInv_eptRun pm.pa h ops
  exact ⟨he, ht.noSharedChild, hardwareWalk_eq pm ht.root_ne he hal⟩

/-- The identity as the physical map, with two pages under different directory-pointer entries. -/
theorem eptRun_walks_agree_identity :
    let pm : PhysMap := ⟨id, id, fun _ => rfl, fun _ => rfl⟩
    let r := eptRun pm.pa .initial [(0x200000, 0x5000), (0x40000000, 0x7000)]
    EntriesAgree pm.pa r.2 r.1 ∧ NoSharedChild r.2 r.1 ∧
      ∀ va, hardwareWalk pm r.2 (eptPointer pm.pa r.1) va = softwareWalk r.2 r.1 va :=
  eptRun_walks_agree ⟨id, id, fun _ => rfl, fun _ => rfl⟩ .initial
    [(0x200000, 0x5000), (0x40000000, 0x7000)]

end KvmKext
