import KvmKext.Ept.Mapping
import Mathlib.Data.Finset.Card

/-!
# Which tables `ept_add_page` allocates

Each `ept_add_page` call links the missing nodes on its address's walk and no others. So after
`ept_init` and any calls the walk of an address reaches a node at depth `j` exactly when some call
was for an address with the same first `j` table indices (`walkNode_eptRun_ne_zero`), and the
table takes two pages for the root, two for each distinct pdpt and pd prefix and one for each
distinct pt prefix (`eptRun_liveBytes`).
-/

namespace KvmKext

section Prefixes

variable {pa : Nat → Nat} {h : Heap} {pml4 : Nat} {lbl : Nat → List Nat} {size : Nat}

/-- One level of `ept_add_page` along `va` adds the node for `va`'s first `k + 1` indices, if it
was missing, and no other. -/
theorem walkNode_allocChild_ne_zero (ht : TreeShape h pml4 lbl) {k va : Nat} (hk : k < 3)
    (hn : walkNode h pml4 k va ≠ 0) {j : Nat} (hj : j ≤ 3) (a : Nat) :
    walkNode (allocChild pa h (walkNode h pml4 k va) (tableIdx k va) size).2 pml4 j a ≠ 0 ↔
      walkNode h pml4 j a ≠ 0 ∨ (j = k + 1 ∧ SamePath (k + 1) a va) := by
  by_cases hc : h.mem (walkNode h pml4 k va) (pageOffset + tableIdx k va) = 0
  · rw [walkNode_allocChild_fresh ht hk hn hc hj]
    by_cases hA : k < j ∧ SamePath (k + 1) a va
    · -- the walk of `a` went through the slot, which was NULL
      have hz : walkNode h pml4 (k + 1) a = 0 := by
        rw [walkNode_congr h pml4 hA.2, walkNode_succ, if_neg hn, hc]
      have hz' : walkNode h pml4 j a = 0 := walkNode_eq_zero_of_le h pml4 a hz (by omega)
      rw [if_pos hA, hz']
      split_ifs with hjk
      · simp [hjk, hA.2, Nat.pos_iff_ne_zero.mp h.brk_pos]
      · simp [hjk]
    · rw [if_neg hA]
      exact ⟨.inl, fun h' => h'.resolve_right fun ⟨hjk, hs⟩ => hA ⟨by omega, hs⟩⟩
  · rw [allocChild_of_ne hc]
    refine ⟨.inl, fun h' => h'.elim id fun ⟨hjk, hs⟩ => ?_⟩
    subst hjk
    rwa [walkNode_congr h pml4 hs, walkNode_succ, if_neg hn]

/-- The three levels of `ept_add_page` along `va`, each from a tree whose walk reaches the node
it links under, and the leaf store. -/
theorem eptAddPage_levels (pa : Nat → Nat) (ht : TreeShape h pml4 lbl) (va phys : Nat) :
    ∃ h1 h2 lbl1 lbl2, TreeShape h1 pml4 lbl1 ∧ TreeShape h2 pml4 lbl2 ∧
      walkNode h1 pml4 1 va ≠ 0 ∧ walkNode h2 pml4 2 va ≠ 0 ∧
      h1 = (allocChild pa h (walkNode h pml4 0 va) (tableIdx 0 va) (pageSize * 2)).2 ∧
      h2 = (allocChild pa h1 (walkNode h1 pml4 1 va) (tableIdx 1 va) (pageSize * 2)).2 ∧
      eptAddPage pa h pml4 va phys =
        let h3 := (allocChild pa h2 (walkNode h2 pml4 2 va) (tableIdx 2 va) pageSize).2
        h3.write (walkNode h3 pml4 3 va) (tableIdx 3 va) (phys ||| eptDefaults ||| eptCacheWriteback) := by
  rcases hr1 : allocChild pa h pml4 (tableIdx 0 va) (pageSize * 2) with ⟨c1, h1⟩
  obtain ⟨e1, n1, ⟨lbl1, ht1⟩, -⟩ := allocChild_spec (k := 0) ht (by decide) ht.root_ne hr1
  simp only [Nat.reduceAdd] at e1
  subst e1
  rcases hr2 : allocChild pa h1 (walkNode h1 pml4 1 va) (tableIdx 1 va) (pageSize * 2) with ⟨c2, h2⟩
  obtain ⟨e2, n2, ⟨lbl2, ht2⟩, -⟩ := allocChild_spec (k := 1) ht1 (by decide) n1 hr2
  simp only [Nat.reduceAdd] at e2
  subst e2
  refine ⟨h1, h2, lbl1, lbl2, ht1, ht2, n1, n2, by rw [walkNode_zero, hr1], by rw [hr2], ?_⟩
  rcases hr3 : allocChild pa h2 (walkNode h2 pml4 2 va) (tableIdx 2 va) pageSize with ⟨c3, h3⟩
  obtain ⟨e3, -, -, -⟩ := allocChild_spec (k := 2) ht2 (by decide) n2 hr3
  simp only [eptAddPage, hr1, hr2, hr3, e3]

/-- `ept_add_page` adds the nodes on `va`'s path that were missing, and no other. -/
theorem walkNode_eptAddPage_ne_zero (pa : Nat → Nat) (ht : TreeShape h pml4 lbl) (va phys : Nat)
    {j : Nat} (hj : j ≤ 3) (a : Nat) :
    walkNode (eptAddPage pa h pml4 va phys) pml4 j a ≠ 0 ↔
      walkNode h pml4 j a ≠ 0 ∨ SamePath j a va := by
  obtain ⟨h1, h2, _, _, ht1, ht2, n1, n2, rfl, rfl, he⟩ := eptAddPage_levels pa ht va phys
  have n0 : walkNode h pml4 0 va ≠ 0 := ht.root_ne
  rw [he, walkNode_write_low _ _ _ _ _ (tableIdx_lt 3 va),
    walkNode_allocChild_ne_zero ht2 (by decide) n2 hj, walkNode_allocChild_ne_zero ht1 (by decide) n1 hj,
    walkNode_allocChild_ne_zero ht (by decide) n0 hj]
  rcases (by omega : j = 0 ∨ j = 1 ∨ j = 2 ∨ j = 3) with rfl | rfl | rfl | rfl
  · simp [ht.root_ne]
  all_goals simp

end Prefixes

theorem walkNode_foldl_ne_zero (pa : Nat → Nat) (pml4 : Nat) (ops : List (Nat × Nat)) :
    ∀ (h : Heap) (lbl : Nat → List Nat), TreeShape h pml4 lbl → ∀ {j : Nat}, j ≤ 3 → ∀ a,
      (walkNode (ops.foldl (fun h op => eptAddPage pa h pml4 op.1 op.2) h) pml4 j a ≠ 0 ↔
        walkNode h pml4 j a ≠ 0 ∨ ∃ op ∈ ops, SamePath j a op.1) := by
  induction ops with
  | nil => simp
  | cons op ops ih =>
    intro h lbl ht j hj a
    obtain ⟨⟨lbl', ht'⟩, -⟩ := eptAddPage_spec pa ht op.1 op.2
    rw [List.foldl_cons, ih _ lbl' ht' hj, walkNode_eptAddPage_ne_zero pa ht _ _ hj]
    simp only [List.mem_cons, exists_eq_or_imp, or_assoc]

/-- The table holds a node at depth `j` on the walk of `a` exactly when some `ept_add_page` call
was for an address with `a`'s first `j` indices: every node is on a mapped path, and every
mapped path is complete. -/
theorem walkNode_eptRun_ne_zero (pa : Nat → Nat) (h : Heap) (ops : List (Nat × Nat)) {j : Nat}
    (hj : j ≤ 3) (a : Nat) :
    walkNode (eptRun pa h ops).2 (eptRun pa h ops).1 j a ≠ 0 ↔
      j = 0 ∨ ∃ op ∈ ops, SamePath j a op.1 := by
  rw [eptRun, walkNode_foldl_ne_zero pa _ ops _ _ (treeShape_eptInit h) hj]
  rcases Nat.eq_zero_or_pos j with rfl | hj0
  · simp [(treeShape_eptInit h).root_ne]
  · simp [walkNode_eptInit h hj0, hj0.ne']

/-- Two pages of one 2 MiB region: the pt node of a third page in that region is there. -/
theorem walkNode_eptRun_ne_zero_twoPages :
    3 ≤ 3 ∧ (walkNode (eptRun id .initial [(0x200000, 0x5000), (0x201000, 0x6000)]).2
      (eptRun id .initial [(0x200000, 0x5000), (0x201000, 0x6000)]).1 3 0x202000 ≠ 0 ↔
      3 = 0 ∨ ∃ op ∈ [((0x200000 : Nat), (0x5000 : Nat)), (0x201000, 0x6000)],
        SamePath 3 0x202000 op.1) :=
  ⟨le_rfl, walkNode_eptRun_ne_zero id .initial _ le_rfl _⟩

/-- The bytes of the live blocks. -/
def Heap.liveBytes (h : Heap) : Nat := (h.live.map Prod.snd).sum

@[simp] theorem Heap.write_liveBytes (h : Heap) (p i v : Nat) : (h.write p i v).liveBytes = h.liveBytes :=
  rfl

section Bytes

variable {pa : Nat → Nat} {h : Heap} {pml4 : Nat} {lbl : Nat → List Nat} {k va size : Nat}

/-- One level of `ept_add_page` allocates `size` bytes exactly when the next node of the walk is
missing. -/
theorem allocChild_liveBytes (hn : walkNode h pml4 k va ≠ 0) :
    (allocChild pa h (walkNode h pml4 k va) (tableIdx k va) size).2.liveBytes =
      h.liveBytes + if walkNode h pml4 (k + 1) va = 0 then size else 0 := by
  rw [walkNode_succ, if_neg hn]
  by_cases hc : h.mem (walkNode h pml4 k va) (pageOffset + tableIdx k va) = 0
  · simp [allocChild, hc, Heap.liveBytes, Nat.add_comm]
  · rw [allocChild_of_ne hc, if_neg hc, Nat.add_zero]

/-- Past the level it links, a walk along `va` is missing after a level of `ept_add_page` exactly
when it was missing before. -/
theorem walkNode_allocChild_eq_zero_iff (ht : TreeShape h pml4 lbl) (hk : k < 3)
    (hn : walkNode h pml4 k va ≠ 0) {j : Nat} (hj : j ≤ 3) (hkj : k + 1 < j) :
    walkNode (allocChild pa h (walkNode h pml4 k va) (tableIdx k va) size).2 pml4 j va = 0 ↔
      walkNode h pml4 j va = 0 := by
  have hjk : j ≠ k + 1 := by omega
  rw [← not_iff_not, ← ne_eq, ← ne_eq, walkNode_allocChild_ne_zero ht hk hn hj va]
  simp [hjk]

/-- `ept_add_page` allocates two pages for each missing pdpt and pd node on `va`'s walk, and one
for a missing pt node. -/
theorem eptAddPage_liveBytes (pa : Nat → Nat) (ht : TreeShape h pml4 lbl) (va phys : Nat) :
    (eptAddPage pa h pml4 va phys).liveBytes = h.liveBytes +
      ((if walkNode h pml4 1 va = 0 then pageSize * 2 else 0) +
       (if walkNode h pml4 2 va = 0 then pageSize * 2 else 0) +
       (if walkNode h pml4 3 va = 0 then pageSize else 0)) := by
  obtain ⟨h1, h2, _, _, ht1, -, n1, n2, rfl, rfl, he⟩ := eptAddPage_levels pa ht va phys
  have n0 : walkNode h pml4 0 va ≠ 0 := ht.root_ne
  rw [he, Heap.write_liveBytes, allocChild_liveBytes n2, allocChild_liveBytes n1,
    allocChild_liveBytes n0]
  simp only [Nat.reduceAdd,
    walkNode_allocChild_eq_zero_iff ht1 (by decide) n1 (j := 3) (by decide) (by decide),
    walkNode_allocChild_eq_zero_iff ht (by decide) n0 (j := 3) (by decide) (by decide),
    walkNode_allocChild_eq_zero_iff ht (by decide) n0 (j := 2) (by decide) (by decide)]
  omega

end Bytes

theorem eptRun_append_singleton (pa : Nat → Nat) (h : Heap) (ops : List (Nat × Nat)) (op : Nat × Nat) :
    eptRun pa h (ops ++ [op]) =
      ((eptRun pa h ops).1, eptAddPage pa (eptRun pa h ops).2 (eptRun pa h ops).1 op.1 op.2) := by
  simp [eptRun, List.foldl_append]

theorem treeShape_eptRun (pa : Nat → Nat) (h : Heap) (ops : List (Nat × Nat)) :
    ∃ lbl, TreeShape (eptRun pa h ops).2 (eptRun pa h ops).1 lbl := by
  induction ops using List.reverseRecOn with
  | nil => exact ⟨_, treeShape_eptInit h⟩
  | append_singleton ops op ih =>
    obtain ⟨lbl, ht⟩ := ih
    rw [eptRun_append_singleton]
    exact (eptAddPage_spec pa ht op.1 op.2).1

theorem card_toFinset_append_singleton {α : Type} [DecidableEq α] (l : List α) (x : α) :
    (l ++ [x]).toFinset.card = l.toFinset.card + if x ∈ l then 0 else 1 := by
  have : (l ++ [x]).toFinset = insert x l.toFinset := by ext; simp [or_comm]
  rw [this]
  split_ifs with hx
  · rw [Finset.insert_eq_of_mem (List.mem_toFinset.2 hx), Nat.add_zero]
  · exact Finset.card_insert_of_not_mem (mt List.mem_toFinset.1 hx)

/-- The walk of `a` at depth `j` is missing after the calls exactly when no call was for an
address with the same first `j` indices. -/
theorem walkNode_eptRun_eq_zero_iff (pa : Nat → Nat) (h : Heap) (ops : List (Nat × Nat))
    {j : Nat} (hj0 : 0 < j) (hj : j ≤ 3) (a : Nat) :
    walkNode (eptRun pa h ops).2 (eptRun pa h ops).1 j a = 0 ↔
      pathOf j a ∉ ops.map fun op => pathOf j op.1 := by
  have hw := walkNode_eptRun_ne_zero pa h ops hj a
  rw [or_iff_right hj0.ne'] at hw
  constructor
  · intro hz hm
    obtain ⟨op, hop, he⟩ := List.mem_map.1 hm
    exact hw.2 ⟨op, hop, (pathOf_eq_iff.1 he).2.symm⟩ hz
  · intro hn
    by_contra hz
    obtain ⟨op, hop, hs⟩ := hw.1 hz
    exact hn (List.mem_map.2 ⟨op, hop, pathOf_eq_iff.2 ⟨rfl, hs.symm⟩⟩)

/-- The memory the table takes: the root, two pages for each distinct 512 GiB region (the pdpt)
and 1 GiB region (the pd) the calls touched, and one page for each distinct 2 MiB region (the pt). -/
theorem eptRun_liveBytes (pa : Nat → Nat) (h : Heap) (ops : List (Nat × Nat)) :
    (eptRun pa h ops).2.liveBytes = h.liveBytes + pageSize * 2 +
      pageSize * 2 * ((ops.map fun op => pathOf 1 op.1).toFinset.card +
        (ops.map fun op => pathOf 2 op.1).toFinset.card) +
      pageSize * (ops.map fun op => pathOf 3 op.1).toFinset.card := by
  induction ops using List.reverseRecOn with
  | nil => simp [eptRun, eptInit, Heap.liveBytes, Nat.add_comm]
  | append_singleton ops op ih =>
    obtain ⟨lbl, ht⟩ := treeShape_eptRun pa h ops
    rw [eptRun_append_singleton, eptAddPage_liveBytes pa ht, ih]
    simp only [List.map_append, List.map_cons, List.map_nil, card_toFinset_append_singleton,
      walkNode_eptRun_eq_zero_iff pa h ops (by decide : 0 < 1) (by decide),
      walkNode_eptRun_eq_zero_iff pa h ops (by decide : 0 < 2) (by decide),
      walkNode_eptRun_eq_zero_iff pa h ops (by decide : 0 < 3) (by decide), Nat.mul_add, mul_ite,
      Nat.mul_zero, Nat.mul_one, ite_not]
    omega
end KvmKext
