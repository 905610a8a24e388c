import KvmKext.Ept.Table
import Mathlib.Data.List.Range

/-!
# The software walk of the page table

`walkNode` follows the host pointers that `ept_translate` reads. `TreeShape` is the invariant
that makes the table a tree: the root is labelled `[]`, and every non-NULL host pointer in a node
on a walk is an allocated block labelled by the indices that lead to it. So a block determines
its depth and its path, and no block sits in two slots.
-/

namespace KvmKext

/-- The node the software walk of `va` reaches at depth `k`; 0 once a level is missing. -/
def walkNode (h : Heap) (pml4 : Nat) : Nat → Nat → Nat
  | 0, _ => pml4
  | k + 1, va =>
    let n := walkNode h pml4 k va
    if n = 0 then 0 else h.mem n (pageOffset + tableIdx k va)

@[simp] theorem walkNode_zero (h : Heap) (pml4 va : Nat) : walkNode h pml4 0 va = pml4 := rfl

theorem walkNode_succ (h : Heap) (pml4 k va : Nat) :
    walkNode h pml4 (k + 1) va =
      if walkNode h pml4 k va = 0 then 0
      else h.mem (walkNode h pml4 k va) (pageOffset + tableIdx k va) := rfl

/-- `va` and `wa` have the same table indices above depth `k`. -/
def SamePath (k va wa : Nat) : Prop := ∀ j < k, tableIdx j va = tableIdx j wa

instance (k va wa : Nat) : Decidable (SamePath k va wa) :=
  inferInstanceAs (Decidable (∀ j < k, _))

theorem samePath_succ {k va wa : Nat} :
    SamePath (k + 1) va wa ↔ SamePath k va wa ∧ tableIdx k va = tableIdx k wa := by
  refine ⟨fun h => ⟨fun j hj => h j (by omega), h k (by omega)⟩, fun ⟨h, hk⟩ j hj => ?_⟩
  rcases Nat.lt_succ_iff_lt_or_eq.mp hj with hj | rfl
  · exact h j hj
  · exact hk

theorem SamePath.refl (k va : Nat) : SamePath k va va := fun _ _ => rfl

theorem SamePath.symm {k va wa : Nat} (h : SamePath k va wa) : SamePath k wa va :=
  fun j hj => (h j hj).symm

theorem SamePath.mono {k j va wa : Nat} (h : SamePath k va wa) (hjk : j ≤ k) : SamePath j va wa :=
  fun i hi => h i (by omega)

/-- A walk depends only on the indices it has used. -/
theorem walkNode_congr (h : Heap) (pml4 : Nat) {k va wa : Nat} (hp : SamePath k va wa) :
    walkNode h pml4 k va = walkNode h pml4 k wa := by
  induction k with
  | zero => rfl
  | succ k ih =>
    obtain ⟨hp, hk⟩ := samePath_succ.mp hp
    simp only [walkNode_succ, ih hp, hk]

theorem walkNode_eq_zero_of_le (h : Heap) (pml4 va : Nat) {k j : Nat}
    (hz : walkNode h pml4 k va = 0) (hkj : k ≤ j) : walkNode h pml4 j va = 0 := by
  induction j, hkj using Nat.le_induction with
  | base => exact hz
  | succ j _ ih => simp [walkNode_succ, ih]

/-- A store below `PAGE_OFFSET` (a processor-visible entry or a leaf) changes no software walk. -/
theorem walkNode_write_low (h : Heap) (pml4 p i v : Nat) (hi : i < pageOffset) (j a : Nat) :
    walkNode (h.write p i v) pml4 j a = walkNode h pml4 j a := by
  induction j with
  | zero => rfl
  | succ j ih =>
    have hne : pageOffset + tableIdx j a ≠ i := by omega
    simp only [walkNode_succ, ih, Heap.write_mem, hne, and_false, if_false]

/-- `ept_translate` is the leaf entry at the end of the software walk, masked to its frame. -/
theorem eptTranslate_eq (h : Heap) {pml4 : Nat} (hroot : pml4 ≠ 0) (va : Nat) :
    eptTranslate h pml4 va =
      if walkNode h pml4 3 va = 0 then 0
      else h.mem (walkNode h pml4 3 va) (tableIdx 3 va) &&& pageMask := by
  simp only [eptTranslate, walkNode_succ, walkNode_zero, if_neg hroot]
  split_ifs <;> simp_all

/-- The table indices of `va` above depth `k`, root first. -/
def pathOf (k va : Nat) : List Nat := (List.range k).map (tableIdx · va)

theorem pathOf_succ (k va : Nat) : pathOf (k + 1) va = pathOf k va ++ [tableIdx k va] := by
  simp [pathOf, List.range_succ]

theorem pathOf_eq_iff {k j va wa : Nat} :
    pathOf k va = pathOf j wa ↔ k = j ∧ SamePath k va wa := by
  refine ⟨fun h => ?_, fun ⟨hkj, h⟩ => ?_⟩
  · have hkj : k = j := by simpa [pathOf] using congrArg List.length h
    subst hkj
    refine ⟨rfl, ?_⟩
    induction k with
    | zero => exact fun _ hj => absurd hj (Nat.not_lt_zero _)
    | succ k ih =>
      rw [pathOf_succ, pathOf_succ] at h
      obtain ⟨h1, h2⟩ := List.append_inj h (by simp [pathOf])
      exact samePath_succ.mpr ⟨ih h1, by simpa using h2⟩
  · subst hkj
    exact List.map_congr_left fun i hi => h i (List.mem_range.mp hi)

/-- The software halves form a tree. The root is labelled `[]`; the non-NULL host pointer in
slot `i` of the depth-`k` node of `va` is an allocated block labelled `pathOf k va ++ [i]`. -/
structure TreeShape (h : Heap) (pml4 : Nat) (lbl : Nat → List Nat) : Prop where
  root_ne : pml4 ≠ 0
  root_lt : pml4 < h.brk
  root_label : lbl pml4 = []
  child : ∀ k va i, k < 3 → walkNode h pml4 k va ≠ 0 → i < 512 →
    h.mem (walkNode h pml4 k va) (pageOffset + i) ≠ 0 →
    h.mem (walkNode h pml4 k va) (pageOffset + i) < h.brk ∧
      lbl (h.mem (walkNode h pml4 k va) (pageOffset + i)) = pathOf k va ++ [i]

section TreeShape

variable {h : Heap} {pml4 : Nat} {lbl : Nat → List Nat}

/-- Every node on a walk is allocated and labelled by its path. -/
theorem TreeShape.node (ht : TreeShape h pml4 lbl) {k va : Nat} (hk : k ≤ 3)
    (hn : walkNode h pml4 k va ≠ 0) :
    walkNode h pml4 k va < h.brk ∧ lbl (walkNode h pml4 k va) = pathOf k va := by
  cases k with
  | zero => exact ⟨ht.root_lt, ht.root_label⟩
  | succ k =>
    have hp : walkNode h pml4 k va ≠ 0 := fun hz => hn (by simp [walkNode_succ, hz])
    rw [walkNode_succ, if_neg hp] at hn ⊢
    rw [pathOf_succ]
    exact ht.child k va _ (by omega) hp (tableIdx_lt k va) hn

/-- A node determines its depth and the path to it. -/
theorem TreeShape.node_inj (ht : TreeShape h pml4 lbl) {k j va wa : Nat} (hk : k ≤ 3)
    (hj : j ≤ 3) (hn : walkNode h pml4 k va ≠ 0)
    (he : walkNode h pml4 k va = walkNode h pml4 j wa) : k = j ∧ SamePath k va wa := by
  have h1 := (ht.node hk hn).2
  have h2 := (ht.node hj (he ▸ hn)).2
  exact pathOf_eq_iff.mp (h1.symm.trans ((congrArg lbl he).trans h2))

/-- A store below `PAGE_OFFSET` keeps the tree. -/
theorem TreeShape.write_low (ht : TreeShape h pml4 lbl) {p i v : Nat} (hi : i < pageOffset) :
    TreeShape (h.write p i v) pml4 lbl where
  root_ne := ht.root_ne
  root_lt := ht.root_lt
  root_label := ht.root_label
  child k va j hk hn hj hc := by
    simp only [walkNode_write_low h pml4 p i v hi, Heap.write_mem, Heap.write_brk] at hn hc ⊢
    have hne : pageOffset + j ≠ i := by omega
    simp only [hne, and_false, if_false] at hc ⊢
    exact ht.child k va j hk hn hj hc

/-- A block allocated after the tree changes no walk. -/
theorem TreeShape.walkNode_ioCallocAligned (ht : TreeShape h pml4 lbl) (size : Nat) {k : Nat}
    (hk : k ≤ 3) (va : Nat) : walkNode (ioCallocAligned h size).2 pml4 k va = walkNode h pml4 k va := by
  induction k with
  | zero => rfl
  | succ k ih =>
    rw [walkNode_succ, walkNode_succ, ih (by omega)]
    split_ifs with hn
    · rfl
    · rw [ioCallocAligned_mem, if_neg (Nat.ne_of_lt (ht.node (by omega) hn).1)]

theorem TreeShape.alloc (ht : TreeShape h pml4 lbl) (size : Nat) :
    TreeShape (ioCallocAligned h size).2 pml4 lbl where
  root_ne := ht.root_ne
  root_lt := ht.root_lt.trans (lt_ioCallocAligned_brk h size)
  root_label := ht.root_label
  child k va i hk hn hi hc := by
    rw [ht.walkNode_ioCallocAligned size (by omega)] at hn hc ⊢
    rw [ioCallocAligned_mem, if_neg (Nat.ne_of_lt (ht.node (by omega) hn).1)] at hc ⊢
    obtain ⟨hlt, hl⟩ := ht.child k va i hk hn hi hc
    exact ⟨hlt.trans (lt_ioCallocAligned_brk h size), hl⟩

theorem TreeShape.eptTranslate_ioCallocAligned (ht : TreeShape h pml4 lbl) (size va : Nat) :
    eptTranslate (ioCallocAligned h size).2 pml4 va = eptTranslate h pml4 va := by
  rw [eptTranslate_eq _ ht.root_ne, eptTranslate_eq _ ht.root_ne,
    ht.walkNode_ioCallocAligned size le_rfl]
  split_ifs with hn
  · rfl
  · rw [ioCallocAligned_mem, if_neg (Nat.ne_of_lt (ht.node le_rfl hn).1)]

end TreeShape

/-- After `ept_init` the root has no children. -/
theorem walkNode_eptInit (h : Heap) {k : Nat} (hk : 0 < k) (va : Nat) :
    walkNode (eptInit h).2 (eptInit h).1 k va = 0 := by
  refine walkNode_eq_zero_of_le _ _ va ?_ hk
  simp [walkNode_succ, eptInit, (Nat.pos_iff_ne_zero.mp h.brk_pos)]

theorem treeShape_eptInit (h : Heap) : TreeShape (eptInit h).2 (eptInit h).1 (fun _ => []) where
  root_ne := Nat.pos_iff_ne_zero.mp h.brk_pos
  root_lt := lt_ioCallocAligned_brk h _
  root_label := rfl
  child k va i _ hn _ hc := by
    rcases Nat.eq_zero_or_pos k with rfl | hk
    · simp [eptInit] at hc
    · exact absurd (walkNode_eptInit h hk va) hn

theorem eptTranslate_eptInit (h : Heap) (va : Nat) :
    eptTranslate (eptInit h).2 (eptInit h).1 va = 0 := by
  simp [eptTranslate, eptInit]

end KvmKext
