import KvmKext.Ept.Walk
import Mathlib.Tactic.IntervalCases

/-!
# `ept_add_page` refines a finite map of pages

Each level of `ept_add_page` either finds the child or links a fresh zeroed block into the one
NULL slot on the path; neither changes a translation. The leaf store then sets the frame of the
one page the address lies in, so the table answers the last mapping of every page.
-/

namespace KvmKext

section allocChild

variable {pa : Nat → Nat} {h : Heap} {pml4 : Nat} {lbl : Nat → List Nat} {k va size : Nat}

theorem allocChild_of_ne {n i : Nat} (hc : h.mem n (pageOffset + i) ≠ 0) :
    allocChild pa h n i size = (h.mem n (pageOffset + i), h) := by
  simp only [allocChild, if_neg hc]

theorem allocChild_fresh_mem {n i : Nat} (hc : h.mem n (pageOffset + i) = 0) (q j : Nat) :
    (allocChild pa h n i size).2.mem q j =
      if q = n ∧ j = i then pa h.brk ||| eptDefaults
      else if q = n ∧ j = pageOffset + i then h.brk
      else if q = h.brk then 0 else h.mem q j := by
  simp only [allocChild, if_pos hc]
  simp only [Heap.write_mem, ioCallocAligned_mem, ioCallocAligned_fst]

theorem allocChild_fresh_brk (pa : Nat → Nat) (size : Nat) {n i : Nat}
    (hc : h.mem n (pageOffset + i) = 0) :
    h.brk < (allocChild pa h n i size).2.brk := by
  simp only [allocChild, if_pos hc]
  exact lt_ioCallocAligned_brk h size

theorem allocChild_fresh_fst (pa : Nat → Nat) (size : Nat) {n i : Nat}
    (hc : h.mem n (pageOffset + i) = 0) :
    (allocChild pa h n i size).1 = h.brk := by
  simp only [allocChild, if_pos hc, ioCallocAligned_fst]

/-- A fresh child changes the walks through its slot only: they now reach the new block, and
stop below it. -/
theorem walkNode_allocChild_fresh (ht : TreeShape h pml4 lbl) (hk : k < 3)
    (hn : walkNode h pml4 k va ≠ 0) (hc : h.mem (walkNode h pml4 k va) (pageOffset + tableIdx k va) = 0) {j : Nat} (hj : j ≤ 3)
    (a : Nat) :
    walkNode (allocChild pa h (walkNode h pml4 k va) (tableIdx k va) size).2 pml4 j a =
      if k < j ∧ SamePath (k + 1) a va then (if j = k + 1 then h.brk else 0)
      else walkNode h pml4 j a := by
  have hpos := h.brk_pos
  induction j with
  | zero => simp
  | succ j ih =>
    rw [walkNode_succ, ih (by omega), allocChild_fresh_mem hc]
    have hoff : ∀ t, pageOffset + t ≠ tableIdx k va := fun t => by
      have := tableIdx_lt k va; unfold pageOffset; omega
    by_cases hA : k < j ∧ SamePath (k + 1) a va
    · have hlt := (ht.node (by omega) hn).1
      rw [if_pos hA, if_pos (show k < j + 1 ∧ SamePath (k + 1) a va from ⟨by omega, hA.2⟩),
        if_neg (by omega : j + 1 ≠ k + 1)]
      by_cases hj : j = k + 1
      · simp [hj, hlt.ne', Nat.pos_iff_ne_zero.mp hpos]
      · simp [hj]
    rw [if_neg hA]
    by_cases hB : k = j ∧ SamePath (k + 1) a va
    · obtain ⟨rfl, hs⟩ := hB
      obtain ⟨hs, hidx⟩ := samePath_succ.mp hs
      rw [walkNode_congr h pml4 hs, if_pos (show k < k + 1 ∧ SamePath (k + 1) a va from
        ⟨by omega, samePath_succ.mpr ⟨hs, hidx⟩⟩), if_pos rfl, if_neg hn]
      simp [hoff, hidx]
    have hC : ¬(k < j + 1 ∧ SamePath (k + 1) a va) := fun ⟨h1, h2⟩ => by
      rcases Nat.lt_succ_iff_lt_or_eq.mp h1 with h1 | h1
      · exact hA ⟨h1, h2⟩
      · exact hB ⟨h1, h2⟩
    rw [if_neg hC, walkNode_succ]
    by_cases hm : walkNode h pml4 j a = 0
    · simp only [hm, if_true]
    have hbrk : walkNode h pml4 j a ≠ h.brk := by have := (ht.node (by omega) hm).1; omega
    have hslot : ¬(walkNode h pml4 j a = walkNode h pml4 k va ∧
        pageOffset + tableIdx j a = pageOffset + tableIdx k va) := fun ⟨he, hi⟩ => by
      obtain ⟨rfl, hs⟩ := ht.node_inj (by omega) (by omega) hm he
      exact hB ⟨rfl, samePath_succ.mpr ⟨hs, by omega⟩⟩
    simp only [hm, if_false, hoff, and_false, hslot, hbrk]

/-- Linking a fresh child keeps the tree, with the new block labelled by its path. -/
theorem TreeShape.allocChild_fresh (ht : TreeShape h pml4 lbl) (hk : k < 3)
    (hn : walkNode h pml4 k va ≠ 0)
    (hc : h.mem (walkNode h pml4 k va) (pageOffset + tableIdx k va) = 0) :
    TreeShape (allocChild pa h (walkNode h pml4 k va) (tableIdx k va) size).2 pml4
      (Function.update lbl h.brk (pathOf (k + 1) va)) := by
  obtain ⟨hnlt, -⟩ := ht.node (by omega) hn
  have hroot : pml4 ≠ h.brk := by have := ht.root_lt; omega
  have hoff : ∀ t, pageOffset + t ≠ tableIdx k va := fun t => by
    have := tableIdx_lt k va; unfold pageOffset; omega
  refine ⟨ht.root_ne, ?_, ?_, fun j a i hj hm hi hs => ?_⟩
  · have := ht.root_lt; have := allocChild_fresh_brk pa size hc; omega
  · rw [Function.update_noteq hroot, ht.root_label]
  rw [walkNode_allocChild_fresh ht hk hn hc (by omega)] at hm hs ⊢
  have hbrk := allocChild_fresh_brk pa size hc
  by_cases hA : k < j ∧ SamePath (k + 1) a va
  · rw [if_pos hA] at hm hs
    have hjk : j = k + 1 := by
      by_contra hjk
      exact hm (if_neg hjk)
    rw [if_pos hjk, allocChild_fresh_mem hc] at hs
    simp [hnlt.ne', hoff] at hs
  rw [if_neg hA] at hm hs ⊢
  obtain ⟨hmlt, -⟩ := ht.node (by omega) hm
  have hslot : (allocChild pa h (walkNode h pml4 k va) (tableIdx k va) size).2.mem
      (walkNode h pml4 j a) (pageOffset + i) =
        if walkNode h pml4 j a = walkNode h pml4 k va ∧ i = tableIdx k va then h.brk
        else h.mem (walkNode h pml4 j a) (pageOffset + i) := by
    rw [allocChild_fresh_mem hc]
    simp [hoff, hmlt.ne]
  rw [hslot] at hs ⊢
  by_cases he : walkNode h pml4 j a = walkNode h pml4 k va ∧ i = tableIdx k va
  · rw [if_pos he]
    obtain ⟨he, rfl⟩ := he
    obtain ⟨rfl, hs'⟩ := ht.node_inj (by omega) (by omega) hm he
    rw [Function.update_same, pathOf_succ, pathOf_eq_iff.mpr ⟨rfl, hs'⟩]
    exact ⟨by omega, rfl⟩
  · rw [if_neg he] at hs ⊢
    obtain ⟨hlt, hlbl⟩ := ht.child j a i (by omega) hm hi hs
    rw [Function.update_noteq hlt.ne, hlbl]
    exact ⟨by omega, rfl⟩

/-- Linking a fresh, zeroed child changes no translation. -/
theorem eptTranslate_allocChild_fresh (ht : TreeShape h pml4 lbl) (hk : k < 3)
    (hn : walkNode h pml4 k va ≠ 0)
    (hc : h.mem (walkNode h pml4 k va) (pageOffset + tableIdx k va) = 0) (a : Nat) :
    eptTranslate (allocChild pa h (walkNode h pml4 k va) (tableIdx k va) size).2 pml4 a =
      eptTranslate h pml4 a := by
  obtain ⟨hnlt, -⟩ := ht.node (by omega) hn
  rw [eptTranslate_eq _ ht.root_ne, eptTranslate_eq _ ht.root_ne,
    walkNode_allocChild_fresh ht hk hn hc le_rfl, allocChild_fresh_mem hc]
  by_cases hA : k < 3 ∧ SamePath (k + 1) a va
  · have hold : walkNode h pml4 3 a = 0 := by
      refine walkNode_eq_zero_of_le h pml4 a ?_ (show k + 1 ≤ 3 by omega)
      rw [walkNode_congr h pml4 hA.2, walkNode_succ, if_neg hn, hc]
    have : h.brk ≠ walkNode h pml4 k va := by omega
    rw [if_pos hA, hold, if_pos rfl]
    by_cases h3 : 3 = k + 1
    · simp [h3, this, Nat.pos_iff_ne_zero.mp h.brk_pos]
    · simp [h3]
  rw [if_neg hA]
  by_cases hm : walkNode h pml4 3 a = 0
  · simp only [hm, if_true]
  have hne : walkNode h pml4 3 a ≠ walkNode h pml4 k va := fun he => by
    have := (ht.node_inj le_rfl (by omega) hm he).1; omega
  have hbrk : walkNode h pml4 3 a ≠ h.brk := by have := (ht.node le_rfl hm).1; omega
  simp only [hm, hne, hbrk, false_and, if_false]

/-- One level of `ept_add_page` along `va`: the child it returns is the next node of the walk,
the tree is kept, and no translation changes. -/
theorem allocChild_spec (ht : TreeShape h pml4 lbl) (hk : k < 3) (hn : walkNode h pml4 k va ≠ 0)
    {c : Nat} {h' : Heap}
    (hr : allocChild pa h (walkNode h pml4 k va) (tableIdx k va) size = (c, h')) :
    c = walkNode h' pml4 (k + 1) va ∧ c ≠ 0 ∧ (∃ lbl', TreeShape h' pml4 lbl') ∧
      ∀ a, eptTranslate h' pml4 a = eptTranslate h pml4 a := by
  by_cases hc : h.mem (walkNode h pml4 k va) (pageOffset + tableIdx k va) = 0
  · have hc' : c = h.brk := by rw [← allocChild_fresh_fst pa size hc, hr]
    have hh' : h' = (allocChild pa h (walkNode h pml4 k va) (tableIdx k va) size).2 := by rw [hr]
    subst hh' hc'
    refine ⟨?_, Nat.pos_iff_ne_zero.mp h.brk_pos, ⟨_, ht.allocChild_fresh hk hn hc⟩,
      eptTranslate_allocChild_fresh ht hk hn hc⟩
    rw [walkNode_allocChild_fresh ht hk hn hc (by omega),
      if_pos ⟨by omega, SamePath.refl _ _⟩, if_pos rfl]
  · rw [allocChild_of_ne hc, Prod.mk.injEq] at hr
    obtain ⟨rfl, rfl⟩ := hr
    exact ⟨by rw [walkNode_succ, if_neg hn], hc, ⟨lbl, ht⟩, fun _ => rfl⟩

end allocChild

/-- The low twelve bits of a leaf entry never reach the translated frame. -/
theorem or_and_pageMask {x c : Nat} (hc : c &&& pageMask = 0) :
    (x ||| c) &&& pageMask = x &&& pageMask := by
  apply Nat.eq_of_testBit_eq
  intro i
  have hi := congrArg (Nat.testBit · i) hc
  simp only [Nat.testBit_and, Nat.testBit_or, Nat.zero_testBit] at hi ⊢
  cases x.testBit i <;> simp [hi]

theorem leafEntry_and_pageMask (phys : Nat) :
    (phys ||| eptDefaults ||| eptCacheWriteback) &&& pageMask = phys &&& pageMask := by
  rw [or_and_pageMask (by decide), or_and_pageMask (by decide)]

/-- `va` and `wa` lie in the same guest page: they agree on bits 12-47. -/
def SamePage (va wa : Nat) : Prop := va / pageSize % 2 ^ 36 = wa / pageSize % 2 ^ 36

instance (va wa : Nat) : Decidable (SamePage va wa) := inferInstanceAs (Decidable (_ = _))

theorem tableIdx_eq_mod (k va : Nat) : tableIdx k va = va / 2 ^ (39 - 9 * k) % 512 := by
  simp only [tableIdx, Nat.shiftRight_eq_div_pow]
  exact Nat.and_pow_two_sub_one_eq_mod _ 9

/-- The four table indices are bits 12-47. -/
theorem samePath_four_iff {va wa : Nat} : SamePath 4 va wa ↔ SamePage va wa := by
  -- the index at depth `j` is a base-512 digit of the low 36 bits of the page number
  have hd : ∀ v, ∀ j < 4, tableIdx j v = v / 4096 % 2 ^ 36 / 512 ^ (3 - j) % 512 := by
    intro v j hj
    have hdvd : 512 ^ (3 - j) * 512 ∣ 2 ^ 36 := by interval_cases j <;> decide
    rw [← Nat.mod_mul_right_div_self, Nat.mod_mod_of_dvd _ hdvd, Nat.mod_mul_right_div_self,
      Nat.div_div_eq_div_mul, tableIdx_eq_mod]
    interval_cases j <;> rfl
  -- and those four digits make up the low 36 bits
  have he : ∀ x, x % 2 ^ 36 = x % 512 + 512 * (x / 512 % 512 + 512 * (x / 512 / 512 % 512 +
      512 * (x / 512 / 512 / 512 % 512))) := fun x => by
    rw [show 2 ^ 36 = 512 * (512 * (512 * 512)) from rfl, Nat.mod_mul, Nat.mod_mul, Nat.mod_mul]
  simp only [SamePath, SamePage, pageSize]
  refine ⟨fun h => ?_, fun h j hj => by rw [hd va j hj, hd wa j hj, h]⟩
  have hx := he (va / 4096 % 2 ^ 36)
  have hy := he (wa / 4096 % 2 ^ 36)
  have h0 := h 0 (by decide); have h1 := h 1 (by decide)
  have h2 := h 2 (by decide); have h3 := h 3 (by decide)
  rw [hd va _ (by decide), hd wa _ (by decide)] at h0 h1 h2 h3
  simp only [Nat.mod_mod, Nat.div_div_eq_div_mul, Nat.reduceMul, Nat.reducePow] at hx hy ⊢
  simp only [Nat.reduceSub, pow_zero, pow_one, Nat.div_one, Nat.reducePow] at h0 h1 h2 h3
  rw [hx, hy, h0, h1, h2, h3]

/-- `h'` comes from `h` by linking missing children into slots on walks. -/
inductive Grows (pa : Nat → Nat) (pml4 : Nat) : Heap → Heap → Prop
  | refl (h : Heap) : Grows pa pml4 h h
  | step {h h' : Heap} {k va : Nat} (size : Nat) (hk : k < 3) (hn : walkNode h pml4 k va ≠ 0)
      (rest : Grows pa pml4 (allocChild pa h (walkNode h pml4 k va) (tableIdx k va) size).2 h') :
      Grows pa pml4 h h'

section addPage

variable {pa : Nat → Nat} {h h' : Heap} {pml4 : Nat} {lbl : Nat → List Nat}

/-- Linking children keeps the tree and every translation. -/
theorem Grows.tree (hg : Grows pa pml4 h h') (ht : TreeShape h pml4 lbl) :
    (∃ lbl', TreeShape h' pml4 lbl') ∧ ∀ a, eptTranslate h' pml4 a = eptTranslate h pml4 a := by
  induction hg generalizing lbl with
  | refl => exact ⟨⟨lbl, ht⟩, fun _ => rfl⟩
  | step size hk hn _ ih =>
    obtain ⟨-, -, ⟨lbl1, ht1⟩, tr1⟩ := allocChild_spec ht hk hn (Prod.mk.eta (p := allocChild pa _ _ _ size)).symm
    obtain ⟨hts, trs⟩ := ih ht1
    exact ⟨hts, fun a => (trs a).trans (tr1 a)⟩

/-- What `ept_add_page` does: it links the missing children along the walk of `va`, then stores
the leaf entry in the pt node the walk reaches. -/
theorem eptAddPage_eq (pa : Nat → Nat) (ht : TreeShape h pml4 lbl) (va phys : Nat) :
    ∃ h', Grows pa pml4 h h' ∧ walkNode h' pml4 3 va ≠ 0 ∧
      eptAddPage pa h pml4 va phys =
        h'.write (walkNode h' pml4 3 va) (tableIdx 3 va) (phys ||| eptDefaults ||| eptCacheWriteback) := by
  rcases hr1 : allocChild pa h pml4 (tableIdx 0 va) (pageSize * 2) with ⟨c1, h1⟩
  obtain ⟨e1, n1, ⟨_, ht1⟩, -⟩ := allocChild_spec (k := 0) ht (by decide) ht.root_ne hr1
  simp only [Nat.reduceAdd] at e1
  subst e1
  rcases hr2 : allocChild pa h1 (walkNode h1 pml4 1 va) (tableIdx 1 va) (pageSize * 2) with ⟨c2, h2⟩
  obtain ⟨e2, n2, ⟨_, ht2⟩, -⟩ := allocChild_spec (k := 1) ht1 (by decide) n1 hr2
  simp only [Nat.reduceAdd] at e2
  subst e2
  rcases hr3 : allocChild pa h2 (walkNode h2 pml4 2 va) (tableIdx 2 va) pageSize with ⟨c3, h3⟩
  obtain ⟨e3, n3, -, -⟩ := allocChild_spec (k := 2) ht2 (by decide) n2 hr3
  simp only [Nat.reduceAdd] at e3
  subst e3
  refine ⟨h3, ?_, n3, by simp only [eptAddPage, hr1, hr2, hr3]⟩
  refine .step (pageSize * 2) (by decide) (show walkNode h pml4 0 va ≠ 0 from ht.root_ne) ?_
  rw [walkNode_zero, hr1]
  refine .step (pageSize * 2) (by decide) n1 ?_
  rw [hr2]
  refine .step pageSize (by decide) n2 ?_
  rw [hr3]
  exact .refl _

/-- `ept_add_page` keeps the tree and sets the frame of exactly the page of `va`: last write
wins, and every other page keeps its translation. -/
theorem eptAddPage_spec (pa : Nat → Nat) (ht : TreeShape h pml4 lbl) (va phys : Nat) :
    (∃ lbl', TreeShape (eptAddPage pa h pml4 va phys) pml4 lbl') ∧
      ∀ a, eptTranslate (eptAddPage pa h pml4 va phys) pml4 a =
        if SamePage a va then phys &&& pageMask else eptTranslate h pml4 a := by
  obtain ⟨h3, hg, n3, hadd⟩ := eptAddPage_eq pa ht va phys
  obtain ⟨⟨lbl3, ht3⟩, tr3⟩ := hg.tree ht
  have hlow : tableIdx 3 va < pageOffset := tableIdx_lt 3 va
  rw [hadd]
  refine ⟨⟨lbl3, ht3.write_low hlow⟩, fun a => ?_⟩
  rw [← tr3 a]
  simp only [eptTranslate_eq _ ht.root_ne, walkNode_write_low _ _ _ _ _ hlow, Heap.write_mem]
  by_cases hs : SamePage a va
  · have hs4 := samePath_four_iff.mpr hs
    have hw := walkNode_congr h3 pml4 (hs4.mono (by decide : 3 ≤ 4))
    simp [hs, hw, n3, hs4 3 (by decide), leafEntry_and_pageMask]
  rw [if_neg hs]
  by_cases hm : walkNode h3 pml4 3 a = 0
  · simp only [hm, if_true]
  have hne : ¬(walkNode h3 pml4 3 a = walkNode h3 pml4 3 va ∧ tableIdx 3 a = tableIdx 3 va) :=
    fun ⟨he, hi⟩ => by
      obtain ⟨-, hp⟩ := ht3.node_inj le_rfl le_rfl hm he
      exact hs (samePath_four_iff.mp (samePath_succ.mpr ⟨hp, hi⟩))
  simp only [hm, hne, if_false]

end addPage

/-- `ept_init` on `h`, then `ept_add_page` for each `(va, phys)` in order. -/
def eptRun (pa : Nat → Nat) (h : Heap) (ops : List (Nat × Nat)) : Nat × Heap :=
  let (pml4, h) := eptInit h
  (pml4, ops.foldl (fun h op => eptAddPage pa h pml4 op.1 op.2) h)

/-- The frame of the last mapping of the page of `a`; 0 when no call mapped it. -/
def lastMapping (ops : List (Nat × Nat)) (a : Nat) : Nat :=
  ops.foldl (fun r op => if SamePage a op.1 then op.2 &&& pageMask else r) 0

private theorem eptTranslate_foldl (pa : Nat → Nat) (pml4 : Nat) (ops : List (Nat × Nat)) :
    ∀ (h : Heap) (lbl : Nat → List Nat) (r : Nat → Nat), TreeShape h pml4 lbl →
      (∀ a, eptTranslate h pml4 a = r a) → ∀ a,
        eptTranslate (ops.foldl (fun h op => eptAddPage pa h pml4 op.1 op.2) h) pml4 a =
          ops.foldl (fun r op => if SamePage a op.1 then op.2 &&& pageMask else r) (r a) := by
  induction ops with
  | nil => exact fun _ _ _ _ hr a => hr a
  | cons op ops ih =>
    intro h lbl r ht hr a
    obtain ⟨⟨lbl', ht'⟩, htr⟩ := eptAddPage_spec pa ht op.1 op.2
    exact ih _ lbl' (fun b => if SamePage b op.1 then op.2 &&& pageMask else r b) ht'
      (fun b => by rw [htr, hr]) a

theorem eptTranslate_eptRun (pa : Nat → Nat) (h : Heap) (ops : List (Nat × Nat)) (a : Nat) :
    eptTranslate (eptRun pa h ops).2 (eptRun pa h ops).1 a = lastMapping ops a :=
  eptTranslate_foldl pa _ ops _ _ (fun _ => 0) (treeShape_eptInit h) (eptTranslate_eptInit h) a

end KvmKext
