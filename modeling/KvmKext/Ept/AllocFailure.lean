import KvmKext.Ept.Hardware

/-!
# A failed node allocation in `ept_add_page`

`IOCallocAligned` returns NULL when `IOMallocAligned` does, and `ept_add_page` never tests it. A
failed allocation for a missing pdpt, pd or pt is linked as NULL and entered as
`__pa(NULL) | EPT_DEFAULTS`, a present entry in the hardware half with no child in the host half;
the next line then reads through the NULL pointer. No status reaches the caller, whose call
returns `void`.
-/

namespace KvmKext

/-- `IOCallocAligned` over an allocator that may fail: NULL, with nothing allocated, when `fails`.
Modelled from the IOKit contract: `IOMallocAligned` returns NULL when it cannot allocate. -/
def ioCallocAlignedOr (fails : Bool) (h : Heap) (size : Nat) : Nat × Heap :=
  if fails then (0, h) else ioCallocAligned h size

/-- One level of `ept_add_page` over an allocator that may fail; what `IOCallocAligned` returns is
linked and entered without a test. -/
def allocChildOr (pa : Nat → Nat) (fails : Bool) (h : Heap) (node i size : Nat) : Nat × Heap :=
  let child := h.mem node (pageOffset + i)
  if child = 0 then
    let (child, h) := ioCallocAlignedOr fails h size
    (child, (h.write node (pageOffset + i) child).write node i (pa child ||| eptDefaults))
  else (child, h)

/-- `ept_add_page` when the allocation for depth `k` fails iff `fails k`. A NULL pointer the code
dereferences ends the call with the expression it dereferenced and memory as the fault finds it. -/
def eptAddPageOr (pa : Nat → Nat) (fails : Nat → Bool) (h : Heap) (pml4 va phys : Nat) :
    Except (String × Heap) Heap :=
  let (pdpt, h) := allocChildOr pa (fails 0) h pml4 (tableIdx 0 va) (pageSize * 2)
  if pdpt = 0 then .error ("pdpt", h) else
  let (pd, h) := allocChildOr pa (fails 1) h pdpt (tableIdx 1 va) (pageSize * 2)
  if pd = 0 then .error ("pd", h) else
  let (pt, h) := allocChildOr pa (fails 2) h pd (tableIdx 2 va) pageSize
  if pt = 0 then .error ("pt", h) else
  .ok (h.write pt (tableIdx 3 va) (phys ||| eptDefaults ||| eptCacheWriteback))

/-- The NULL child the code dereferences after a failed allocation at depth `k`. -/
def nullChild : Nat → String
  | 0 => "pdpt"
  | 1 => "pd"
  | _ => "pt"

theorem Heap.write_of_eq {h : Heap} {p i v : Nat} (hv : h.mem p i = v) : h.write p i v = h := by
  subst hv
  simp only [Heap.write, Function.update_eq_self]

/-- The node of `va` at depth `k` links NULL in its host half and enters `__pa(NULL) |
EPT_DEFAULTS` in its hardware half. -/
structure NullLinked (pa : Nat → Nat) (h : Heap) (pml4 k va : Nat) : Prop where
  node_ne : walkNode h pml4 k va ≠ 0
  host_null : h.mem (walkNode h pml4 k va) (pageOffset + tableIdx k va) = 0
  entry : h.mem (walkNode h pml4 k va) (tableIdx k va) = pa 0 ||| eptDefaults

theorem NullLinked.not_entriesAgree {pa : Nat → Nat} {h : Heap} {pml4 k va : Nat}
    (hl : NullLinked pa h pml4 k va) (hk : k < 3) : ¬EntriesAgree pa h pml4 := by
  intro he
  have := he k va (tableIdx k va) hk hl.node_ne (tableIdx_lt k va)
  rw [hl.entry, if_pos hl.host_null] at this
  simpa [eptDefaults, vmxEptReadableMask] using congrArg (Nat.testBit · 0) this

section levels

variable {pa : Nat → Nat} {h : Heap} {pml4 : Nat} {lbl : Nat → List Nat} {k va : Nat}

theorem allocChildOr_eq_allocChild {b : Bool} {n i : Nat} (size : Nat)
    (hb : h.mem n (pageOffset + i) = 0 → b = false) :
    allocChildOr pa b h n i size = allocChild pa h n i size := by
  by_cases hc : h.mem n (pageOffset + i) = 0
  · simp only [allocChildOr, allocChild, ioCallocAlignedOr, hb hc, if_pos hc, Bool.false_eq_true,
      if_false]
  · simp only [allocChildOr, allocChild, if_neg hc]

/-- A failed allocation for a missing child of the depth-`k` node: the child is NULL, the slot
keeps NULL and the entry becomes `__pa(NULL) | EPT_DEFAULTS`. That store is below `PAGE_OFFSET`,
so no translation changes. -/
theorem allocChildOr_fails (ht : TreeShape h pml4 lbl) (hk : k < 3) (hn : walkNode h pml4 k va ≠ 0)
    (hz : walkNode h pml4 (k + 1) va = 0) {size c : Nat} {h' : Heap}
    (hr : allocChildOr pa true h (walkNode h pml4 k va) (tableIdx k va) size = (c, h')) :
    c = 0 ∧ NullLinked pa h' pml4 k va ∧ ∀ a, eptTranslate h' pml4 a = eptTranslate h pml4 a := by
  rw [walkNode_succ, if_neg hn] at hz
  have hi : tableIdx k va < pageOffset := tableIdx_lt k va
  simp only [allocChildOr, ioCallocAlignedOr, if_pos hz, if_true, Heap.write_of_eq hz,
    Prod.mk.injEq] at hr
  obtain ⟨rfl, rfl⟩ := hr
  have hw := walkNode_write_low h pml4 (walkNode h pml4 k va) _ (pa 0 ||| eptDefaults) hi
  refine ⟨rfl, ⟨by rwa [hw], ?_, by simp [hw]⟩, fun a => ?_⟩
  · have : pageOffset + tableIdx k va ≠ tableIdx k va := by omega
    simp [hw, this, hz]
  · rw [eptTranslate_eq _ ht.root_ne, eptTranslate_eq _ ht.root_ne, hw]
    split_ifs with h3
    · rfl
    · have hne : walkNode h pml4 3 a ≠ walkNode h pml4 k va := fun heq => by
        have := (ht.node_inj le_rfl (by omega) h3 heq).1; omega
      simp [hne]

/-- Linking a child at depth `k` moves no node of the same walk at any other depth. -/
theorem walkNode_allocChild_of_ne (ht : TreeShape h pml4 lbl) (hk : k < 3)
    (hn : walkNode h pml4 k va ≠ 0) (size : Nat) {j : Nat} (hj : j ≤ 3) (hjk : j ≠ k + 1) :
    walkNode (allocChild pa h (walkNode h pml4 k va) (tableIdx k va) size).2 pml4 j va =
      walkNode h pml4 j va := by
  by_cases hc : h.mem (walkNode h pml4 k va) (pageOffset + tableIdx k va) = 0
  · rw [walkNode_allocChild_fresh ht hk hn hc hj, if_neg hjk]
    split_ifs with hkj
    · have hz : walkNode h pml4 (k + 1) va = 0 := by rw [walkNode_succ, if_neg hn, hc]
      exact (walkNode_eq_zero_of_le h pml4 va hz (by omega)).symm
    · rfl
  · rw [allocChild_of_ne hc]

/-- A level whose allocation is not made, or made and successful, is `allocChild`'s: its child is
the next node of the walk, the tree and every translation are kept, and the walk's nodes at other
depths do not move. -/
theorem allocChildOr_level (ht : TreeShape h pml4 lbl) (hk : k < 3) (hn : walkNode h pml4 k va ≠ 0)
    {b : Bool} (hb : walkNode h pml4 (k + 1) va = 0 → b = false) {size c : Nat} {h' : Heap}
    (hr : allocChildOr pa b h (walkNode h pml4 k va) (tableIdx k va) size = (c, h')) :
    allocChild pa h (walkNode h pml4 k va) (tableIdx k va) size = (c, h') ∧
      c = walkNode h' pml4 (k + 1) va ∧ c ≠ 0 ∧ (∃ lbl', TreeShape h' pml4 lbl') ∧
      (∀ a, eptTranslate h' pml4 a = eptTranslate h pml4 a) ∧
      ∀ j ≤ 3, j ≠ k + 1 → walkNode h' pml4 j va = walkNode h pml4 j va := by
  have hac : allocChild pa h (walkNode h pml4 k va) (tableIdx k va) size = (c, h') := by
    rw [← hr, allocChildOr_eq_allocChild size fun hc => hb (by rw [walkNode_succ, if_neg hn, hc])]
  obtain ⟨e, hc, hts, htr⟩ := allocChild_spec ht hk hn hac
  refine ⟨hac, e, hc, hts, htr, fun j hj hjk => ?_⟩
  rw [← walkNode_allocChild_of_ne ht hk hn size hj hjk, hac]

/-- One level of the call: the allocation it makes fails, and the level faults as
`allocChildOr_fails` says, or no allocation fails and the level is `allocChild`'s. -/
theorem allocChildOr_step (ht : TreeShape h pml4 lbl) (hk : k < 3) (hn : walkNode h pml4 k va ≠ 0)
    {b : Bool} {size c : Nat} {h' : Heap}
    (hr : allocChildOr pa b h (walkNode h pml4 k va) (tableIdx k va) size = (c, h')) :
    (walkNode h pml4 (k + 1) va = 0 ∧ b = true ∧ c = 0 ∧ NullLinked pa h' pml4 k va ∧
      ∀ a, eptTranslate h' pml4 a = eptTranslate h pml4 a) ∨
    ((walkNode h pml4 (k + 1) va = 0 → b = false) ∧
      allocChild pa h (walkNode h pml4 k va) (tableIdx k va) size = (c, h') ∧
      c = walkNode h' pml4 (k + 1) va ∧ c ≠ 0 ∧ (∃ lbl', TreeShape h' pml4 lbl') ∧
      (∀ a, eptTranslate h' pml4 a = eptTranslate h pml4 a) ∧
      ∀ j ≤ 3, j ≠ k + 1 → walkNode h' pml4 j va = walkNode h pml4 j va) := by
  by_cases hf : walkNode h pml4 (k + 1) va = 0 ∧ b = true
  · obtain ⟨hz, rfl⟩ := hf
    exact .inl ⟨hz, rfl, allocChildOr_fails ht hk hn hz hr⟩
  · have hb : walkNode h pml4 (k + 1) va = 0 → b = false := fun hz => by simpa [hz] using hf
    exact .inr ⟨hb, allocChildOr_level ht hk hn hb hr⟩

/-- The call over a tree either makes no failing allocation and is `ept_add_page`, or faults at
the first allocation that fails, on the NULL child it links, with every translation as before the
call. -/
theorem eptAddPageOr_cases (pa : Nat → Nat) (fails : Nat → Bool) (ht : TreeShape h pml4 lbl)
    (va phys : Nat) :
    (eptAddPageOr pa fails h pml4 va phys = .ok (eptAddPage pa h pml4 va phys) ∧
      ∀ k < 3, walkNode h pml4 (k + 1) va = 0 → fails k = false) ∨
    ∃ k < 3, ∃ h', eptAddPageOr pa fails h pml4 va phys = .error (nullChild k, h') ∧
      (∀ j < k, walkNode h pml4 (j + 1) va = 0 → fails j = false) ∧
      walkNode h pml4 (k + 1) va = 0 ∧ fails k = true ∧ NullLinked pa h' pml4 k va ∧
      ∀ a, eptTranslate h' pml4 a = eptTranslate h pml4 a := by
  -- the pdpt
  rcases hr1 : allocChildOr pa (fails 0) h pml4 (tableIdx 0 va) (pageSize * 2) with ⟨c1, h1⟩
  rcases allocChildOr_step (k := 0) ht (by decide) ht.root_ne hr1 with
    ⟨hz, hf, rfl, hl, htr⟩ | ⟨f0, a1, rfl, n1, ⟨lbl1, ht1⟩, tr1, w1⟩
  · refine .inr ⟨0, by decide, _, ?_, fun j hj => absurd hj (Nat.not_lt_zero j), hz, hf, hl, htr⟩
    simp only [eptAddPageOr, hr1, if_true, nullChild]
  -- the pd
  rcases hr2 : allocChildOr pa (fails 1) h1 (walkNode h1 pml4 1 va) (tableIdx 1 va) (pageSize * 2)
    with ⟨c2, h2⟩
  have w12 := w1 2 (by decide) (by decide)
  rcases allocChildOr_step (k := 1) ht1 (by decide) n1 hr2 with
    ⟨hz, hf, rfl, hl, htr⟩ | ⟨f1, a2, rfl, n2, ⟨lbl2, ht2⟩, tr2, w2⟩
  · refine .inr ⟨1, by decide, _, ?_, fun j hj => by interval_cases j; exact f0,
      w12.symm.trans hz, hf, hl, fun a => (htr a).trans (tr1 a)⟩
    simp only [eptAddPageOr, hr1, if_neg n1, hr2, if_true, nullChild]
  -- the pt
  rcases hr3 : allocChildOr pa (fails 2) h2 (walkNode h2 pml4 2 va) (tableIdx 2 va) pageSize
    with ⟨c3, h3⟩
  have w13 := (w2 3 (by decide) (by decide)).trans (w1 3 (by decide) (by decide))
  rcases allocChildOr_step (k := 2) ht2 (by decide) n2 hr3 with
    ⟨hz, hf, rfl, hl, htr⟩ | ⟨f2, a3, rfl, n3, -⟩
  · refine .inr ⟨2, by decide, _, ?_, fun j hj => by interval_cases j; exacts [f0, f1 ∘ w12.trans],
      w13.symm.trans hz, hf, hl, fun a => ((htr a).trans (tr2 a)).trans (tr1 a)⟩
    simp only [eptAddPageOr, hr1, if_neg n1, hr2, if_neg n2, hr3, if_true, nullChild]
  -- the leaf
  refine .inl ⟨?_, fun k hk => by interval_cases k; exacts [f0, f1 ∘ w12.trans, f2 ∘ w13.trans]⟩
  simp only [walkNode_zero] at a1
  simp only [eptAddPageOr, eptAddPage, hr1, a1, if_neg n1, hr2, a2, if_neg n2, hr3, a3, if_neg n3]

/-- With no allocation failing, the call is `ept_add_page`. -/
theorem eptAddPageOr_of_no_failure (pa : Nat → Nat) {fails : Nat → Bool}
    (ht : TreeShape h pml4 lbl) (va phys : Nat) (hf : ∀ k, fails k = false) :
    eptAddPageOr pa fails h pml4 va phys = .ok (eptAddPage pa h pml4 va phys) := by
  rcases eptAddPageOr_cases pa fails ht va phys with ⟨hok, -⟩ | ⟨k, -, -, -, -, -, hk, -⟩
  · exact hok
  · rw [hf k] at hk
    cases hk

/-- A call that makes an allocation which fails returns no status: it faults on the NULL pointer
at the first such allocation, whose node then holds a present entry with no child, so the two
halves of the tree disagree there. The software walk, and so `ept_translate`, is unchanged. -/
theorem eptAddPageOr_allocation_fails (pa : Nat → Nat) (fails : Nat → Bool)
    (ht : TreeShape h pml4 lbl) (va phys : Nat)
    (hf : ∃ k < 3, walkNode h pml4 (k + 1) va = 0 ∧ fails k = true) :
    ∃ k < 3, ∃ h', eptAddPageOr pa fails h pml4 va phys = .error (nullChild k, h') ∧
      (∀ j < k, walkNode h pml4 (j + 1) va = 0 → fails j = false) ∧
      walkNode h pml4 (k + 1) va = 0 ∧ fails k = true ∧ NullLinked pa h' pml4 k va ∧
      ¬EntriesAgree pa h' pml4 ∧ ∀ a, eptTranslate h' pml4 a = eptTranslate h pml4 a := by
  rcases eptAddPageOr_cases pa fails ht va phys with
    ⟨-, hno⟩ | ⟨k, hk, h', hr, hfirst, hz, hfk, hl, htr⟩
  · obtain ⟨k, hk, hz, hfk⟩ := hf
    rw [hno k hk hz] at hfk
    cases hfk
  · exact ⟨k, hk, h', hr, hfirst, hz, hfk, hl, hl.not_entriesAgree hk, htr⟩

end levels

/-- From a fresh root, where the halves agree, a call whose allocations all fail faults on
`pdpt`, with the halves disagreeing. -/
theorem eptAddPageOr_allocation_fails_eptInit :
    EntriesAgree id (eptInit Heap.initial).2 (eptInit Heap.initial).1 ∧
      ∃ h', eptAddPageOr id (fun _ => true) (eptInit Heap.initial).2 (eptInit Heap.initial).1 0 0 =
        .error ("pdpt", h') ∧ ¬EntriesAgree id h' (eptInit Heap.initial).1 := by
  have h1 := walkNode_eptInit Heap.initial (k := 1) (by decide) 0
  obtain ⟨k, hk, h', hr, hfirst, -, hfk, -, hn, -⟩ := eptAddPageOr_allocation_fails id
    (fun _ => true) (treeShape_eptInit Heap.initial) 0 0 ⟨0, by decide, h1, rfl⟩
  obtain rfl : k = 0 := by
    by_contra hk0
    exact Bool.noConfusion (hfirst 0 (by omega) h1)
  exact ⟨entriesAgree_eptInit id Heap.initial, h', hr, hn⟩

end KvmKext
