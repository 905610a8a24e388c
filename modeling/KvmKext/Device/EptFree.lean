import KvmKext.Device.Close
import KvmKext.Ept.Mapping

/-!
# What `ept_free` releases

`ept_free` reads the host pointers of the root, of each pdpt and of each pd, and frees every
non-NULL child bottom-up, then the root. `freeCalls` lists the `IOFree` calls this makes, and
`eptFree` is those calls in order. From `ept_init` and any `ept_add_page` calls the list is a
permutation of the blocks those calls allocated, each with the size it was allocated with: every
node is freed exactly once, and nothing else is, since a leaf entry is never read as a pointer.
-/

namespace KvmKext

/-- The `IOFree` calls that free the subtree of `n` with `d` levels below it: a pt (`d = 0`) is
one page; a higher node frees its non-NULL children in slot order, then its own two pages. -/
def freeCalls (h : Heap) : Nat → Nat → List (Nat × Nat)
  | 0, n => [(n, pageSize)]
  | d + 1, n => ((List.range pageOffset).flatMap fun i =>
      if h.mem n (pageOffset + i) = 0 then [] else freeCalls h d (h.mem n (pageOffset + i))) ++
      [(n, pageSize * 2)]

/-- `IOFree` on each call in order. -/
def ioFrees (h : Heap) (cs : List (Nat × Nat)) : Heap :=
  cs.foldl (fun h c => ioFree h c.1 c.2) h

@[simp] theorem ioFree_mem (h : Heap) (p size : Nat) : (ioFree h p size).mem = h.mem := by
  unfold ioFree; split_ifs <;> rfl

@[simp] theorem ioFrees_mem (h : Heap) (cs : List (Nat × Nat)) : (ioFrees h cs).mem = h.mem := by
  induction cs generalizing h with
  | nil => rfl
  | cons c cs ih => simp only [ioFrees, List.foldl_cons] at ih ⊢; rw [ih, ioFree_mem]

theorem ioFrees_append (h : Heap) (cs ds : List (Nat × Nat)) :
    ioFrees h (cs ++ ds) = ioFrees (ioFrees h cs) ds := List.foldl_append _ _ _ _

/-- One loop of `ept_free` is the calls of each child in slot order, when the loop body is the
calls of its child on any heap with the same words. -/
theorem forChildren_eq (node : Nat) (body : Heap → Nat → Heap) (f : Nat → List (Nat × Nat))
    (h : Heap) (hb : ∀ h', h'.mem = h.mem → ∀ c, body h' c = ioFrees h' (f c)) :
    forChildren node body h = ioFrees h ((List.range pageOffset).flatMap fun i =>
      if h.mem node (pageOffset + i) = 0 then [] else f (h.mem node (pageOffset + i))) := by
  unfold forChildren
  suffices ∀ (l : List Nat) (h' : Heap), h'.mem = h.mem →
      l.foldl (fun h' i => if h'.mem node (pageOffset + i) = 0 then h'
        else body h' (h'.mem node (pageOffset + i))) h' =
      ioFrees h' (l.flatMap fun i =>
        if h.mem node (pageOffset + i) = 0 then [] else f (h.mem node (pageOffset + i))) from
    this _ h rfl
  intro l
  induction l with
  | nil => intro h' _; rfl
  | cons i l ih =>
    intro h' hm
    rw [List.foldl_cons, List.flatMap_cons, ioFrees_append, hm]
    split_ifs with hc
    · exact ih h' hm
    · rw [hb h' hm]
      exact ih _ (by rw [ioFrees_mem, hm])

/-- A loop over the children of a node, each freed as a subtree with `d` levels below it, then
the node's two pages, frees the node's subtree. -/
theorem forChildren_level (body : Heap → Nat → Heap) {d : Nat} {h : Heap}
    (hb : ∀ h', h'.mem = h.mem → ∀ c, body h' c = ioFrees h' (freeCalls h d c)) (h' : Heap)
    (hm : h'.mem = h.mem) (c : Nat) :
    ioFree (forChildren c body h') c (pageSize * 2) = ioFrees h' (freeCalls h (d + 1) c) := by
  rw [freeCalls, ioFrees_append, forChildren_eq c body _ h' fun h'' hm' => hb h'' (hm'.trans hm),
    hm]
  rfl

/-- `ept_free` makes the calls of `freeCalls`, in order. -/
theorem eptFree_eq (h : Heap) (pml4 : Nat) : eptFree h pml4 = ioFrees h (freeCalls h 3 pml4) := by
  have pt : ∀ h', h'.mem = h.mem → ∀ c, ioFree h' c pageSize = ioFrees h' (freeCalls h 0 c) :=
    fun _ _ _ => rfl
  exact forChildren_level _ (forChildren_level _ (forChildren_level _ pt)) h rfl pml4

section Tree

variable {h h' : Heap} {pml4 : Nat} {lbl : Nat → List Nat}

theorem SamePath.trans {k va wa xa : Nat} (h1 : SamePath k va wa) (h2 : SamePath k wa xa) :
    SamePath k va xa := fun j hj => (h1 j hj).trans (h2 j hj)

/-- Any index at depth `j` can follow the path of `va` above it. -/
theorem exists_tableIdx {j : Nat} (hj : j ≤ 3) (va : Nat) {i : Nat} (hi : i < 512) :
    ∃ wa, SamePath j wa va ∧ tableIdx j wa = i := by
  -- keep the indices of `va` above depth `j`, put `i` at depth `j` and zeros below it
  have hsplit : ∀ {e d : Nat}, 39 - 9 * j + (9 + d) = e → ∀ x,
      x / 2 ^ e = x / 2 ^ (39 - 9 * j) / 512 / 2 ^ d := by
    intro e d he x
    rw [Nat.div_div_eq_div_mul, Nat.div_div_eq_div_mul, show (512 : Nat) = 2 ^ 9 from rfl, ← pow_add,
      ← pow_add, he]
  have hw : ∀ q, (q * 512 + i) * 2 ^ (39 - 9 * j) / 2 ^ (39 - 9 * j) = q * 512 + i := fun q =>
    Nat.mul_div_cancel _ (Nat.two_pow_pos _)
  refine ⟨(va / 2 ^ (39 - 9 * j) / 512 * 512 + i) * 2 ^ (39 - 9 * j), fun j' hj' => ?_, ?_⟩
  · have he : 39 - 9 * j + (9 + (9 * (j - j') - 9)) = 39 - 9 * j' := by omega
    rw [tableIdx_eq_mod, tableIdx_eq_mod, hsplit he, hw, hsplit he va]
    generalize va / 2 ^ (39 - 9 * j) / 512 = q
    congr 2
    omega
  · rw [tableIdx_eq_mod, hw]
    generalize va / 2 ^ (39 - 9 * j) / 512 = q
    omega

/-- The words `ept_free` reads are the host pointers of the nodes of the subtree: a heap that
keeps those keeps its calls. -/
theorem freeCalls_congr : ∀ {d n : Nat}, (∀ m s, (m, s) ∈ freeCalls h d n → ∀ j < pageOffset,
    h'.mem m (pageOffset + j) = h.mem m (pageOffset + j)) → freeCalls h' d n = freeCalls h d n
  | 0, _, _ => rfl
  | d + 1, n, hs => by
    have hn := hs n (pageSize * 2) (by simp [freeCalls])
    simp only [freeCalls]
    refine congrArg (· ++ [(n, pageSize * 2)]) (List.flatMap_congr fun i hi => ?_)
    have hi := List.mem_range.1 hi
    rw [hn i hi]
    split_ifs with hc
    · rfl
    · exact freeCalls_congr fun m s hm => hs m s (by
        simp only [freeCalls, List.mem_append, List.mem_flatMap]
        exact .inl ⟨i, List.mem_range.2 hi, by rw [if_neg hc]; exact hm⟩)

/-- A block whose host pointers are all NULL frees only itself. -/
theorem freeCalls_leaf {c : Nat} (hc : ∀ j < pageOffset, h.mem c (pageOffset + j) = 0) :
    ∀ d, freeCalls h d c = [(c, if d = 0 then pageSize else pageSize * 2)]
  | 0 => rfl
  | d + 1 => by
    simp only [freeCalls, Nat.add_one_ne_zero, if_false]
    rw [List.flatMap_eq_nil_iff.2 fun i hi => by rw [if_pos (hc i (List.mem_range.1 hi))]]
    rfl

/-- Every node freed with the subtree of the depth-`j` node of `va` is the node of a walk that
follows `va` down to depth `j`. -/
theorem mem_freeCalls_walk : ∀ {d j va a s : Nat}, j + d = 3 → walkNode h pml4 j va ≠ 0 →
    (a, s) ∈ freeCalls h d (walkNode h pml4 j va) →
    ∃ j' wa, j ≤ j' ∧ j' ≤ 3 ∧ SamePath j wa va ∧ walkNode h pml4 j' wa = a ∧ a ≠ 0
  | 0, j, va, a, s, hjd, hn, ha => by
    simp only [freeCalls, List.mem_singleton, Prod.mk.injEq] at ha
    exact ⟨j, va, le_rfl, by omega, SamePath.refl _ _, ha.1.symm, ha.1 ▸ hn⟩
  | d + 1, j, va, a, s, hjd, hn, ha => by
    simp only [freeCalls, List.mem_append, List.mem_flatMap, List.mem_range, List.mem_singleton,
      Prod.mk.injEq] at ha
    rcases ha with ⟨i, hi, ha⟩ | ha
    · split_ifs at ha with hc
      · exact absurd ha (List.not_mem_nil _)
      obtain ⟨wa, hs, hidx⟩ := exists_tableIdx (j := j) (by omega) va hi
      have hw : walkNode h pml4 (j + 1) wa = h.mem (walkNode h pml4 j va) (pageOffset + i) := by
        rw [walkNode_succ, walkNode_congr h pml4 hs, if_neg hn, hidx]
      rw [← hw] at ha hc
      obtain ⟨j', wb, h1, h2, h3, h4, h5⟩ := mem_freeCalls_walk (by omega) hc ha
      exact ⟨j', wb, by omega, h2, (h3.mono (by omega)).trans hs, h4, h5⟩
    · exact ⟨j, va, le_rfl, by omega, SamePath.refl _ _, ha.1.symm, ha.1 ▸ hn⟩

end Tree

/-- Inserting one element into the part of a `flatMap` that one member of a list contributes. -/
theorem flatMap_perm_cons {α β : Type} {l : List α} {f g : α → List β} {a : α} {x : β}
    (hl : l.Nodup) (ha : a ∈ l) (hx : (g a).Perm (x :: f a)) (hg : ∀ b ∈ l, b ≠ a → g b = f b) :
    (l.flatMap g).Perm (x :: l.flatMap f) := by
  induction l with
  | nil => exact absurd ha (List.not_mem_nil _)
  | cons b l ih =>
    obtain ⟨hb, hl⟩ := List.nodup_cons.1 hl
    simp only [List.flatMap_cons]
    by_cases hab : b = a
    · subst hab
      have hrest : l.flatMap g = l.flatMap f :=
        List.flatMap_congr fun c hc => hg c (List.mem_cons_of_mem _ hc) fun h => hb (h ▸ hc)
      rw [hrest]
      exact hx.append_right _
    · rw [hg b (List.mem_cons_self _ _) hab]
      have ha' : a ∈ l := (List.mem_cons.1 ha).resolve_left (Ne.symm hab)
      exact ((ih hl ha' fun c hc => hg c (List.mem_cons_of_mem _ hc)).append_left _).trans
        List.perm_middle

section Alloc

variable {h : Heap} {pml4 : Nat} {lbl : Nat → List Nat} {k va : Nat}

/-- Linking a fresh child into the empty slot of the depth-`k` node of `va` adds one call to the
subtree of every node above it on the walk: the new block, with the size of its depth. -/
theorem freeCalls_allocChild_fresh (pa : Nat → Nat) (size : Nat) (ht : TreeShape h pml4 lbl)
    (hk : k < 3)
    (hn : walkNode h pml4 k va ≠ 0)
    (hc : h.mem (walkNode h pml4 k va) (pageOffset + tableIdx k va) = 0) :
    ∀ {d j : Nat}, j + d = 3 → j ≤ k →
      (freeCalls (allocChild pa h (walkNode h pml4 k va) (tableIdx k va) size).2 d
        (walkNode h pml4 j va)).Perm
        ((h.brk, if k = 2 then pageSize else pageSize * 2) :: freeCalls h d (walkNode h pml4 j va))
  | 0, j, hjd, hjk => by omega
  | d + 1, j, hjd, hjk => by
    have hmem : ∀ q j, (allocChild pa h (walkNode h pml4 k va) (tableIdx k va) size).2.mem q j =
        if q = walkNode h pml4 k va ∧ j = tableIdx k va then pa h.brk ||| eptDefaults
        else if q = walkNode h pml4 k va ∧ j = pageOffset + tableIdx k va then h.brk
        else if q = h.brk then 0 else h.mem q j := allocChild_fresh_mem hc
    have hm : walkNode h pml4 j va ≠ 0 := fun hz => hn (walkNode_eq_zero_of_le h pml4 va hz hjk)
    have hmlt := (ht.node (by omega) hm).1
    have hnlt := (ht.node (by omega) hn).1
    have hi0 := tableIdx_lt j va
    have hoff : ∀ t, pageOffset + t ≠ tableIdx k va := fun t => by
      have := tableIdx_lt k va; unfold pageOffset; omega
    -- a slot of the depth-`j` node other than the new one keeps its word
    have hslot : ∀ i, (walkNode h pml4 j va = walkNode h pml4 k va → i ≠ tableIdx k va) →
        (allocChild pa h (walkNode h pml4 k va) (tableIdx k va) size).2.mem (walkNode h pml4 j va)
          (pageOffset + i) = h.mem (walkNode h pml4 j va) (pageOffset + i) := by
      intro i hi
      rw [hmem]
      simp only [hoff, and_false, if_false, hmlt.ne, Nat.add_left_cancel_iff]
      split_ifs with h1
      · exact absurd h1.2 (hi h1.1)
      · rfl
    simp only [freeCalls]
    rw [← List.cons_append]
    refine List.Perm.append_right _ (flatMap_perm_cons (List.nodup_range _)
      (List.mem_range.2 hi0) ?_ fun i hi hne => ?_)
    · -- the slot on the walk
      rcases Nat.lt_or_eq_of_le hjk with hjk | rfl
      · have hne : walkNode h pml4 j va ≠ walkNode h pml4 k va := fun he =>
          absurd (ht.node_inj (by omega) (by omega) hm he).1 (by omega)
        rw [hslot _ fun he => absurd he hne]
        have hm' : h.mem (walkNode h pml4 j va) (pageOffset + tableIdx j va) =
            walkNode h pml4 (j + 1) va := by rw [walkNode_succ, if_neg hm]
        have hm'0 : walkNode h pml4 (j + 1) va ≠ 0 :=
          fun hz => hn (walkNode_eq_zero_of_le h pml4 va hz (by omega))
        rw [hm', if_neg hm'0, if_neg hm'0]
        exact freeCalls_allocChild_fresh pa size ht hk hn hc (by omega) (by omega)
      · have hnew : (allocChild pa h (walkNode h pml4 j va) (tableIdx j va) size).2.mem
            (walkNode h pml4 j va) (pageOffset + tableIdx j va) = h.brk := by
          rw [hmem]; simp [hoff]
        have hleaf : ∀ t < pageOffset,
            (allocChild pa h (walkNode h pml4 j va) (tableIdx j va) size).2.mem h.brk
              (pageOffset + t) = 0 := fun t _ => by
          rw [hmem]; simp [hnlt.ne']
        rw [hnew, if_neg (Nat.pos_iff_ne_zero.1 h.brk_pos), hc, if_pos rfl,
          freeCalls_leaf hleaf]
        have hsz : (if d = 0 then pageSize else pageSize * 2) =
            if j = 2 then pageSize else pageSize * 2 := by
          split_ifs <;> first | rfl | omega
        rw [hsz]
    · -- every other slot keeps its subtree
      have hi := List.mem_range.1 hi
      have hij : walkNode h pml4 j va = walkNode h pml4 k va → i ≠ tableIdx k va := fun he hik => by
        obtain ⟨rfl, -⟩ := ht.node_inj (by omega) (by omega) hm he
        exact hne hik
      rw [hslot i hij]
      split_ifs with hz
      · rfl
      obtain ⟨wa, hs, hidx⟩ := exists_tableIdx (j := j) (by omega) va hi
      have hw : walkNode h pml4 (j + 1) wa = h.mem (walkNode h pml4 j va) (pageOffset + i) := by
        rw [walkNode_succ, walkNode_congr h pml4 hs, if_neg hm, hidx]
      rw [← hw] at hz ⊢
      refine freeCalls_congr fun a s ha t _ => ?_
      obtain ⟨j', wb, h1, h2, h3, h4, h5⟩ := mem_freeCalls_walk (by omega) hz ha
      have halt := (ht.node h2 (h4 ▸ h5)).1
      rw [h4] at halt
      have han : a ≠ walkNode h pml4 k va := fun he => by
        obtain ⟨rfl, hp⟩ := ht.node_inj h2 (by omega) (h4 ▸ h5) (h4.trans he)
        exact hne (hidx.symm.trans ((h3 j (by omega)).symm.trans (hp j (by omega))))
      rw [hmem]
      simp [han, halt.ne]

@[simp] theorem allocChild_fresh_live (pa : Nat → Nat) {n i : Nat} (size : Nat)
    (hc : h.mem n (pageOffset + i) = 0) :
    (allocChild pa h n i size).2.live = (h.brk, size) :: h.live := by
  simp only [allocChild, if_pos hc, Heap.write_live, ioCallocAligned_live]

end Alloc

/-- The blocks `nodes` that `ept_init` and `ept_add_page` allocated on top of `live0`: they are
the live blocks above `live0`, at distinct addresses below the next free one, and the calls of
`ept_free` are exactly them. -/
structure Owned (h : Heap) (pml4 : Nat) (live0 nodes : List (Nat × Nat)) : Prop where
  tree : ∃ lbl, TreeShape h pml4 lbl
  live : h.live = nodes ++ live0
  nodup : (nodes.map Prod.fst).Nodup
  lt : ∀ x ∈ nodes, x.1 < h.brk
  calls : (freeCalls h 3 pml4).Perm nodes

namespace Owned

variable {h : Heap} {pml4 : Nat} {live0 nodes : List (Nat × Nat)}

/-- One level of `ept_add_page` keeps the blocks owned, with the new child when it allocates one. -/
theorem allocChild (ho : Owned h pml4 live0 nodes) (pa : Nat → Nat) {k : Nat} (hk : k < 3)
    (va size : Nat)
    (hn : walkNode h pml4 k va ≠ 0) (hs : size = if k = 2 then pageSize else pageSize * 2) :
    ∃ nodes', Owned (allocChild pa h (walkNode h pml4 k va) (tableIdx k va) size).2 pml4 live0
      nodes' := by
  by_cases hc : h.mem (walkNode h pml4 k va) (pageOffset + tableIdx k va) = 0
  · obtain ⟨lbl, ht⟩ := ho.tree
    have hbrk := allocChild_fresh_brk pa size hc
    refine ⟨(h.brk, size) :: nodes, ⟨_, ht.allocChild_fresh hk hn hc⟩, ?_, ?_, ?_, ?_⟩
    · rw [allocChild_fresh_live pa size hc, ho.live, List.cons_append]
    · exact List.nodup_cons.2 ⟨fun hm => by
        obtain ⟨x, hx, he⟩ := List.mem_map.1 hm
        exact absurd (ho.lt x hx) (by rw [he]; exact Nat.lt_irrefl _), ho.nodup⟩
    · intro x hx
      rcases List.mem_cons.1 hx with rfl | hx
      · exact hbrk
      · exact (ho.lt x hx).trans hbrk
    · have hp := freeCalls_allocChild_fresh pa size ht hk hn hc (d := 3) (j := 0) rfl
        (Nat.zero_le _)
      rw [walkNode_zero, ← hs] at hp
      exact hp.trans (ho.calls.cons _)
  · rw [allocChild_of_ne hc]
    exact ⟨nodes, ho⟩

/-- A store below `PAGE_OFFSET` keeps the blocks owned. -/
theorem write_low (ho : Owned h pml4 live0 nodes) {p i v : Nat} (hi : i < pageOffset) :
    Owned (h.write p i v) pml4 live0 nodes := by
  obtain ⟨lbl, ht⟩ := ho.tree
  refine ⟨⟨lbl, ht.write_low hi⟩, ho.live, ho.nodup, ho.lt, ?_⟩
  rw [freeCalls_congr fun m s _ j _ => ?_]
  · exact ho.calls
  · have : pageOffset + j ≠ i := by omega
    simp [this]

/-- `ept_add_page` keeps the blocks owned, with the children it links. -/
theorem eptAddPage (ho : Owned h pml4 live0 nodes) (pa : Nat → Nat) (va phys : Nat) :
    ∃ nodes', Owned (KvmKext.eptAddPage pa h pml4 va phys) pml4 live0 nodes' := by
  obtain ⟨lbl, ht⟩ := ho.tree
  rcases hr1 : KvmKext.allocChild pa h pml4 (tableIdx 0 va) (pageSize * 2) with ⟨c1, h1⟩
  obtain ⟨e1, n1, -, -⟩ := allocChild_spec (k := 0) ht (by decide) ht.root_ne hr1
  obtain ⟨N1, ho1⟩ := ho.allocChild pa (k := 0) (by decide) va (pageSize * 2) ht.root_ne rfl
  rw [walkNode_zero, hr1] at ho1
  obtain ⟨lbl1, ht1⟩ := ho1.tree
  simp only [Nat.reduceAdd] at e1
  subst e1
  rcases hr2 : KvmKext.allocChild pa h1 (walkNode h1 pml4 1 va) (tableIdx 1 va) (pageSize * 2) with
    ⟨c2, h2⟩
  obtain ⟨e2, n2, -, -⟩ := allocChild_spec (k := 1) ht1 (by decide) n1 hr2
  obtain ⟨N2, ho2⟩ := ho1.allocChild pa (k := 1) (by decide) va (pageSize * 2) n1 rfl
  rw [hr2] at ho2
  simp only [Nat.reduceAdd] at e2
  subst e2
  rcases hr3 : KvmKext.allocChild pa h2 (walkNode h2 pml4 2 va) (tableIdx 2 va) pageSize with
    ⟨c3, h3⟩
  obtain ⟨N3, ho3⟩ := ho2.allocChild pa (k := 2) (by decide) va pageSize n2 rfl
  rw [hr3] at ho3
  refine ⟨N3, ?_⟩
  simp only [KvmKext.eptAddPage, hr1, hr2, hr3]
  exact ho3.write_low (tableIdx_lt 3 va)

end Owned

/-- After `ept_init` the root is the one block owned. -/
theorem owned_eptInit (h : Heap) :
    Owned (eptInit h).2 (eptInit h).1 h.live [((eptInit h).1, pageSize * 2)] where
  tree := ⟨_, treeShape_eptInit h⟩
  live := rfl
  nodup := List.nodup_singleton _
  lt _ hx := by rw [List.mem_singleton.1 hx]; exact lt_ioCallocAligned_brk h _
  calls := by
    rw [freeCalls_leaf fun j _ => by simp [eptInit]]
    rfl

/-- From `ept_init` and any `ept_add_page` calls the blocks allocated are owned. -/
theorem owned_eptRun (pa : Nat → Nat) (h : Heap) (ops : List (Nat × Nat)) :
    ∃ nodes, Owned (eptRun pa h ops).2 (eptRun pa h ops).1 h.live nodes := by
  simp only [eptRun]
  suffices ∀ (h' : Heap) nodes, Owned h' (eptInit h).1 h.live nodes →
      ∃ nodes', Owned (ops.foldl (fun g op => eptAddPage pa g (eptInit h).1 op.1 op.2) h')
        (eptInit h).1 h.live nodes' from this _ _ (owned_eptInit h)
  induction ops with
  | nil => exact fun h' nodes ho => ⟨nodes, ho⟩
  | cons op ops ih =>
    intro h' nodes ho
    obtain ⟨nodes', ho'⟩ := ho.eptAddPage pa op.1 op.2
    exact ih _ nodes' ho'

/-- Every call frees one page or two. -/
theorem freeCalls_size {h : Heap} : ∀ {d n a s : Nat}, (a, s) ∈ freeCalls h d n →
    s = pageSize ∨ s = pageSize * 2
  | 0, _, _, _, ha => by simp_all [freeCalls]
  | d + 1, n, a, s, ha => by
    simp only [freeCalls, List.mem_append, List.mem_flatMap, List.mem_singleton,
      Prod.mk.injEq] at ha
    rcases ha with ⟨i, -, ha⟩ | ⟨-, rfl⟩
    · split_ifs at ha
      · exact absurd ha (List.not_mem_nil _)
      · exact freeCalls_size ha
    · exact .inr rfl

/-- `IOFree` of non-NULL blocks removes each from the live list. -/
theorem ioFrees_live (h : Heap) : ∀ {cs : List (Nat × Nat)}, (∀ c ∈ cs, c.1 ≠ 0) →
    (ioFrees h cs).live = cs.foldl List.erase h.live
  | [], _ => rfl
  | c :: cs, hc => by
    simp only [ioFrees, List.foldl_cons]
    rw [← ioFrees, ioFrees_live _ fun c' h' => hc c' (List.mem_cons_of_mem _ h'), ioFree,
      if_neg (hc c (List.mem_cons_self _ _))]

/-- The live list compares blocks field by field; that is equality. -/
theorem erase_eq_decEq (l : List (Nat × Nat)) (c : Nat × Nat) :
    l.erase c = @List.erase _ instBEqOfDecidableEq l c := by
  induction l with
  | nil => rfl
  | cons a l ih =>
    simp only [List.erase_cons]
    by_cases hac : a = c <;> simp [hac, ih, instBEqOfDecidableEq]

/-- Erasing a permutation of `nodes` from `nodes ++ rest` leaves `rest`. -/
theorem foldl_erase_of_perm (rest : List (Nat × Nat)) :
    ∀ {cs nodes : List (Nat × Nat)}, cs.Perm nodes → cs.foldl List.erase (nodes ++ rest) = rest
  | [], nodes, hp => by rw [List.perm_nil.1 hp.symm]; rfl
  | c :: cs, nodes, hp => by
    have hc : c ∈ nodes := hp.subset (List.mem_cons_self _ _)
    rw [List.foldl_cons, List.erase_append_left rest hc]
    have hp' := (hp.trans (List.perm_cons_erase hc)).cons_inv
    rw [← erase_eq_decEq] at hp'
    exact foldl_erase_of_perm rest hp'

/-- `ept_free` after `ept_init` and any `ept_add_page` calls. The blocks those calls allocated
are the live blocks above the ones live before, the root among them, at distinct addresses, of one
page or two. `ept_free` makes the calls of `freeCalls`, which are a permutation of those blocks
with their sizes: each is freed exactly once, with the size it was allocated with, and nothing
else is, so the blocks live before `ept_init` are live again afterwards, and only they. -/
theorem eptFree_eptRun (pa : Nat → Nat) (h : Heap) (ops : List (Nat × Nat)) :
    let r := eptRun pa h ops
    ∃ nodes, r.2.live = nodes ++ h.live ∧ (r.1, pageSize * 2) ∈ nodes ∧
      (nodes.map Prod.fst).Nodup ∧ (∀ x ∈ nodes, x.2 = pageSize ∨ x.2 = pageSize * 2) ∧
      eptFree r.2 r.1 = ioFrees r.2 (freeCalls r.2 3 r.1) ∧ (freeCalls r.2 3 r.1).Perm nodes ∧
      (eptFree r.2 r.1).live = h.live := by
  intro r
  obtain ⟨nodes, ho⟩ := owned_eptRun pa h ops
  obtain ⟨lbl, ht⟩ := ho.tree
  have hroot : (r.1, pageSize * 2) ∈ freeCalls r.2 3 r.1 := by simp [freeCalls]
  have hne : ∀ c ∈ freeCalls r.2 3 r.1, c.1 ≠ 0 := fun c hc => by
    obtain ⟨-, -, -, -, -, -, hc0⟩ :=
      mem_freeCalls_walk (j := 0) rfl (show walkNode r.2 r.1 0 0 ≠ 0 from ht.root_ne)
        (by rw [walkNode_zero]; exact hc)
    exact hc0
  refine ⟨nodes, ho.live, ho.calls.subset hroot, ho.nodup,
    fun x hx => freeCalls_size (ho.calls.symm.subset hx), eptFree_eq _ _, ho.calls, ?_⟩
  rw [eptFree_eq, ioFrees_live _ hne, ho.live]
  exact foldl_erase_of_perm _ ho.calls

end KvmKext
