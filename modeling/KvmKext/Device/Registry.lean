import KvmKext.Device.Close

/-!
# The registry of open processes

`head_of_state` heads a doubly linked list of `struct state`, one per process that has the device
open. `kvm_dev_open` finds the caller's state with `state_find`, or pushes a zeroed one at the
front, and counts the open; `kvm_dev_close` counts the close and, on the last one, unlinks the
state and frees it. The frees through `state->vcpu` between the two are `kvmDevClose`'s; here only
the list fields of the records are kept. The list is described by the sequence `L` of its records,
which no field of the kext holds: `next` is the neighbour after in `L`, and `prev` the one before.
-/

namespace KvmKext

/-- The element after `x` in `L`; 0 after the last one and for an `x` not in `L`. -/
def nextIn : List Nat → Nat → Nat
  | [], _ => 0
  | y :: L, x => if x = y then L.headD 0 else nextIn L x

section Neighbours

variable {L P M : List Nat} {x y : Nat}

@[simp] theorem nextIn_nil (x : Nat) : nextIn [] x = 0 := rfl

theorem nextIn_cons (a : Nat) (L : List Nat) (x : Nat) :
    nextIn (a :: L) x = if x = a then L.headD 0 else nextIn L x := rfl

theorem headD_mem (L : List Nat) : L.headD 0 = 0 ∨ L.headD 0 ∈ L := by
  cases L <;> simp

theorem nextIn_of_not_mem (h : x ∉ L) : nextIn L x = 0 := by
  induction L with
  | nil => rfl
  | cons a L ih =>
    simp only [List.mem_cons, not_or] at h
    rw [nextIn_cons, if_neg h.1, ih h.2]

theorem nextIn_mem (x : Nat) : nextIn L x = 0 ∨ nextIn L x ∈ L := by
  induction L with
  | nil => exact .inl rfl
  | cons a L ih =>
    rw [nextIn_cons]
    split_ifs
    · exact (headD_mem L).imp_right (List.mem_cons_of_mem _)
    · exact ih.imp_right (List.mem_cons_of_mem _)

/-- What is 0 or in `L` is not an element `a ≠ 0` outside `L`. -/
theorem ne_of_zero_or_mem {a b : Nat} (ha : a ∉ L) (h0 : a ≠ 0) (hb : b = 0 ∨ b ∈ L) : b ≠ a := by
  rintro rfl
  rcases hb with hb | hb
  exacts [h0 hb, ha hb]

/-- No element is followed by the first one. -/
theorem nextIn_ne_headD (hL : L.Nodup) (hne : L.headD 0 ≠ 0) (x : Nat) :
    nextIn L x ≠ L.headD 0 := by
  cases L with
  | nil => exact absurd rfl hne
  | cons h T =>
    have hT := (List.nodup_cons.1 hL).1
    rw [nextIn_cons]
    split_ifs
    · exact ne_of_zero_or_mem hT hne (headD_mem T)
    · exact ne_of_zero_or_mem hT hne (nextIn_mem x)

/-- Two elements followed by the same non-NULL element are the same. -/
theorem nextIn_inj (hL : L.Nodup) {a b : Nat} (ha : a ∈ L) (hb : b ∈ L)
    (h : nextIn L a = nextIn L b) (hn : nextIn L a ≠ 0) : a = b := by
  induction L with
  | nil => simp at ha
  | cons c T ih =>
    obtain ⟨hc, hT⟩ := List.nodup_cons.1 hL
    simp only [nextIn_cons] at h hn
    rcases List.mem_cons.1 ha with rfl | ha' <;> rcases List.mem_cons.1 hb with rfl | hb'
    · rfl
    · have hbc : b ≠ a := fun e => hc (e ▸ hb')
      rw [if_pos rfl, if_neg hbc] at h
      rw [if_pos rfl] at hn
      exact absurd h.symm (nextIn_ne_headD hT hn b)
    · have hac : a ≠ b := fun e => hc (e ▸ ha')
      rw [if_neg hac, if_pos rfl] at h
      rw [if_neg hac] at hn
      exact absurd h (nextIn_ne_headD hT (h ▸ hn) a)
    · have hac : a ≠ c := fun e => hc (e ▸ ha')
      have hbc : b ≠ c := fun e => hc (e ▸ hb')
      rw [if_neg hac, if_neg hbc] at h
      rw [if_neg hac] at hn
      exact ih hT ha' hb' h hn

/-- In `L` followed by `M`, an element of `L` other than the last is followed as in `L`. -/
theorem nextIn_of_suffix (hL : (P ++ x :: M).Nodup) : nextIn (P ++ x :: M) x = M.headD 0 := by
  induction P with
  | nil => simp [nextIn_cons]
  | cons a P ih =>
    obtain ⟨ha, hP⟩ := List.nodup_cons.1 hL
    have hxa : x ≠ a := fun e => ha (e ▸ List.mem_append_right _ (List.mem_cons_self _ _))
    rw [List.cons_append, nextIn_cons, if_neg hxa, ih hP]

theorem headD_erase (hL : L.Nodup) (x : Nat) :
    (L.erase x).headD 0 = if L.headD 0 = x then nextIn L x else L.headD 0 := by
  cases L with
  | nil => simp
  | cons b T =>
    by_cases hb : b = x
    · subst hb
      simp [nextIn_cons]
    · rw [List.erase_cons_tail (show ¬(b == x) = true by simpa using hb)]
      simp [hb]

/-- Unlinking `x`: the element before it is followed by the one after it. -/
theorem nextIn_erase (hL : L.Nodup) (h0 : 0 ∉ L) {x y : Nat} (hx : x ∈ L) (hy : y ≠ x) :
    nextIn (L.erase x) y = if nextIn L y = x then nextIn L x else nextIn L y := by
  induction L with
  | nil => simp at hx
  | cons a T ih =>
    obtain ⟨ha, hT⟩ := List.nodup_cons.1 hL
    have ha0 : a ≠ 0 := fun e => h0 (e ▸ List.mem_cons_self _ _)
    have hT0 : 0 ∉ T := fun h => h0 (List.mem_cons_of_mem _ h)
    by_cases hax : a = x
    · subst hax
      rw [List.erase_cons_head, nextIn_cons, if_neg hy,
        if_neg (ne_of_zero_or_mem ha ha0 (nextIn_mem y))]
    · have hxT : x ∈ T := (List.mem_cons.1 hx).resolve_left (Ne.symm hax)
      rw [List.erase_cons_tail (by simpa using hax), nextIn_cons, nextIn_cons, nextIn_cons,
        if_neg (Ne.symm hax)]
      by_cases hya : y = a
      · simp only [hya, if_true]
        exact headD_erase hT x
      · simp only [hya, if_false]
        exact ih hT hT0 hxT


theorem nextIn_ne_self (hL : L.Nodup) (hx : x ≠ 0) : nextIn L x ≠ x := by
  induction L with
  | nil => exact Ne.symm hx
  | cons a T ih =>
    obtain ⟨ha, hT⟩ := List.nodup_cons.1 hL
    rw [nextIn_cons]
    split_ifs with h
    · subst h
      exact ne_of_zero_or_mem ha hx (headD_mem T)
    · exact ih hT

end Neighbours

/-- The list fields of `struct state`; its `vcpu` and locks are `Handle`'s. -/
structure StateRec where
  next : Nat
  prev : Nat
  process : Nat
  openCount : Int

/-- `head_of_state`, the `struct state` records by address, and kernel memory. -/
structure Registry where
  head : Nat
  states : Nat → StateRec
  heap : Heap

/-- `state_find`: walk `next` from `s` to the state of `process`; NULL at the end of the list and
at an address below `PAGE_SIZE`. `none` when `fuel` runs out: the walk has not returned. -/
def stateFind (states : Nat → StateRec) (process : Nat) : Nat → Nat → Option Nat
  | 0, _ => none
  | fuel + 1, s =>
    if s = 0 then some 0
    else if s < pageSize then some 0
    else if (states s).process = process then some s
    else stateFind states process fuel (states s).next

/-- The states met walking `next` from `s` to NULL; `none` when the walk takes more than `fuel`
steps. -/
def walk (states : Nat → StateRec) : Nat → Nat → Option (List Nat)
  | 0, s => if s = 0 then some [] else none
  | fuel + 1, s => if s = 0 then some [] else (walk states fuel (states s).next).map (s :: ·)

theorem Heap.pageSize_le_brk (h : Heap) : pageSize ≤ h.brk :=
  Nat.le_of_dvd h.brk_pos (Nat.dvd_of_mod_eq_zero h.brk_aligned)

namespace Registry

/-- Count one more open (`d = 1`) or close (`d = -1`) in the state at `s`. -/
def addCount (r : Registry) (s : Nat) (d : Int) : Registry :=
  let st := r.states s
  { r with states := Function.update r.states s { st with openCount := st.openCount + d } }

/-- The new-state branch of `kvm_dev_open`: `IOCalloc` a zeroed `struct state` for `process` and
insert it at the front of the list. -/
def push (sizeofState : Nat) (r : Registry) (process : Nat) : Registry :=
  let a := (ioCallocAligned r.heap sizeofState).1
  let states := Function.update r.states a ⟨r.head, 0, process, 0⟩
  let states := if r.head ≠ 0 then Function.update states r.head { (states r.head) with prev := a }
    else states
  ⟨a, states, (ioCallocAligned r.heap sizeofState).2⟩

/-- The list part of `kvm_dev_open`: the caller's state, pushed when `state_find` finds none,
counts one more open. `none` when `state_find` does not return. -/
def kvmDevOpen (fuel sizeofState : Nat) (r : Registry) (process : Nat) : Option Registry :=
  (stateFind r.states process fuel r.head).map fun s =>
    if s = 0 then (r.push sizeofState process).addCount (r.push sizeofState process).head 1
    else r.addCount s 1

/-- The last-close branch of `kvm_dev_close`: unlink the state at `s`. -/
def unlink (r : Registry) (s : Nat) : Registry :=
  let st := r.states s
  let head := if st.prev = 0 then st.next else r.head
  let states := if st.prev = 0 then r.states
    else Function.update r.states st.prev { (r.states st.prev) with next := st.next }
  let states := if st.next ≠ 0 then Function.update states st.next { (states st.next) with prev := st.prev }
    else states
  { r with head, states }

/-- The list part of `kvm_dev_close`: count the close, and on the last one unlink the state and
`IOFree` it. The NULL `state` of a process that never opened is dereferenced. -/
def kvmDevClose (fuel sizeofState : Nat) (r : Registry) (process : Nat) :
    Option (Except String Registry) :=
  (stateFind r.states process fuel r.head).map fun s =>
    if s = 0 then .error "state"
    else
      let r := r.addCount s (-1)
      if (r.states s).openCount = 0 then .ok { r.unlink s with heap := ioFree r.heap s sizeofState }
      else .ok r

end Registry

/-- A call of the device node by a process. -/
inductive DevCall
  | devOpen (process : Nat)
  | devClose (process : Nat)
  deriving DecidableEq, Repr

namespace DevCall

/-- How a call moves the number of opens its process holds. -/
def count (cnt : Nat → Nat) : DevCall → Nat → Nat
  | devOpen p => Function.update cnt p (cnt p + 1)
  | devClose p => Function.update cnt p (cnt p - 1)

/-- A close may come once its process holds an open. -/
def allowed (cnt : Nat → Nat) : DevCall → Bool
  | devOpen _ => true
  | devClose p => decide (0 < cnt p)

end DevCall

/-- Every close of a process comes after more opens than closes of that process, counted from
`cnt`. -/
def balanced (cnt : Nat → Nat) : List DevCall → Bool
  | [] => true
  | c :: cs => c.allowed cnt && balanced (c.count cnt) cs

/-- The opens each process holds after `calls`, counted from `cnt`. -/
def opens (cnt : Nat → Nat) : List DevCall → Nat → Nat
  | [] => cnt
  | c :: cs => opens (c.count cnt) cs

namespace Registry

/-- One call; `none` when `state_find` does not return or the close dereferences NULL. -/
def call (fuel sizeofState : Nat) (r : Registry) : DevCall → Option Registry
  | .devOpen p => r.kvmDevOpen fuel sizeofState p
  | .devClose p => (r.kvmDevClose fuel sizeofState p).bind Except.toOption

/-- The calls one after another. -/
def run (fuel sizeofState : Nat) : Registry → List DevCall → Option Registry
  | r, [] => some r
  | r, c :: cs => (r.call fuel sizeofState c).bind fun r => run fuel sizeofState r cs

section Updates

variable (r : Registry) (s y : Nat)

@[simp] theorem addCount_head (d : Int) : (r.addCount s d).head = r.head := rfl

@[simp] theorem addCount_heap (d : Int) : (r.addCount s d).heap = r.heap := rfl

/-- Counting changes the open count of `s` and nothing else. -/
@[simp] theorem addCount_states (d : Int) : (r.addCount s d).states y =
    { r.states y with openCount := (r.states y).openCount + if y = s then d else 0 } := by
  unfold addCount
  by_cases h : y = s
  · subst h; simp
  · simp [Function.update_noteq h, h]

@[simp] theorem push_head (sz p : Nat) : (r.push sz p).head = r.heap.brk := rfl

@[simp] theorem push_heap (sz p : Nat) : (r.push sz p).heap = (ioCallocAligned r.heap sz).2 :=
  rfl

/-- The push writes the new state at the old `brk`, and that address as the `prev` of the old
head. -/
theorem push_states (hne : r.head ≠ r.heap.brk) (sz p : Nat) : (r.push sz p).states y =
    if y = r.heap.brk then ⟨r.head, 0, p, 0⟩
    else if y = r.head ∧ r.head ≠ 0 then { r.states y with prev := r.heap.brk }
    else r.states y := by
  unfold push
  by_cases hy : y = r.heap.brk
  · subst hy
    by_cases h0 : r.head = 0 <;> simp [h0, Function.update_noteq (Ne.symm hne)]
  · by_cases h0 : r.head = 0 <;> simp [Function.update_apply, hy, hne, h0]
    split_ifs with hh <;> simp only [hh]

theorem unlink_head : (r.unlink s).head =
    if (r.states s).prev = 0 then (r.states s).next else r.head := rfl

/-- After the first open of `p`: its state at the old `brk`, with one open. -/
theorem push_addCount_new (hne : r.head ≠ r.heap.brk) (sz p : Nat) :
    ((r.push sz p).addCount r.heap.brk 1).states r.heap.brk = ⟨r.head, 0, p, 1⟩ := by
  simp [push_states r _ hne]

/-- After the first open of a process: another record changes only in `prev`, which is the new
state for the old head. -/
theorem push_addCount_old (hne : r.head ≠ r.heap.brk) (hy : y ≠ r.heap.brk) (hy0 : y ≠ 0)
    (sz p : Nat) : ((r.push sz p).addCount r.heap.brk 1).states y =
      { r.states y with prev := if y = r.head then r.heap.brk else (r.states y).prev } := by
  by_cases hh : y = r.head
  · subst hh; simp [push_states _ _ hne, hy, hy0]
  · simp [push_states r _ hne, hy, hh]

@[simp] theorem unlink_heap : (r.unlink s).heap = r.heap := rfl

/-- Unlinking `s` redirects the `next` of the state before it and the `prev` of the state after
it, and changes nothing else. -/
theorem unlink_states :
    ((r.unlink s).states y).next = (if y = (r.states s).prev ∧ (r.states s).prev ≠ 0 then
      (r.states s).next else (r.states y).next) ∧
    ((r.unlink s).states y).prev = (if y = (r.states s).next ∧ (r.states s).next ≠ 0 then
      (r.states s).prev else (r.states y).prev) ∧
    ((r.unlink s).states y).process = (r.states y).process ∧
    ((r.unlink s).states y).openCount = (r.states y).openCount := by
  unfold unlink
  dsimp only
  by_cases hp : (r.states s).prev = 0 <;> by_cases hn : (r.states s).next = 0 <;>
    simp only [hp, hn, if_true, if_false, ne_eq, not_true, not_false_eq_true, and_true,
      and_false, Function.update_apply] <;> split_ifs <;> simp_all

end Updates

/-- The registry is the list `L` of distinct allocated records, with `cnt p` the opens process
`p` holds: `head_of_state` is the first element of `L`, `next` the element after, `prev` the one
before; one state per process, present exactly for the processes holding opens, and holding their
number. -/
structure Shape (r : Registry) (L : List Nat) (cnt : Nat → Nat) : Prop where
  nodup : L.Nodup
  addr : ∀ x ∈ L, pageSize ≤ x ∧ x < r.heap.brk
  head : r.head = L.headD 0
  next : ∀ x ∈ L, (r.states x).next = nextIn L x
  prev : ∀ x ∈ L, ((r.states x).prev = 0 ∧ x = L.headD 0) ∨
    ((r.states x).prev ∈ L ∧ nextIn L (r.states x).prev = x)
  unique : ∀ x ∈ L, ∀ y ∈ L, (r.states x).process = (r.states y).process → x = y
  present : ∀ p, 0 < cnt p ↔ ∃ x ∈ L, (r.states x).process = p
  count : ∀ x ∈ L, (r.states x).openCount = cnt (r.states x).process

/-- Before the first open: `head_of_state` is NULL and no process holds an open. -/
theorem shape_empty (states : Nat → StateRec) (heap : Heap) :
    Shape ⟨0, states, heap⟩ [] fun _ => 0 :=
  ⟨List.nodup_nil, by simp, rfl, by simp, by simp, by simp, by simp, by simp⟩

section Shape

variable {r : Registry} {L : List Nat} {cnt : Nat → Nat} {fuel : Nat}

theorem Shape.ne_zero (hs : Shape r L cnt) {x : Nat} (hx : x ∈ L) : x ≠ 0 :=
  Nat.pos_iff_ne_zero.1 (Nat.lt_of_lt_of_le (by decide) (hs.addr x hx).1)

/-- From the first element of a suffix `M` of `L`, `state_find` returns the first state of `p`
in `M`, or NULL. -/
theorem Shape.stateFind_from (hs : Shape r L cnt) (p : Nat) {M : List Nat} :
    ∀ {P : List Nat} {fuel : Nat}, L = P ++ M → M.length < fuel →
      stateFind r.states p fuel (M.headD 0) =
        some ((M.find? fun x => (r.states x).process = p).getD 0) := by
  induction M with
  | nil =>
    intro P fuel _ hf
    obtain ⟨n, rfl⟩ := Nat.exists_eq_succ_of_ne_zero (Nat.pos_iff_ne_zero.1 hf)
    rfl
  | cons x M ih =>
    intro P fuel hL hf
    obtain ⟨n, rfl⟩ := Nat.exists_eq_succ_of_ne_zero (Nat.pos_iff_ne_zero.1 (Nat.zero_lt_of_lt hf))
    have hx : x ∈ L := hL ▸ List.mem_append_right _ (List.mem_cons_self _ _)
    rw [List.headD_cons, stateFind, if_neg (hs.ne_zero hx), if_neg (Nat.not_lt.2 (hs.addr x hx).1),
      List.find?_cons]
    by_cases hp : (r.states x).process = p
    · simp [hp]
    · have hn : nextIn L x = M.headD 0 := hL ▸ nextIn_of_suffix (hL ▸ hs.nodup)
      rw [if_neg hp, hs.next x hx, hn, ih (P := P ++ [x]) (by simp [hL]) (Nat.lt_of_succ_lt_succ hf)]
      simp [hp]

/-- From `head_of_state`, `state_find` returns the state of `p` when `p` holds opens, and NULL
otherwise. -/
theorem Shape.stateFind (hs : Shape r L cnt) (hf : L.length < fuel) (p : Nat) :
    ∃ x, stateFind r.states p fuel r.head = some x ∧
      if 0 < cnt p then x ∈ L ∧ (r.states x).process = p else x = 0 := by
  rw [hs.head, hs.stateFind_from p (P := []) rfl hf]
  refine ⟨_, rfl, ?_⟩
  split_ifs with hp
  · obtain ⟨x, hx, hpx⟩ := (hs.present p).1 hp
    cases hfind : L.find? fun x => (r.states x).process = p with
    | none => exact absurd (decide_eq_true hpx) (List.find?_eq_none.1 hfind x hx)
    | some y =>
      have hy := List.find?_some hfind
      exact ⟨List.mem_of_find?_eq_some hfind, of_decide_eq_true hy⟩
  · rw [List.find?_eq_none.2 fun x hx h => hp ((hs.present p).2 ⟨x, hx, of_decide_eq_true h⟩)]
    rfl

/-- Counting an open or a close in the state of a process that keeps holding opens keeps the
shape, with that process's count moved. -/
theorem Shape.addCount (hs : Shape r L cnt) {x : Nat} (hx : x ∈ L) (d : Int) {n : Nat}
    (hn : (n : Int) = cnt (r.states x).process + d) (hpos : 0 < n) :
    Shape (r.addCount x d) L (Function.update cnt (r.states x).process n) where
  nodup := hs.nodup
  addr := hs.addr
  head := hs.head
  next y hy := by simpa using hs.next y hy
  prev y hy := by simpa using hs.prev y hy
  unique y hy w hw := by simpa using hs.unique y hy w hw
  present q := by
    simp only [addCount_states, Function.update_apply]
    split_ifs with hq
    · subst hq; exact ⟨fun _ => ⟨x, hx, rfl⟩, fun _ => hpos⟩
    · exact hs.present q
  count y hy := by
    simp only [addCount_states, Function.update_apply]
    by_cases hyx : y = x
    · subst hyx; simp [hn, hs.count y hy]
    · rw [if_neg hyx, if_neg fun h => hyx (hs.unique y hy x hx h), hs.count y hy, add_zero]

/-- The first open of a process pushes its state, at the old `brk`, in front of the list. -/
theorem Shape.push (hs : Shape r L cnt) (sz : Nat) {p : Nat} (hp : cnt p = 0) :
    Shape ((r.push sz p).addCount r.heap.brk 1) (r.heap.brk :: L) (Function.update cnt p 1) := by
  have haL : r.heap.brk ∉ L := fun h => Nat.lt_irrefl _ (hs.addr _ h).2
  have hne : r.head ≠ r.heap.brk :=
    ne_of_zero_or_mem haL (Nat.ne_of_gt r.heap.brk_pos) (hs.head ▸ headD_mem L)
  have hya : ∀ y ∈ L, y ≠ r.heap.brk := fun y hy h => haL (h ▸ hy)
  have hpL : ∀ y ∈ L, (r.states y).process ≠ p := fun y hy h => by
    simpa [hp] using (hs.present p).2 ⟨y, hy, h⟩
  have ha := push_addCount_new r hne sz p
  have hold := fun y (hy : y ∈ L) => push_addCount_old r y hne (hya y hy) (hs.ne_zero hy) sz p
  refine ⟨List.nodup_cons.2 ⟨haL, hs.nodup⟩, ?_, rfl, ?_, ?_, ?_, ?_, ?_⟩
  · intro y hy
    rcases List.mem_cons.1 hy with rfl | hy
    · exact ⟨r.heap.pageSize_le_brk, lt_ioCallocAligned_brk _ _⟩
    · exact ⟨(hs.addr y hy).1, (hs.addr y hy).2.trans (lt_ioCallocAligned_brk _ _)⟩
  · intro y hy
    rcases List.mem_cons.1 hy with rfl | hy
    · rw [ha, nextIn_cons, if_pos rfl]; exact hs.head
    · rw [hold y hy, nextIn_cons, if_neg (hya y hy)]; exact hs.next y hy
  · intro y hy
    rcases List.mem_cons.1 hy with rfl | hy
    · rw [ha]; exact .inl ⟨rfl, rfl⟩
    rw [hold y hy]
    dsimp only
    split_ifs with hh
    · exact .inr ⟨List.mem_cons_self _ _, by rw [nextIn_cons, if_pos rfl, hh, hs.head]⟩
    rcases hs.prev y hy with ⟨-, hy0⟩ | ⟨hq, hn⟩
    · exact absurd (hy0.trans hs.head.symm) hh
    · exact .inr ⟨List.mem_cons_of_mem _ hq, by rw [nextIn_cons, if_neg (hya _ hq), hn]⟩
  · intro y hy w hw
    rcases List.mem_cons.1 hy with rfl | hy <;> rcases List.mem_cons.1 hw with rfl | hw
    · intro; rfl
    · rw [ha, hold w hw]; exact fun h => absurd h.symm (hpL w hw)
    · rw [ha, hold y hy]; exact fun h => absurd h (hpL y hy)
    · rw [hold y hy, hold w hw]; exact hs.unique y hy w hw
  · intro q
    have hex : (∃ x ∈ L, (((r.push sz p).addCount r.heap.brk 1).states x).process = q) ↔
        ∃ x ∈ L, (r.states x).process = q :=
      ⟨fun ⟨x, hx, h⟩ => ⟨x, hx, by rwa [hold x hx] at h⟩,
        fun ⟨x, hx, h⟩ => ⟨x, hx, by rwa [hold x hx]⟩⟩
    rw [List.exists_mem_cons_iff, ha, hex, ← hs.present, Function.update_apply]
    by_cases hq : q = p
    · subst hq; simp
    · simp [hq, Ne.symm hq]
  · intro y hy
    rcases List.mem_cons.1 hy with rfl | hy
    · rw [ha]; simp
    · rw [hold y hy]
      exact (hs.count y hy).trans (by rw [Function.update_noteq (hpL y hy)])

/-- The last close of a process unlinks its state: the list loses it, and the process its
count. -/
theorem Shape.unlink (hs : Shape r L cnt) (sz : Nat) {x : Nat} (hx : x ∈ L) :
    Shape { (r.addCount x (-1)).unlink x with heap := ioFree (r.addCount x (-1)).heap x sz }
      (L.erase x) (Function.update cnt (r.states x).process 0) := by
  have hmem : ∀ {y}, y ∈ L.erase x ↔ y ≠ x ∧ y ∈ L := hs.nodup.mem_erase_iff
  have h0L : 0 ∉ L := fun h => hs.ne_zero h rfl
  have hx0 := hs.ne_zero hx
  have hnx := hs.next x hx
  have hu : ∀ y, (((r.addCount x (-1)).unlink x).states y).next =
        (if y = (r.states x).prev ∧ (r.states x).prev ≠ 0 then nextIn L x else (r.states y).next) ∧
      (((r.addCount x (-1)).unlink x).states y).prev =
        (if y = nextIn L x ∧ nextIn L x ≠ 0 then (r.states x).prev else (r.states y).prev) ∧
      (((r.addCount x (-1)).unlink x).states y).process = (r.states y).process ∧
      (((r.addCount x (-1)).unlink x).states y).openCount =
        (r.states y).openCount + if y = x then -1 else 0 := fun y => by
    simpa [hnx] using unlink_states (r.addCount x (-1)) x y
  -- `x` heads the list exactly when its `prev` is NULL, and is followed only by its `prev`
  have hbefore : ((r.states x).prev = 0 ↔ L.headD 0 = x) ∧
      ∀ y ∈ L, (y = (r.states x).prev ∧ (r.states x).prev ≠ 0 ↔ nextIn L y = x) := by
    rcases hs.prev x hx with ⟨h0, hh⟩ | ⟨hq, hn⟩
    · refine ⟨iff_of_true h0 hh.symm, fun y _ => iff_of_false (fun h => h.2 h0) ?_⟩
      exact hh ▸ nextIn_ne_headD hs.nodup (hh ▸ hx0) y
    · have hq0 := hs.ne_zero hq
      refine ⟨iff_of_false hq0 fun h => nextIn_ne_headD hs.nodup (h ▸ hx0) _ (hn.trans h.symm),
        fun y hy => ⟨fun h => h.1 ▸ hn, fun h => ⟨nextIn_inj hs.nodup hy hq (h.trans hn.symm)
          (h ▸ hx0), hq0⟩⟩⟩
  -- a `prev` the unlink leaves alone still points at the element before
  have hkeep : ∀ y ∈ L, y ≠ x → y ≠ nextIn L x →
      ((r.states y).prev = 0 ∧ y = (L.erase x).headD 0) ∨
      ((r.states y).prev ∈ L.erase x ∧ nextIn (L.erase x) (r.states y).prev = y) := by
    intro y hy hyx hyn
    rcases hs.prev y hy with ⟨h0, hh⟩ | ⟨hq, hn⟩
    · refine .inl ⟨h0, ?_⟩
      rw [headD_erase hs.nodup, if_neg (hh ▸ hyx)]; exact hh
    · have hqx : (r.states y).prev ≠ x := fun h => hyn (h ▸ hn).symm
      refine .inr ⟨hmem.2 ⟨hqx, hq⟩, ?_⟩
      rw [nextIn_erase hs.nodup h0L hx hqx, hn, if_neg hyx]
  have hproc : ∀ y, (((r.addCount x (-1)).unlink x).states y).process = (r.states y).process :=
    fun y => (hu y).2.2.1
  refine ⟨hs.nodup.erase x, fun y hy => ?_, ?_, fun y hy => ?_, fun y hy => ?_,
    fun y hy w hw => ?_, fun q => ?_, fun y hy => ?_⟩ <;> dsimp only
  · simpa using hs.addr y (hmem.1 hy).2
  · simp only [unlink_head, addCount_states, addCount_head]
    rw [headD_erase hs.nodup, hnx, hs.head]
    simp only [hbefore.1]
  · obtain ⟨hyx, hy⟩ := hmem.1 hy
    rw [(hu y).1, nextIn_erase hs.nodup h0L hx hyx]
    simp only [hbefore.2 y hy, hs.next y hy]
  · obtain ⟨hyx, hy⟩ := hmem.1 hy
    rw [(hu y).2.1]
    split_ifs with hyn
    · obtain ⟨rfl, -⟩ := hyn
      rcases hs.prev x hx with ⟨h0, hh⟩ | ⟨hq, hn⟩
      · exact .inl ⟨h0, by rw [headD_erase hs.nodup, if_pos hh.symm]⟩
      · have hqx : (r.states x).prev ≠ x := fun h => nextIn_ne_self hs.nodup hx0 (by rwa [h] at hn)
        exact .inr ⟨hmem.2 ⟨hqx, hq⟩, by rw [nextIn_erase hs.nodup h0L hx hqx, if_pos hn]⟩
    · exact hkeep y hy hyx fun h => hyn ⟨h, h ▸ hs.ne_zero hy⟩
  · rw [hproc, hproc]; exact hs.unique y (hmem.1 hy).2 w (hmem.1 hw).2
  · simp only [hproc, Function.update_apply]
    split_ifs with hq
    · subst hq
      exact iff_of_false (lt_irrefl 0) fun ⟨y, hy, h⟩ =>
        (hmem.1 hy).1 (hs.unique y (hmem.1 hy).2 x hx h)
    · rw [hs.present q]
      exact ⟨fun ⟨y, hy, h⟩ => ⟨y, hmem.2 ⟨fun e => hq (e ▸ h).symm, hy⟩, h⟩,
        fun ⟨y, hy, h⟩ => ⟨y, (hmem.1 hy).2, h⟩⟩
  · obtain ⟨hyx, hy⟩ := hmem.1 hy
    rw [(hu y).2.2.2, hproc, if_neg hyx, add_zero,
      Function.update_noteq fun h => hyx (hs.unique y hy x hx h), hs.count y hy]

/-- Walking `next` from the first element of a suffix `M` of `L` meets exactly `M`. -/
theorem Shape.walk_from (hs : Shape r L cnt) {M : List Nat} :
    ∀ {P : List Nat}, L = P ++ M → walk r.states M.length (M.headD 0) = some M := by
  induction M with
  | nil => intro P _; rfl
  | cons x M ih =>
    intro P hL
    have hx : x ∈ L := hL ▸ List.mem_append_right _ (List.mem_cons_self _ _)
    have hn : nextIn L x = M.headD 0 := hL ▸ nextIn_of_suffix (hL ▸ hs.nodup)
    rw [List.length_cons, List.headD_cons, walk, if_neg (hs.ne_zero hx), hs.next x hx, hn,
      ih (P := P ++ [x]) (by simp [hL])]
    rfl

/-- The states reachable from `head_of_state` are `L`, and the walk ends at NULL. -/
theorem Shape.walk (hs : Shape r L cnt) : walk r.states L.length r.head = some L :=
  hs.head ▸ hs.walk_from (P := []) rfl

theorem Shape.head_prev (hs : Shape r L cnt) (hh : r.head ≠ 0) : (r.states r.head).prev = 0 := by
  rw [hs.head] at hh ⊢
  rcases hs.prev _ ((headD_mem L).resolve_left hh) with ⟨h0, -⟩ | ⟨-, hn⟩
  · exact h0
  · exact absurd hn (nextIn_ne_headD hs.nodup hh _)

theorem Shape.next_prev (hs : Shape r L cnt) {x : Nat} (hx : x ∈ L) (hn : (r.states x).next ≠ 0) :
    (r.states (r.states x).next).prev = x := by
  rw [hs.next x hx] at hn ⊢
  rcases hs.prev _ ((nextIn_mem x).resolve_left hn) with ⟨-, hh⟩ | ⟨hq, hq'⟩
  · exact absurd hh (nextIn_ne_headD hs.nodup (by rwa [hh] at hn) x)
  · exact nextIn_inj hs.nodup hq hx hq' (by rwa [hq'])

theorem Shape.prev_next (hs : Shape r L cnt) {x : Nat} (hx : x ∈ L) (hp : (r.states x).prev ≠ 0) :
    (r.states (r.states x).prev).next = x := by
  rcases hs.prev x hx with ⟨h0, -⟩ | ⟨hq, hn⟩
  · exact absurd h0 hp
  · rw [hs.next _ hq, hn]

/-- A call keeps the shape, counting its open or close; the list grows by at most one state. -/
theorem Shape.call (hs : Shape r L cnt) (hf : L.length < fuel) (sz : Nat) {c : DevCall}
    (hc : c.allowed cnt = true) :
    ∃ r' L', r.call fuel sz c = some r' ∧ Shape r' L' (c.count cnt) ∧
      L'.length ≤ L.length + 1 := by
  cases c with
  | devOpen p =>
    obtain ⟨x, hfind, hx⟩ := hs.stateFind hf p
    simp only [Registry.call, kvmDevOpen, hfind, Option.map_some', DevCall.count]
    split_ifs at hx with hp
    · refine ⟨_, L, by rw [if_neg (hs.ne_zero hx.1)], ?_, Nat.le_succ _⟩
      have := hs.addCount hx.1 1 (n := cnt p + 1) (by rw [hx.2]; push_cast; rfl) (Nat.succ_pos _)
      rwa [hx.2] at this
    · have hp0 : cnt p = 0 := Nat.eq_zero_of_not_pos hp
      refine ⟨_, r.heap.brk :: L, by rw [if_pos hx], ?_, le_refl _⟩
      rw [hp0]
      exact hs.push sz hp0
  | devClose p =>
    have hp : 0 < cnt p := of_decide_eq_true hc
    obtain ⟨x, hfind, hx⟩ := hs.stateFind hf p
    rw [if_pos hp] at hx
    obtain ⟨hxL, hxp⟩ := hx
    have hcnt : ((r.addCount x (-1)).states x).openCount = cnt p - 1 := by
      simp [hs.count x hxL, hxp]; omega
    simp only [Registry.call, kvmDevClose, hfind, Option.map_some', Option.some_bind, DevCall.count,
      if_neg (hs.ne_zero hxL)]
    by_cases h1 : cnt p = 1
    · rw [if_pos (by rw [hcnt, h1]; rfl)]
      refine ⟨_, L.erase x, rfl, ?_, (List.length_erase_le _ _).trans (Nat.le_succ _)⟩
      rw [h1, ← hxp]
      exact hs.unlink sz hxL
    · rw [if_neg (by rw [hcnt]; omega)]
      refine ⟨_, L, rfl, ?_, Nat.le_succ _⟩
      have := hs.addCount hxL (-1) (n := cnt p - 1) (by rw [hxp]; omega) (by omega)
      rwa [hxp] at this

/-- A balanced sequence of calls runs to its end and keeps the shape; the list grows by at most
one state a call. -/
theorem Shape.run (hs : Shape r L cnt) (sz : Nat) {calls : List DevCall}
    (hb : balanced cnt calls = true) (hf : L.length + calls.length < fuel) :
    ∃ r' L', Registry.run fuel sz r calls = some r' ∧ Shape r' L' (opens cnt calls) ∧
      L'.length ≤ L.length + calls.length := by
  induction calls generalizing r L cnt with
  | nil => exact ⟨r, L, rfl, hs, le_refl _⟩
  | cons c cs ih =>
    rw [balanced, Bool.and_eq_true] at hb
    rw [List.length_cons] at hf
    obtain ⟨r₁, L₁, h₁, hs₁, hl₁⟩ := hs.call (show L.length < fuel by omega) sz hb.1
    obtain ⟨r', L', h, hs', hl⟩ := ih hs₁ hb.2 (by omega)
    exact ⟨r', L', by rw [Registry.run, h₁]; exact h, hs', by rw [List.length_cons]; omega⟩

end Shape

/-- What the kext relies on of the registry, in its own pointers: walking `next` from
`head_of_state` meets the distinct states `L` and ends at NULL, `prev` mirrors it, there is one
state per process, the state of `p` is there exactly when `held p` is positive and holds that
many opens, and `state_find` returns it, or NULL when there is none. -/
structure WellFormed (r : Registry) (L : List Nat) (fuel : Nat) (held : Nat → Int) : Prop where
  walk_eq : walk r.states L.length r.head = some L
  nodup : L.Nodup
  head_prev : r.head ≠ 0 → (r.states r.head).prev = 0
  next_prev : ∀ x ∈ L, (r.states x).next ≠ 0 → (r.states (r.states x).next).prev = x
  prev_next : ∀ x ∈ L, (r.states x).prev ≠ 0 → (r.states (r.states x).prev).next = x
  unique : ∀ x ∈ L, ∀ y ∈ L, (r.states x).process = (r.states y).process → x = y
  present : ∀ p, (∃ x ∈ L, (r.states x).process = p) ↔ 0 < held p
  find : ∀ p, ∃ x, stateFind r.states p fuel r.head = some x ∧
    if 0 < held p then x ∈ L ∧ (r.states x).process = p ∧ (r.states x).openCount = held p
    else x = 0

/-- The shape gives every property the kext relies on, with `state_find` given more steps than
there are states. -/
theorem Shape.wellFormed {r : Registry} {L : List Nat} {cnt : Nat → Nat} {fuel : Nat}
    (hs : Shape r L cnt) (hf : L.length < fuel) : WellFormed r L fuel fun p => cnt p := by
  refine ⟨hs.walk, hs.nodup, hs.head_prev, fun x hx => hs.next_prev hx,
    fun x hx => hs.prev_next hx, hs.unique, fun p => (hs.present p).symm.trans Int.ofNat_pos.symm,
    fun p => ?_⟩
  obtain ⟨x, hx, hfx⟩ := hs.stateFind hf p
  refine ⟨x, hx, ?_⟩
  by_cases hp : 0 < cnt p
  · rw [if_pos hp] at hfx
    rw [if_pos (Int.ofNat_pos.2 hp)]
    exact ⟨hfx.1, hfx.2, by rw [hs.count x hfx.1, hfx.2]⟩
  · rw [if_neg hp] at hfx
    rwa [if_neg (mt Int.ofNat_pos.1 hp)]

end Registry

/-- Under balance, the opens a process holds are its opens less its closes. -/
theorem opens_eq_count (cnt : Nat → Nat) (calls : List DevCall) (hb : balanced cnt calls = true)
    (p : Nat) :
    (opens cnt calls p : Int) = cnt p + calls.count (.devOpen p) - calls.count (.devClose p) := by
  induction calls generalizing cnt with
  | nil => simp [opens]
  | cons c cs ih =>
    rw [balanced, Bool.and_eq_true] at hb
    rw [opens, ih _ hb.2]
    cases c with
    | devOpen q =>
      by_cases h : p = q
      · subst h; simp [DevCall.count]; omega
      · simp [DevCall.count, List.count_cons, Function.update_noteq h, Ne.symm h]
    | devClose q =>
      have hq : 0 < cnt q := of_decide_eq_true hb.1
      by_cases h : p = q
      · subst h; simp [DevCall.count]; omega
      · simp [DevCall.count, List.count_cons, Function.update_noteq h, Ne.symm h]

namespace Registry

theorem run_wellFormed (fuel sizeofState : Nat) (states : Nat → StateRec) (heap : Heap)
    (calls : List DevCall) (hb : balanced (fun _ => 0) calls = true) (hf : calls.length < fuel) :
    ∃ r L, run fuel sizeofState ⟨0, states, heap⟩ calls = some r ∧
      WellFormed r L fuel fun p => (calls.count (.devOpen p) : Int) - calls.count (.devClose p) := by
  obtain ⟨r, L, hrun, hs, hl⟩ := (shape_empty states heap).run sizeofState hb (by simpa using hf)
  have hw := hs.wellFormed (show L.length < fuel by simp at hl; omega)
  refine ⟨r, L, hrun, ?_⟩
  have hcnt : (fun p => (opens (fun _ => 0) calls p : Int)) =
      fun p => (calls.count (.devOpen p) : Int) - calls.count (.devClose p) :=
    funext fun p => by rw [opens_eq_count _ calls hb p]; simp
  rw [hcnt] at hw
  exact hw

theorem run_wellFormed_reopen :
    balanced (fun _ => 0) [.devOpen 7, .devOpen 9, .devClose 7, .devOpen 7] = true ∧ 4 < 5 ∧
    ∃ r L, run 5 64 ⟨0, fun _ => ⟨0, 0, 0, 0⟩, Heap.initial⟩
        [.devOpen 7, .devOpen 9, .devClose 7, .devOpen 7] = some r ∧
      WellFormed r L 5 fun p => (([.devOpen 7, .devOpen 9, .devClose 7, .devOpen 7] :
        List DevCall).count (.devOpen p) : Int) -
          ([.devOpen 7, .devOpen 9, .devClose 7, .devOpen 7] : List DevCall).count (.devClose p) :=
  ⟨by decide, by decide, run_wellFormed 5 64 _ Heap.initial _ (by decide) (by decide)⟩

end Registry

end KvmKext
