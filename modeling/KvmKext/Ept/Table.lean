import Mathlib.Algebra.Order.Group.Nat
import Mathlib.Logic.Function.Basic

/-!
# Kernel memory and the extended page table

`IOCallocAligned` is a bump allocator over blocks: it hands out a zeroed block at the next free
address, and memory is read and written by block address and word index. A root, pdpt or pd node
is two pages: word `i < 512` is the entry the processor walks, word `PAGE_OFFSET + i` the host
pointer `ept_translate` follows. A pt node is one page of leaf entries.
-/

namespace KvmKext

/-- `PAGE_SIZE`. -/
def pageSize : Nat := 4096

/-- `PAGE_OFFSET`: the first word of the software half of a two-page node. -/
def pageOffset : Nat := 512

def vmxEptReadableMask : Nat := 0x1
def vmxEptWritableMask : Nat := 0x2
def vmxEptExecutableMask : Nat := 0x4

/-- `EPT_CACHE_WRITEBACK`: memory type 6 in bits 5:3. -/
def eptCacheWriteback : Nat := 6 <<< 3

/-- `EPT_DEFAULTS`: read, write and execute allowed. -/
def eptDefaults : Nat := vmxEptExecutableMask ||| vmxEptWritableMask ||| vmxEptReadableMask

/-- `~(PAGE_SIZE-1)` as an `unsigned long`. -/
def pageMask : Nat := 2 ^ 64 - pageSize

/-- Kernel memory: words by block address and index, the live blocks with their sizes in bytes,
and the page-aligned address the allocator hands out next. -/
structure Heap where
  mem : Nat → Nat → Nat
  live : List (Nat × Nat)
  brk : Nat
  brk_pos : 0 < brk
  brk_aligned : brk % pageSize = 0

namespace Heap

/-- Kernel memory before the kext allocates: nothing live, the first block at `PAGE_SIZE`. -/
def initial : Heap := ⟨fun _ _ => 0, [], pageSize, by decide, by decide⟩

/-- Store word `v` at index `i` of block `p`. -/
def write (h : Heap) (p i v : Nat) : Heap :=
  { h with mem := Function.update h.mem p (Function.update (h.mem p) i v) }

@[simp] theorem write_mem (h : Heap) (p i v q j : Nat) :
    (h.write p i v).mem q j = if q = p ∧ j = i then v else h.mem q j := by
  by_cases hq : q = p
  · subst hq
    by_cases hj : j = i <;> simp [write, hj]
  · simp [write, hq]

@[simp] theorem write_brk (h : Heap) (p i v : Nat) : (h.write p i v).brk = h.brk := rfl

@[simp] theorem write_live (h : Heap) (p i v : Nat) : (h.write p i v).live = h.live := rfl

end Heap

/-- The pages a block of `size` bytes takes: at least one. -/
def blockPages (size : Nat) : Nat := max 1 ((size + pageSize - 1) / pageSize)

/-- `IOCallocAligned(size, PAGE_SIZE)`, and `IOCalloc(size)`: a zeroed, page-aligned block at the
next free address. -/
def ioCallocAligned (h : Heap) (size : Nat) : Nat × Heap :=
  (h.brk, { mem := Function.update h.mem h.brk (fun _ => 0)
            live := (h.brk, size) :: h.live
            brk := h.brk + blockPages size * pageSize
            brk_pos := Nat.lt_of_lt_of_le h.brk_pos (Nat.le_add_right _ _)
            brk_aligned := by rw [Nat.add_mul_mod_self_right]; exact h.brk_aligned })

@[simp] theorem ioCallocAligned_fst (h : Heap) (size : Nat) : (ioCallocAligned h size).1 = h.brk :=
  rfl

@[simp] theorem ioCallocAligned_mem (h : Heap) (size q j : Nat) :
    (ioCallocAligned h size).2.mem q j = if q = h.brk then 0 else h.mem q j := by
  by_cases hq : q = h.brk <;> simp [ioCallocAligned, hq]

@[simp] theorem ioCallocAligned_brk (h : Heap) (size : Nat) :
    (ioCallocAligned h size).2.brk = h.brk + blockPages size * pageSize := rfl

/-- Every allocation moves the next free address past the block it hands out. -/
theorem lt_ioCallocAligned_brk (h : Heap) (size : Nat) : h.brk < (ioCallocAligned h size).2.brk :=
  Nat.lt_add_of_pos_right (Nat.mul_pos (Nat.lt_of_lt_of_le Nat.one_pos (Nat.le_max_left _ _))
    (by decide))

@[simp] theorem ioCallocAligned_live (h : Heap) (size : Nat) :
    (ioCallocAligned h size).2.live = (h.brk, size) :: h.live := rfl

/-- The 9-bit table index of `va` at depth `k`: `pml4_idx`, `pdpt_idx`, `pd_idx` and `pt_idx`
for `k = 0, 1, 2, 3`. -/
def tableIdx (k va : Nat) : Nat := (va >>> (39 - 9 * k)) &&& 0x1FF

theorem tableIdx_lt (k va : Nat) : tableIdx k va < 512 :=
  Nat.and_lt_two_pow _ (n := 9) (by decide)

/-- `ept_init`: the root, two zeroed pages. -/
def eptInit (h : Heap) : Nat × Heap := ioCallocAligned h (pageSize * 2)

/-- One level of `ept_add_page`: the child in slot `i` of `node`. When the slot is NULL a zeroed
block is allocated, linked by host pointer, and entered as `__pa(child) | EPT_DEFAULTS`. -/
def allocChild (pa : Nat → Nat) (h : Heap) (node i size : Nat) : Nat × Heap :=
  let child := h.mem node (pageOffset + i)
  if child = 0 then
    let (child, h) := ioCallocAligned h size
    (child, (h.write node (pageOffset + i) child).write node i (pa child ||| eptDefaults))
  else (child, h)

/-- `ept_add_page`, with `__pa` as `pa`. -/
def eptAddPage (pa : Nat → Nat) (h : Heap) (pml4 va phys : Nat) : Heap :=
  let (pdpt, h) := allocChild pa h pml4 (tableIdx 0 va) (pageSize * 2)
  let (pd, h) := allocChild pa h pdpt (tableIdx 1 va) (pageSize * 2)
  let (pt, h) := allocChild pa h pd (tableIdx 2 va) pageSize
  h.write pt (tableIdx 3 va) (phys ||| eptDefaults ||| eptCacheWriteback)

/-- `EPT_POINTER` as `vcpu_init` writes it: the root's frame, page-walk length 4 in bits 5:3. -/
def eptPointer (pa : Nat → Nat) (pml4 : Nat) : Nat := pa pml4 ||| (3 <<< 3)

/-- `ept_translate`: the frame of the leaf entry for `va`, 0 when a level is missing. -/
def eptTranslate (h : Heap) (pml4 va : Nat) : Nat :=
  let pdpt := h.mem pml4 (pageOffset + tableIdx 0 va)
  if pdpt = 0 then 0 else
  let pd := h.mem pdpt (pageOffset + tableIdx 1 va)
  if pd = 0 then 0 else
  let pt := h.mem pd (pageOffset + tableIdx 2 va)
  if pt = 0 then 0 else
  h.mem pt (tableIdx 3 va) &&& pageMask

end KvmKext
