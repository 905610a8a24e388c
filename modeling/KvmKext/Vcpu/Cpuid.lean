import KvmKext.Vcpu.Ops
import KvmKext.Vcpu.Handlers
import KvmKext.Vcpu.Init

/-!
# CPUID

`handle_cpuid` answers from the table `KVM_SET_CPUID2` installs: the first entry for the function
and index, else the host processor's own answer. Leaf 1 then loses SSE, SSE2, SSE3, SSSE3, SSE4.1,
SSE4.2, XSAVE and OSXSAVE. The four 32-bit results are stored zero-extended and RIP steps over the
instruction.

`KVM_GET_SUPPORTED_CPUID` hands out the answers of the processor it runs on for fifteen leaves.
Installed with `KVM_SET_CPUID2`, that table fixes those leaves to the snapshot: a later CPUID exit
answers them from it, whichever processor takes the exit, and every other leaf from the
processor that takes it (`handleCpuid_supportedCpuid`). A `Host` is one processor at one moment.
-/

namespace KvmKext

/-- `x` with the bits `bits` cleared. -/
def clearBits (x : BitVec 32) (bits : List Nat) : BitVec 32 :=
  bits.foldl (fun x i => x &&& ~~~((1 : BitVec 32) <<< i)) x

theorem getLsbD_clearBits (x : BitVec 32) {bits : List Nat} (hb : ∀ i ∈ bits, i < 32) (j : Nat) :
    (clearBits x bits).getLsbD j = (x.getLsbD j && decide (j ∉ bits)) := by
  induction bits generalizing x with
  | nil => simp [clearBits]
  | cons i bits ih =>
    have hi := hb i (List.mem_cons_self _ _)
    rw [clearBits, List.foldl_cons, ← clearBits, ih _ fun k hk => hb k (List.mem_cons_of_mem _ hk)]
    by_cases hj : j < 32
    · by_cases h : j = i
      · simp [h, hi]
      · have hji : (decide (j < i) || !decide (j - i = 0)) = true := by
          simp only [Bool.or_eq_true, decide_eq_true_eq, Bool.not_eq_true', decide_eq_false_iff_not]
          omega
        simp [h, hj, hji]
    · simp [BitVec.getLsbD_ge _ _ (Nat.le_of_not_lt hj)]

/-- The ECX mask of leaf 1 clears bits 0, 9, 19, 20, 26 and 27. -/
theorem cpuidEcxMask (x : BitVec 32) :
    x &&& ~~~(1 <<< 0 ||| 1 <<< 9 : BitVec 32) &&& ~~~(1 <<< 19 ||| 1 <<< 20 : BitVec 32)
      &&& ~~~(1 <<< 26 ||| 1 <<< 27 : BitVec 32) = clearBits x [0, 9, 19, 20, 26, 27] := by
  apply BitVec.eq_of_getLsbD_eq
  intro j
  rw [getLsbD_clearBits x (by decide)]
  simp only [BitVec.getLsbD_and, Bool.and_assoc]
  congr 1
  revert j
  decide

/-- The EDX mask of leaf 1 clears bits 25 and 26. -/
theorem cpuidEdxMask (x : BitVec 32) :
    x &&& ~~~(1 <<< 25 ||| 1 <<< 26 : BitVec 32) = clearBits x [25, 26] := by
  apply BitVec.eq_of_getLsbD_eq
  intro j
  rw [getLsbD_clearBits x (by decide), BitVec.getLsbD_and]
  congr 1
  revert j
  decide

/-- Storing `a`, `b`, `c`, `d` in RAX, RBX, RCX, RDX and stepping over the instruction changes no
other register. -/
theorem skipEmulatedInstruction_store (v : Vcpu) (a b c d : BitVec 64) :
    skipEmulatedInstruction { v with regs := Function.update (Function.update (Function.update
      (Function.update v.regs vcpuRegsRax a) vcpuRegsRbx b) vcpuRegsRcx c) vcpuRegsRdx d } =
    { v with regs := fun r =>
      if r = vcpuRegsRax then a else if r = vcpuRegsRbx then b else if r = vcpuRegsRcx then c
      else if r = vcpuRegsRdx then d
      else if r = vcpuRegsRip then v.regs r + v.exitInstructionLen.signExtend 64 else v.regs r } := by
  simp only [skipEmulatedInstruction, Vcpu.mk.injEq, and_true, true_and]
  funext r
  by_cases ha : r = vcpuRegsRax
  · subst ha; rfl
  by_cases hb : r = vcpuRegsRbx
  · subst hb; rfl
  by_cases hc : r = vcpuRegsRcx
  · subst hc; rfl
  by_cases hd : r = vcpuRegsRdx
  · subst hd; rfl
  by_cases hip : r = vcpuRegsRip
  · subst hip; rfl
  simp only [Function.update_noteq, ha, hb, hc, hd, hip, if_false, Ne, not_false_eq_true]

/-- `handle_cpuid` on any vCPU: RAX, RBX, RCX and RDX hold the zero-extended words of the first
table entry for (EAX, ECX), or the host's answer when no entry matches; on leaf 1 the SSE, SSE3,
SSE4 and XSAVE bits of ECX and EDX are cleared; RIP steps over the instruction; nothing else
changes. -/
theorem handleCpuid_spec (host : Host) (v : Vcpu) :
    let function := (v.regs vcpuRegsRax).truncate 32
    let index := (v.regs vcpuRegsRcx).truncate 32
    ∃ eax ebx ecx edx : BitVec 32,
      ((∃ as e bs, v.cpuidEntries = as ++ e :: bs ∧
          (∀ a ∈ as, ¬(a.function = function ∧ a.index = index)) ∧
          e.function = function ∧ e.index = index ∧ (eax, ebx, ecx, edx) = (e.eax, e.ebx, e.ecx, e.edx)) ∨
        ((∀ e ∈ v.cpuidEntries, ¬(e.function = function ∧ e.index = index)) ∧
          (eax, ebx, ecx, edx) = host.cpuid function index)) ∧
      handleCpuid host v = (true, { v with regs := fun r => (
        if r = vcpuRegsRax then eax.zeroExtend 64
        else if r = vcpuRegsRbx then ebx.zeroExtend 64
        else if r = vcpuRegsRcx then
          (if function = 1 then clearBits ecx [0, 9, 19, 20, 26, 27] else ecx).zeroExtend 64
        else if r = vcpuRegsRdx then
          (if function = 1 then clearBits edx [25, 26] else edx).zeroExtend 64
        else if r = vcpuRegsRip then v.regs r + v.exitInstructionLen.signExtend 64
        else v.regs r) }) := by
  intro function index
  rcases hf : v.cpuidEntries.find? (fun e => e.function == function && e.index == index) with _ | e
  case' none =>
    rcases hc : host.cpuid function index with ⟨eax, ebx, ecx, edx⟩
    refine ⟨eax, ebx, ecx, edx, Or.inr ⟨fun e he => by simpa using List.find?_eq_none.1 hf e he, rfl⟩, ?_⟩
    simp only [handleCpuid, hf, hc]
  case' some =>
    obtain ⟨hp, as, bs, hv, has⟩ := List.find?_eq_some.1 hf
    have he : e.function = function ∧ e.index = index := by simpa using hp
    refine ⟨_, _, _, _, Or.inl ⟨as, e, bs, hv, fun a ha h => absurd (has a ha) (by simp [h.1, h.2]),
      he.1, he.2, rfl⟩, ?_⟩
    simp only [handleCpuid, hf]
  all_goals
    rw [skipEmulatedInstruction_store]
    by_cases h1 : function = 1
    · simp only [function] at h1 ⊢
      simp only [if_pos h1, cpuidEcxMask, cpuidEdxMask]
    · simp only [function] at h1 ⊢
      simp only [if_neg h1]

/-- `KVM_SET_CPUID2` installs the table as given, duplicates included, and `handle_cpuid` then
answers every function and index from it as `handleCpuid_spec` says. -/
theorem kvmSetCpuid2_handleCpuid (host : Host) (m : Machine) (entries : List KvmCpuidEntry2)
    (regs : Fin 17 → BitVec 64) :
    let v := { (kvmSetCpuid2 m entries).2.vcpu with regs := regs }
    let function := (regs vcpuRegsRax).truncate 32
    let index := (regs vcpuRegsRcx).truncate 32
    (kvmSetCpuid2 m entries).1 = 0 ∧
    ∃ eax ebx ecx edx : BitVec 32,
      ((∃ as e bs, entries = as ++ e :: bs ∧
          (∀ a ∈ as, ¬(a.function = function ∧ a.index = index)) ∧
          e.function = function ∧ e.index = index ∧ (eax, ebx, ecx, edx) = (e.eax, e.ebx, e.ecx, e.edx)) ∨
        ((∀ e ∈ entries, ¬(e.function = function ∧ e.index = index)) ∧
          (eax, ebx, ecx, edx) = host.cpuid function index)) ∧
      handleCpuid host v = (true, { v with regs := fun r => (
        if r = vcpuRegsRax then eax.zeroExtend 64
        else if r = vcpuRegsRbx then ebx.zeroExtend 64
        else if r = vcpuRegsRcx then
          (if function = 1 then clearBits ecx [0, 9, 19, 20, 26, 27] else ecx).zeroExtend 64
        else if r = vcpuRegsRdx then
          (if function = 1 then clearBits edx [25, 26] else edx).zeroExtend 64
        else if r = vcpuRegsRip then regs r + v.exitInstructionLen.signExtend 64
        else regs r) }) := by
  intro v _ _
  exact ⟨rfl, handleCpuid_spec host v⟩

/-- `E2BIG`. -/
def e2big : Int := 7

/-- The leaves `kvm_get_supported_cpuid` reports, as function and index, in its order. -/
def supportedCpuidLeaves : List (BitVec 32 × BitVec 32) :=
  [(0x40000000, 0), (0x40000001, 0), (0, 0), (1, 0), (2, 0), (3, 0), (4, 0), (4, 1), (4, 2),
   (4, 3), (0x80000000, 0), (0x80000001, 0), (0x80000002, 0), (0x80000003, 0), (0x80000004, 0)]

/-- `kvm_get_supported_cpuid`, given `nent`: `E2BIG` and nothing copied out for a buffer of fewer
than 15 entries; otherwise 0, and the entries copied out (whose count becomes `nent`) are the
host's answers to the listed leaves. -/
def kvmGetSupportedCpuid (host : Host) (nent : BitVec 32) : Int × Option (List KvmCpuidEntry2) :=
  if nent.toNat < supportedCpuidLeaves.length then (e2big, none)
  else (0, some (supportedCpuidLeaves.map fun (function, index) =>
    let (eax, ebx, ecx, edx) := host.cpuid function index
    ⟨function, index, eax, ebx, ecx, edx⟩))

section Table

variable (host : Host) (v : Vcpu)

/-- With no table entry for the leaf, `handle_cpuid` answers as with an empty table. -/
theorem handleCpuid_of_find_none
    (hf : v.cpuidEntries.find? (fun e => e.function == (v.regs vcpuRegsRax).truncate 32 &&
      e.index == (v.regs vcpuRegsRcx).truncate 32) = none) :
    handleCpuid host v =
      ((handleCpuid host { v with cpuidEntries := [] }).1,
       { (handleCpuid host { v with cpuidEntries := [] }).2 with cpuidEntries := v.cpuidEntries }) := by
  simp only [handleCpuid, hf, List.find?_nil, skipEmulatedInstruction]

/-- When the first entry for the leaf is what the processor `cpu` answers for it, `handle_cpuid`
answers as `cpu` would with an empty table, whichever processor takes the exit. -/
theorem handleCpuid_of_find_some (cpu : Host) {e : KvmCpuidEntry2}
    (hf : v.cpuidEntries.find? (fun e => e.function == (v.regs vcpuRegsRax).truncate 32 &&
      e.index == (v.regs vcpuRegsRcx).truncate 32) = some e)
    (hc : cpu.cpuid e.function e.index = (e.eax, e.ebx, e.ecx, e.edx)) :
    handleCpuid host v =
      ((handleCpuid cpu { v with cpuidEntries := [] }).1,
       { (handleCpuid cpu { v with cpuidEntries := [] }).2 with cpuidEntries := v.cpuidEntries }) := by
  have he : e.function = (v.regs vcpuRegsRax).truncate 32 ∧
      e.index = (v.regs vcpuRegsRcx).truncate 32 := by simpa using List.find?_some hf
  rw [he.1, he.2] at hc
  simp only [handleCpuid, hf, List.find?_nil, hc, skipEmulatedInstruction]

end Table

/-- The table `KVM_GET_SUPPORTED_CPUID` hands out holds the answers of the processor `cpu` it ran
on. Installed with `KVM_SET_CPUID2`, it makes a guest CPUID of one of its fifteen leaves return
`cpu`'s answer, whichever processor `host` takes the exit, and any other leaf `host`'s own. -/
theorem handleCpuid_supportedCpuid (cpu host : Host) (nent : BitVec 32)
    {entries : List KvmCpuidEntry2} (h : (kvmGetSupportedCpuid cpu nent).2 = some entries)
    (v : Vcpu) (hv : v.cpuidEntries = entries) :
    let answering :=
      if ((v.regs vcpuRegsRax).truncate 32, (v.regs vcpuRegsRcx).truncate 32) ∈
        supportedCpuidLeaves then cpu else host
    handleCpuid host v =
      ((handleCpuid answering { v with cpuidEntries := [] }).1,
       { (handleCpuid answering { v with cpuidEntries := [] }).2 with
         cpuidEntries := v.cpuidEntries }) := by
  intro answering
  unfold kvmGetSupportedCpuid at h
  split_ifs at h
  cases h
  cases hf : v.cpuidEntries.find? (fun e => e.function == (v.regs vcpuRegsRax).truncate 32 &&
      e.index == (v.regs vcpuRegsRcx).truncate 32) with
  | none =>
    -- every listed leaf has its entry, so the leaf is not listed
    have hn : ((v.regs vcpuRegsRax).truncate 32, (v.regs vcpuRegsRcx).truncate 32) ∉
        supportedCpuidLeaves := fun hm => by
      have := List.find?_eq_none.1 hf _ (hv ▸ List.mem_map_of_mem _ hm)
      simp at this
    simp only [answering, if_neg hn]
    exact handleCpuid_of_find_none host v hf
  | some e =>
    obtain ⟨⟨f, i⟩, hm, rfl⟩ := List.mem_map.1 (hv ▸ List.mem_of_find?_eq_some hf)
    have he : f = (v.regs vcpuRegsRax).truncate 32 ∧ i = (v.regs vcpuRegsRcx).truncate 32 := by
      simpa using List.find?_some hf
    simp only [answering, if_pos (he.1 ▸ he.2 ▸ hm)]
    exact handleCpuid_of_find_some host v cpu hf rfl

/-- The table taken on a processor whose leaf 1 reports APIC id 1 (EBX bits 31:24), run for leaf
1 on a processor that reports APIC id 2: the guest reads APIC id 1. -/
theorem handleCpuid_supportedCpuid_leaf1 :
    let cpu : Host := ⟨fun _ _ => (0x306a9, 0x01000800, 0, 0), fun _ => 0, fun _ => 0⟩
    let host : Host := ⟨fun _ _ => (0x306a9, 0x02000800, 0, 0), fun _ => 0, fun _ => 0⟩
    let entries := ((kvmGetSupportedCpuid cpu 15).2).getD []
    let v : Vcpu :=
      { Vcpu.zero with regs := fun r => if r = vcpuRegsRax then 1 else 0, cpuidEntries := entries }
    (kvmGetSupportedCpuid cpu 15).2 = some entries ∧ v.cpuidEntries = entries ∧
      (let answering :=
        if ((v.regs vcpuRegsRax).truncate 32, (v.regs vcpuRegsRcx).truncate 32) ∈
          supportedCpuidLeaves then cpu else host
      handleCpuid host v =
        ((handleCpuid answering { v with cpuidEntries := [] }).1,
         { (handleCpuid answering { v with cpuidEntries := [] }).2 with
           cpuidEntries := v.cpuidEntries })) ∧
      (handleCpuid host v).2.regs vcpuRegsRbx = 0x01000800 := by
  intro cpu host entries v
  exact ⟨rfl, rfl, handleCpuid_supportedCpuid cpu host 15 rfl v rfl, rfl⟩

/-- A table that sets every feature bit of leaf 1 still reports neither SSE nor SSE2. -/
example (host : Host) (v : Vcpu) :
    let entries : List KvmCpuidEntry2 := [⟨1, 1, 0, 0, 0xffffffff, 0xffffffff⟩]
    (handleCpuid host { v with regs := fun _ => 1, cpuidEntries := entries }).2.regs vcpuRegsRdx =
      0xf9ffffff := by
  rfl

end KvmKext
