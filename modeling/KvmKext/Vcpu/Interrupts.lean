import KvmKext.Vcpu.Frame
import KvmKext.Vcpu.Ops
import KvmKext.Vcpu.Init

/-!
# Pending interrupts

`pending_irq` is written by three pieces of code: `kvm_irq_line` raises a line on a change of
its level from 0 to 1, `handle_external_interrupt` raises line 0 on a host timer exit, and the
injection scan of `kvm_run_wrapper` clears the lowest pending line when it injects it. We run
these as steps in any interleaving, record the events each step observes, and show that bit `n`
of `pending_irq` is set exactly when line `n` was raised since it was last injected. A failed entry
dispatches the previous exit once more; the invariant `IrqInv.stale` shows that this never raises
a line that is not already pending.
-/

namespace KvmKext

section Bits

variable (p : BitVec 32)

theorem getLsbD_or_bit {n : Nat} (hn : n < 32) (i : Nat) :
    (p ||| (1 : BitVec 32) <<< n).getLsbD i = (p.getLsbD i || decide (i = n)) := by
  by_cases hi : i < 32
  · by_cases h : i = n
    · simp [h, hn]
    · simp [h, hi]; omega
  · simp [BitVec.getLsbD_ge _ _ (Nat.le_of_not_lt hi)]; omega

theorem getLsbD_and_not_bit {n : Nat} (hn : n < 32) (i : Nat) :
    (p &&& ~~~((1 : BitVec 32) <<< n)).getLsbD i = (p.getLsbD i && decide (i ≠ n)) := by
  by_cases hi : i < 32
  · by_cases h : i = n
    · simp [h, hn]
    · simp [h, hi]; omega
  · simp [BitVec.getLsbD_ge _ _ (Nat.le_of_not_lt hi)]

theorem getLsbD_and_bit {n : Nat} (hn : n < 32) (i : Nat) :
    (p &&& (1 : BitVec 32) <<< n).getLsbD i = (p.getLsbD n && decide (i = n)) := by
  by_cases h : i = n
  · simp [h, hn]
  · simp [h]; omega

theorem getLsbD_or_one (i : Nat) : (p ||| 1).getLsbD i = (p.getLsbD i || decide (i = 0)) := by
  simp

/-- The scan's test `pending_irq & (1 << i)` reads bit `i`. -/
theorem and_bit_ne_zero {n : Nat} (hn : n < 32) :
    (p &&& (1 : BitVec 32) <<< n != 0) = p.getLsbD n := by
  rcases h : p.getLsbD n
  · have hz : p &&& (1 : BitVec 32) <<< n = 0 :=
      BitVec.eq_of_getLsbD_eq fun j => by simp only [getLsbD_and_bit p hn, h]; simp
    rw [hz]; rfl
  · have hz : p &&& (1 : BitVec 32) <<< n ≠ 0 := fun hz => by
      have := getLsbD_and_bit p hn n
      rw [hz] at this
      simp [h] at this
    simpa using hz

end Bits

/-- The scan finds the lowest pending line. -/
theorem lowestPending_eq_some {p : BitVec 32} {n : Nat} :
    lowestPending p = some n ↔ n < 16 ∧ p.getLsbD n ∧ ∀ k < n, p.getLsbD k = false := by
  simp only [lowestPending, List.find?_range_eq_some, List.mem_range, irqMax]
  have hb : ∀ k < 16, (!(p &&& (1 : BitVec 32) <<< k != 0)) = true ↔ p.getLsbD k = false :=
    fun k hk => by rw [and_bit_ne_zero p (show k < 32 by omega)]; simp
  constructor
  · rintro ⟨h1, h2, h3⟩
    exact ⟨h2, by rwa [and_bit_ne_zero p (by omega)] at h1,
      fun k hk => (hb k (by omega)).1 (h3 k hk)⟩
  · rintro ⟨h1, h2, h3⟩
    exact ⟨by rwa [and_bit_ne_zero p (by omega)], h1, fun k hk => (hb k (by omega)).2 (h3 k hk)⟩

theorem lowestPending_eq_none {p : BitVec 32} :
    lowestPending p = none ↔ ∀ k < 16, p.getLsbD k = false := by
  simp only [lowestPending, List.find?_eq_none, List.mem_range, irqMax]
  refine forall₂_congr fun k hk => ?_
  rw [and_bit_ne_zero p (show k < 32 by omega)]
  simp

/-- An interrupt event: line `n` raised, or injected into the guest. -/
inductive IrqEvent
  | trigger (n : Nat)
  | inject (n : Nat)
  deriving DecidableEq, Repr

/-- How one event changes whether line `n` is pending. -/
def pendingStep (n : Nat) (b : Bool) : IrqEvent → Bool
  | .trigger k => b || decide (n = k)
  | .inject k => b && decide (n ≠ k)

/-- Whether line `n` was raised since it was last injected. -/
def pendingAfter (es : List IrqEvent) (n : Nat) : Bool :=
  es.foldl (pendingStep n) false

@[simp] theorem pendingStep_trigger (n k : Nat) (b : Bool) :
    pendingStep n b (.trigger k) = (b || decide (n = k)) := rfl

@[simp] theorem pendingStep_inject (n k : Nat) (b : Bool) :
    pendingStep n b (.inject k) = (b && decide (n ≠ k)) := rfl

@[simp] theorem pendingAfter_nil (n : Nat) : pendingAfter [] n = false := rfl

@[simp] theorem pendingAfter_append (es es' : List IrqEvent) (n : Nat) :
    pendingAfter (es ++ es') n = es'.foldl (pendingStep n) (pendingAfter es n) :=
  List.foldl_append _ _ _ _

example : pendingAfter [.trigger 3, .inject 3, .trigger 3, .trigger 5] 3 = true := by decide


@[simp] theorem kvmIrqLine_launched (v : Vcpu) (irq : KvmIrqLevel) :
    (kvmIrqLine v irq).2.launched = v.launched := by
  unfold kvmIrqLine; dsimp only; split_ifs <;> rfl

/-- The steps the interrupt state goes through: a `KVM_IRQ_LINE` call, the top of a `KVM_RUN`,
and one pass of its loop. -/
inductive IrqStep
  | line (irq : KvmIrqLevel)
  | start
  | iterate (t : Turn)

/-- One step on the state of the run loop; a `KVM_IRQ_LINE` leaves the loop's locals alone. -/
def irqStep (l : RunLoop) : IrqStep → RunLoop
  | .line irq => { l with m := l.m.setVcpu (kvmIrqLine l.m.vcpu irq).2 }
  | .start => ⟨runStart l.m, 0, true, 0, 0⟩
  | .iterate t => runIteration t { l with maxcont := l.maxcont + 1 }

/-- A `KVM_IRQ_LINE` call raises its line when the line is below `IRQ_MAX` and its level goes
from 0 to exactly 1. -/
def lineEvents (v : Vcpu) (irq : KvmIrqLevel) : List IrqEvent :=
  if h : irq.irq.toNat < 16 then
    if v.irqLevel ⟨_, h⟩ = 0 ∧ irq.level = 1 then [.trigger irq.irq.toNat] else []
  else []

/-- After an interrupt-window exit the scan injects the lowest pending line. -/
def scanEvents (l : RunLoop) : List IrqEvent :=
  if l.exitReason.toNat = exitReasonPendingInterrupt then
    (lowestPending l.m.vcpu.pendingIrq).toList.map .inject
  else []

/-- A host timer exit, external interrupt with qualification 0, raises line 0. -/
def exitEvents : WorldSwitch → List IrqEvent
  | .exit x =>
    if x.reason.toNat = exitReasonExternalInterrupt ∧ x.qualification = 0 then [.trigger 0] else []
  | .fail _ _ => []

/-- The events a step observes. -/
def irqEvents (l : RunLoop) : IrqStep → List IrqEvent
  | .line irq => lineEvents l.m.vcpu irq
  | .start => []
  | .iterate t => scanEvents l ++ exitEvents t.switch

/-- A sequence of steps, with the events observed along it. -/
def irqRun : RunLoop × List IrqEvent → List IrqStep → RunLoop × List IrqEvent
  | s, [] => s
  | (l, es), st :: sts => irqRun (irqStep l st, es ++ irqEvents l st) sts

@[simp] theorem irqRun_nil (s : RunLoop × List IrqEvent) : irqRun s [] = s := rfl

@[simp] theorem irqRun_cons (l : RunLoop) (es : List IrqEvent) (st : IrqStep) (sts : List IrqStep) :
    irqRun (l, es) (st :: sts) = irqRun (irqStep l st, es ++ irqEvents l st) sts := rfl

/-- What a `KVM_IRQ_LINE` call does to `pending_irq`: nothing, or it sets the bit of the line its
event raises. -/
theorem lineEvents_cases (v : Vcpu) (irq : KvmIrqLevel) :
    (lineEvents v irq = [] ∧ (kvmIrqLine v irq).2.pendingIrq = v.pendingIrq) ∨
    ∃ k < 16, lineEvents v irq = [.trigger k] ∧
      (kvmIrqLine v irq).2.pendingIrq = v.pendingIrq ||| (1 : BitVec 32) <<< k := by
  unfold lineEvents kvmIrqLine; dsimp only
  split_ifs with h1
  · exact .inr ⟨_, h1, rfl, rfl⟩
  all_goals exact .inl ⟨rfl, rfl⟩

/-- What the injection scan does: nothing, or it injects the lowest pending line `n`, with the
vector for the current paging mode, and clears its bit. -/
theorem scanEvents_cases (l : RunLoop) :
    (scanEvents l = [] ∧ (injectionScan l).1 = 0 ∧
      (injectionScan l).2.pendingIrq = l.m.vcpu.pendingIrq) ∨
    ∃ n, lowestPending l.m.vcpu.pendingIrq = some n ∧ scanEvents l = [.inject n] ∧
      (injectionScan l).1 = intrInfoValidMask ||| intrTypeExtIntr |||
        BitVec.ofNat 32 (if l.m.vcpu.paging then n + 0x30 else n + 8) ∧
      (injectionScan l).2.pendingIrq = l.m.vcpu.pendingIrq &&& ~~~((1 : BitVec 32) <<< n) := by
  unfold scanEvents injectionScan
  by_cases hr : l.exitReason.toNat = exitReasonPendingInterrupt
  · rw [if_pos hr, if_pos hr]
    unfold injectIrq
    cases hp : lowestPending l.m.vcpu.pendingIrq with
    | none => exact .inl ⟨rfl, rfl, rfl⟩
    | some n => exact .inr ⟨n, rfl, rfl, rfl, rfl⟩
  · rw [if_neg hr, if_neg hr]
    exact .inl ⟨rfl, rfl, rfl⟩

/-- A scan that injects a line writes interruption information with the valid bit set. -/
theorem injectionScan_ne_zero {l : RunLoop} {n : Nat} (hn : scanEvents l = [.inject n]) :
    (injectionScan l).1 ≠ 0 := by
  rcases scanEvents_cases l with ⟨hs, -⟩ | ⟨k, -, -, hv, -⟩
  · rw [hs] at hn; exact List.noConfusion hn
  · intro h0
    have h31 := congrArg (BitVec.getLsbD · 31) (hv.symm.trans h0)
    simp [intrInfoValidMask] at h31

/-- `pending_irq` holds exactly the lines pending after the events `es`: no bit from 16 up, and
bit `n` below 16 as `pendingAfter` says. This is how the bit mask refines the event history. -/
structure PendingExact (p : BitVec 32) (es : List IrqEvent) : Prop where
  high : ∀ i, 16 ≤ i → p.getLsbD i = false
  bits : ∀ n < 16, p.getLsbD n = pendingAfter es n

namespace PendingExact

variable {p : BitVec 32} {es : List IrqEvent}

theorem trigger (h : PendingExact p es) {k : Nat} (hk : k < 16) :
    PendingExact (p ||| (1 : BitVec 32) <<< k) (es ++ [.trigger k]) where
  high i hi := by rw [getLsbD_or_bit p (by omega), h.high i hi]; simp; omega
  bits n hn := by rw [getLsbD_or_bit p (by omega), h.bits n hn]; simp

theorem trigger_zero (h : PendingExact p es) : PendingExact (p ||| 1) (es ++ [.trigger 0]) := by
  simpa using h.trigger (k := 0) (by decide)

theorem inject (h : PendingExact p es) {k : Nat} (hk : k < 16) :
    PendingExact (p &&& ~~~((1 : BitVec 32) <<< k)) (es ++ [.inject k]) where
  high i hi := by rw [getLsbD_and_not_bit p (by omega), h.high i hi]; simp
  bits n hn := by
    rw [getLsbD_and_not_bit p (by omega), h.bits n hn]; simp

/-- Raising line 0 again while it is pending changes nothing. -/
theorem retrigger (h : PendingExact p es) (h0 : pendingAfter es 0 = true) :
    PendingExact (p ||| 1) es where
  high i hi := by rw [getLsbD_or_one, h.high i hi]; simp; omega
  bits n hn := by rw [getLsbD_or_one, h.bits n hn]; rcases n with _ | n <;> simp [h0]

theorem ne_zero_iff (h : PendingExact p es) : p ≠ 0 ↔ ∃ n < 16, pendingAfter es n = true := by
  constructor
  · intro hp
    by_contra hc
    push_neg at hc
    refine hp (BitVec.eq_of_getLsbD_eq fun i => ?_)
    by_cases hi : i.val < 16
    · simpa [h.bits i hi] using hc i hi
    · simpa using h.high i (by omega)
  · rintro ⟨n, hn, hb⟩ rfl
    simpa using (h.bits n hn).trans hb

/-- The scan keeps the refinement, with its injection appended to the history. -/
theorem scan {l : RunLoop} (h : PendingExact l.m.vcpu.pendingIrq es) :
    PendingExact (injectionScan l).2.pendingIrq (es ++ scanEvents l) := by
  rcases scanEvents_cases l with ⟨he, -, hp⟩ | ⟨n, hn, he, -, hp⟩
  · rw [he, hp, List.append_nil]; exact h
  · rw [he, hp]; exact h.inject (lowestPending_eq_some.1 hn).1

/-- A pending scan finds the lowest line pending after `es`. -/
theorem lowestPending_eq (h : PendingExact p es) {n : Nat} (hn : lowestPending p = some n) :
    n < 16 ∧ pendingAfter es n = true ∧ ∀ k < n, pendingAfter es k = false := by
  obtain ⟨h1, h2, h3⟩ := lowestPending_eq_some.1 hn
  exact ⟨h1, (h.bits n h1).symm.trans h2, fun k hk => (h.bits k (by omega)).symm.trans (h3 k hk)⟩

end PendingExact

/-- The invariant of the interrupt state. `pending` says the bit mask holds exactly the lines
raised since they were last injected; `stale` says a host timer exit left in the VMCS has already
raised line 0, so dispatching it again after a failed entry changes nothing; `reason` ties the loop's `exit_reason` to the VMCS, so the scan only runs after a real
interrupt-window exit. -/
structure IrqInv (l : RunLoop) (es : List IrqEvent) : Prop where
  pending : PendingExact l.m.vcpu.pendingIrq es
  stale : ((l.m.vmcs.field .vmExitReason).truncate 32).toNat = exitReasonExternalInterrupt →
    l.m.vmcs.field .exitQualification = 0 → pendingAfter es 0 = true
  reason : l.exitReason = 0 ∨ l.exitReason = (l.m.vmcs.field .vmExitReason).truncate 32
  clear : l.m.vmcs.launched = false
  vmlaunch : l.m.vcpu.launched = 0

namespace IrqInv

variable {l : RunLoop} {es : List IrqEvent}

/-- A VM exit stores its reason and qualification. -/
theorem exit_fields (h : IrqInv l es) (x : VmExit) :
    (kvmRun (.exit x) (prepareEntry l)).vmcs.field .vmExitReason = x.reason.zeroExtend 64 ∧
    (kvmRun (.exit x) (prepareEntry l)).vmcs.field .exitQualification = x.qualification := by
  rw [kvmRun_exit_vmcs (prepareEntry_fresh h.clear h.vmlaunch).1
    (prepareEntry_fresh h.clear h.vmlaunch).2]
  simp

/-- A failed entry leaves the previous exit's reason and qualification in place. -/
theorem fail_field (h : IrqInv l es) {e : BitVec 32} (he : e ≠ 0) {f : VmcsField}
    (hf : f = .vmExitReason ∨ f = .exitQualification) :
    (kvmRun (.fail e he) (prepareEntry l)).vmcs.field f = l.m.vmcs.field f := by
  rcases hf with rfl | rfl <;> exact kvmRun_fail_prepareEntry h.clear h.vmlaunch he (by decide)

/-- While the VMCS holds a host timer exit the loop's `exit_reason` is not an interrupt-window
exit, so no scan runs. -/
theorem scanEvents_eq_nil (h : IrqInv l es)
    (hr : ((l.m.vmcs.field .vmExitReason).truncate 32).toNat = exitReasonExternalInterrupt) :
    scanEvents l = [] := by
  unfold scanEvents
  rw [if_neg]
  rcases h.reason with h0 | h0 <;> rw [h0]
  · decide
  · rw [hr]; decide

theorem line (h : IrqInv l es) (irq : KvmIrqLevel) :
    IrqInv (irqStep l (.line irq)) (es ++ lineEvents l.m.vcpu irq) := by
  rcases lineEvents_cases l.m.vcpu irq with ⟨he, hp⟩ | ⟨k, hk, he, hp⟩ <;> rw [he]
  · rw [List.append_nil]
    exact ⟨by rw [irqStep, Machine.setVcpu_vcpu, hp]; exact h.pending, h.stale, h.reason, h.clear,
      by simp [irqStep, h.vmlaunch]⟩
  · exact ⟨by rw [irqStep, Machine.setVcpu_vcpu, hp]; exact h.pending.trigger hk,
      fun h1 h2 => by simp [h.stale h1 h2], h.reason, h.clear, by simp [irqStep, h.vmlaunch]⟩

theorem start (h : IrqInv l es) : IrqInv (irqStep l .start) (es ++ irqEvents l .start) := by
  rw [irqEvents, List.append_nil]
  exact ⟨by simpa [irqStep] using h.pending, by simpa [irqStep] using h.stale, .inl rfl,
    by simpa [irqStep] using h.clear, by simpa [irqStep] using h.vmlaunch⟩

theorem iterate (h : IrqInv l es) (t : Turn) :
    IrqInv (runIteration t l) (es ++ (scanEvents l ++ exitEvents t.switch)) := by
  have hs := h.pending.scan
  have hr := runIteration_exitReason t l
  have hR := runIteration_field t l (f := .vmExitReason) (by decide)
  have hQ := runIteration_field t l (f := .exitQualification) (by decide)
  have hp := runIteration_pendingIrq t l
  rw [hr, hR] at hp
  obtain ⟨sw, sig⟩ := t
  dsimp only at hR hQ hp ⊢
  cases sw with
  | exit x =>
    have hz : (x.reason.zeroExtend 64).truncate 32 = x.reason := by simp
    rw [(h.exit_fields x).1, hz] at hp
    rw [(h.exit_fields x).1] at hR
    rw [(h.exit_fields x).2] at hQ hp
    refine ⟨?_, fun h1 h2 => ?_, .inr hr, runIteration_launched _ l, by simp [h.vmlaunch]⟩
    · rw [hp, exitEvents]
      split_ifs
      · rw [← List.append_assoc]; exact hs.trigger_zero
      · rw [List.append_nil]; exact hs
    · rw [hR, hz] at h1
      rw [hQ] at h2
      simp [exitEvents, h1, h2]
  | fail e he =>
    rw [h.fail_field he (.inl rfl)] at hR hp
    rw [h.fail_field he (.inr rfl)] at hQ hp
    refine ⟨?_, fun h1 h2 => ?_, .inr hr, runIteration_launched _ l, by simp [h.vmlaunch]⟩
    · rw [hp, exitEvents, List.append_nil]
      split_ifs with hc
      · rw [h.scanEvents_eq_nil hc.1, List.append_nil] at hs ⊢
        exact hs.retrigger (h.stale hc.1 hc.2)
      · exact hs
    · rw [hR] at h1
      rw [hQ] at h2
      simpa [exitEvents, h.scanEvents_eq_nil h1] using h.stale h1 h2

theorem step (h : IrqInv l es) (st : IrqStep) : IrqInv (irqStep l st) (es ++ irqEvents l st) := by
  cases st with
  | line irq => exact h.line irq
  | start => exact h.start
  | iterate t =>
    exact iterate (l := { l with maxcont := l.maxcont + 1 })
      ⟨h.pending, h.stale, h.reason, h.clear, h.vmlaunch⟩ t

/-- The invariant holds along every sequence of steps. -/
theorem run (h : IrqInv l es) (sts : List IrqStep) :
    IrqInv (irqRun (l, es) sts).1 (irqRun (l, es) sts).2 := by
  induction sts generalizing l es with
  | nil => exact h
  | cons st sts ih => exact ih (h.step st)

/-- The scan injects exactly when the loop's last exit was an interrupt window and a line is
pending. -/
theorem injects_iff (h : IrqInv l es) :
    (injectionScan l).1 ≠ 0 ↔
      l.exitReason.toNat = exitReasonPendingInterrupt ∧ ∃ n < 16, pendingAfter es n = true := by
  by_cases hr : l.exitReason.toNat = exitReasonPendingInterrupt
  · cases hp : lowestPending l.m.vcpu.pendingIrq with
    | none =>
      have h0 : (injectionScan l).1 = 0 := by rw [injectionScan, if_pos hr, injectIrq, hp]
      refine iff_of_false (· h0) fun ⟨_, n, hn, hb⟩ => ?_
      have hn0 := lowestPending_eq_none.1 hp n hn
      rw [h.pending.bits n hn, hb] at hn0
      exact Bool.noConfusion hn0
    | some n =>
      obtain ⟨h1, h2, -⟩ := h.pending.lowestPending_eq hp
      exact iff_of_true (injectionScan_ne_zero (n := n) (by rw [scanEvents, if_pos hr, hp]; rfl))
        ⟨hr, n, h1, h2⟩
  · rw [injectionScan, if_neg hr]
    exact iff_of_false (· rfl) fun h' => hr h'.1

/-- The interrupt-window request of the next entry: set exactly when a line is still pending
after the scan. -/
theorem entry_window (h : IrqInv l es) :
    ((loadGuestState (prepareEntry l)).vmcs.field .cpuBasedVmExecControl).getLsbD 2 = true ↔
      ∃ n < 16, pendingAfter (es ++ scanEvents l) n = true := by
  rw [loadGuestState_field _ (by decide), prepareEntry, requestWindow_bit, decide_eq_true_iff]
  simp only [writeIntrInfo_vcpu, Machine.loadVmcs_vcpu, Machine.setVcpu_vcpu]
  exact h.pending.scan.ne_zero_iff

/-- An injection delivers the lowest pending line `n`, as vector `0x30 + n` with paging on and
`8 + n` without, and clears only its bit. -/
theorem entry_inject (h : IrqInv l es) (hi : (injectionScan l).1 ≠ 0) :
    ∃ n, scanEvents l = [.inject n] ∧ n < 16 ∧ pendingAfter es n = true ∧
      (∀ k < n, pendingAfter es k = false) ∧
      (loadGuestState (prepareEntry l)).vmcs.field .vmEntryIntrInfoField =
        (0x80000000 ||| BitVec.ofNat 32 (if l.m.vcpu.paging then 0x30 + n else 8 + n)).zeroExtend 64 ∧
      ∀ i, (injectionScan l).2.pendingIrq.getLsbD i = (l.m.vcpu.pendingIrq.getLsbD i && decide (i ≠ n)) := by
  rcases scanEvents_cases l with ⟨-, h0, -⟩ | ⟨n, hn, he, hv, hp⟩
  · exact absurd h0 hi
  obtain ⟨h1, h2, h3⟩ := h.pending.lowestPending_eq hn
  refine ⟨n, he, h1, h2, h3, ?_, fun i => by rw [hp, getLsbD_and_not_bit _ (by omega)]⟩
  rw [loadGuestState_field _ (by decide), prepareEntry, requestWindow_field _ (by decide),
    writeIntrInfo_field, if_pos ⟨rfl, hi⟩, hv]
  simp [intrInfoValidMask, intrTypeExtIntr, Nat.add_comm n]

end IrqInv


/-- A freshly created vCPU satisfies the invariant with no events: nothing pending, no exit in the
VMCS, and a clear VMCS never launched. -/
theorem irqInv_kvmCreateVm (pa : Nat → Nat) (sizeofVcpu : Nat) (host : Host) (h : Heap) :
    IrqInv ⟨(kvmCreateVm pa sizeofVcpu host h).2, 0, true, 0, 0⟩ [] := by
  obtain ⟨_, _, _, _, _, hv⟩ := kvmCreateVm_vcpu pa sizeofVcpu host h
  have hr := kvmCreateVm_field pa sizeofVcpu host h (f := .vmExitReason) (by decide)
  refine ⟨⟨fun i _ => ?_, fun n _ => ?_⟩, fun h1 => ?_, .inl rfl, kvmCreateVm_launched .., ?_⟩
  all_goals simp_all [Vcpu.zero, exitReasonExternalInterrupt]

/-- A `KVM_RUN` is a `start` step followed by iterations of its loop. -/
theorem runLoop_eq_irqRun (turns : Nat → Turn) (n : Nat) (l : RunLoop) (es : List IrqEvent) :
    ∃ sts, runLoop turns n l = (irqRun (l, es) sts).1 := by
  induction n generalizing l es with
  | zero => exact ⟨[], rfl⟩
  | succ n ih =>
    have hi : runIteration (turns l.maxcont) { l with maxcont := l.maxcont + 1 } =
        irqStep l (.iterate (turns l.maxcont)) := rfl
    simp only [runLoop, hi]
    split_ifs
    · exact ⟨[.iterate (turns l.maxcont)], by rw [irqRun_cons, irqRun_nil]⟩
    · obtain ⟨sts, hs⟩ := ih (irqStep l (.iterate (turns l.maxcont)))
        (es ++ irqEvents l (.iterate (turns l.maxcont)))
      exact ⟨.iterate (turns l.maxcont) :: sts, by rw [irqRun_cons, hs]⟩
    · exact ⟨[], rfl⟩

theorem kvmRunWrapper_eq_irqRun (turns : Nat → Turn) (l : RunLoop) (es : List IrqEvent) :
    ∃ sts, (kvmRunWrapper turns l.m).2 = (irqRun (l, es) (.start :: sts)).1.m := by
  obtain ⟨sts, hs⟩ := runLoop_eq_irqRun turns 1000 (irqStep l .start) (es ++ irqEvents l .start)
  exact ⟨sts, congrArg RunLoop.m hs⟩

theorem kvmCreateVm_irqRun_pending (pa : Nat → Nat) (sizeofVcpu : Nat) (host : Host) (h : Heap)
    (steps : List IrqStep) :
    let r := irqRun (⟨(kvmCreateVm pa sizeofVcpu host h).2, 0, true, 0, 0⟩, []) steps
    (∀ i, 16 ≤ i → r.1.m.vcpu.pendingIrq.getLsbD i = false) ∧
    (∀ n < 16, r.1.m.vcpu.pendingIrq.getLsbD n = pendingAfter r.2 n) ∧
    ((injectionScan r.1).1 ≠ 0 ↔
      r.1.exitReason.toNat = exitReasonPendingInterrupt ∧ ∃ n < 16, pendingAfter r.2 n = true) ∧
    ((injectionScan r.1).1 ≠ 0 →
      ∃ n, scanEvents r.1 = [.inject n] ∧ n < 16 ∧ pendingAfter r.2 n = true ∧
        (∀ k < n, pendingAfter r.2 k = false) ∧
        (loadGuestState (prepareEntry r.1)).vmcs.field .vmEntryIntrInfoField =
          (0x80000000 ||| BitVec.ofNat 32 (if r.1.m.vcpu.paging then 0x30 + n else 8 + n)).zeroExtend 64 ∧
        ∀ i, (injectionScan r.1).2.pendingIrq.getLsbD i =
          (r.1.m.vcpu.pendingIrq.getLsbD i && decide (i ≠ n))) ∧
    (((loadGuestState (prepareEntry r.1)).vmcs.field .cpuBasedVmExecControl).getLsbD 2 = true ↔
      ∃ n < 16, pendingAfter (r.2 ++ scanEvents r.1) n = true) := by
  have hi := (irqInv_kvmCreateVm pa sizeofVcpu host h).run steps
  exact ⟨hi.pending.high, hi.pending.bits, hi.injects_iff, hi.entry_inject, hi.entry_window⟩

end KvmKext
