import KvmKext.Vcpu.Interrupts

/-!
# Injections a VM exit interrupts

The scan injects a line by writing `VM_ENTRY_INTR_INFO_FIELD` and clearing the line's bit in
`pending_irq`. A VM exit during the delivery of that event reports it in
`IDT_VECTORING_INFO_FIELD`, and every exit clears the valid bit of the entry's interruption
information. `kvm_run_wrapper` never reads the vectoring information, so the next entry injects
nothing unless an interrupt-window exit makes the scan pick a line, and that line is another one:
the injected line has left `pending_irq`. No pass of the loop raises a line other than 0, so
such a line stays lost for the rest of the run.
-/

namespace KvmKext

@[simp] theorem exitFields_idtVectoringInfoField (old : VmcsField → BitVec 64) (x : VmExit) :
    exitFields old x .idtVectoringInfoField = x.idtVectoringInfo.zeroExtend 64 := rfl

@[simp] theorem exitFields_vmEntryIntrInfoField (old : VmcsField → BitVec 64) (x : VmExit) :
    exitFields old x .vmEntryIntrInfoField =
      old .vmEntryIntrInfoField &&& ~~~(intrInfoValidMask.zeroExtend 64) := rfl

/-- A history that never raises line `n` leaves it not pending. -/
theorem foldl_pendingStep_false {n : Nat} :
    ∀ {es : List IrqEvent}, (∀ e ∈ es, e ≠ .trigger n) → es.foldl (pendingStep n) false = false
  | [], _ => rfl
  | e :: es, h => by
    have ih := foldl_pendingStep_false fun e' he' => h e' (List.mem_cons_of_mem _ he')
    have he := h e (List.mem_cons_self _ _)
    cases e with
    | trigger k =>
      have hk : n ≠ k := fun hk => he (by rw [hk])
      simpa [hk] using ih
    | inject k => simpa using ih

/-- A pass of the loop raises no line but 0: its scan only injects, and its exit raises line 0
at most. -/
theorem irqEvents_iterate_ne_trigger {n : Nat} (hn : n ≠ 0) (l : RunLoop) (t : Turn) :
    ∀ e ∈ irqEvents l (.iterate t), e ≠ .trigger n := by
  intro e he
  rcases List.mem_append.1 he with hs | hx
  · rcases scanEvents_cases l with ⟨hs', -⟩ | ⟨k, -, hs', -⟩ <;> rw [hs'] at hs
    · simp at hs
    · rw [List.mem_singleton.1 hs]; exact IrqEvent.noConfusion
  · rcases t with ⟨_ | _, _⟩ <;> simp only [exitEvents] at hx
    · split_ifs at hx
      · rw [List.mem_singleton.1 hx]; simpa using hn.symm
      · simp at hx
    · simp at hx

/-- Over any passes of the loop, a line other than 0 that is not pending stays so. -/
theorem pendingAfter_irqRun_iterate {n : Nat} (hn : n ≠ 0) (ts : List Turn) :
    ∀ {l : RunLoop} {es : List IrqEvent}, pendingAfter es n = false →
      pendingAfter (irqRun (l, es) (ts.map .iterate)).2 n = false := by
  induction ts with
  | nil => exact fun h => h
  | cons t ts ih =>
    intro l es h
    rw [List.map_cons, irqRun_cons]
    apply ih
    rw [pendingAfter_append, h]
    exact foldl_pendingStep_false (irqEvents_iterate_ne_trigger hn l t)

namespace IrqInv

variable {l : RunLoop} {es : List IrqEvent}

/-- The next entry's interruption information: the injection of the line the scan picks, or the
field as the VMCS holds it. -/
theorem entry_intrInfo (h : IrqInv l es) :
    ((loadGuestState (prepareEntry l)).vmcs.field .vmEntryIntrInfoField).getLsbD 31 = false ∨
      (∃ k, scanEvents l = [.inject k] ∧ pendingAfter es k = true ∧
        (loadGuestState (prepareEntry l)).vmcs.field .vmEntryIntrInfoField =
          (0x80000000 ||| BitVec.ofNat 32 (if l.m.vcpu.paging then 0x30 + k else 8 + k)).zeroExtend 64) ∨
      (loadGuestState (prepareEntry l)).vmcs.field .vmEntryIntrInfoField =
        l.m.vmcs.field .vmEntryIntrInfoField := by
  by_cases hi : (injectionScan l).1 = 0
  · right; right
    rw [loadGuestState_field _ (by decide), prepareEntry, requestWindow_field _ (by decide),
      writeIntrInfo_field, if_neg fun hc => hc.2 hi]
    rfl
  · obtain ⟨k, hk, -, hp, -, hf, -⟩ := h.entry_inject hi
    exact .inr (.inl ⟨k, hk, hp, hf⟩)

/-- A pass whose scan injects line `n` and whose world switch ends in any VM exit `x`, in
particular one that interrupted the delivery of the injected event. The entry carries the
injection of line `n`. The exit reports the event
in `IDT_VECTORING_INFO_FIELD` and clears the valid bit of the injection; the next entry does not
inject line `n`; and when `n` is not 0, bit `n` of `pending_irq` stays clear over any later
passes. -/
theorem injection_lost (h : IrqInv l es) {n : Nat} (hn : scanEvents l = [.inject n]) (x : VmExit)
    (signal : Bool) :
    let l1 := irqStep l (.iterate ⟨.exit x, signal⟩)
    let es1 := es ++ irqEvents l (.iterate ⟨.exit x, signal⟩)
    (loadGuestState (prepareEntry l)).vmcs.field .vmEntryIntrInfoField =
      (0x80000000 ||| BitVec.ofNat 32 (if l.m.vcpu.paging then 0x30 + n else 8 + n)).zeroExtend 64 ∧
    l1.m.vmcs.field .idtVectoringInfoField = x.idtVectoringInfo.zeroExtend 64 ∧
    (l1.m.vmcs.field .vmEntryIntrInfoField).getLsbD 31 = false ∧
    (((loadGuestState (prepareEntry l1)).vmcs.field .vmEntryIntrInfoField).getLsbD 31 = false ∨
      ∃ k ≠ n, scanEvents l1 = [.inject k] ∧
        (loadGuestState (prepareEntry l1)).vmcs.field .vmEntryIntrInfoField =
          (0x80000000 ||| BitVec.ofNat 32 (if l1.m.vcpu.paging then 0x30 + k else 8 + k)).zeroExtend 64) ∧
    (n ≠ 0 →
      ∀ ts : List Turn, (irqRun (l1, es1) (ts.map .iterate)).1.m.vcpu.pendingIrq.getLsbD n = false) := by
  intro l1 es1
  have h1 : IrqInv l1 es1 := h.step _
  have hl1 : l1 = runIteration ⟨.exit x, signal⟩ { l with maxcont := l.maxcont + 1 } := rfl
  have hF : ∀ f ∉ handlerFields, l1.m.vmcs.field f =
      (kvmRun (.exit x) (prepareEntry { l with maxcont := l.maxcont + 1 })).vmcs.field f :=
    fun f hf => by rw [hl1, runIteration_field _ _ hf]
  have hp := prepareEntry_fresh (l := { l with maxcont := l.maxcont + 1 }) h.clear h.vmlaunch
  have hK := kvmRun_exit_vmcs hp.1 hp.2 x
  have hinfo : (l1.m.vmcs.field .vmEntryIntrInfoField).getLsbD 31 = false := by
    rw [hF _ (by decide), hK]
    simp [intrInfoValidMask]
  -- after the pass line `n` is pending only if the exit raised it
  have hes1 : pendingAfter es1 n = (exitEvents (.exit x)).foldl (pendingStep n) false := by
    simp only [es1, irqEvents, ← List.append_assoc, pendingAfter_append, hn]
    simp
  have hw : (loadGuestState (prepareEntry l)).vmcs.field .vmEntryIntrInfoField =
      (0x80000000 ||| BitVec.ofNat 32 (if l.m.vcpu.paging then 0x30 + n else 8 + n)).zeroExtend 64 := by
    obtain ⟨k, hk, -, -, -, hf, -⟩ := h.entry_inject (injectionScan_ne_zero hn)
    rw [hn] at hk
    cases hk
    exact hf
  refine ⟨hw, by rw [hF _ (by decide), hK]; rfl, hinfo, ?_, fun hn0 ts => ?_⟩
  · rcases h1.entry_intrInfo with hb | ⟨k, hk, hp, hf⟩ | hf
    · exact .inl hb
    · refine .inr ⟨k, fun hkn => ?_, hk, hf⟩
      subst hkn
      rw [hes1, exitEvents] at hp
      split_ifs at hp with hc
      · have hs : scanEvents l1 = [] := h1.scanEvents_eq_nil (by rw [hF _ (by decide), hK]; simpa using hc.1)
        rw [hs] at hk; exact List.noConfusion hk
      · exact Bool.noConfusion hp
    · rw [hf]; exact .inl hinfo
  · have hn1 : n < 16 := by
      rcases scanEvents_cases l with ⟨hs, -⟩ | ⟨k, hk, hs, -⟩ <;> rw [hs] at hn
      · exact List.noConfusion hn
      · cases hn; exact (lowestPending_eq_some.1 hk).1
    have hq : pendingAfter es1 n = false := by
      rw [hes1]
      exact foldl_pendingStep_false fun e he =>
        irqEvents_iterate_ne_trigger hn0 l ⟨.exit x, signal⟩ e (List.mem_append_right _ he)
    rw [(h1.run (ts.map .iterate)).pending.bits n hn1]
    exact pendingAfter_irqRun_iterate hn0 ts hq

end IrqInv

/-- From a freshly created vCPU, after any steps, a pass whose scan injects line `n` and whose
world switch ends in a VM exit loses the line, whatever the exit's IDT-vectoring information
says: as `IrqInv.injection_lost`. -/
theorem kvmCreateVm_injection_lost (pa : Nat → Nat) (sizeofVcpu : Nat) (host : Host) (h : Heap)
    (steps : List IrqStep) {n : Nat} (x : VmExit) (signal : Bool)
    (hn : scanEvents (irqRun (⟨(kvmCreateVm pa sizeofVcpu host h).2, 0, true, 0, 0⟩, []) steps).1 =
      [.inject n]) :
    let r := irqRun (⟨(kvmCreateVm pa sizeofVcpu host h).2, 0, true, 0, 0⟩, []) steps
    let r1 := irqRun r [.iterate ⟨.exit x, signal⟩]
    (loadGuestState (prepareEntry r.1)).vmcs.field .vmEntryIntrInfoField =
      (0x80000000 ||| BitVec.ofNat 32 (if r.1.m.vcpu.paging then 0x30 + n else 8 + n)).zeroExtend 64 ∧
    r1.1.m.vmcs.field .idtVectoringInfoField = x.idtVectoringInfo.zeroExtend 64 ∧
    (r1.1.m.vmcs.field .vmEntryIntrInfoField).getLsbD 31 = false ∧
    (((loadGuestState (prepareEntry r1.1)).vmcs.field .vmEntryIntrInfoField).getLsbD 31 = false ∨
      ∃ k ≠ n, scanEvents r1.1 = [.inject k] ∧
        (loadGuestState (prepareEntry r1.1)).vmcs.field .vmEntryIntrInfoField =
          (0x80000000 ||| BitVec.ofNat 32 (if r1.1.m.vcpu.paging then 0x30 + k else 8 + k)).zeroExtend 64) ∧
    (n ≠ 0 →
      ∀ ts : List Turn, (irqRun r1 (ts.map .iterate)).1.m.vcpu.pendingIrq.getLsbD n = false) := by
  intro r r1
  have hi : IrqInv r.1 r.2 := (irqInv_kvmCreateVm pa sizeofVcpu host h).run steps
  change scanEvents r.1 = _ at hn
  clear_value r
  obtain ⟨l, es⟩ := r
  dsimp only at hi hn
  simp only [r1, irqRun_cons, irqRun_nil]
  exact hi.injection_lost hn x signal

/-- Line 3 is raised, an interrupt-window exit lets the scan inject it as vector 11, and the guest
exits on an EPT violation while the processor delivers it. -/
theorem kvmCreateVm_injection_lost_line3 :
    let m := (kvmCreateVm id pageSize ⟨fun _ _ => (0, 0, 0, 0), fun _ => 0, fun _ => 0⟩ .initial).2
    let window : VmExit := ⟨7, 0, 1, 0, 0, fun _ => 0, fun _ => 0, 0⟩
    let ept : VmExit := ⟨48, 0x181, 1, 0x1000, 0x8000000b, fun _ => 0, fun _ => 0, 0⟩
    let steps : List IrqStep := [.line ⟨3, 1⟩, .start, .iterate ⟨.exit window, false⟩]
    let r := irqRun (⟨m, 0, true, 0, 0⟩, []) steps
    let r1 := irqRun r [.iterate ⟨.exit ept, false⟩]
    scanEvents r.1 = [.inject 3] ∧
    (loadGuestState (prepareEntry r.1)).vmcs.field .vmEntryIntrInfoField = 0x8000000b ∧
    r1.1.m.vmcs.field .idtVectoringInfoField = 0x8000000b ∧
    (r1.1.m.vmcs.field .vmEntryIntrInfoField).getLsbD 31 = false ∧
    ((loadGuestState (prepareEntry r1.1)).vmcs.field .vmEntryIntrInfoField).getLsbD 31 = false ∧
    ∀ ts : List Turn, (irqRun r1 (ts.map .iterate)).1.m.vcpu.pendingIrq.getLsbD 3 = false := by
  obtain ⟨hw, hv, hc, hnext, hrun⟩ :=
    kvmCreateVm_injection_lost id pageSize ⟨fun _ _ => (0, 0, 0, 0), fun _ => 0, fun _ => 0⟩ .initial
      [.line ⟨3, 1⟩, .start, .iterate ⟨.exit ⟨7, 0, 1, 0, 0, fun _ => 0, fun _ => 0, 0⟩, false⟩]
      (n := 3) ⟨48, 0x181, 1, 0x1000, 0x8000000b, fun _ => 0, fun _ => 0, 0⟩ false (by decide)
  refine ⟨by decide, by rw [hw]; decide, hv, hc, ?_, hrun (by decide)⟩
  rcases hnext with hb | ⟨k, -, hk, -⟩
  · exact hb
  · exact List.noConfusion (hk.symm.trans (by decide : _ = ([] : List IrqEvent)))

end KvmKext
