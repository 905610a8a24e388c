import KvmKext.Vcpu.Frame
import KvmKext.Vcpu.Init

/-!
# Port I/O exits

An I/O exit is handed to userspace in two halves. `handle_io` describes the access in the run
page and stops the loop; an OUT copies RAX into the data area first. An IN sets `pending_io`, and
the next `KVM_RUN` copies the data area, into a `val` that starts at 0, and stores `val` as the
whole of RAX. So a 1- or 2-byte IN clears bits 63..8s of RAX, where the processor would keep them.
-/

namespace KvmKext

section Bytes

variable (d : Nat → BitVec 8)

/-- `memcpy(&val, pio_data, n)` reads the first `n` bytes only. -/
theorem loadBytes_congr {d' : Nat → BitVec 8} {n : Nat} (h : ∀ k < n, d k = d' k) :
    loadBytes d n = loadBytes d' n := by
  induction n with
  | zero => rfl
  | succ n ih =>
    rw [loadBytes, loadBytes, ih fun k hk => h k (Nat.lt_succ_of_lt hk), h n (Nat.lt_succ_self n)]

/-- `n` bytes copied into a zeroed `val` leave its bits from `8 * n` up clear. -/
theorem loadBytes_lt {n : Nat} (hn : n ≤ 8) : (loadBytes d n).toNat < 2 ^ (8 * n) := by
  induction n with
  | zero => simp [loadBytes]
  | succ n ih =>
    have hd : (d n).toNat < 2 ^ 8 := (d n).isLt
    have hz : ((d n).zeroExtend 64).toNat = (d n).toNat := by
      rw [BitVec.toNat_setWidth]; exact Nat.mod_eq_of_lt (Nat.lt_trans hd (by decide))
    have hs : ((d n).zeroExtend 64 <<< (8 * n)).toNat < 2 ^ (8 * (n + 1)) := by
      rw [BitVec.toNat_shiftLeft, hz, Nat.shiftLeft_eq]
      calc (d n).toNat * 2 ^ (8 * n) % 2 ^ 64 ≤ (d n).toNat * 2 ^ (8 * n) := Nat.mod_le _ _
        _ < 2 ^ 8 * 2 ^ (8 * n) := Nat.mul_lt_mul_of_pos_right hd (Nat.two_pow_pos _)
        _ = 2 ^ (8 * (n + 1)) := by rw [← Nat.pow_add]; congr 1; omega
    have hl : (loadBytes d n).toNat < 2 ^ (8 * (n + 1)) :=
      Nat.lt_of_lt_of_le (ih (by omega)) (Nat.pow_le_pow_right (by decide) (by omega))
    rw [loadBytes, BitVec.toNat_or]
    exact Nat.or_lt_two_pow hl hs

end Bytes

section Handler

variable (v : Vcpu)

/-- The size code of a qualification, plus one, is the access size the run page records. -/
theorem ioSize_toNat (q : BitVec 64) : (((q &&& 7) + 1).truncate 8).toNat = (q &&& 7).toNat + 1 := by
  have h : q.toNat &&& 7 ≤ 7 := Nat.and_le_right
  simp [BitVec.toNat_add]
  omega

/-- `handle_io`: the run page describes the access, an OUT's data area holds the low bytes of RAX,
an IN leaves `pending_io`; RIP moves past the instruction, no other register changes, and the loop
stops. -/
theorem handleIo_spec :
    let q := v.exitQualification
    let s := (q &&& 7).toNat + 1
    let w := (handleIo v).2
    (handleIo v).1 = false ∧
    w.kvmRun.exitReason = kvmExitIo ∧ w.kvmRun.ioPort = (q >>> 16).truncate 16 ∧
    w.kvmRun.ioSize.toNat = s ∧ w.kvmRun.ioCount = 1 ∧
    w.kvmRun.ioDirection = (if q &&& 8 != 0 then kvmExitIoIn else kvmExitIoOut) ∧
    pioSize w.kvmRun = s ∧
    ((q &&& 8 != 0) = false →
      ∀ k < s, w.kvmRun.pioData k = (v.regs vcpuRegsRax).extractLsb' (8 * k) 8) ∧
    ((q &&& 8 != 0) = true → w.pendingIo = true) ∧
    w.regs = Function.update v.regs vcpuRegsRip
      (v.regs vcpuRegsRip + v.exitInstructionLen.signExtend 64) := by
  intro q s w
  have hs := ioSize_toNat q
  have hq : (q &&& 7).toNat = q.toNat &&& 7 := BitVec.toNat_and _ _
  have h7 : q.toNat &&& 7 ≤ 7 := Nat.and_le_right
  have hp : ∀ r : KvmRun, r.ioSize = ((q &&& 7) + 1).truncate 8 → r.ioCount = 1 → pioSize r = s := by
    intro r h1 h2
    simp only [pioSize, h1, h2]
    simp [hs]
    omega
  cases hb : (v.exitQualification &&& 8 != 0)
  · simp only [w, handleIo, q, hb, Bool.false_eq_true, if_false]
    refine ⟨trivial, rfl, rfl, hs, rfl, rfl, hp _ rfl rfl, fun _ k hk => ?_, False.elim, rfl⟩
    simp only [skipEmulatedInstruction]
    rw [storeBytes, hp _ rfl rfl, if_pos (by omega)]
  · simp only [w, handleIo, q, hb, if_true]
    exact ⟨trivial, rfl, rfl, hs, rfl, rfl, hp _ rfl rfl, Bool.noConfusion, fun _ => rfl, rfl⟩

end Handler

/-- An I/O exit is dispatched to `handle_io`. -/
theorem dispatch_io {r : BitVec 32} (hr : r.toNat = exitReasonIoInstruction) (signal : Bool)
    (m : Machine) : dispatch signal r m = onVcpu handleIo m := by
  have : r = 30 := BitVec.eq_of_toNat_eq hr
  subst this
  rfl

section Pass

variable {l l' : RunLoop} {turns : Nat → Turn} {n : Nat}

/-- A pass that ends in an I/O exit runs `handle_io` on the exit's registers, qualification and
instruction length, and its result is the vCPU the pass returns. -/
theorem runIteration_exit_io (hl : l.m.vmcs.launched = false) (hv : l.m.vcpu.launched = 0)
    {x : VmExit} (hx : x.reason.toNat = exitReasonIoInstruction) (signal : Bool) :
    ∃ v : Vcpu, v.exitQualification = x.qualification ∧
      v.exitInstructionLen = x.instructionLen ∧
      v.regs vcpuRegsRax = x.gprs vcpuRegsRax ∧ v.regs vcpuRegsRip = x.guest .guestRip ∧
      (runIteration ⟨.exit x, signal⟩ l).cont = false ∧
      (runIteration ⟨.exit x, signal⟩ l).m.vcpu = { (handleIo v).2 with vmcsLoaded := false } := by
  have hp := prepareEntry_fresh hl hv
  have hK := kvmRun_exit_vmcs hp.1 hp.2 x
  have hV := kvmRun_exit_vcpu hp.1 hp.2 x
  have he : (readExit (kvmRun (.exit x) (prepareEntry l))).exitReason.toNat =
      exitReasonIoInstruction := by
    simpa [readExit_eq, hK] using hx
  refine ⟨(readExit (kvmRun (.exit x) (prepareEntry l))).m.vcpu, ?_, ?_, ?_, ?_, ?_, ?_⟩
  · simp [readExit_eq, hK]
  · simp [readExit_eq, hK]
  · simp [readExit_eq, hV, vcpuRegsRax, vcpuRegsRip, vcpuRegsRsp]
  · simp [readExit_eq, hV]
  · rw [runIteration_cont, dispatch_io he]
    exact (handleIo_spec (readExit (kvmRun (.exit x) (prepareEntry l))).m.vcpu).1
  · rw [runIteration_m, dispatch_io he, Machine.releaseVmcs_vcpu, onVcpu, Machine.setVcpu_vcpu]

/-- A pass whose handler stops the loop is the last one. -/
theorem runLoop_halt (hc : l.cont = true)
    (hl : runIteration (turns l.maxcont) { l with maxcont := l.maxcont + 1 } = l')
    (hs : l'.cont = false) : runLoop turns (n + 1) l = l' := by
  rw [runLoop, if_pos hc]
  dsimp only
  rw [hl]
  split_ifs
  · rfl
  · cases n <;> simp [runLoop, hs]

end Pass

/-- Userspace writes the `n` bytes `d` into the data area of the shared run page between two
`KVM_RUN`s. Modelled from the spec: the page is mapped into the process. -/
def writePioData (m : Machine) (d : Nat → BitVec 8) (n : Nat) : Machine :=
  m.setVcpu { m.vcpu with kvmRun := { m.vcpu.kvmRun with
    pioData := fun k => if k < n then d k else m.vcpu.kvmRun.pioData k } }

/-- The completion at the top of `KVM_RUN` stores the data area, copied into a zeroed `val`, as the
whole of RAX. -/
theorem runStart_rax (m : Machine) (hp : m.vcpu.pendingIo = true) :
    (runStart m).vcpu.regs vcpuRegsRax =
      loadBytes m.vcpu.kvmRun.pioData (min (pioSize m.vcpu.kvmRun) 8) := by
  simp [runStart, hp]

/-- What the processor leaves in RAX after an IN of `s` bytes whose little-endian value is `data`:
the low `8 * s` bits are `data`; the rest of RAX is kept for 1 and 2 bytes and cleared for 4.
Modelled from the spec's statement of the x86 result. -/
def x86InResult (rax : BitVec 64) (s : Nat) (data : BitVec 64) : BitVec 64 :=
  if s = 4 then data
  else BitVec.ofNat 64 (rax.toNat / 2 ^ (8 * s) * 2 ^ (8 * s) + data.toNat % 2 ^ (8 * s))

/-- For 1 and 2 bytes, the zero-extended value is the processor's result exactly when the bits of
RAX above the access were already clear. -/
theorem loadBytes_eq_x86InResult_iff (rax : BitVec 64) (d : Nat → BitVec 8) {s : Nat}
    (hs : s = 1 ∨ s = 2) :
    loadBytes d s = x86InResult rax s (loadBytes d s) ↔ rax.toNat < 2 ^ (8 * s) := by
  have hl := loadBytes_lt d (show s ≤ 8 by omega)
  have hr := rax.isLt
  rw [x86InResult, if_neg (by omega), BitVec.toNat_eq, BitVec.toNat_ofNat]
  rcases hs with rfl | rfl <;> simp only [Nat.reduceMul, Nat.reducePow] at hl hr ⊢ <;> omega

theorem kvmRunWrapper_in_clears_rax (turns : Nat → Turn) (m : Machine)
    (hl : m.vmcs.launched = false) (hv : m.vcpu.launched = 0) {x : VmExit} {signal : Bool}
    (h0 : turns 0 = ⟨.exit x, signal⟩) (hx : x.reason.toNat = exitReasonIoInstruction)
    (d : Nat → BitVec 8) :
    let q := x.qualification
    let s := (q &&& 7).toNat + 1
    let l := runLoop turns 1000 ⟨runStart m, 0, true, 0, 0⟩
    let m' := (kvmRunWrapper turns m).2
    let rax := (runStart (writePioData m' d s)).vcpu.regs vcpuRegsRax
    l.cont = false ∧ l.maxcont = 1 ∧
    m'.vcpu.kvmRun.exitReason = kvmExitIo ∧ m'.vcpu.kvmRun.ioPort = (q >>> 16).truncate 16 ∧
    m'.vcpu.kvmRun.ioSize.toNat = s ∧ m'.vcpu.kvmRun.ioCount = 1 ∧
    m'.vcpu.kvmRun.ioDirection = (if q &&& 8 != 0 then kvmExitIoIn else kvmExitIoOut) ∧
    m'.vcpu.regs vcpuRegsRip = x.guest .guestRip + x.instructionLen.signExtend 64 ∧
    ((q &&& 8 != 0) = false →
      ∀ k < s, m'.vcpu.kvmRun.pioData k = (x.gprs vcpuRegsRax).extractLsb' (8 * k) 8) ∧
    ((q &&& 8 != 0) = true → rax = loadBytes d s ∧ rax.toNat < 2 ^ (8 * s) ∧
      (s = 1 ∨ s = 2 → (rax = x86InResult (x.gprs vcpuRegsRax) s (loadBytes d s) ↔
        (x.gprs vcpuRegsRax).toNat < 2 ^ (8 * s)))) := by
  intro q s l m' rax
  obtain ⟨v, hq, hlen, hrax, hrip, hc, hm⟩ := runIteration_exit_io
    (l := ⟨runStart m, 0, true, 0, 1⟩) (by simpa using hl) (by simpa using hv) hx signal
  have hL : runLoop turns 1000 ⟨runStart m, 0, true, 0, 0⟩ =
      runIteration ⟨.exit x, signal⟩ ⟨runStart m, 0, true, 0, 1⟩ :=
    runLoop_halt rfl (by simp only [h0]) hc
  have hv' : m'.vcpu = { (handleIo v).2 with vmcsLoaded := false } := by
    simp only [m', kvmRunWrapper, hL, hm]
  clear_value m'
  obtain ⟨-, h2, h3, h4, h5, h6, h7, h8, h9, h10⟩ := handleIo_spec v
  rw [hq] at h3 h4 h6 h7 h8 h9
  have hs8 : s ≤ 8 := by
    have : q.toNat &&& 7 ≤ 7 := Nat.and_le_right
    have : (q &&& 7).toNat = q.toNat &&& 7 := BitVec.toNat_and _ _
    omega
  have hl' : l = runIteration ⟨.exit x, signal⟩ ⟨runStart m, 0, true, 0, 1⟩ := hL
  refine ⟨hl' ▸ hc, hl' ▸ rfl, ?_, ?_, ?_, ?_, ?_, ?_, ?_, fun hb => ?_⟩
  · rw [hv']; exact h2
  · rw [hv']; exact h3
  · rw [hv']; exact h4
  · rw [hv']; exact h5
  · rw [hv']; exact h6
  · rw [hv']; simp [h10, hrip, hlen]
  · intro hb k hk; rw [hv', h8 hb k hk, hrax]
  -- the IN: the next `KVM_RUN` stores the bytes userspace wrote, zero-extended, as RAX
  have hp : (writePioData m' d s).vcpu.pendingIo = true := by
    show m'.vcpu.pendingIo = true; rw [hv']; exact h9 hb
  have hsz : pioSize (writePioData m' d s).vcpu.kvmRun = s := by
    show pioSize m'.vcpu.kvmRun = s; rw [hv']; exact h7
  have hr : rax = loadBytes d s := by
    show (runStart (writePioData m' d s)).vcpu.regs vcpuRegsRax = _
    rw [runStart_rax _ hp, hsz, Nat.min_eq_left hs8]
    exact loadBytes_congr _ fun k hk => if_pos hk
  rw [hr]
  exact ⟨rfl, loadBytes_lt d hs8, loadBytes_eq_x86InResult_iff _ d⟩

/-- A 1-byte IN from port 0x3f8 (qualification 0x3f80008) on a fresh vCPU whose guest has
0xffffffffffffff00 in RAX, answered with the byte 0x41. -/
theorem kvmRunWrapper_in_clears_rax_port3f8 :
    let m := (kvmCreateVm id pageSize ⟨fun _ _ => (0, 0, 0, 0), fun _ => 0, fun _ => 0⟩ .initial).2
    let x : VmExit := ⟨30, 0x3f80008, 1, 0, 0, fun _ => 0, fun _ => 0xffffffffffffff00, 0⟩
    let turns : Nat → Turn := fun _ => ⟨.exit x, false⟩
    let d : Nat → BitVec 8 := fun _ => 0x41
    m.vmcs.launched = false ∧ m.vcpu.launched = 0 ∧ turns 0 = ⟨.exit x, false⟩ ∧
    x.reason.toNat = exitReasonIoInstruction ∧
    let q := x.qualification
    let s := (q &&& 7).toNat + 1
    let l := runLoop turns 1000 ⟨runStart m, 0, true, 0, 0⟩
    let m' := (kvmRunWrapper turns m).2
    let rax := (runStart (writePioData m' d s)).vcpu.regs vcpuRegsRax
    l.cont = false ∧ l.maxcont = 1 ∧
    m'.vcpu.kvmRun.exitReason = kvmExitIo ∧ m'.vcpu.kvmRun.ioPort = (q >>> 16).truncate 16 ∧
    m'.vcpu.kvmRun.ioSize.toNat = s ∧ m'.vcpu.kvmRun.ioCount = 1 ∧
    m'.vcpu.kvmRun.ioDirection = (if q &&& 8 != 0 then kvmExitIoIn else kvmExitIoOut) ∧
    m'.vcpu.regs vcpuRegsRip = x.guest .guestRip + x.instructionLen.signExtend 64 ∧
    ((q &&& 8 != 0) = false →
      ∀ k < s, m'.vcpu.kvmRun.pioData k = (x.gprs vcpuRegsRax).extractLsb' (8 * k) 8) ∧
    ((q &&& 8 != 0) = true → rax = loadBytes d s ∧ rax.toNat < 2 ^ (8 * s) ∧
      (s = 1 ∨ s = 2 → (rax = x86InResult (x.gprs vcpuRegsRax) s (loadBytes d s) ↔
        (x.gprs vcpuRegsRax).toNat < 2 ^ (8 * s)))) := by
  intro m x turns d
  obtain ⟨_, _, _, _, _, hv⟩ := kvmCreateVm_vcpu id pageSize
    ⟨fun _ _ => (0, 0, 0, 0), fun _ => 0, fun _ => 0⟩ .initial
  have hv0 : m.vcpu.launched = 0 := (congrArg Vcpu.launched hv).trans rfl
  exact ⟨rfl, hv0, rfl, by decide,
    kvmRunWrapper_in_clears_rax turns m rfl hv0 rfl (by decide) d⟩

end KvmKext
