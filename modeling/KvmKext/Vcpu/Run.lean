import KvmKext.Vcpu.Handlers

/-!
# The world switch and the run loop

`kvm_run` enters the guest once; `kvm_run_wrapper` is the loop around it behind `KVM_RUN`. What the
processor and the guest do is an input: a `WorldSwitch` says whether the entry failed with a
VM-instruction error or the guest ran and exited, and with what. The processor's own rules are
kept: an exit saves the guest state and the exit information and clears the valid bit of the
entry's interruption information; a failed entry writes only the error field; VMLAUNCH needs a
clear VMCS and VMRESUME a launched one.
-/

namespace KvmKext

def intrInfoValidMask : BitVec 32 := 0x80000000
def intrTypeExtIntr : BitVec 32 := 0
def cpuBasedVirtualIntrPending : BitVec 32 := 0x4

/-- The guest-state fields a VM exit saves. -/
def guestStateFields : List VmcsField :=
  [.guestCr0, .guestCr3, .guestCr4, .guestRflags, .guestRsp, .guestRip,
   .guestCsSelector, .guestSsSelector, .guestDsSelector, .guestEsSelector,
   .guestFsSelector, .guestGsSelector, .guestTrSelector, .guestLdtrSelector,
   .guestCsBase, .guestSsBase, .guestDsBase, .guestEsBase,
   .guestFsBase, .guestGsBase, .guestTrBase, .guestLdtrBase,
   .guestCsLimit, .guestSsLimit, .guestDsLimit, .guestEsLimit,
   .guestFsLimit, .guestGsLimit, .guestTrLimit, .guestLdtrLimit,
   .guestCsArBytes, .guestSsArBytes, .guestDsArBytes, .guestEsArBytes,
   .guestFsArBytes, .guestGsArBytes, .guestTrArBytes, .guestLdtrArBytes,
   .guestIdtrLimit, .guestIdtrBase, .guestGdtrLimit, .guestGdtrBase, .guestIa32Efer,
   .guestIa32Debugctl, .guestPendingDbgExceptions, .guestInterruptibilityInfo,
   .guestActivityState, .guestSysenterCs, .guestSysenterEsp, .guestSysenterEip]

/-- One VM exit. `guest` is the guest's state when it trapped, `gprs` its general registers (its
RSP and RIP are in `guest`), `cr2` its CR2. -/
structure VmExit where
  reason : BitVec 32
  qualification : BitVec 64
  instructionLen : BitVec 32
  guestPhysical : BitVec 64
  idtVectoringInfo : BitVec 32
  guest : VmcsField → BitVec 64
  gprs : Fin 17 → BitVec 64
  cr2 : BitVec 64

/-- What a VMLAUNCH or VMRESUME does: the guest runs and exits, or the instruction fails with a
VM-instruction error, which is never 0, and the guest never runs. -/
inductive WorldSwitch
  | exit (x : VmExit)
  | fail (error : BitVec 32) (error_ne : error ≠ 0)

/-- The VMCS after a VM exit: the exit information, the entry's interruption information with
its valid bit cleared, and the guest state, where CR0 and CR4 keep the bits their guest/host masks
give the host. -/
def exitFields (old : VmcsField → BitVec 64) (x : VmExit) (f : VmcsField) : BitVec 64 :=
  if f = .vmExitReason then x.reason.zeroExtend 64
  else if f = .exitQualification then x.qualification
  else if f = .vmExitInstructionLen then x.instructionLen.zeroExtend 64
  else if f = .guestPhysicalAddress then x.guestPhysical
  else if f = .idtVectoringInfoField then x.idtVectoringInfo.zeroExtend 64
  else if f = .vmEntryIntrInfoField then old f &&& ~~~(intrInfoValidMask.zeroExtend 64)
  else if f = .guestCr0 then
    old f &&& old .cr0GuestHostMask ||| x.guest f &&& ~~~(old .cr0GuestHostMask)
  else if f = .guestCr4 then
    old f &&& old .cr4GuestHostMask ||| x.guest f &&& ~~~(old .cr4GuestHostMask)
  else if f ∈ guestStateFields then x.guest f
  else old f

/-- The processor's side of a VMLAUNCH (`launch`) or VMRESUME on the current VMCS. A VMLAUNCH of a
launched VMCS fails with error 4 and a VMRESUME of a clear one with error 5. The asm saves the
general registers except RSP, and CR2, after an exit; `setbe` stores `fail`. -/
def enterGuest (launch : Bool) (sw : WorldSwitch) (m : Machine) : Machine :=
  let sw := if launch && m.vmcs.launched then .fail 4 (by decide)
    else if !launch && !m.vmcs.launched then .fail 5 (by decide) else sw
  let op : Bool → VmcsOp := if launch then .launch else .resume
  match sw with
  | .exit x =>
    { m with
      vcpu := { m.vcpu with
        regs := fun i => if i = vcpuRegsRsp ∨ i = vcpuRegsRip then m.vcpu.regs i else x.gprs i
        cr2 := x.cr2
        fail := false }
      vmcs := { field := exitFields m.vmcs.field x, launched := true }
      trace := m.trace ++ [op true] }
  | .fail e _ =>
    { m with
      vcpu := { m.vcpu with fail := true }
      vmcs := { m.vmcs with
        field := Function.update m.vmcs.field .vmInstructionError (e.zeroExtend 64) }
      trace := m.trace ++ [op false] }

/-- The host fields `init_host_values` writes, in order. -/
def hostFields : List VmcsField :=
  [.hostCr0, .hostCr3, .hostCr4, .hostCsSelector, .hostSsSelector, .hostDsSelector,
   .hostEsSelector, .hostFsSelector, .hostGsSelector, .hostTrSelector, .hostFsBase, .hostGsBase,
   .hostTrBase, .hostGdtrBase, .hostIdtrBase, .hostIa32SysenterCs, .hostIa32SysenterEsp,
   .hostIa32SysenterEip, .hostRip]

/-- `init_host_values`: copy the host's state into the host fields. -/
def initHostValues (m : Machine) : Machine :=
  m.vmcsWriteAll (hostFields.map fun f => (f, m.host.state f))

/-- `kvm_run` before the entry: RFLAGS, RSP and RIP into the VMCS, then the host state and
HOST_RSP. -/
def loadGuestState (m : Machine) : Machine :=
  let m := m.vmcsWriteAll [(.guestRflags, m.vcpu.rflags), (.guestRsp, m.vcpu.regs vcpuRegsRsp),
    (.guestRip, m.vcpu.regs vcpuRegsRip)]
  (initHostValues m).vmcsWritel .hostRsp (m.host.state .hostRsp)

/-- `kvm_run` after the entry: RFLAGS, RSP and RIP back from the VMCS. -/
def saveGuestState (m : Machine) : Machine :=
  let (rflags, m) := m.vmcsReadl .guestRflags
  let (rsp, m) := m.vmcsReadl .guestRsp
  let (rip, m) := m.vmcsReadl .guestRip
  m.setVcpu { m.vcpu with
    rflags := rflags
    regs := Function.update (Function.update m.vcpu.regs vcpuRegsRsp rsp) vcpuRegsRip rip }

/-- `kvm_run`: enter the guest with VMLAUNCH while `__launched` is 0, VMRESUME otherwise. -/
def kvmRun (sw : WorldSwitch) (m : Machine) : Machine :=
  saveGuestState (enterGuest (m.vcpu.launched == 0) sw (loadGuestState m))

/-- The lowest line below `IRQ_MAX` whose bit is set in `pending_irq`. -/
def lowestPending (p : BitVec 32) : Option Nat :=
  (List.range irqMax).find? fun i => p &&& (1 : BitVec 32) <<< i != 0

/-- The injection scan after an interrupt-window exit: the `intr_info` of the lowest pending line,
vector `0x30 + i` with paging on and `8 + i` without, and `pending_irq` with its bit cleared. -/
def injectIrq (v : Vcpu) : BitVec 32 × Vcpu :=
  match lowestPending v.pendingIrq with
  | some i =>
    (intrInfoValidMask ||| intrTypeExtIntr ||| BitVec.ofNat 32 (if v.paging then i + 0x30 else i + 8),
     { v with pendingIrq := v.pendingIrq &&& ~~~((1 : BitVec 32) <<< i) })
  | none => (0, v)

/-- The handler the loop calls for an exit reason, if the table has one. -/
def exitHandler (reason : BitVec 32) : Option ExitHandler :=
  if reason.toNat < kvmVmxMaxExitHandlers then kvmVmxExitHandlers reason.toNat else none

/-- What happens outside the kext in one iteration: the world switch, and whether a signal is
pending for the calling process when the exit is handled. -/
structure Turn where
  switch : WorldSwitch
  signal : Bool

/-- The locals of `kvm_run_wrapper`'s loop. -/
structure RunLoop where
  m : Machine
  exitReason : BitVec 32
  cont : Bool
  error : BitVec 32
  maxcont : Nat

/-- The injection scan at the top of the loop body, after an interrupt-window exit. -/
def injectionScan (l : RunLoop) : BitVec 32 × Vcpu :=
  if l.exitReason.toNat = exitReasonPendingInterrupt then injectIrq l.m.vcpu else (0, l.m.vcpu)

/-- `if (intr_info != 0) vmcs_write32(VM_ENTRY_INTR_INFO_FIELD, intr_info)`. -/
def writeIntrInfo (m : Machine) (intrInfo : BitVec 32) : Machine :=
  if intrInfo ≠ 0 then m.vmcsWrite32 .vmEntryIntrInfoField intrInfo else m

/-- Set `CPU_BASED_VIRTUAL_INTR_PENDING` while an interrupt is pending, clear it otherwise. -/
def requestWindow (m : Machine) : Machine :=
  if m.vcpu.pendingIrq ≠ 0 then
    let (ctl, m) := m.vmcsRead32 .cpuBasedVmExecControl
    m.vmcsWrite32 .cpuBasedVmExecControl (ctl ||| cpuBasedVirtualIntrPending)
  else
    let (ctl, m) := m.vmcsRead32 .cpuBasedVmExecControl
    m.vmcsWrite32 .cpuBasedVmExecControl (ctl &&& ~~~cpuBasedVirtualIntrPending)

/-- The loop body up to `kvm_run`: the injection scan after an interrupt-window exit,
`LOAD_VMCS`, the interruption information, and the interrupt-window request. -/
def prepareEntry (l : RunLoop) : Machine :=
  requestWindow (writeIntrInfo (l.m.setVcpu (injectionScan l).2).loadVmcs (injectionScan l).1)

/-- What the loop reads after `kvm_run`: `error`, `exit_reason`, and the vCPU with the exit's
instruction length, qualification and guest physical address stored. -/
structure ExitRead where
  error : BitVec 32
  exitReason : BitVec 32
  m : Machine

/-- The reads after `kvm_run`: `exit_instruction_len`, `exit_qualification` and `phys` into the
record, then `error`, `entry_error` and `exit_reason`. -/
def readExit (m : Machine) : ExitRead :=
  let (len, m) := m.vmcsRead32 .vmExitInstructionLen
  let m := m.setVcpu { m.vcpu with exitInstructionLen := len }
  let (qual, m) := m.vmcsReadl .exitQualification
  let m := m.setVcpu { m.vcpu with exitQualification := qual }
  let (phys, m) := m.vmcsReadl .guestPhysicalAddress
  let m := m.setVcpu { m.vcpu with phys := phys }
  let (error, m) := m.vmcsRead32 .vmInstructionError
  let m := (m.vmcsRead32 .vmEntryExceptionErrorCode).2
  let (exitReason, m) := m.vmcsRead32 .vmExitReason
  ⟨error, exitReason, m⟩

/-- The handler the loop calls for the exit reason it read, and `cont`; 0 when there is none. -/
def dispatch (signal : Bool) (exitReason : BitVec 32) (m : Machine) : Bool × Machine :=
  match exitHandler exitReason with
  | some h => runHandler signal h m
  | none => (false, m)

/-- The loop body of `kvm_run_wrapper`. -/
def runIteration (t : Turn) (l : RunLoop) : RunLoop :=
  let e := readExit (kvmRun t.switch (prepareEntry l))
  let d := dispatch t.signal e.exitReason e.m
  { m := d.2.releaseVmcs, exitReason := e.exitReason, cont := d.1, error := e.error,
    maxcont := l.maxcont }

/-- `while (cont && (maxcont++) < 1000) { ...; if (error != 0) break; }` with `n` passes left
before `maxcont` reaches 1000. Iteration `k` meets `turns k`. -/
def runLoop (turns : Nat → Turn) : Nat → RunLoop → RunLoop
  | 0, l => l
  | n + 1, l =>
    if l.cont then
      let l := runIteration (turns l.maxcont) { l with maxcont := l.maxcont + 1 }
      if l.error ≠ 0 then l else runLoop turns n l
    else l

/-- The top of `kvm_run_wrapper`: complete a pending IN from the data page into RAX, and clear the
run page's exit reason. -/
def runStart (m : Machine) : Machine :=
  let m :=
    if m.vcpu.pendingIo then
      let val := loadBytes m.vcpu.kvmRun.pioData (min (pioSize m.vcpu.kvmRun) 8)
      m.setVcpu { m.vcpu with regs := Function.update m.vcpu.regs vcpuRegsRax val, pendingIo := false }
    else m
  m.setVcpu { m.vcpu with kvmRun := { m.vcpu.kvmRun with exitReason := 0 } }

/-- `kvm_run_wrapper`: the loop from `exit_reason = 0`, `cont = 1` and `maxcont = 0`. Always
returns 0. -/
def kvmRunWrapper (turns : Nat → Turn) (m : Machine) : Int × Machine :=
  (0, (runLoop turns 1000 ⟨runStart m, 0, true, 0, 0⟩).m)

end KvmKext
