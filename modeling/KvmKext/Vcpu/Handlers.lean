import KvmKext.Vcpu.State

/-!
# Exit handlers

The handlers of `kvm_vmx_exit_handlers`. Each returns the loop's `cont`: `true` to enter the guest
again, `false` to return to userspace. All but `handle_cr` touch only the vCPU record; `handle_cr`
also writes the current VMCS. The `printf`s are not modelled; `handle_cr`'s `ept_translate` of the
new CR3 is only printed, so it is left out too.
-/

namespace KvmKext

def exitReasonExternalInterrupt : Nat := 1
def exitReasonPendingInterrupt : Nat := 7
def exitReasonTaskSwitch : Nat := 9
def exitReasonCpuid : Nat := 10
def exitReasonCrAccess : Nat := 28
def exitReasonDrAccess : Nat := 29
def exitReasonIoInstruction : Nat := 30
def exitReasonMsrRead : Nat := 31
def exitReasonMsrWrite : Nat := 32
def exitReasonApicAccess : Nat := 44
def exitReasonEptViolation : Nat := 48
def exitReasonPreemptionTimer : Nat := 52

def kvmExitIo : BitVec 32 := 2
def kvmExitIoIn : BitVec 8 := 0
def kvmExitIoOut : BitVec 8 := 1
def kvmPioPageOffset : Nat := 1

/-- `skip_emulated_instruction`: RIP advances by the exit's instruction length, an `int`. -/
def skipEmulatedInstruction (v : Vcpu) : Vcpu :=
  let rip := v.regs vcpuRegsRip + v.exitInstructionLen.signExtend 64
  { v with regs := Function.update v.regs vcpuRegsRip rip }

/-- `memcpy(pio_data, &val, n)`: the low `n` bytes of `val`, little-endian. -/
def storeBytes (dst : Nat → BitVec 8) (val : BitVec 64) (n : Nat) : Nat → BitVec 8 :=
  fun k => if k < n then val.extractLsb' (8 * k) 8 else dst k

/-- `memcpy(&val, pio_data, n)` into `val = 0`: bytes `0 .. n-1`, little-endian. -/
def loadBytes (src : Nat → BitVec 8) : Nat → BitVec 64
  | 0 => 0
  | n + 1 => loadBytes src n ||| (src n).zeroExtend 64 <<< (8 * n)

/-- `io.size * io.count` as the `unsigned int` both PIO copies use. -/
def pioSize (r : KvmRun) : Nat := (r.ioSize.zeroExtend 32 * r.ioCount).toNat

/-- `handle_io`: describe the access in the run page; an OUT copies RAX into the data page, an IN
leaves `pending_io` for the next `KVM_RUN` to complete. Returns to userspace. -/
def handleIo (v : Vcpu) : Bool × Vcpu :=
  let q := v.exitQualification
  let isIn : Bool := q &&& 8 != 0
  let io := { v.kvmRun with
    ioDirection := if isIn then kvmExitIoIn else kvmExitIoOut
    ioSize := ((q &&& 7) + 1).truncate 8
    ioPort := (q >>> 16).truncate 16
    ioCount := 1
    ioDataOffset := BitVec.ofNat 64 (kvmPioPageOffset * pageSize) }
  let v := if isIn then { v with kvmRun := io, pendingIo := true }
    else { v with kvmRun :=
      { io with pioData := storeBytes io.pioData (v.regs vcpuRegsRax) (min (pioSize io) 8) } }
  (false, skipEmulatedInstruction { v with kvmRun := { v.kvmRun with exitReason := kvmExitIo } })

/-- `handle_cpuid`: the first table entry for the function and index, else the host's answer;
leaf 1 loses SSE, SSE2 (EDX) and SSE3, SSSE3, SSE4.1, SSE4.2, XSAVE, OSXSAVE (ECX). -/
def handleCpuid (host : Host) (v : Vcpu) : Bool × Vcpu :=
  let function : BitVec 32 := (v.regs vcpuRegsRax).truncate 32
  let index : BitVec 32 := (v.regs vcpuRegsRcx).truncate 32
  let (eax, ebx, ecx, edx) :=
    match v.cpuidEntries.find? (fun e => e.function == function && e.index == index) with
    | some e => (e.eax, e.ebx, e.ecx, e.edx)
    | none => host.cpuid function index
  let (ecx, edx) :=
    if function = 1 then
      (ecx &&& ~~~(1 <<< 0 ||| 1 <<< 9 : BitVec 32) &&& ~~~(1 <<< 19 ||| 1 <<< 20 : BitVec 32)
          &&& ~~~(1 <<< 26 ||| 1 <<< 27 : BitVec 32),
       edx &&& ~~~(1 <<< 25 ||| 1 <<< 26 : BitVec 32))
    else (ecx, edx)
  let regs := Function.update (Function.update (Function.update (Function.update v.regs
    vcpuRegsRax (eax.zeroExtend 64)) vcpuRegsRbx (ebx.zeroExtend 64)) vcpuRegsRcx
    (ecx.zeroExtend 64)) vcpuRegsRdx (edx.zeroExtend 64)
  (true, skipEmulatedInstruction { v with regs := regs })

/-- `handle_rdmsr`: the host's MSR `ECX`, low half in RAX and high half in RDX. -/
def handleRdmsr (host : Host) (v : Vcpu) : Bool × Vcpu :=
  let msr := host.rdmsr ((v.regs vcpuRegsRcx).truncate 32)
  let regs := Function.update (Function.update v.regs
    vcpuRegsRax ((msr.truncate 32).zeroExtend 64)) vcpuRegsRdx (msr >>> 32)
  (true, skipEmulatedInstruction { v with regs := regs })

/-- The handlers that step over the instruction and keep running. -/
def skipAndContinue (v : Vcpu) : Bool × Vcpu := (true, skipEmulatedInstruction v)

/-- The handlers that keep running and change nothing. -/
def continueOnly (v : Vcpu) : Bool × Vcpu := (true, v)

def handleWrmsr : Vcpu → Bool × Vcpu := skipAndContinue
def handleEptViolation : Vcpu → Bool × Vcpu := skipAndContinue
def handleApicAccess : Vcpu → Bool × Vcpu := skipAndContinue
def handleDr : Vcpu → Bool × Vcpu := skipAndContinue
def handlePreemptionTimer : Vcpu → Bool × Vcpu := continueOnly
def handleInterruptWindow : Vcpu → Bool × Vcpu := continueOnly
def handleTaskSwitch : Vcpu → Bool × Vcpu := continueOnly

/-- `handle_external_interrupt`: an exit with qualification 0 raises line 0; `signal` is whether
`proc_issignal` finds a signal pending for the calling process, which returns to userspace. -/
def handleExternalInterrupt (signal : Bool) (v : Vcpu) : Bool × Vcpu :=
  let v := if v.exitQualification = 0 then { v with pendingIrq := v.pendingIrq ||| 1 } else v
  (!signal, v)

def controlRegAccessNum : BitVec 64 := 0x7
def controlRegAccessType : BitVec 64 := 0x30
def controlRegAccessReg : BitVec 64 := 0xf00

/-- `handle_cr`: MOV to and from CR3 through `cr3_shadow`, and MOV to CR0, which also switches
unrestricted-guest mode and the CR0 read shadow on the paging bit. -/
def handleCr (m : Machine) : Bool × Machine :=
  let q := m.vcpu.exitQualification
  let crNum := (q &&& controlRegAccessNum).toNat
  let crType := ((q &&& controlRegAccessType) >>> 4).toNat
  let crToReg : Fin 17 := Fin.ofNat ((q &&& controlRegAccessReg) >>> 8).toNat
  let m :=
    if crNum = 3 then
      if crType = 0 then
        let shadow := m.vcpu.regs crToReg
        (m.setVcpu { m.vcpu with cr3Shadow := shadow }).vmcsWritel .guestCr3 shadow
      else if crType = 1 then
        m.setVcpu { m.vcpu with regs := Function.update m.vcpu.regs crToReg m.vcpu.cr3Shadow }
      else m
    else if crNum = 0 then
      if crType = 0 then
        let val := m.vcpu.regs crToReg
        let m := m.vmcsWritel .guestCr0 val
        if val &&& intBit31 ≠ 0 then
          let m := m.setVcpu { m.vcpu with paging := true }
          let (ctl, m) := m.vmcsRead32 .secondaryVmExecControl
          (m.vmcsWrite32 .secondaryVmExecControl (ctl &&& ~~~secondaryExecUnrestrictedGuest)).vmcsWritel
            .cr0ReadShadow intBit31
        else
          let m := m.setVcpu { m.vcpu with paging := false }
          let (ctl, m) := m.vmcsRead32 .secondaryVmExecControl
          (m.vmcsWrite32 .secondaryVmExecControl (ctl ||| secondaryExecUnrestrictedGuest)).vmcsWritel
            .cr0ReadShadow 0
      else m
    else m
  (true, m.setVcpu (skipEmulatedInstruction m.vcpu))

/-- The handlers named in `kvm_vmx_exit_handlers`. -/
inductive ExitHandler
  | externalInterrupt | cpuid | io | rdmsr | wrmsr | eptViolation | preemptionTimer
  | apicAccess | interruptWindow | cr | dr | taskSwitch
  deriving DecidableEq, Repr

/-- `kvm_vmx_exit_handlers`: the designated entries, NULL elsewhere. -/
def kvmVmxExitHandlers (reason : Nat) : Option ExitHandler :=
  if reason = exitReasonExternalInterrupt then some .externalInterrupt
  else if reason = exitReasonCpuid then some .cpuid
  else if reason = exitReasonIoInstruction then some .io
  else if reason = exitReasonMsrRead then some .rdmsr
  else if reason = exitReasonMsrWrite then some .wrmsr
  else if reason = exitReasonEptViolation then some .eptViolation
  else if reason = exitReasonPreemptionTimer then some .preemptionTimer
  else if reason = exitReasonApicAccess then some .apicAccess
  else if reason = exitReasonPendingInterrupt then some .interruptWindow
  else if reason = exitReasonCrAccess then some .cr
  else if reason = exitReasonDrAccess then some .dr
  else if reason = exitReasonTaskSwitch then some .taskSwitch
  else none

/-- `kvm_vmx_max_exit_handlers`: `ARRAY_SIZE` of the table, one past its largest index. -/
def kvmVmxMaxExitHandlers : Nat := exitReasonPreemptionTimer + 1

/-- Run a handler that sees only the vCPU record. -/
def onVcpu (f : Vcpu → Bool × Vcpu) (m : Machine) : Bool × Machine :=
  ((f m.vcpu).1, m.setVcpu (f m.vcpu).2)

/-- `kvm_vmx_exit_handlers[exit_reason](vcpu)`. -/
def runHandler (signal : Bool) : ExitHandler → Machine → Bool × Machine
  | .externalInterrupt, m => onVcpu (handleExternalInterrupt signal) m
  | .cpuid, m => onVcpu (handleCpuid m.host) m
  | .io, m => onVcpu handleIo m
  | .rdmsr, m => onVcpu (handleRdmsr m.host) m
  | .wrmsr, m => onVcpu handleWrmsr m
  | .eptViolation, m => onVcpu handleEptViolation m
  | .preemptionTimer, m => onVcpu handlePreemptionTimer m
  | .apicAccess, m => onVcpu handleApicAccess m
  | .interruptWindow, m => onVcpu handleInterruptWindow m
  | .cr, m => handleCr m
  | .dr, m => onVcpu handleDr m
  | .taskSwitch, m => onVcpu handleTaskSwitch m

end KvmKext
