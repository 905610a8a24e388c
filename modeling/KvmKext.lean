import KvmKext.Ept.Table
import KvmKext.Ept.Walk
import KvmKext.Ept.Mapping
import KvmKext.Ept.Hardware
import KvmKext.Vcpu.State
import KvmKext.Vcpu.Handlers
import KvmKext.Vcpu.Run
import KvmKext.Vcpu.Frame
import KvmKext.Vcpu.Ops
import KvmKext.Vcpu.Init
import KvmKext.Vcpu.Interrupts
import KvmKext.Vcpu.Cr0
import KvmKext.Vcpu.Failure
import KvmKext.Vcpu.Memory
import KvmKext.Vcpu.Io
import KvmKext.Vcpu.Return
import KvmKext.Vcpu.Region
import KvmKext.Vcpu.Cpuid
import KvmKext.Device.Handle
import KvmKext.Device.Close
import KvmKext.Vcpu.Trace
import KvmKext.Device.Policy
import KvmKext.Vcpu.Vectoring
import KvmKext.Device.Registry
import KvmKext.Device.Processes
import KvmKext.Device.EptFree
import KvmKext.Ept.AllocFailure
import KvmKext.Ept.Footprint
import KvmKext.Device.EptSound
