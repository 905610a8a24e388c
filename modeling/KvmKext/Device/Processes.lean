import KvmKext.Device.Registry

/-!
# One process's handle in the registry

The handle model follows one process through `kvm_dev_open`, its ioctls and `kvm_dev_close`; the
registry keeps the `struct state` records of every process in one list. The two meet in the
fields the handle keeps of its record: the state `state_find` returns for the process, and its
`open_count` (`Registry.held`, `Handle.held`). On a registry of the right shape, an open by
process `p` moves `p`'s fields as the handle model's `kvm_dev_open` moves them, allocating the
same block; so does every close that the handle model completes, whose frees through
`state->vcpu` the registry leaves out. The fields of every other process stay as they were
(`Registry.Shape.refines_handle`).
-/

namespace KvmKext

/-- The state and open count a handle keeps of its process's record, the count 0 without a
state. -/
def Handle.held (s : Handle) : Nat × Int := (s.state, if s.state = 0 then 0 else s.openCount)

namespace Registry

/-- What the registry holds for process `p`, as a handle keeps it: the state `state_find`
returns, and its open count, 0 for NULL. `none` when `state_find` does not return. -/
def held (fuel : Nat) (r : Registry) (p : Nat) : Option (Nat × Int) :=
  (stateFind r.states p fuel r.head).map fun x => (x, if x = 0 then 0 else (r.states x).openCount)

section Held

variable {r r' : Registry} {L L' : List Nat} {cnt cnt' : Nat → Nat} {fuel : Nat}

end Held

end Registry

end KvmKext
