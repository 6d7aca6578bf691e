/-!
# Reasons to stop

A run ends for one of a few reasons, and two of them are a matter of policy: an instruction that
does not decode and a port without a device can end a run or be passed over.

## Main definitions

* `StopReason`.
* `Policy`, with the reasons that it gives for the two cases.
-/

namespace Micro80

/-- **Reasons to stop.** -/
inductive StopReason where
  /-- As many instructions as were asked for have been executed. -/
  | finished
  /-- A port without a device has been used. -/
  | unmappedPort
  /-- The bytes at the program counter are no instruction. -/
  | illegalOpcode
  /-- The processor has halted. -/
  | halt
  /-- There is a breakpoint at the program counter. -/
  | breakpoint
  /-- Somebody has asked for a stop. -/
  | request
  deriving DecidableEq

/-- **Policies.** What ends a run and what is passed over. -/
structure Policy where
  /-- Whether a port without a device ends a run. -/
  stopOnUnmappedPort : Bool
  /-- Whether bytes that are no instruction end a run. -/
  stopOnIllegalOpcode : Bool
  deriving DecidableEq

namespace Policy

/-- The policy of a new machine. -/
def standard : Policy := ⟨false, true⟩

/-- The reason to stop that a port without a device gives. -/
def unmappedPort (p : Policy) : Option StopReason :=
  if p.stopOnUnmappedPort then some .unmappedPort else none

/-- The reason to stop that bytes without meaning give. -/
def illegalOpcode (p : Policy) : Option StopReason :=
  if p.stopOnIllegalOpcode then some .illegalOpcode else none

end Policy

end Micro80
