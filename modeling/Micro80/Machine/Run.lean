import Micro80.Machine.Effect
import Micro80.Machine.Ports

/-!
# Running a machine

A machine runs in turns. A turn deals with one instruction and either leaves the machine running or
ends the run, with a reason to stop or because of a failure. A run takes turns until one ends it or
as many as were asked for have been taken.

Before a turn a run ends if the machine has halted, or if there is a breakpoint, which does not
count for the first turn. Bytes that are no instruction are passed over one at a time, if that is
the policy. An instruction whose device fails is taken back: the program counter is on it again,
and it can be tried once more.

## Main definitions

* `Cause`: why a run ends.
* `Progress`: what comes of a turn.
* `Machine.turn`: one turn.
* `Machine.run`: a run with a limit.
* `Machine.runFree?`: a run without one.
-/

namespace Micro80

/-- **Causes.** Why a run ends. -/
inductive Cause where
  /-- There is a reason to stop. -/
  | stop (r : StopReason)
  /-- A device has failed. -/
  | failure (e : DeviceFailure)
  /-- The operands of an instruction do not fit its operation. -/
  | malformed
  deriving DecidableEq

/-- **Progress.** A machine that goes on, or one whose run has ended. -/
inductive Progress (ι σ : Type) where
  | running (m : Machine ι σ)
  | ended (m : Machine ι σ) (cause : Cause)

namespace Machine

variable {ι σ : Type}

/-! ### After an instruction -/

/-- What comes of an instruction that is complete: the run ends if there is a reason to stop. -/
def complete (m : Machine ι σ) (c : Core) (stop : Option StopReason) : Progress ι σ :=
  let m := { m with core := c, phase := .fetch }
  match stop with
  | none => .running m
  | some r => .ended m (.stop r)

/-- **Taking back.** What comes of an instruction whose device has failed. -/
def takeBack (m : Machine ι σ) (c : Core) (a : UInt16) (e : DeviceFailure) : Progress ι σ :=
  .ended { m with core := c.jump a, phase := .fetch } (.failure e)

/-- What comes of the effect of an instruction at an address. The core of the machine is the one
from which the effect was computed. -/
def settle (bus : Peripherals ι σ) (m : Machine ι σ) (a : UInt16) : Effect → Progress ι σ
  | .done c => m.complete c none
  | .halted c => .ended { m with core := c, phase := .halted } (.stop .halt)
  | .input c p store =>
    match m.readPort bus p with
    | ⟨m, stop, .ok b⟩ => m.complete (store c b) stop
    | ⟨m, _, .error e⟩ => m.takeBack c a e
  | .output c p b =>
    match m.writePort bus p b with
    | ⟨m, stop, .ok ()⟩ => m.complete c stop
    | ⟨m, _, .error e⟩ => m.takeBack c a e

/-! ### Turns -/

/-- **Executing** a decoded instruction. -/
def execute (bus : Peripherals ι σ) (m : Machine ι σ) (i : Instruction) : Progress ι σ :=
  let m := m.report (.executing i m.core.accumulator m.core.flags)
  let m := { m with fault := none, lastPC := i.address, phase := .execute }
  let m := m.alterCore fun c => c.jump i.next
  let m := m.reportAny (i.remark? m.core)
  match i.effect? m.variant.layout m.core with
  | some e => m.settle bus i.address e
  | none => .ended { m with core := m.core.jump i.address, phase := .fetch } .malformed

/-- **Passing over** a byte that is no instruction, or ending the run because of it. -/
def skip (m : Machine ι σ) (e : DecodeError) : Progress ι σ :=
  let m := { m with fault := some e, phase := .fetch }
  let m := m.report (.undecodable e (m.core.memory.read m.pc) m.pc)
  match m.policy.illegalOpcode with
  | some r => .ended m (.stop r)
  | none => .running (m.setPC (m.pc + 1))

/-- **Turns.** -/
def turn (bus : Peripherals ι σ) (first : Bool) (m : Machine ι σ) : Progress ι σ :=
  if m.phase = .halted then .ended m (.stop .halt)
  else if !first && m.core.memory.isBreak m.pc then .ended m (.stop .breakpoint)
  else
    let m := { m with phase := .decode }
    match Instruction.decode m.variant m.core.memory m.pc with
    | .error e => m.skip e
    | .ok i => m.execute bus i

/-! ### Runs -/

/-- Takes up to the given number of turns. -/
def take (bus : Peripherals ι σ) : (turns : Nat) → (first : Bool) → Machine ι σ → Progress ι σ
  | 0, _, m => .running m
  | turns + 1, first, m =>
    match m.turn bus first with
    | .running m => take bus turns false m
    | .ended m cause => .ended m cause

/-- **Runs with a limit.** The machine after a run of at most the given number of turns, and why the
run has ended. -/
def run (bus : Peripherals ι σ) (turns : Nat) (m : Machine ι σ) : Machine ι σ × Cause :=
  match m.take bus turns true with
  | .running m => (m, .stop .finished)
  | .ended m cause => (m, cause)

/-- Executes one instruction. -/
def step (bus : Peripherals ι σ) (m : Machine ι σ) : Machine ι σ × Cause := m.run bus 1

/-- **Runs without a limit.** The machine after a run that ends by itself, if it does so within the
given number of turns. -/
def runFree? (bus : Peripherals ι σ) (turns : Nat) (m : Machine ι σ) :
    Option (Machine ι σ × Cause) :=
  match m.take bus turns true with
  | .running _ => none
  | .ended m cause => some (m, cause)

/-- A run without a limit ends as a run with a limit that it does not reach. -/
theorem run_of_runFree? {bus : Peripherals ι σ} {turns : Nat} {m : Machine ι σ}
    {r : Machine ι σ × Cause} (h : m.runFree? bus turns = some r) : m.run bus turns = r := by
  unfold runFree? at h
  unfold run
  split at h
  · cases h
  · simp_all

end Machine

end Micro80
