import Micro80.Machine.Panel
import Micro80.Proofs.Machine.Advance
import Micro80.Proofs.Machine.Composition

/-!
# Dialogues

A user deals with a machine by giving commands and looking at the answers. A command starts a run,
with or without a limit, or it acts on the machine while no run is going on. A run without a limit
need not end, and then there is no answer, so that what a command comes to is a relation and not a
function. A dialogue is what comes of any number of commands, one after the other.

## Main definitions

* `Action`, with `Machine.act`: what can be done to a machine that is not running.
* `Action.Spares`: what an action leaves as it is.
* `Command`, `Answer`, with `Machine.Performs`: what a command comes to.
* `Machine.Dialogue`: what any number of commands come to.

## Main statements

* `Machine.spares_act`: no action does more than it says.
* `Machine.performs_run_iff`, `Machine.performs_act_iff`: what commands come to.
-/

namespace Micro80

variable {ι σ : Type}

/-! ### Actions -/

/-- **Actions.** What a user can do to a machine that is not running. -/
inductive Action (ι σ : Type) where
  /-- Loads the register with a given number. -/
  | setRegister (n : Nat) (w : UInt16)
  /-- Sets the program counter. -/
  | setPC (a : UInt16)
  /-- Asks for a stop. A run forgets what has been asked for before it begins. -/
  | requestStop (r : StopReason)
  | setPolicy (p : Policy)
  /-- Puts another console in place, or lets it listen to other things. -/
  | alterConsole (f : Option Console → Option Console)
  | load (origin : UInt16) (bytes : List UInt8)
  | loadImage (i : Image)
  /-- Stores bytes by hand, fills memory, sets breakpoints or takes them away. -/
  | alterMemory (f : Memory → Memory)
  | install (d : ι)
  | remove (d : ι)
  | removeAll
  /-- Reads a port by hand. -/
  | readPort (p : UInt8)
  /-- Writes to a port by hand. -/
  | writePort (p b : UInt8)
  | clearDevices
  /-- What the devices do among themselves. -/
  | alterDevices (f : σ → σ)
  | reset
  | masterClear

/-- **Answers.** What a user is told in the end. -/
inductive Answer where
  | done
  /-- A run has ended. -/
  | ended (cause : Cause)
  /-- Whether a device could be installed or removed. -/
  | possible (b : Bool)
  /-- A port has been read. -/
  | received (result : Except DeviceFailure UInt8)
  /-- A port has been written to. -/
  | sent (result : Except DeviceFailure Unit)

namespace Machine

variable [DecidableEq ι]

/-- **Acting on a machine.** -/
def act (bus : Peripherals ι σ) (m : Machine ι σ) : Action ι σ → Machine ι σ × Answer
  | .setRegister n w => (m.setRegister n w, .done)
  | .setPC a => (m.setPC a, .done)
  | .requestStop _ => (m, .done)
  | .setPolicy p => ({ m with policy := p }, .done)
  | .alterConsole f => ({ m with console := f m.console }, .done)
  | .load origin bytes => (m.load origin bytes, .done)
  | .loadImage i => (m.loadImage i, .done)
  | .alterMemory f => (m.alterMemory f, .done)
  | .install d => ((m.install bus d).2, .possible (m.install bus d).1)
  | .remove d => ((m.remove bus d).2, .possible (m.remove bus d).1)
  | .removeAll => (m.removeAll, .done)
  | .readPort p => ((m.readPort bus p).state, .received (m.readPort bus p).result)
  | .writePort p b => ((m.writePort bus p b).state, .sent (m.writePort bus p b).result)
  | .clearDevices => (m.clearDevices bus, .done)
  | .alterDevices f => ({ m with devices := f m.devices }, .done)
  | .reset => (m.reset, .done)
  | .masterClear => (m.masterClear bus, .done)

end Machine

/-! ### What actions leave as it is -/

namespace Action

/-- Whether an action clears the processor. -/
def clears : Action ι σ → Bool
  | .reset | .masterClear => true
  | _ => false

/-- Whether an action attaches devices or takes them off. -/
def wires : Action ι σ → Bool
  | .install _ | .remove _ | .removeAll => true
  | _ => false

/-- **Sparing.** What an action leaves as it is: the processor and the address of the last
instruction always, the phase unless it clears the processor, and the devices at the ports unless
this is what it is for. -/
structure Spares (x : Action ι σ) (m m' : Machine ι σ) : Prop where
  variant : m'.variant = m.variant
  lastPC : m'.lastPC = m.lastPC
  phase : x.clears = false → m'.phase = m.phase
  inputs : x.wires = false → m'.inputs = m.inputs
  outputs : x.wires = false → m'.outputs = m.outputs

end Action

namespace Machine

/-- **No action does more than it says.** -/
theorem spares_act [DecidableEq ι] (bus : Peripherals ι σ) (m : Machine ι σ) (x : Action ι σ) :
    x.Spares m (m.act bus x).1 := by
  cases x with
  | setPC | requestStop | setPolicy | alterConsole | alterMemory | clearDevices | alterDevices =>
    exact ⟨rfl, rfl, fun _ => rfl, fun _ => rfl, fun _ => rfl⟩
  | setRegister n w =>
    dsimp only [act, setRegister]
    split <;> exact ⟨rfl, rfl, fun _ => rfl, fun _ => rfl, fun _ => rfl⟩
  | load origin bytes =>
    obtain ⟨console, loaded⟩ := m.exists_load_eq origin bytes
    dsimp only [act]
    rw [loaded]
    exact ⟨rfl, rfl, fun _ => rfl, fun _ => rfl, fun _ => rfl⟩
  | loadImage i =>
    obtain ⟨console, loaded⟩ := m.exists_loadImage_eq i
    dsimp only [act]
    rw [loaded]
    exact ⟨rfl, rfl, fun _ => rfl, fun _ => rfl, fun _ => rfl⟩
  | readPort p =>
    obtain ⟨console, read⟩ := m.exists_readPort_eq bus p
    dsimp only [act]
    rw [read]
    exact ⟨rfl, rfl, fun _ => rfl, fun _ => rfl, fun _ => rfl⟩
  | writePort p b =>
    obtain ⟨console, written⟩ := m.exists_writePort_eq bus p b
    dsimp only [act]
    rw [written]
    exact ⟨rfl, rfl, fun _ => rfl, fun _ => rfl, fun _ => rfl⟩
  | install d =>
    dsimp only [act, install]
    split
    · rw [report_eq]
      exact ⟨rfl, rfl, fun _ => rfl, nofun, nofun⟩
    · rw [report_eq]
      exact ⟨rfl, rfl, fun _ => rfl, nofun, nofun⟩
  | remove d =>
    dsimp only [act, remove]
    rw [report_eq]
    exact ⟨rfl, rfl, fun _ => rfl, nofun, nofun⟩
  | removeAll => exact ⟨rfl, rfl, fun _ => rfl, nofun, nofun⟩
  | reset | masterClear =>
    dsimp only [act, masterClear, reset]
    rw [report_eq]
    exact ⟨rfl, rfl, nofun, fun _ => rfl, fun _ => rfl⟩

end Machine

/-! ### Commands -/

/-- **Commands.** -/
inductive Command (ι σ : Type) where
  /-- A run with the given limit, where zero stands for no limit and one for a step. -/
  | run (limit : Nat)
  | act (x : Action ι σ)

namespace Machine

variable [DecidableEq ι] {bus : Peripherals ι σ} {m x y : Machine ι σ}

/-- **Performing a command.** What a command can come to, and the answer to it. -/
inductive Performs (bus : Peripherals ι σ) (m : Machine ι σ) :
    Command ι σ → Answer → Machine ι σ → Prop where
  | run {limit : Nat} {x : Machine ι σ} {cause : Cause} (ends : m.RunEnds bus limit (x, cause)) :
      Performs bus m (.run limit) (.ended cause) x
  | act (x : Action ι σ) : Performs bus m (.act x) (m.act bus x).2 (m.act bus x).1

theorem performs_run_iff {limit : Nat} {a : Answer} :
    m.Performs bus (.run limit) a x ↔
      ∃ cause, a = .ended cause ∧ m.RunEnds bus limit (x, cause) := by
  constructor
  · rintro ⟨ends⟩
    exact ⟨_, rfl, ends⟩
  · rintro ⟨cause, rfl, ends⟩
    exact .run ends

theorem performs_act_iff {action : Action ι σ} {a : Answer} :
    m.Performs bus (.act action) a x ↔ m.act bus action = (x, a) := by
  constructor
  · rintro ⟨⟩
    rfl
  · intro acted
    have performs : m.Performs bus (.act action) (m.act bus action).2 (m.act bus action).1 :=
      .act action
    rw [acted] at performs
    exact performs

/-- A run with a limit has an answer. -/
theorem performs_run (bus : Peripherals ι σ) (m : Machine ι σ) {limit : Nat} (limited : limit ≠ 0) :
    m.Performs bus (.run limit) (.ended (m.run bus limit).2) (m.run bus limit).1 :=
  .run (by rw [RunEnds, if_neg limited])

/-! ### Dialogues -/

/-- **Dialogues.** What can become of a machine by some commands, with the answers to them, the
newest first. -/
inductive Dialogue (bus : Peripherals ι σ) (m : Machine ι σ) :
    List (Command ι σ × Answer) → Machine ι σ → Prop where
  | start : Dialogue bus m [] m
  | perform {l : List (Command ι σ × Answer)} {x y : Machine ι σ} {c : Command ι σ} {a : Answer}
      (before : Dialogue bus m l x) (performs : x.Performs bus c a y) :
      Dialogue bus m ((c, a) :: l) y

end Machine

end Micro80
