import Micro80.Device.PortMap
import Micro80.Log.Console
import Micro80.Machine.Event
import Micro80.Memory.Image

/-!
# Machines

A machine is a core together with everything that decides how the core is run: which processor it
plays, what phase it is in, what ends a run, which devices answer at its ports, and who listens to
its reports. The devices belong to somebody else; the machine carries their states along.

A machine is always in the phase in which it is about to fetch an instruction, or halted; the other
phases last only while an instruction is dealt with.

## Main definitions

* `Machine`, with `Machine.start` and `Machine.reset`.
* `Machine.report`: telling the console about an event.
* `Machine.load`, `Machine.loadImage`: loading programs.
-/

namespace Micro80

/-- **Phases.** -/
inductive Phase where
  /-- About to fetch an instruction. -/
  | fetch
  /-- Finding out what the instruction is. -/
  | decode
  /-- Doing what the instruction says. -/
  | execute
  /-- Halted until a reset. -/
  | halted
  deriving DecidableEq

/-- **Machines** with devices named by `ι` whose states make up a value of `σ`. -/
structure Machine (ι σ : Type) where
  /-- The processor. -/
  variant : Variant
  /-- What the machine is doing. -/
  phase : Phase
  /-- What was wrong when an instruction was last decoded. -/
  fault : Option DecodeError
  /-- The address of the instruction that was last executed. -/
  lastPC : UInt16
  /-- What ends a run. -/
  policy : Policy
  /-- The devices that are read from. -/
  inputs : PortMap ι
  /-- The devices that are written to. -/
  outputs : PortMap ι
  /-- The states of the devices. -/
  devices : σ
  /-- Who listens. -/
  console : Option Console
  /-- What instructions work on. -/
  core : Core

namespace Machine

variable {ι σ : Type}

/-! ### Parts -/

/-- The program counter. -/
def pc (m : Machine ι σ) : UInt16 := m.core.registers.pc

/-- The machine with its core altered. -/
def alterCore (m : Machine ι σ) (f : Core → Core) : Machine ι σ := { m with core := f m.core }

/-- The machine with its memory altered. -/
def alterMemory (m : Machine ι σ) (f : Memory → Memory) : Machine ι σ :=
  m.alterCore fun c => { c with memory := f c.memory }

/-- Sets the program counter. -/
def setPC (m : Machine ι σ) (a : UInt16) : Machine ι σ := m.alterCore fun c => c.jump a

/-- Whether the machine has halted. -/
def isHalted (m : Machine ι σ) : Bool := m.phase = .halted

/-! ### Reports -/

/-- **Reporting.** The console, if there is one, receives the message for an event. -/
def report (m : Machine ι σ) (e : Event) : Machine ι σ :=
  match m.console with
  | none => m
  | some c =>
    if c.admits e.severity then { m with console := some (c.receive e.message) } else m

/-- Reporting changes nothing but what the console has received. -/
theorem report_eq (m : Machine ι σ) (e : Event) :
    m.report e = { m with console := m.console.map fun c => c.receive e.message } := by
  unfold report Console.receive
  cases m with
  | mk variant phase fault lastPC policy inputs outputs devices console core =>
    cases console with
    | none => rfl
    | some c =>
      show (if c.admits e.severity then _ else _) = _
      have same : e.message.severity = e.severity := rfl
      by_cases h : c.admits e.severity
      · simp [h, same]
      · simp [h, same]

@[simp] theorem core_report (m : Machine ι σ) (e : Event) : (m.report e).core = m.core := by
  rw [report_eq]

@[simp] theorem devices_report (m : Machine ι σ) (e : Event) :
    (m.report e).devices = m.devices := by
  rw [report_eq]

@[simp] theorem phase_report (m : Machine ι σ) (e : Event) : (m.report e).phase = m.phase := by
  rw [report_eq]

/-- Reports an event if there is one. -/
def reportAny (m : Machine ι σ) (e : Option Event) : Machine ι σ := e.elim m m.report

/-! ### Resetting and loading -/

/-- **Reset.** The registers are cleared, interrupts are disabled and the machine is ready to fetch.
Memory, devices and policy stay, and so does the address of the last instruction. -/
def reset (m : Machine ι σ) : Machine ι σ :=
  let core : Core :=
    { m.core with registers := .reset m.variant.layout.reset, interrupts := false }
  { m with core := core, phase := .fetch, fault := none }.report (.reset m.variant)

/-- **New machines.** A machine with a blank memory and no devices installed. -/
def start (v : Variant) (devices : σ) (console : Option Console) : Machine ι σ :=
  reset
    { variant := v
      phase := .fetch
      fault := none
      lastPC := 0
      policy := .standard
      inputs := .empty
      outputs := .empty
      devices := devices
      console := console
      core := ⟨.reset 0, .blank, false⟩ }

/-- Loads bytes into memory. -/
def load (m : Machine ι σ) (origin : UInt16) (bytes : List UInt8) : Machine ι σ :=
  let m := m.alterMemory fun memory => memory.load origin bytes
  if bytes.isEmpty then m else m.report (.loaded bytes.length origin)

/-- Loads an image into memory, its segments in ascending order of their origins. -/
def loadImage (m : Machine ι σ) (i : Image) : Machine ι σ :=
  i.segments.foldl (fun m s => m.load s.1 s.2) m

/-- Bytes are loaded into memory, and the console is told. -/
theorem exists_load_eq (m : Machine ι σ) (origin : UInt16) (bytes : List UInt8) :
    ∃ console, m.load origin bytes =
      { m with
        console := console
        core := { m.core with memory := m.core.memory.load origin bytes } } := by
  unfold load
  dsimp only
  rw [report_eq]
  split <;> exact ⟨_, rfl⟩

/-- An image is loaded into memory as a whole, and the console is told. -/
theorem exists_loadImage_eq (m : Machine ι σ) (i : Image) :
    ∃ console, m.loadImage i =
      { m with
        console := console
        core := { m.core with memory := m.core.memory.loadImage i } } := by
  unfold loadImage Memory.loadImage
  induction i.segments generalizing m with
  | nil => exact ⟨_, rfl⟩
  | cons s rest ih =>
    obtain ⟨console, loaded⟩ := m.exists_load_eq s.1 s.2
    rw [List.foldl_cons, loaded]
    exact ih _

/-- **The memory of a machine** that has loaded an image is the memory that has loaded it. -/
theorem memory_loadImage (m : Machine ι σ) (i : Image) :
    (m.loadImage i).core.memory = m.core.memory.loadImage i := by
  obtain ⟨console, loaded⟩ := m.exists_loadImage_eq i
  rw [loaded]

end Machine

end Micro80
