import Micro80.Proofs.Machine.Turn

/-!
# Journals of device accesses

What devices do may be looked at through a function of their states. If this function commutes with
every access, it commutes with everything that a machine does, since the machine never looks at the
states of its devices. Reports and ports are the same even through functions of machines that change
more than the states of the devices, as long as they leave alone what has to do with ports and with
the console.

An example are devices that keep a journal of the accesses to them. Forgetting the journal is such a
function, so that keeping one does not change what a machine does.

## Main definitions

* `Machine.mapDevices`: a machine whose devices are looked at through a function.
* `Peripherals.Refines`: accesses commute with a function.
* `Machine.IsView`: functions of machines through which ports and console are the same.
* `Peripherals.journaled`: devices that keep a journal.
* `Machine.journals`: the journals after several runs.

## Main statements

* `Machine.IsView.report`, `Machine.IsView.readPort`, `Machine.IsView.writePort`.
* `Machine.turn_mapDevices`, `Machine.run_mapDevices`, `Machine.visited_mapDevices`.
* `Machine.runAll_recording`: keeping a journal does not change what runs do.
-/

namespace Micro80

variable {ι σ τ : Type}

/-! ### Devices looked at through a function -/

/-- An access whose state is looked at through a function. -/
def Access.map {α : Type} (f : τ → σ) (a : Access τ α) : Access σ α :=
  ⟨f a.state, a.stop, a.result⟩

/-- **Refinement.** Accesses to the finer devices are, looked at through a function, those to the
coarser ones. -/
structure Peripherals.Refines (f : τ → σ) (fine : Peripherals ι τ) (coarse : Peripherals ι σ) :
    Prop where
  read : ∀ d p s, coarse.read d p (f s) = (fine.read d p s).map f
  write : ∀ d p b s, coarse.write d p b (f s) = (fine.write d p b s).map f

theorem Peripherals.refines_id (bus : Peripherals ι σ) : bus.Refines id bus :=
  ⟨fun _ _ _ => rfl, fun _ _ _ _ => rfl⟩

/-! ### Views -/

namespace Machine

/-- **Views.** Functions of machines that leave the port maps, the policy and the console as they
are, and look at the states of the devices through a function. -/
structure IsView (g : τ → σ) (f : Machine ι τ → Machine ι σ) : Prop where
  inputs : ∀ m, (f m).inputs = m.inputs
  outputs : ∀ m, (f m).outputs = m.outputs
  policy : ∀ m, (f m).policy = m.policy
  console : ∀ m, (f m).console = m.console
  devices : ∀ m, (f m).devices = g m.devices
  withConsole : ∀ m c, f { m with console := c } = { f m with console := c }
  withDevices : ∀ m s, f { m with devices := s } = { f m with devices := g s }

namespace IsView

variable {g : τ → σ} {f : Machine ι τ → Machine ι σ} (h : IsView g f)

include h

/-- **Reports** are the same through a view. -/
theorem report (m : Machine ι τ) (e : Event) : (f m).report e = f (m.report e) := by
  rw [report_eq, report_eq, h.console]
  exact (h.withConsole m _).symm

theorem reportAny (m : Machine ι τ) (e : Option Event) :
    (f m).reportAny e = f (m.reportAny e) := by
  cases e with
  | none => rfl
  | some e => exact h.report m e

variable {fine : Peripherals ι τ} {coarse : Peripherals ι σ} (refines : fine.Refines g coarse)

include refines

/-- **Ports** are the same through a view. -/
theorem readPort (m : Machine ι τ) (p : UInt8) :
    (f m).readPort coarse p = (m.readPort fine p).map f := by
  unfold Machine.readPort
  rw [h.inputs, h.policy, h.devices]
  cases m.inputs.owner p with
  | none => exact congrArg (Access.mk · _ _) (h.report m _)
  | some d =>
    dsimp only
    rw [refines.read]
    exact congrArg (Access.mk · _ _) (h.withDevices m _).symm

theorem writePort (m : Machine ι τ) (p b : UInt8) :
    (f m).writePort coarse p b = (m.writePort fine p b).map f := by
  unfold Machine.writePort
  rw [h.outputs, h.policy, h.devices]
  cases m.outputs.owner p with
  | none => exact congrArg (Access.mk · _ _) (h.report m _)
  | some d =>
    dsimp only
    rw [refines.write]
    exact congrArg (Access.mk · _ _) (h.withDevices m _).symm

end IsView

end Machine

/-- The machine with its devices looked at through a function. -/
def Machine.mapDevices (f : τ → σ) (m : Machine ι τ) : Machine ι σ where
  variant := m.variant
  phase := m.phase
  fault := m.fault
  lastPC := m.lastPC
  policy := m.policy
  inputs := m.inputs
  outputs := m.outputs
  devices := f m.devices
  console := m.console
  core := m.core

/-- Progress with the devices looked at through a function. -/
def Progress.mapDevices (f : τ → σ) : Progress ι τ → Progress ι σ
  | running m => running (m.mapDevices f)
  | ended m cause => ended (m.mapDevices f) cause

theorem Progress.mapDevices_eq (f : τ → σ) (p : Progress ι τ) :
    p.mapDevices f = p.map (Machine.mapDevices f) := by
  cases p <;> rfl

theorem Progress.cause?_mapDevices (f : τ → σ) (p : Progress ι τ) :
    (p.mapDevices f).cause? = p.cause? := by
  cases p <;> rfl

namespace Machine

variable (f : τ → σ) (m : Machine ι τ)

@[simp] theorem variant_mapDevices : (m.mapDevices f).variant = m.variant := rfl

@[simp] theorem policy_mapDevices : (m.mapDevices f).policy = m.policy := rfl

@[simp] theorem core_mapDevices : (m.mapDevices f).core = m.core := rfl

@[simp] theorem pc_mapDevices : (m.mapDevices f).pc = m.pc := rfl

@[simp] theorem proceeds_mapDevices (first : Bool) :
    (m.mapDevices f).proceeds first = m.proceeds first := rfl

theorem isView_mapDevices : IsView f (mapDevices f : Machine ι τ → Machine ι σ) where
  inputs _ := rfl
  outputs _ := rfl
  policy _ := rfl
  console _ := rfl
  devices _ := rfl
  withConsole _ _ := rfl
  withDevices _ _ := rfl

theorem prepare_mapDevices (i : Instruction) :
    (m.mapDevices f).prepare i = (m.prepare i).mapDevices f := by
  unfold prepare
  rw [(isView_mapDevices f).report]
  exact (isView_mapDevices f).reportAny (alterCore { m.report _ with
    fault := none
    lastPC := i.address
    phase := .execute } fun c => c.jump i.next) _

theorem skip_mapDevices (e : DecodeError) :
    (m.mapDevices f).skip e = (m.skip e).mapDevices f := by
  rw [skip_eq, skip_eq]
  simp only [report_eq, policy_mapDevices]
  cases m.policy.illegalOpcode <;> rfl

theorem conclude_mapDevices {α : Type} (access : Access (Machine ι τ) α) (c : Core) (a : UInt16)
    (store : α → Core) :
    conclude (access.map (mapDevices f)) c a store =
      (conclude access c a store).mapDevices f := by
  obtain ⟨m, stop, result⟩ := access
  cases result with
  | error e => rfl
  | ok b => cases stop <;> rfl

variable {f} {fine : Peripherals ι τ} {coarse : Peripherals ι σ} (h : fine.Refines f coarse)

include h

theorem settle_mapDevices (a : UInt16) (e : Effect) :
    (m.mapDevices f).settle coarse a e = (m.settle fine a e).mapDevices f := by
  cases e with
  | done c => rfl
  | halted c => rfl
  | input c p store =>
    rw [settle_input, settle_input, (isView_mapDevices f).readPort h, conclude_mapDevices]
  | output c p b =>
    rw [settle_output, settle_output, (isView_mapDevices f).writePort h, conclude_mapDevices]

theorem execute_mapDevices (i : Instruction) :
    (m.mapDevices f).execute coarse i = (m.execute fine i).mapDevices f := by
  rw [execute_eq, execute_eq, prepare_mapDevices, variant_mapDevices, core_mapDevices]
  cases i.effect? m.variant.layout (m.core.jump i.next) with
  | some e => exact settle_mapDevices (m.prepare i) h i.address e
  | none => rfl

/-- **Turns** of a machine look the same through the function. -/
theorem turn_mapDevices (first : Bool) :
    (m.mapDevices f).turn coarse first = (m.turn fine first).mapDevices f := by
  cases proceeds : m.proceeds first with
  | false =>
    rw [← proceeds_mapDevices f] at proceeds
    rw [turn_of_not_proceeds proceeds, turn_of_not_proceeds (m := m) proceeds]
    rfl
  | true =>
    rw [← proceeds_mapDevices f] at proceeds
    rw [turn_of_proceeds proceeds, turn_of_proceeds (m := m) proceeds]
    -- The same bytes are decoded, since decoding looks at the core alone.
    unfold advance
    rw [variant_mapDevices, core_mapDevices, pc_mapDevices]
    cases Instruction.decode m.variant m.core.memory m.pc with
    | error e => exact skip_mapDevices f { m with phase := .decode } e
    | ok i => exact execute_mapDevices { m with phase := .decode } h i

theorem take_mapDevices (turns : Nat) (first : Bool) :
    (m.mapDevices f).take coarse turns first = (m.take fine turns first).mapDevices f := by
  rw [Progress.mapDevices_eq]
  refine take_map (P := fun _ => True) (fun _ _ _ => trivial) (fun first x _ => ?_) turns first
    trivial
  rw [turn_mapDevices x h, Progress.mapDevices_eq]

/-- **Runs** of a machine look the same through the function. -/
theorem run_mapDevices (turns : Nat) :
    (m.mapDevices f).run coarse turns =
      ((m.run fine turns).1.mapDevices f, (m.run fine turns).2) := by
  refine run_map ?_
  rw [take_mapDevices m h, Progress.mapDevices_eq]

theorem visited_mapDevices (turns : Nat) (first : Bool) :
    (m.mapDevices f).visited coarse turns first =
      (m.visited fine turns first).map (mapDevices f) := by
  induction turns generalizing first m with
  | zero => rfl
  | succ turns ih =>
    rw [visited, visited, turn_mapDevices m h, proceeds_mapDevices]
    cases m.proceeds first with
    | false => rfl
    | true =>
      cases m.turn fine first with
      | running m₁ => exact congrArg (List.cons _) (ih m₁ false)
      | ended m₁ cause => rfl

theorem runAll_mapDevices (limits : List Nat) :
    (m.mapDevices f).runAll coarse limits =
      (m.runAll fine limits).map fun r => (r.1.mapDevices f, r.2) := by
  refine runAll_map (P := fun _ => True) (fun _ _ _ => trivial) (fun first x _ => ?_) limits trivial
  rw [turn_mapDevices x h, Progress.mapDevices_eq]

theorem visitedAll_mapDevices (limits : List Nat) :
    (m.mapDevices f).visitedAll coarse limits =
      (m.visitedAll fine limits).map (mapDevices f) := by
  induction limits generalizing m with
  | nil => rfl
  | cons turns rest ih =>
    rw [visitedAll, visitedAll, run_mapDevices m h, visited_mapDevices m h, ih, List.map_append]

end Machine

/-! ### Journals -/

/-- **Accesses to devices**, with what came of them. -/
inductive DeviceAccess (ι : Type) where
  /-- A device has been read at a port. -/
  | read (d : ι) (port : UInt8) (result : Except DeviceFailure UInt8)
  /-- A byte has been written to a device at a port. -/
  | write (d : ι) (port b : UInt8) (result : Except DeviceFailure Unit)

/-- **Devices with a journal** of the accesses to them, the oldest first. -/
def Peripherals.journaled (bus : Peripherals ι σ) : Peripherals ι (σ × List (DeviceAccess ι)) where
  info := bus.info
  read d p s :=
    let a := bus.read d p s.1
    ⟨(a.state, s.2 ++ [.read d p a.result]), a.stop, a.result⟩
  write d p b s :=
    let a := bus.write d p b s.1
    ⟨(a.state, s.2 ++ [.write d p b a.result]), a.stop, a.result⟩
  clear d s := (bus.clear d s.1, s.2)

/-- Devices with a journal do what they do without it. -/
theorem Peripherals.refines_journaled (bus : Peripherals ι σ) :
    bus.journaled.Refines Prod.fst bus :=
  ⟨fun _ _ _ => rfl, fun _ _ _ _ => rfl⟩

namespace Machine

/-- The machine with an empty journal. -/
def recording (m : Machine ι σ) : Machine ι (σ × List (DeviceAccess ι)) :=
  m.mapDevices fun s => (s, [])

/-- **Journals.** The accesses to devices up to the end of each of several runs. -/
def journals (bus : Peripherals ι σ) (limits : List Nat) (m : Machine ι σ) :
    List (List (DeviceAccess ι)) :=
  (m.recording.runAll bus.journaled limits).map fun r => r.1.devices.2

/-- **Keeping a journal** does not change what runs do. -/
theorem runAll_recording (bus : Peripherals ι σ) (limits : List Nat) (m : Machine ι σ) :
    (m.recording.runAll bus.journaled limits).map (fun r => (r.1.mapDevices Prod.fst, r.2)) =
      m.runAll bus limits :=
  (runAll_mapDevices m.recording bus.refines_journaled limits).symm

theorem visitedAll_recording (bus : Peripherals ι σ) (limits : List Nat) (m : Machine ι σ) :
    (m.recording.visitedAll bus.journaled limits).map (mapDevices Prod.fst) =
      m.visitedAll bus limits :=
  (visitedAll_mapDevices m.recording bus.refines_journaled limits).symm

end Machine

end Micro80
