import Micro80.Proofs.Device.Clearing
import Micro80.Proofs.Machine.Journal
import Micro80.Proofs.Machine.Wiring

/-!
# Master clear

A master clear clears every device that is in one of the port maps once and then resets the
processor. Memory, the port maps and the policy stay as they are. How often a device is cleared is
told by a tally, which the devices keep in addition to what they do.

The port maps are any that edits lead to, and among these are those of all machines in the course of
a dialogue.

## Main definitions

* `Machine.tallying`: a machine whose devices keep a tally.

## Main statements

* `Machine.arise_of_dialogue`: the port maps in the course of a dialogue.
* `Machine.masterClear_once`: a master clear clears every device once.
-/

namespace Micro80

variable {ι σ : Type}

namespace Machine

variable [DecidableEq ι] {bus : Peripherals ι σ}

/-! ### Port maps of machines -/

/-- **Performing a command** edits the port maps or leaves them alone. -/
theorem Performs.arise {x y : Machine ι σ} {c : Command ι σ} {a : Answer}
    (arise : PortMap.Arise bus.info x.inputs x.outputs) (performs : x.Performs bus c a y) :
    PortMap.Arise bus.info y.inputs y.outputs := by
  cases performs with
  | run ends =>
    obtain ⟨inputs, outputs⟩ := ports_of_runEnds ends
    rw [inputs, outputs]
    exact arise
  | act action =>
    cases kind : action.wires with
    | false =>
      have spared := spares_act bus x action
      rw [spared.inputs kind, spared.outputs kind]
      exact arise
    | true =>
      cases action with
      | install d =>
        have ports := ports_install bus x d
        simp only [Prod.ext_iff] at ports
        dsimp only [Machine.act]
        rw [ports.2.1, ports.2.2]
        exact arise.installBoth d
      | remove d =>
        dsimp only [Machine.act]
        rw [ports_remove]
        exact (arise.editInputs (.remove d)).editOutputs (.remove d)
      | removeAll => exact (arise.editInputs .removeAll).editOutputs .removeAll
      | _ => cases kind

/-- **The port maps in the course of a dialogue** that has begun with a new machine. -/
theorem arise_of_dialogue {v : Variant} {s : σ} {console : Option Console}
    {l : List (Command ι σ × Answer)} {x : Machine ι σ}
    (dialogue : (start v s console : Machine ι σ).Dialogue bus l x) :
    PortMap.Arise bus.info x.inputs x.outputs := by
  induction dialogue with
  | start =>
    unfold Machine.start reset
    rw [report_eq]
    exact .empty
  | perform _ performs ih => exact performs.arise ih

/-! ### Clearing -/

omit [DecidableEq ι] in
/-- The machine with devices that keep a tally of the clearings, of which there have been none. -/
def tallying (m : Machine ι σ) : Machine ι (σ × List ι) := m.mapDevices fun s => (s, [])

theorem masterClear_eq (bus : Peripherals ι σ) (m : Machine ι σ) :
    m.masterClear bus =
      { m with
        core := ⟨.reset m.variant.layout.reset, m.core.memory, false⟩
        phase := .fetch
        fault := none
        devices := PortMap.clearOnce bus m.inputs m.outputs m.devices
        console := m.console.map fun c => c.receive (Event.reset m.variant).message } := by
  rw [masterClear, reset, report_eq]
  rfl

/-- **Every device is cleared once.** Let the port maps be what edits lead to, in whatever order
their lists have the devices. A device that is in one of the maps or in both, at however many ports,
is cleared once, and no other device is. A master clear does this and resets the processor; memory,
the port maps and the policy stay as they are. -/
theorem masterClear_once (bus : Peripherals ι σ) (m : Machine ι σ)
    (arise : PortMap.Arise bus.info m.inputs m.outputs) :
    ∃ cleared : List ι,
      (∀ d, cleared.count d = if m.inputs.has d || m.outputs.has d then 1 else 0) ∧
      PortMap.clearOnce bus.tallied m.inputs m.outputs (m.devices, []) =
        (bus.clearEach cleared m.devices, cleared) ∧
      (m.tallying.masterClear bus.tallied).devices = (bus.clearEach cleared m.devices, cleared) ∧
      (m.masterClear bus).devices = bus.clearEach cleared m.devices ∧
      (m.masterClear bus).core = ⟨.reset m.variant.layout.reset, m.core.memory, false⟩ ∧
      (m.masterClear bus).phase = .fetch ∧
      (m.masterClear bus).fault = none ∧
      (m.masterClear bus).inputs = m.inputs ∧
      (m.masterClear bus).outputs = m.outputs ∧
      (m.masterClear bus).policy = m.policy := by
  have tally := PortMap.clearOnce_tallied bus m.inputs m.outputs m.devices
  rw [PortMap.clearOnce_eq bus] at tally
  refine ⟨m.inputs.clearings m.outputs, arise.count_clearings, tally, ?_, ?_, ?_⟩
  · rw [masterClear_eq]
    exact tally
  · rw [masterClear_eq]
    exact PortMap.clearOnce_eq bus ..
  · rw [masterClear_eq]
    exact ⟨rfl, rfl, rfl, rfl, rfl, rfl⟩

end Machine

/-- Three devices that count how often they are cleared, of which one works in both directions, one
is only read from and one is only written to. -/
def Peripherals.rack : Peripherals (Fin 3) (Fin 3 → Nat) where
  info
    | 0 => ⟨.ascii "BOTH", .ascii "BOTH", .ascii "both", true, true, 0x10, 4⟩
    | 1 => ⟨.ascii "IN", .ascii "IN", .ascii "input", true, false, 0x20, 1⟩
    | 2 => ⟨.ascii "OUT", .ascii "OUT", .ascii "output", false, true, 0x20, 1⟩
  read _ _ s := ⟨s, none, .ok 0⟩
  write _ _ _ s := ⟨s, none, .ok ()⟩
  clear d s e := if e = d then s e + 1 else s e

theorem Peripherals.clearEach_rack (ds : List (Fin 3)) (s : Fin 3 → Nat) (d : Fin 3) :
    rack.clearEach ds s d = s d + ds.count d := by
  induction ds generalizing s with
  | nil => rfl
  | cons e rest ih =>
    show rack.clearEach rest (rack.clear e s) d = _
    rw [ih, List.count_cons]
    by_cases same : d = e
    · simp only [rack, same, if_true, beq_self_eq_true]
      omega
    · simp only [rack, same, if_false, beq_iff_eq, Ne.symm same, Nat.add_zero]

namespace Machine

/-- A new machine to which the three devices have been attached, and from which the last one has
been taken off again. -/
def stocked : Machine (Fin 3) (Fin 3 → Nat) :=
  [.install 0, .install 1, .install 2, .remove 2].foldl (fun m x => (m.act .rack x).1)
    (start .z80 (fun _ => 0) none)

/-- The same, with two more ports for the first device among those that are read from. -/
def extended : Machine (Fin 3) (Fin 3 → Nat) :=
  { stocked with inputs := (stocked.inputs.edit Peripherals.rack.info (.install 0 0x80 2)).2 }

/-- The device with ports in both directions is cleared once, and so is the one with a single port.
The device that has been taken off is not cleared. -/
theorem masterClear_once_extended :
    PortMap.Arise Peripherals.rack.info extended.inputs extended.outputs ∧
      extended.inputs.owner 0x81 = some 0 ∧ extended.outputs.owner 0x13 = some 0 ∧
      (extended.masterClear .rack).devices = (fun d => if d = 2 then 0 else 1) ∧
      ∀ d, (extended.tallying.masterClear Peripherals.rack.tallied).devices.2.count d =
        if d = 2 then 0 else 1 := by
  have dialogue : (start .z80 (fun _ => 0) none).Dialogue .rack _ stocked :=
    .perform (.perform (.perform (.perform .start (.act (.install 0))) (.act (.install 1)))
      (.act (.install 2))) (.act (.remove 2))
  have arise : PortMap.Arise Peripherals.rack.info extended.inputs extended.outputs := by
    dsimp only [extended]
    exact (arise_of_dialogue dialogue).editInputs (.install 0 0x80 2)
  have present : ∀ d, (extended.inputs.has d || extended.outputs.has d) = !decide (d = 2) := by
    decide +kernel
  obtain ⟨cleared, once, -, tally, devices, -⟩ := masterClear_once .rack extended arise
  have counts : ∀ d, cleared.count d = if d = 2 then 0 else 1 := by
    intro d
    rw [once, present]
    by_cases gone : d = 2 <;> simp [gone]
  have unused : ∀ d, extended.devices d = 0 := by decide +kernel
  refine ⟨arise, by decide +kernel, by decide +kernel, funext fun d => ?_, fun d => ?_⟩
  · rw [devices, Peripherals.clearEach_rack, unused, Nat.zero_add]
    exact counts d
  · rw [tally]
    exact counts d

end Machine

end Micro80
