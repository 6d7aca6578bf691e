import Micro80.Proofs.Device.Wiring
import Micro80.Proofs.Machine.Dialogue

/-!
# Devices in the course of a dialogue

What has happened in a dialogue tells which devices are present: those that have been installed with
success and have not been removed since. At any time the port maps of a machine are wired for the
devices that are present. Runs and all other commands leave them alone.

This is about machines that have been new at the beginning of the dialogue, and about devices with a
range of ports that is not empty and ends with the last port at most.

## Main definitions

* `Present`: the devices that are present after some commands and their answers.

## Main statements

* `Machine.areWired_of_dialogue`: the port maps are wired for the devices that are present.
* `Machine.ports_of_devices`: what this means, and what removing a device comes to.
-/

namespace Micro80

variable {ι σ : Type}

/-- **Presence.** Whether a device has been installed with success and not been removed since, in a
dialogue with the newest command first. -/
def Present (e : ι) : List (Command ι σ × Answer) → Prop
  | [] => False
  | (.act (.install d), .possible true) :: l => e = d ∨ Present e l
  | (.act (.remove d), _) :: l => e ≠ d ∧ Present e l
  | (.act .removeAll, _) :: _ => False
  | _ :: l => Present e l

/-- Other actions do not make a device present or absent. -/
theorem present_of_not_wires {x : Action ι σ} (plain : x.wires = false) (e : ι) (a : Answer)
    (l : List (Command ι σ × Answer)) : Present e ((.act x, a) :: l) = Present e l := by
  cases x with
  | install | remove | removeAll => cases plain
  | _ => rfl

namespace Machine

/-! ### Port maps -/

section

variable {bus : Peripherals ι σ} {m : Machine ι σ}

/-- **Runs** leave the devices at their ports. -/
theorem ports_of_runEnds {limit : Nat} {r : Machine ι σ × Cause} (ends : m.RunEnds bus limit r) :
    r.1.inputs = m.inputs ∧ r.1.outputs = m.outputs := by
  have keeps : ∀ x : Machine ι σ, x.inputs = m.inputs ∧ x.outputs = m.outputs →
      (x.advance bus).machine.inputs = m.inputs ∧ (x.advance bus).machine.outputs = m.outputs := by
    intro x same
    obtain ⟨inputs, outputs⟩ := (x.advances bus).ports_eq
    exact ⟨inputs.trans same.1, outputs.trans same.2⟩
  exact keeps_runEnds (P := fun x => x.inputs = m.inputs ∧ x.outputs = m.outputs)
    (fun first _ => keeps_turn keeps first) ⟨rfl, rfl⟩ ends

variable [DecidableEq ι]

/-- Installing changes the port maps as far as they allow it. -/
theorem ports_install (bus : Peripherals ι σ) (m : Machine ι σ) (d : ι) :
    ((m.install bus d).1, (m.install bus d).2.inputs, (m.install bus d).2.outputs) =
      PortMap.installBoth bus.info d m.inputs m.outputs := by
  unfold install
  obtain ⟨possible, inputs, outputs⟩ := PortMap.installBoth bus.info d m.inputs m.outputs
  cases possible with
  | true | false =>
    dsimp only
    rw [report_eq]

/-- Removing changes each of the port maps. -/
theorem ports_remove (bus : Peripherals ι σ) (m : Machine ι σ) (d : ι) :
    m.remove bus d =
      ((m.inputs.remove? d).isSome || (m.outputs.remove? d).isSome,
        { m.report (.removing (bus.info d)) with
          inputs := (m.inputs.remove? d).getD m.inputs
          outputs := (m.outputs.remove? d).getD m.outputs }) := by
  unfold remove
  simp only [report_eq]

/-- In a wired map the devices are those that have ports, each of them has its own ports, and none
is listed twice. -/
theorem ports_of_isWired {S : ι → Prop} {map : PortMap ι} (fits : ∀ d, (bus.info d).Fits)
    (wired : map.IsWired bus.info S) :
    (∀ d, map.has d = true ↔ S d) ∧
      (∀ p d, map.owner p = some d ↔ map.has d = true ∧ (bus.info d).Owns p) ∧
      (∀ d, d ∈ map.devices ↔ ∃ p, map.owner p = some d) ∧ map.devices.Nodup := by
  refine ⟨wired.has_iff, fun p d => ?_, fun d => wired.mem_iff_exists_owner (fits d), wired.nodup⟩
  rw [wired.owner_iff, wired.has_iff]

end

/-! ### Dialogues -/

variable [DecidableEq ι] {bus : Peripherals ι σ} (fits : ∀ d, (bus.info d).Fits)

include fits

/-- One more command leaves the port maps wired for the devices that are then present. -/
theorem Performs.areWired {l : List (Command ι σ × Answer)} {x y : Machine ι σ} {c : Command ι σ}
    {a : Answer} (wired : PortMap.AreWired bus.info (Present · l) x.inputs x.outputs)
    (performs : x.Performs bus c a y) :
    PortMap.AreWired bus.info (Present · ((c, a) :: l)) y.inputs y.outputs := by
  cases performs with
  | run ends =>
    obtain ⟨inputs, outputs⟩ := ports_of_runEnds ends
    rw [inputs, outputs]
    exact wired
  | act action =>
    cases kind : action.wires with
    | false =>
      have spared := spares_act bus x action
      simp only [present_of_not_wires kind, spared.inputs kind, spared.outputs kind]
      exact wired
    | true =>
      cases action with
      | install d =>
        dsimp only [Machine.act]
        obtain ⟨possible, wired', -⟩ | ⟨impossible, inputs, outputs⟩ :=
          wired.installBoth (fits d) (ports_install bus x d).symm
        · rw [possible]
          exact wired'
        · rw [impossible, inputs, outputs]
          exact wired
      | remove d =>
        dsimp only [Machine.act]
        rw [ports_remove]
        exact wired.remove (fits d)
      | removeAll => exact PortMap.areWired_empty bus.info
      | _ => cases kind

/-- **The port maps are wired** for the devices that are present. -/
theorem areWired_of_dialogue {v : Variant} {s : σ} {console : Option Console}
    {l : List (Command ι σ × Answer)} {x : Machine ι σ}
    (dialogue : (start v s console : Machine ι σ).Dialogue bus l x) :
    PortMap.AreWired bus.info (Present · l) x.inputs x.outputs := by
  induction dialogue with
  | start =>
    unfold Machine.start reset
    rw [report_eq]
    exact PortMap.areWired_empty bus.info
  | perform _ performs ih => exact performs.areWired fits ih

/-- **Devices and their ports.** Let all devices fit. At any time in a dialogue that has begun with
a new machine, a device is in the map of a direction if and only if it is present and works in this
direction. Then it has all of its own ports there and no others, so that a port never has two
devices, and the list of devices has each device once that has a port. A device that works in both
directions is in both maps or in neither. Removing a device is possible if and only if it is in one
of them. If a device is in none of them, trying to install it and then removing it leaves both maps
as they were, whether or not it could be installed. -/
theorem ports_of_devices {v : Variant} {s : σ} {console : Option Console}
    {l : List (Command ι σ × Answer)} {x : Machine ι σ}
    (dialogue : (start v s console : Machine ι σ).Dialogue bus l x) :
    (∀ direction map,
        (direction, map) ∈ [(DeviceInfo.input, x.inputs), (DeviceInfo.output, x.outputs)] →
        (∀ d, map.has d = true ↔ Present d l ∧ direction (bus.info d) = true) ∧
        (∀ p d, map.owner p = some d ↔ map.has d = true ∧ (bus.info d).Owns p) ∧
        (∀ d, d ∈ map.devices ↔ ∃ p, map.owner p = some d) ∧ map.devices.Nodup) ∧
      (∀ d, (bus.info d).input = true → (bus.info d).output = true →
        x.inputs.has d = x.outputs.has d) ∧
      (∀ d, (x.remove bus d).1 = (x.inputs.has d || x.outputs.has d)) ∧
      ∀ d, x.inputs.has d = false → x.outputs.has d = false →
        ((x.install bus d).2.remove bus d).2.inputs = x.inputs ∧
        ((x.install bus d).2.remove bus d).2.outputs = x.outputs := by
  have wired := areWired_of_dialogue fits dialogue
  refine ⟨?_, fun d input output => ?_, fun d => ?_, fun d noInput noOutput => ?_⟩
  · intro direction map h
    simp only [List.mem_cons, Prod.mk.injEq, List.not_mem_nil, or_false] at h
    obtain ⟨rfl, rfl⟩ | ⟨rfl, rfl⟩ := h
    · exact ports_of_isWired fits wired.inputs
    · exact ports_of_isWired fits wired.outputs
  · rw [Bool.eq_iff_iff, wired.inputs.has_iff, wired.outputs.has_iff]
    simp only [input, output]
  · rw [ports_remove, wired.inputs.remove?_eq (fits d), wired.outputs.remove?_eq (fits d)]
    cases x.inputs.has d <;> cases x.outputs.has d <;> rfl
  · rw [ports_remove]
    obtain ⟨-, -, inputs, outputs⟩ | ⟨-, inputs, outputs⟩ :=
      wired.installBoth (fits d) (ports_install bus x d).symm
    · exact ⟨inputs, outputs⟩
    · -- Nothing has been installed, and there is nothing to remove.
      dsimp only
      rw [inputs, outputs, wired.inputs.remove?_eq (fits d), wired.outputs.remove?_eq (fits d),
        noInput, noOutput]
      exact ⟨rfl, rfl⟩

end Machine

/-- Two devices at ports that overlap, one that works in both directions and one that is only read
from. -/
def Peripherals.neighbours : Peripherals Bool Unit where
  info
    | false => ⟨.ascii "WIDE", .ascii "WIDE", .ascii "wide", true, true, 0xF0, 16⟩
    | true => ⟨.ascii "THIN", .ascii "THIN", .ascii "thin", true, false, 0xFF, 1⟩
  read _ _ s := ⟨s, none, .ok 0⟩
  write _ _ _ s := ⟨s, none, .ok ()⟩
  clear _ s := s

/-- A new machine to which the wide device has been attached and the thin one in vain. -/
def Machine.crowded : Machine Bool Unit :=
  (((Machine.start .z80 () none).install .neighbours false).2.install .neighbours true).2

/-- How this has come. -/
def Machine.crowding : List (Command Bool Unit × Answer) :=
  [(.act (.install true), .possible false), (.act (.install false), .possible true)]

/-- The wide device is at the last port in both directions, and the thin one cannot be removed. -/
theorem Machine.ports_of_devices_crowded :
    (∀ d, (Peripherals.neighbours.info d).Fits) ∧
      (start .z80 () none).Dialogue .neighbours crowding crowded ∧
      crowded.inputs.owner 0xFF = some false ∧ crowded.outputs.owner 0xFF = some false ∧
      (crowded.remove .neighbours true).1 = false := by
  have fits : ∀ d, (Peripherals.neighbours.info d).Fits := by
    intro d
    cases d <;> exact ⟨by decide, by decide⟩
  have wide : ((start .z80 () none).install .neighbours false).1 = true := by decide +kernel
  have thin : (((start .z80 () none).install .neighbours false).2.install .neighbours true).1 =
      false := by
    decide +kernel
  have dialogue : (start .z80 () none).Dialogue .neighbours crowding crowded := by
    refine .perform (.perform .start ?_) (performs_act_iff.2 (by rw [act, thin]; rfl))
    exact performs_act_iff.2 (by rw [act, wide])
  obtain ⟨maps, -, removes, -⟩ := ports_of_devices fits dialogue
  obtain ⟨inputs, inputPorts, -⟩ := maps _ _ List.mem_cons_self
  obtain ⟨outputs, outputPorts, -⟩ := maps _ _ (List.mem_cons_of_mem _ List.mem_cons_self)
  have present : Present false crowding := .inl rfl
  have last : (Peripherals.neighbours.info false).Owns 0xFF := ⟨by decide, by decide⟩
  refine ⟨fits, dialogue, ?_, ?_, ?_⟩
  · exact (inputPorts _ _).2 ⟨(inputs false).2 ⟨present, rfl⟩, last⟩
  · exact (outputPorts _ _).2 ⟨(outputs false).2 ⟨present, rfl⟩, last⟩
  · rw [removes]
    decide +kernel

end Micro80
