import Micro80.Machine

/-!
# The ports of a machine

Reading and writing ports as instructions do, and attaching devices to a machine and taking them
off. A port without a device reads as high lines, and the policy says whether that is a reason to
stop.

## Main definitions

* `Machine.readPort`, `Machine.writePort`.
* `Machine.install`, `Machine.remove`, `Machine.removeAll`, `Machine.findDevice?`.
* `Machine.clearDevices`, `Machine.masterClear`.
-/

namespace Micro80

namespace Machine

variable {ι σ : Type}

/-! ### Accesses -/

/-- The outcome of an access to a device as the outcome for the machine. -/
def lift {α : Type} (m : Machine ι σ) (a : Access σ α) : Access (Machine ι σ) α :=
  ⟨{ m with devices := a.state }, a.stop, a.result⟩

/-- **Reading a port.** -/
def readPort (bus : Peripherals ι σ) (m : Machine ι σ) (p : UInt8) :
    Access (Machine ι σ) UInt8 :=
  match m.inputs.owner p with
  | none => ⟨m.report (.unmappedInput p), m.policy.unmappedPort, .ok floating⟩
  | some d => m.lift (bus.read d p m.devices)

/-- **Writing to a port.** -/
def writePort (bus : Peripherals ι σ) (m : Machine ι σ) (p b : UInt8) :
    Access (Machine ι σ) Unit :=
  match m.outputs.owner p with
  | none => ⟨m.report (.unmappedOutput b p), m.policy.unmappedPort, .ok ()⟩
  | some d => m.lift (bus.write d p b m.devices)

/-! ### Devices -/

/-- The device with a given name, looked for among those that are read from first. -/
def findDevice? (bus : Peripherals ι σ) (m : Machine ι σ) (name : Text) : Option ι :=
  (m.inputs.findName? bus.info name).or (m.outputs.findName? bus.info name)

variable [DecidableEq ι]

/-- **Installing a device** at its own ports in its own directions, and whether that was
possible. -/
def install (bus : Peripherals ι σ) (m : Machine ι σ) (d : ι) : Bool × Machine ι σ :=
  match PortMap.installBoth bus.info d m.inputs m.outputs with
  | (true, inputs, outputs) =>
    (true, { m with inputs := inputs, outputs := outputs }.report (.attached (bus.info d)))
  | (false, inputs, outputs) =>
    (false, { m with inputs := inputs, outputs := outputs }.report (.conflict (bus.info d)))

/-- **Removing a device** from both directions, and whether it was in one of them. -/
def remove (bus : Peripherals ι σ) (m : Machine ι σ) (d : ι) : Bool × Machine ι σ :=
  let m := m.report (.removing (bus.info d))
  let inputs := m.inputs.remove? d
  let outputs := m.outputs.remove? d
  (inputs.isSome || outputs.isSome,
    { m with inputs := inputs.getD m.inputs, outputs := outputs.getD m.outputs })

omit [DecidableEq ι] in
/-- Removes all devices. -/
def removeAll (m : Machine ι σ) : Machine ι σ := { m with inputs := .empty, outputs := .empty }

/-- Clears every device once. -/
def clearDevices (bus : Peripherals ι σ) (m : Machine ι σ) : Machine ι σ :=
  { m with devices := PortMap.clearOnce bus m.inputs m.outputs m.devices }

/-- **Master clear.** Clears the devices and then resets the machine. -/
def masterClear (bus : Peripherals ι σ) (m : Machine ι σ) : Machine ι σ :=
  (m.clearDevices bus).reset

end Machine

end Micro80
