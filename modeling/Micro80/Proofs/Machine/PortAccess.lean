import Micro80.Proofs.Instruction.PortForm
import Micro80.Proofs.Machine.Composition
import Micro80.Proofs.Machine.Journal
import Micro80.Proofs.Machine.Step

/-!
# Accesses to ports

A turn accesses a device only if it deals with an instruction for a port, and if the port that the
instruction selects has a device in the map of its direction. Then there is one access, to this
device and at this port. So the journal of a run can be told from the machines in front of its
instructions, whatever the policy is and whether or not a console listens.

A byte that has been read goes into the register of the instruction. A port without a device reads
as high lines and takes what is written to it without effect, and the instruction is complete. The
policy says whether the run ends then.

## Main definitions

* `PortInstruction.owner?`, `PortInstruction.access`: the device that an instruction accesses, and
  the access.
* `Machine.access?`: the access of a turn, if there is one.
* `Machine.Receives`, `Machine.Sends`: what instructions for ports come to.

## Main statements

* `Machine.journal_advance`, `Machine.journal_take`: the journal of a turn and of several
  ones.
* `Machine.receives`, `Machine.sends`: the two directions.
* `Machine.ports_are_routed`: all of this together.
-/

namespace Micro80

variable {ι σ : Type}

/-! ### The access of a turn -/

namespace PortInstruction

/-- The device at the port that is selected, in the map of the direction. -/
def owner? (m : Machine ι σ) : PortInstruction → Option ι
  | input _ s => m.inputs.owner (s.number m.core)
  | output _ s => m.outputs.owner (s.number m.core)

/-- The access to a device, at the port that is selected. A byte that goes out is that of the
register. -/
def access (bus : Peripherals ι σ) (m : Machine ι σ) (d : ι) : PortInstruction → DeviceAccess ι
  | input _ s => .read d (s.number m.core) (bus.read d (s.number m.core) m.devices).result
  | output r s =>
    .write d (s.number m.core) (m.core.registers.get8 r)
      (bus.write d (s.number m.core) (m.core.registers.get8 r) m.devices).result

end PortInstruction

namespace Machine

/-- **The access of a turn.** There is one if the machine is in front of an instruction for a port
and the port has a device. -/
def access? (bus : Peripherals ι σ) (m : Machine ι σ) : Option (DeviceAccess ι) :=
  match Instruction.decode m.variant m.core.memory m.pc with
  | .error _ => none
  | .ok i => i.port?.bind fun x => (x.owner? m).map fun d => x.access bus m d

section

variable {bus : Peripherals ι σ} {m : Machine ι σ} {i : Instruction} {r : Reg8} {s : PortSource}
  (decoded : Instruction.decode m.variant m.core.memory m.pc = .ok i)

include decoded

theorem access?_of_ok :
    m.access? bus = i.port?.bind fun x => (x.owner? m).map fun d => x.access bus m d := by
  unfold access?
  rw [decoded]

variable (bus) in
theorem exists_advance_eq_of_input (port : i.port? = some (.input r s)) :
    ∃ console, m.advance bus =
      match (m.received bus (s.number m.core)).result with
      | .ok b => .stopIf (m.received bus (s.number m.core)).stop
          (m.after .fetch console (m.received bus (s.number m.core)).state
            (s.take m.variant.layout r (m.core.jump i.next) b))
      | .error f => .ended
          (m.after .fetch console (m.received bus (s.number m.core)).state m.core)
          (.failure f) := by
  obtain ⟨e, console, effect, advanced⟩ := exists_advance_eq_of_ok bus decoded
  rw [Instruction.effect?_of_input decoded _ port] at effect
  cases effect
  refine ⟨console, advanced.trans ?_⟩
  unfold outcome Access.use
  dsimp only
  cases (m.received bus (s.number m.core)).result <;> rfl

variable (bus) in
theorem exists_advance_eq_of_output (port : i.port? = some (.output r s)) :
    ∃ console, m.advance bus =
      match (m.sent bus (s.number m.core) (m.core.registers.get8 r)).result with
      | .ok () => .stopIf (m.sent bus (s.number m.core) (m.core.registers.get8 r)).stop
          (m.after .fetch console (m.sent bus (s.number m.core) (m.core.registers.get8 r)).state
            (m.core.jump i.next))
      | .error f => .ended
          (m.after .fetch console (m.sent bus (s.number m.core) (m.core.registers.get8 r)).state
            m.core) (.failure f) := by
  obtain ⟨e, console, effect, advanced⟩ := exists_advance_eq_of_ok bus decoded
  rw [Instruction.effect?_of_output decoded _ port] at effect
  cases effect
  refine ⟨console, advanced.trans ?_⟩
  unfold outcome Access.use
  dsimp only
  cases (m.sent bus (s.number m.core) (m.core.registers.get8 r)).result <;> rfl

/-- **Other instructions** leave the devices as they are. -/
theorem devices_advance_of_no_port (port : i.port? = none) :
    (m.advance bus).machine.devices = m.devices := by
  obtain ⟨e, console, effect, advanced⟩ := exists_advance_eq_of_ok bus decoded
  rw [advanced]
  obtain ⟨c, rfl⟩ | rfl := Instruction.effect?_of_no_port decoded _ port effect
  · rfl
  · rfl

theorem devices_advance_of_input (port : i.port? = some (.input r s)) :
    (m.advance bus).machine.devices = (m.received bus (s.number m.core)).state := by
  obtain ⟨console, advanced⟩ := exists_advance_eq_of_input bus decoded port
  rw [advanced]
  cases (m.received bus (s.number m.core)).result with
  | ok b =>
    rw [Progress.machine_stopIf]
    rfl
  | error f => rfl

theorem devices_advance_of_output (port : i.port? = some (.output r s)) :
    (m.advance bus).machine.devices =
      (m.sent bus (s.number m.core) (m.core.registers.get8 r)).state := by
  obtain ⟨console, advanced⟩ := exists_advance_eq_of_output bus decoded port
  rw [advanced]
  cases (m.sent bus (s.number m.core) (m.core.registers.get8 r)).result with
  | ok b =>
    rw [Progress.machine_stopIf]
    rfl
  | error f => rfl

end

/-- Without an instruction the devices are left as they are. -/
theorem devices_advance_of_error {bus : Peripherals ι σ} {m : Machine ι σ} {e : DecodeError}
    (undecodable : Instruction.decode m.variant m.core.memory m.pc = .error e) :
    (m.advance bus).machine.devices = m.devices := by
  obtain ⟨console, advanced⟩ := exists_advance_eq_of_error bus undecodable
  rw [advanced]
  cases m.policy.illegalOpcode <;> rfl

/-! ### Journals -/

section

variable (bus : Peripherals ι σ) (m : Machine ι (σ × List (DeviceAccess ι)))

theorem journal_received (p : UInt8) : (m.received bus.journaled p).state.2 =
    m.devices.2 ++
      ((m.inputs.owner p).map fun d => .read d p (bus.read d p m.devices.1).result).toList := by
  unfold received
  cases m.inputs.owner p with
  | none => exact (List.append_nil _).symm
  | some d => rfl

theorem journal_sent (p b : UInt8) : (m.sent bus.journaled p b).state.2 =
    m.devices.2 ++ ((m.outputs.owner p).map fun d =>
      .write d p b (bus.write d p b m.devices.1).result).toList := by
  unfold sent
  cases m.outputs.owner p with
  | none => exact (List.append_nil _).symm
  | some d => rfl

/-- **The journal of advancing** gets the access of the turn, if there is one. -/
theorem journal_advance : (m.advance bus.journaled).machine.devices.2 =
    m.devices.2 ++ ((m.mapDevices Prod.fst).access? bus).toList := by
  unfold access?
  rw [variant_mapDevices, core_mapDevices, pc_mapDevices]
  cases decoded : Instruction.decode m.variant m.core.memory m.pc with
  | error e =>
    rw [devices_advance_of_error decoded]
    exact (List.append_nil _).symm
  | ok i =>
    dsimp only
    cases port : i.port? with
    | none =>
      rw [devices_advance_of_no_port decoded port]
      exact (List.append_nil _).symm
    | some x =>
      cases x with
      | input r s =>
        rw [devices_advance_of_input decoded port]
        exact m.journal_received bus _
      | output r s =>
        rw [devices_advance_of_output decoded port]
        exact m.journal_sent bus _ _

theorem journal_turn (first : Bool) : (m.turn bus.journaled first).machine.devices.2 =
    m.devices.2 ++
      if m.proceeds first then ((m.mapDevices Prod.fst).access? bus).toList else [] := by
  cases proceeds : m.proceeds first with
  | false =>
    rw [turn_of_not_proceeds proceeds, if_neg Bool.false_ne_true]
    exact (List.append_nil _).symm
  | true =>
    rw [turn_of_proceeds proceeds, if_pos rfl]
    exact journal_advance bus m

/-- **The journal of a run** gets the accesses of its turns, in their order. -/
theorem journal_take (turns : Nat) (first : Bool) :
    (m.take bus.journaled turns first).machine.devices.2 =
      m.devices.2 ++
        ((m.mapDevices Prod.fst).visited bus turns first).filterMap (access? bus) := by
  induction turns generalizing first m with
  | zero => exact (List.append_nil _).symm
  | succ turns ih =>
    have now := journal_turn bus m first
    rw [take_succ, visited, turn_mapDevices m bus.refines_journaled, proceeds_mapDevices]
    cases proceeds : m.proceeds first with
    | false =>
      rw [turn_of_not_proceeds proceeds]
      exact (List.append_nil _).symm
    | true =>
      rw [if_pos proceeds] at now
      rw [if_pos rfl, List.filterMap_cons]
      cases turned : m.turn bus.journaled first with
      | ended x cause =>
        rw [turned] at now
        refine now.trans ?_
        cases (m.mapDevices Prod.fst).access? bus <;> rfl
      | running x =>
        rw [turned] at now
        refine (ih x false).trans ?_
        rw [show x.devices.2 = _ from now, List.append_assoc]
        cases (m.mapDevices Prod.fst).access? bus <;> rfl

end

/-! ### What instructions for ports come to -/

/-- **Receiving.** What a turn comes to that deals with an instruction for input. -/
structure Receives (bus : Peripherals ι σ) (m : Machine ι σ) (i : Instruction) (r : Reg8)
    (s : PortSource) (p : Progress ι σ) : Prop where
  /-- Without a device the lines are high. -/
  unmapped : m.inputs.owner (s.number m.core) = none →
    ∃ console, p = .stopIf m.policy.unmappedPort
      (m.after .fetch console m.devices (s.take m.variant.layout r (m.core.jump i.next) 0xFF))
  answered : ∀ d b, m.inputs.owner (s.number m.core) = some d →
    (bus.read d (s.number m.core) m.devices).result = .ok b →
    ∃ console, p = .stopIf (bus.read d (s.number m.core) m.devices).stop
      (m.after .fetch console (bus.read d (s.number m.core) m.devices).state
        (s.take m.variant.layout r (m.core.jump i.next) b))
  failed : ∀ d f, m.inputs.owner (s.number m.core) = some d →
    (bus.read d (s.number m.core) m.devices).result = .error f →
    ∃ console, p = .ended
      (m.after .fetch console (bus.read d (s.number m.core) m.devices).state m.core) (.failure f)
  /-- The byte is in the register. -/
  register_eq : ∀ b,
    (s.take m.variant.layout r (m.core.jump i.next) b).registers.get8 r = b
  flags_eq : s = .immediate → ∀ b,
    (s.take m.variant.layout r (m.core.jump i.next) b).flags = m.core.flags
  pc_eq : ∀ b, (s.take m.variant.layout r (m.core.jump i.next) b).registers.pc = i.next

/-- **Sending.** What a turn comes to that deals with an instruction for output. -/
structure Sends (bus : Peripherals ι σ) (m : Machine ι σ) (i : Instruction) (r : Reg8)
    (s : PortSource) (p : Progress ι σ) : Prop where
  unmapped : m.outputs.owner (s.number m.core) = none →
    ∃ console, p = .stopIf m.policy.unmappedPort
      (m.after .fetch console m.devices (m.core.jump i.next))
  answered : ∀ d, m.outputs.owner (s.number m.core) = some d →
    (bus.write d (s.number m.core) (m.core.registers.get8 r) m.devices).result = .ok () →
    ∃ console, p =
      .stopIf (bus.write d (s.number m.core) (m.core.registers.get8 r) m.devices).stop
        (m.after .fetch console
          (bus.write d (s.number m.core) (m.core.registers.get8 r) m.devices).state
          (m.core.jump i.next))
  failed : ∀ d f, m.outputs.owner (s.number m.core) = some d →
    (bus.write d (s.number m.core) (m.core.registers.get8 r) m.devices).result = .error f →
    ∃ console, p = .ended
      (m.after .fetch console
        (bus.write d (s.number m.core) (m.core.registers.get8 r) m.devices).state m.core)
      (.failure f)

section

variable (bus : Peripherals ι σ) {m : Machine ι σ} {i : Instruction} {r : Reg8} {s : PortSource}
  (decoded : Instruction.decode m.variant m.core.memory m.pc = .ok i)

include decoded

/-- **Input** does what it is for. -/
theorem receives (port : i.port? = some (.input r s)) : m.Receives bus i r s (m.advance bus) := by
  obtain ⟨console, advanced⟩ := exists_advance_eq_of_input bus decoded port
  have noFlags := Instruction.ne_flags_of_input decoded port
  rw [advanced]
  unfold received
  refine ⟨fun vacant => ⟨console, ?_⟩, fun d b owned answered => ⟨console, ?_⟩,
    fun d f owned failed => ⟨console, ?_⟩, fun b => s.get8_take _ _ b noFlags, ?_, fun b => ?_⟩
  · rw [vacant]
    rfl
  · rw [owned]
    dsimp only
    rw [answered]
  · rw [owned]
    dsimp only
    rw [failed]
  · rintro rfl b
    exact PortSource.flags_take_immediate _ _ b noFlags
  · rw [s.pc_take]
    rfl

/-- **Output** does what it is for. -/
theorem sends (port : i.port? = some (.output r s)) : m.Sends bus i r s (m.advance bus) := by
  obtain ⟨console, advanced⟩ := exists_advance_eq_of_output bus decoded port
  rw [advanced]
  unfold sent
  refine ⟨fun vacant => ⟨console, ?_⟩, fun d owned answered => ⟨console, ?_⟩,
    fun d f owned failed => ⟨console, ?_⟩⟩
  · rw [vacant]
  · rw [owned]
    dsimp only
    rw [answered]
  · rw [owned]
    dsimp only
    rw [failed]

end

/-- **Without an access** the devices stay as they are. -/
theorem devices_turn_of_no_access {bus : Peripherals ι σ} {m : Machine ι σ}
    (none : m.access? bus = none) (first : Bool) :
    (m.turn bus first).machine.devices = m.devices := by
  cases proceeds : m.proceeds first with
  | false =>
    rw [turn_of_not_proceeds proceeds]
    rfl
  | true =>
    rw [turn_of_proceeds proceeds]
    cases decoded : Instruction.decode m.variant m.core.memory m.pc with
    | error e => exact devices_advance_of_error decoded
    | ok i =>
      rw [access?_of_ok decoded] at none
      cases port : i.port? with
      | none => exact devices_advance_of_no_port decoded port
      | some x =>
        rw [port, Option.bind_some, Option.map_eq_none_iff] at none
        cases x with
        | input r s =>
          have vacant : m.inputs.owner (s.number m.core) = Option.none := none
          rw [devices_advance_of_input decoded port, received, vacant]
        | output r s =>
          have vacant : m.outputs.owner (s.number m.core) = Option.none := none
          rw [devices_advance_of_output decoded port, sent, vacant]

/-- Whether a turn ends with the reason that a port without a device gives is a matter of policy. -/
theorem stopIf_unmappedPort_iff (policy : Policy) (m : Machine ι σ) :
    (Progress.stopIf policy.unmappedPort m).cause?.getD (.stop .finished) = .stop .unmappedPort ↔
      policy.stopOnUnmappedPort = true := by
  unfold Policy.unmappedPort
  cases policy.stopOnUnmappedPort <;> simp [Progress.stopIf]

/-- **Ports are routed.** A turn that proceeds accesses at most one device, once: the one at the
port that an instruction for input or output selects, in the map of its direction. A turn that does
not proceed accesses none. So the journal of a run, with or without a limit, has the accesses of the
instructions that it deals with. If there is no access the devices stay as they are. A byte that has
been read goes into the register of the instruction, and the flags stay unless register C has
selected the port; output changes nothing but the program counter. A port without a device reads as
high lines or ignores what is written to it, the instruction is complete, and a step ends because of
it if this is the policy. -/
theorem ports_are_routed (bus : Peripherals ι σ) (m : Machine ι σ) :
    (∀ first, (m.recording.turn bus.journaled first).machine.devices.2 =
        if m.proceeds first then (m.access? bus).toList else []) ∧
      (∀ turns, (m.recording.run bus.journaled turns).1.devices.2 =
        (m.visited bus turns true).filterMap (access? bus)) ∧
      (∀ turns x, m.recording.runFree? bus.journaled turns = some x →
        x.1.devices.2 = (m.visited bus turns true).filterMap (access? bus)) ∧
      (m.access? bus = none → ∀ first, (m.turn bus first).machine.devices = m.devices) ∧
      ∀ i, Instruction.decode m.variant m.core.memory m.pc = .ok i →
        (i.port? = none ↔ i.operation ≠ .input ∧ i.operation ≠ .output) ∧
        (∀ r s, i.port? = some (.input r s) → ∀ first, m.proceeds first = true →
          m.Receives bus i r s (m.turn bus first)) ∧
        (∀ r s, i.port? = some (.output r s) → ∀ first, m.proceeds first = true →
          m.Sends bus i r s (m.turn bus first)) ∧
        ∀ x, i.port? = some x → x.owner? m = none → m.isHalted = false →
          ((m.step bus).2 = .stop .unmappedPort ↔ m.policy.stopOnUnmappedPort = true) := by
  have journal (turns : Nat) : (m.recording.run bus.journaled turns).1.devices.2 =
      (m.visited bus turns true).filterMap (access? bus) := by
    rw [run_eq]
    exact journal_take bus m.recording turns true
  refine ⟨journal_turn bus m.recording, journal, fun turns x ended => ?_,
    devices_turn_of_no_access, fun i decoded => ⟨Instruction.port?_eq_none_iff decoded, ?_, ?_, ?_⟩⟩
  · rw [← run_of_runFree? ended]
    exact journal turns
  · intro r s port first proceeds
    rw [turn_of_proceeds proceeds]
    exact receives bus decoded port
  · intro r s port first proceeds
    rw [turn_of_proceeds proceeds]
    exact sends bus decoded port
  · intro x port vacant awake
    rw [step_of_awake bus awake]
    cases x with
    | input r s =>
      obtain ⟨console, advanced⟩ := (receives bus decoded port).unmapped vacant
      rw [advanced]
      exact stopIf_unmappedPort_iff m.policy _
    | output r s =>
      obtain ⟨console, advanced⟩ := (sends bus decoded port).unmapped vacant
      rw [advanced]
      exact stopIf_unmappedPort_iff m.policy _

end Machine

/-- Two devices at the same port, of which one is only read from and the other is only written to.
What is read is one more than what has been written. -/
def Peripherals.echo : Peripherals Bool UInt8 where
  info
    | false => ⟨.ascii "IN", .ascii "IN", .ascii "input", true, false, 0x10, 1⟩
    | true => ⟨.ascii "OUT", .ascii "OUT", .ascii "output", false, true, 0x10, 1⟩
  read _ _ s := ⟨s, none, .ok (s + 1)⟩
  write _ _ b _ := ⟨b, none, .ok ()⟩
  clear _ _ := 0

/-- The direction and the port of an access, and the byte that is written. -/
def DeviceAccess.target : DeviceAccess ι → ι × UInt8 × Option UInt8
  | read d p _ => (d, p, none)
  | write d p b _ => (d, p, some b)

/-- An instruction that loads BC, output of B and input to D through the port in C, and input from a
port without a device. -/
def Machine.calling : Machine Bool UInt8 :=
  ((((Machine.start .z80 0 none).install .echo false).2.install .echo true).2.load 0
    [0x01, 0x10, 0x20, 0xED, 0x41, 0xED, 0x50, 0xDB, 0x30])

/-- Each direction goes to its own device. The port without a device reads as high lines and ends no
run, as the standard policy has it. -/
theorem Machine.ports_are_routed_calling :
    (calling.recording.run Peripherals.echo.journaled 4).1.devices.2.map DeviceAccess.target =
        [(true, 0x10, some 0x20), (false, 0x10, none)] ∧
      ((calling.run .echo 3).1.step .echo).1.core.accumulator = 0xFF ∧
      ((calling.run .echo 3).1.step .echo).2 ≠ .stop .unmappedPort := by
  obtain ⟨-, journal, -⟩ := ports_are_routed .echo calling
  obtain ⟨-, -, -, -, instructions⟩ := ports_are_routed .echo (calling.run .echo 3).1
  have found : (Instruction.decode (calling.run .echo 3).1.variant
      (calling.run .echo 3).1.core.memory (calling.run .echo 3).1.pc).toOption.map
        Instruction.port? =
        some (some (.input .a .immediate)) := by
    decide +kernel
  have vacant : (calling.run .echo 3).1.inputs.owner
      (PortSource.immediate.number (calling.run .echo 3).1.core) = none := by
    decide +kernel
  obtain ⟨i, decoded, port⟩ := Instruction.exists_decode_of_map found
  obtain ⟨-, receives, -, stops⟩ := instructions i decoded
  have received := receives .a .immediate port true (by decide +kernel)
  refine ⟨?_, ?_, ?_⟩
  · rw [journal]
    decide +kernel
  · obtain ⟨console, turned⟩ := received.unmapped vacant
    rw [step_eq, turned, Progress.machine_stopIf]
    exact received.register_eq 0xFF
  · rw [Ne, stops _ port vacant (by decide +kernel)]
    decide +kernel

end Micro80
