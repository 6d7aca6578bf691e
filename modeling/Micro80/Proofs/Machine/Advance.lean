import Micro80.Proofs.Instruction.Preservation
import Micro80.Proofs.Machine.Turn

/-!
# What a turn does

A turn that advances either finds no instruction, and then it says so and perhaps passes over a
byte, or it finds one and settles its effect. What an effect comes to is a matter between the core
and the devices: there is a new core, unless a device fails, and there may be a reason to stop. All
that the turn does apart from this is to keep books, on the last instruction, on what was wrong with
it, and on what has been reported.

## Main definitions

* `Machine.received`, `Machine.sent`: what comes of an access to a port.
* `Machine.outcome`: what comes of an effect.
* `Machine.after`, `Machine.baffled`: a machine that has dealt with an instruction, or has found
  none.
* `Machine.Advances`: what advancing can come to.

## Main statements

* `Machine.exists_advance_eq_of_error`: a turn where there is no instruction.
* `Machine.exists_advance_eq_of_ok`: a turn where there is one.
* `Machine.advances`: advancing comes to one of these.
* `Machine.Advances.keeps`: closed properties of the core are kept.
-/

namespace Micro80

variable {ι σ : Type}

/-- The phase after an effect. -/
def Effect.phase : Effect → Phase
  | .halted _ => .halted
  | _ => .fetch

theorem Effect.phase_eq (e : Effect) : e.phase = .fetch ∨ e.phase = .halted := by
  cases e with
  | halted c => exact .inr rfl
  | done | input | output => exact .inl rfl

/-- Progress that ends if there is a reason to stop. -/
def Progress.stopIf (stop : Option StopReason) (m : Machine ι σ) : Progress ι σ :=
  match stop with
  | none => .running m
  | some r => .ended m (.stop r)

@[simp] theorem Progress.machine_stopIf (stop : Option StopReason) (m : Machine ι σ) :
    (stopIf stop m).machine = m := by
  cases stop <;> rfl

/-- An access with its answer put to use. -/
def Access.use {α β : Type} (a : Access σ α) (f : α → β) : Access σ β :=
  ⟨a.state, a.stop, a.result.map f⟩

theorem Access.use_result_eq_ok {α β : Type} {a : Access σ α} {f : α → β} {y : β} :
    (a.use f).result = .ok y ↔ ∃ x, a.result = .ok x ∧ f x = y := by
  obtain ⟨s, stop, result⟩ := a
  cases result with
  | ok x => simp [use, Except.map]
  | error e => simp [use, Except.map]

namespace Machine

/-! ### Ports and devices -/

/-- **Receiving a byte.** What comes of reading a port, apart from reports. -/
def received (bus : Peripherals ι σ) (m : Machine ι σ) (p : UInt8) : Access σ UInt8 :=
  match m.inputs.owner p with
  | none => ⟨m.devices, m.policy.unmappedPort, .ok floating⟩
  | some d => bus.read d p m.devices

/-- **Sending a byte.** What comes of writing to a port, apart from reports. -/
def sent (bus : Peripherals ι σ) (m : Machine ι σ) (p b : UInt8) : Access σ Unit :=
  match m.outputs.owner p with
  | none => ⟨m.devices, m.policy.unmappedPort, .ok ()⟩
  | some d => bus.write d p b m.devices

theorem exists_readPort_eq (bus : Peripherals ι σ) (m : Machine ι σ) (p : UInt8) :
    ∃ console, m.readPort bus p =
      ⟨{ m with devices := (m.received bus p).state, console := console },
        (m.received bus p).stop, (m.received bus p).result⟩ := by
  unfold readPort received
  cases m.inputs.owner p with
  | none =>
    rw [report_eq]
    exact ⟨_, rfl⟩
  | some d => exact ⟨m.console, rfl⟩

theorem exists_writePort_eq (bus : Peripherals ι σ) (m : Machine ι σ) (p b : UInt8) :
    ∃ console, m.writePort bus p b =
      ⟨{ m with devices := (m.sent bus p b).state, console := console },
        (m.sent bus p b).stop, (m.sent bus p b).result⟩ := by
  unfold writePort sent
  cases m.outputs.owner p with
  | none =>
    rw [report_eq]
    exact ⟨_, rfl⟩
  | some d => exact ⟨m.console, rfl⟩

/-! ### Outcomes -/

/-- **Outcomes.** What comes of an effect: the devices after it, a reason to stop if there is one,
and the core after it, unless a device has failed. -/
def outcome (bus : Peripherals ι σ) (m : Machine ι σ) : Effect → Access σ Core
  | .done c => ⟨m.devices, none, .ok c⟩
  | .halted c => ⟨m.devices, some .halt, .ok c⟩
  | .input c p store => (m.received bus p).use (store c)
  | .output c p b => (m.sent bus p b).use fun _ => c

/-- Closed properties hold of the core that comes of an effect. -/
theorem outcome_keeps {bus : Peripherals ι σ} {m : Machine ι σ} {P : Core → Prop} {c c' : Core}
    {e : Effect} (h : e.Keeps P c) (hc : P c) (result : (m.outcome bus e).result = .ok c') :
    P c' := by
  cases h with
  | done h =>
    cases result
    exact h
  | halted h =>
    cases result
    exact h
  | input h =>
    obtain ⟨b, -, rfl⟩ := Access.use_result_eq_ok.1 result
    exact h b
  | output =>
    obtain ⟨-, -, rfl⟩ := Access.use_result_eq_ok.1 result
    exact hc

/-- Concluding an access that only devices have had a part in. -/
theorem conclude_eq {α : Type} (m : Machine ι σ) (a : Access σ α) (console : Option Console)
    (c : Core) (address : UInt16) (store : α → Core) :
    conclude ⟨{ m with devices := a.state, console := console }, a.stop, a.result⟩ c address store =
      match (a.use store).result with
      | .ok c' =>
        .stopIf a.stop
          { m with phase := .fetch, devices := a.state, console := console, core := c' }
      | .error f =>
        .ended
          { m with phase := .fetch, devices := a.state, console := console, core := c.jump address }
          (.failure f) := by
  obtain ⟨s, stop, result⟩ := a
  cases result with
  | error f => rfl
  | ok x => cases stop <;> rfl

/-- **Settling an effect** is its outcome with the books kept. An instruction that failed is taken
back from a core on which it has not worked yet. -/
theorem exists_settle_eq (bus : Peripherals ι σ) (m : Machine ι σ) (address : UInt16) {e : Effect}
    (h : e.Keeps (fun _ => True) m.core) :
    ∃ console, m.settle bus address e =
      match (m.outcome bus e).result with
      | .ok c =>
        .stopIf (m.outcome bus e).stop
          { m with
            phase := e.phase
            devices := (m.outcome bus e).state
            console := console
            core := c }
      | .error f =>
        .ended
          { m with
            phase := .fetch
            devices := (m.outcome bus e).state
            console := console
            core := m.core.jump address } (.failure f) := by
  cases h with
  | done | halted => exact ⟨m.console, rfl⟩
  | @input p store =>
    obtain ⟨console, read⟩ := m.exists_readPort_eq bus p
    refine ⟨console, ?_⟩
    rw [settle_input, read]
    exact conclude_eq m (m.received bus p) console m.core address (store m.core)
  | @output p b =>
    obtain ⟨console, written⟩ := m.exists_writePort_eq bus p b
    refine ⟨console, ?_⟩
    rw [settle_output, written]
    exact conclude_eq m (m.sent bus p b) console m.core address fun _ => m.core

/-! ### Turns -/

/-- The machine after it has dealt with the instruction at its program counter. -/
def after (m : Machine ι σ) (phase : Phase) (console : Option Console) (devices : σ) (c : Core) :
    Machine ι σ :=
  { m with
    phase := phase
    fault := none
    lastPC := m.pc
    devices := devices
    console := console
    core := c }

/-- The machine after it has found no instruction at its program counter. -/
def baffled (m : Machine ι σ) (e : DecodeError) (console : Option Console) (c : Core) :
    Machine ι σ :=
  { m with phase := .fetch, fault := some e, console := console, core := c }

/-- **Without an instruction** a turn ends the run or passes over a byte, as the policy has it. -/
theorem exists_advance_eq_of_error (bus : Peripherals ι σ) {m : Machine ι σ} {e : DecodeError}
    (undecodable : Instruction.decode m.variant m.core.memory m.pc = .error e) :
    ∃ console, m.advance bus =
      match m.policy.illegalOpcode with
      | some r => .ended (m.baffled e console m.core) (.stop r)
      | none => .running (m.baffled e console (m.core.jump (m.pc + 1))) := by
  rw [advance_of_error undecodable, skip_eq]
  simp only [report_eq]
  exact ⟨_, rfl⟩

/-- **With an instruction** a turn comes to the outcome of its effect. If a device fails the core is
what it was before the turn. -/
theorem exists_advance_eq_of_ok (bus : Peripherals ι σ) {m : Machine ι σ} {i : Instruction}
    (decoded : Instruction.decode m.variant m.core.memory m.pc = .ok i) :
    ∃ e console, i.effect? m.variant.layout (m.core.jump i.next) = some e ∧
      m.advance bus =
        match (m.outcome bus e).result with
        | .ok c => .stopIf (m.outcome bus e).stop
            (m.after e.phase console (m.outcome bus e).state c)
        | .error f =>
          .ended (m.after .fetch console (m.outcome bus e).state m.core) (.failure f) := by
  have works := (Instruction.isSound_of_decode decoded).isSome_effect? m.variant.layout
    (m.core.jump i.next)
  obtain ⟨e, effect⟩ := Option.isSome_iff_exists.1 works
  have keeps := Instruction.keeps_effect? (Core.isClosed_true m.variant) i trivial e effect
  have address : i.address = m.pc := Instruction.address_of_decode decoded
  obtain ⟨console, prepared⟩ := exists_prepare_eq { m with phase := .decode } i
  -- The devices see the machine as it is prepared, which has the same ports and policy.
  obtain ⟨console', settled⟩ := exists_settle_eq bus
    { m with
      fault := none
      lastPC := i.address
      phase := .execute
      core := m.core.jump i.next
      console := console } i.address keeps
  refine ⟨e, console', effect, ?_⟩
  rw [advance_of_ok decoded, execute_eq]
  dsimp only
  rw [effect]
  dsimp only
  rw [prepared]
  dsimp only
  rw [settled, address]
  have same : m.outcome bus e = Machine.outcome bus { m with
      fault := none
      lastPC := m.pc
      phase := .execute
      core := m.core.jump i.next
      console := console } e := by
    cases e <;> rfl
  rw [same]
  cases (outcome bus _ e).result with
  | ok c => rfl
  | error f => rfl

/-- **What advancing can come to.** Without an instruction the run ends or a byte is passed over.
With one the core is what comes of its effect, or a device has failed and the core is as before. -/
inductive Advances (bus : Peripherals ι σ) (m : Machine ι σ) : Progress ι σ → Prop where
  | stops {e : DecodeError} {r : StopReason} {console : Option Console}
      (undecodable : Instruction.decode m.variant m.core.memory m.pc = .error e)
      (policy : m.policy.illegalOpcode = some r) :
      Advances bus m (.ended (m.baffled e console m.core) (.stop r))
  | passes {e : DecodeError} {console : Option Console}
      (undecodable : Instruction.decode m.variant m.core.memory m.pc = .error e)
      (policy : m.policy.illegalOpcode = none) :
      Advances bus m (.running (m.baffled e console (m.core.jump (m.pc + 1))))
  | completes {i : Instruction} {e : Effect} {console : Option Console} {c : Core}
      (effect : i.effect? m.variant.layout (m.core.jump i.next) = some e)
      (result : (m.outcome bus e).result = .ok c) :
      Advances bus m
        (.stopIf (m.outcome bus e).stop (m.after e.phase console (m.outcome bus e).state c))
  | fails {e : Effect} {console : Option Console} {f : DeviceFailure}
      (result : (m.outcome bus e).result = .error f) :
      Advances bus m (.ended (m.after .fetch console (m.outcome bus e).state m.core) (.failure f))

/-- **Advancing comes to one of these.** -/
theorem advances (bus : Peripherals ι σ) (m : Machine ι σ) : m.Advances bus (m.advance bus) := by
  cases decoded : Instruction.decode m.variant m.core.memory m.pc with
  | error e =>
    obtain ⟨console, advanced⟩ := exists_advance_eq_of_error bus decoded
    rw [advanced]
    cases policy : m.policy.illegalOpcode with
    | some r => exact .stops decoded policy
    | none => exact .passes decoded policy
  | ok i =>
    obtain ⟨e, console, effect, advanced⟩ := exists_advance_eq_of_ok bus decoded
    rw [advanced]
    cases result : (m.outcome bus e).result with
    | ok c => exact .completes effect result
    | error f => exact .fails result

namespace Advances

variable {bus : Peripherals ι σ} {m : Machine ι σ} {p : Progress ι σ} (h : m.Advances bus p)

include h

/-- The processor is the same. -/
theorem variant_eq : p.machine.variant = m.variant := by
  cases h with
  | stops | passes | fails => rfl
  | completes =>
    rw [Progress.machine_stopIf]
    rfl

/-- The same devices are at the same ports. -/
theorem ports_eq : p.machine.inputs = m.inputs ∧ p.machine.outputs = m.outputs := by
  cases h with
  | stops | passes | fails => exact ⟨rfl, rfl⟩
  | completes =>
    rw [Progress.machine_stopIf]
    exact ⟨rfl, rfl⟩

/-- The phase is one in which a machine can be between runs. -/
theorem phase_eq : p.machine.phase = .fetch ∨ p.machine.phase = .halted := by
  cases h with
  | stops | passes | fails => exact .inl rfl
  | @completes i e =>
    rw [Progress.machine_stopIf]
    exact e.phase_eq

/-- **Closed properties** of the core are kept. -/
theorem keeps {P : Core → Prop} (closed : Core.IsClosed m.variant P) (holds : P m.core) :
    P p.machine.core := by
  cases h with
  | stops | fails => exact holds
  | passes => exact closed.jump holds _
  | @completes i e console c effect result =>
    have started := closed.jump holds i.next
    have keeps := Instruction.keeps_effect? closed i started e effect
    rw [Progress.machine_stopIf]
    exact outcome_keeps keeps started result

end Advances

/-- **The processor** is the same after a turn. -/
theorem variant_turn (bus : Peripherals ι σ) (first : Bool) (m : Machine ι σ) :
    (m.turn bus first).machine.variant = m.variant :=
  keeps_turn (P := fun x => x.variant = m.variant)
    (fun x same => (x.advances bus).variant_eq.trans same) first rfl

end Machine

end Micro80
