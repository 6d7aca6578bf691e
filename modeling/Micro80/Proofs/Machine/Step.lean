import Micro80.Proofs.Machine.Advance

/-!
# Steps

A step is a run of a single turn. No breakpoint keeps it from dealing with an instruction, so only a
machine that has halted does nothing. A machine in front of an instruction comes to the outcome of
its effect, unless a device fails; then its core is what it was before the step.

## Main definitions

* `Machine.InFrontOf`: a machine whose next step deals with an instruction.

## Main statements

* `Machine.step_of_isHalted`, `Machine.exists_step_eq_of_error`, `Machine.exists_step_eq_of_ok`: the
  step of a machine that has halted, finds no instruction, or finds one.
* `Machine.exists_step_eq_of_done`: the step at an instruction that needs no device.
* `Machine.step_survives`: what a step at an instruction keeps.
* `Machine.exists_mem_changes_of_ne`: what a step changes.
-/

namespace Micro80

namespace Machine

variable {ι σ : Type}

/-- **Machines in front of an instruction.** The machine has not halted, and the instruction is the
one at its program counter. -/
structure InFrontOf (m : Machine ι σ) (i : Instruction) : Prop where
  awake : m.isHalted = false
  decoded : Instruction.decode m.variant m.core.memory m.pc = .ok i

/-- A machine that has halted does nothing. -/
theorem step_of_isHalted (bus : Peripherals ι σ) {m : Machine ι σ} (h : m.isHalted = true) :
    m.step bus = (m, .stop .halt) := by
  rw [step_eq, turn_eq, h]
  rfl

theorem step_of_awake (bus : Peripherals ι σ) {m : Machine ι σ} (h : m.isHalted = false) :
    m.step bus = ((m.advance bus).machine, (m.advance bus).cause?.getD (.stop .finished)) := by
  rw [step_eq, turn_of_proceeds (proceeds_iff.2 ⟨h, rfl⟩)]

/-- **Without an instruction** the step ends as the policy has it. -/
theorem exists_step_eq_of_error (bus : Peripherals ι σ) {m : Machine ι σ} {e : DecodeError}
    (awake : m.isHalted = false)
    (undecodable : Instruction.decode m.variant m.core.memory m.pc = .error e) :
    ∃ console, m.step bus =
      match m.policy.illegalOpcode with
      | some r => (m.baffled e console m.core, .stop r)
      | none => (m.baffled e console (m.core.jump (m.pc + 1)), .stop .finished) := by
  obtain ⟨console, advanced⟩ := exists_advance_eq_of_error bus undecodable
  refine ⟨console, ?_⟩
  rw [step_of_awake bus awake, advanced]
  cases m.policy.illegalOpcode <;> rfl

section

variable {m : Machine ι σ} {i : Instruction} (h : m.InFrontOf i)

include h

/-- **With an instruction** the step comes to the outcome of its effect. -/
theorem exists_step_eq_of_ok (bus : Peripherals ι σ) :
    ∃ e console, i.effect? m.variant.layout (m.core.jump i.next) = some e ∧
      m.step bus =
        match (m.outcome bus e).result with
        | .ok c =>
          (m.after e.phase console (m.outcome bus e).state c,
            .stop ((m.outcome bus e).stop.getD .finished))
        | .error f =>
          (m.after .fetch console (m.outcome bus e).state m.core, .failure f) := by
  obtain ⟨e, console, effect, advanced⟩ := exists_advance_eq_of_ok bus h.decoded
  refine ⟨e, console, effect, ?_⟩
  rw [step_of_awake bus h.awake, advanced]
  cases (m.outcome bus e).result with
  | error f => rfl
  | ok c => cases (m.outcome bus e).stop <;> rfl

/-- **An instruction that needs no device** is finished at once. -/
theorem exists_step_eq_of_done (bus : Peripherals ι σ) {c : Core}
    (effect : i.effect? m.variant.layout (m.core.jump i.next) = some (.done c)) :
    ∃ console, m.step bus = (m.after .fetch console m.devices c, .stop .finished) := by
  obtain ⟨e, console, same, stepped⟩ := exists_step_eq_of_ok h bus
  cases effect.symm.trans same
  exact ⟨console, stepped⟩

/-- **What a step keeps.** If a property holds when the program counter is behind the instruction,
and it survives the changes that the instruction makes, then it holds after the step, unless a
device has failed and the core is what it was. -/
theorem step_survives (bus : Peripherals ι σ) {P : Core → Prop}
    (survives : Core.Survives m.variant (i.changes (m.core.jump i.next)) P)
    (behind : P (m.core.jump i.next)) :
    P (m.step bus).1.core ∨
      (m.step bus).1.core = m.core ∧ ∃ f, (m.step bus).2 = .failure f := by
  obtain ⟨e, console, effect, stepped⟩ := exists_step_eq_of_ok h bus
  have keeps := Instruction.keeps_of_survives survives behind e effect
  rw [stepped]
  cases result : (m.outcome bus e).result with
  | ok c => exact .inl (outcome_keeps keeps behind result)
  | error f => exact .inr ⟨rfl, f, rfl⟩

end

/-- **What a step has changed** is something that one of the changes of an instruction concerns. The
program counter is left out of this, as it changes with every step. -/
theorem exists_mem_changes_of_ne (bus : Peripherals ι σ) {m : Machine ι σ} {α : Type} {f : Core → α}
    {R : Change → Prop} (jump : ∀ c a, f (c.jump a) = f c)
    (leaves : ∀ x c c', x.Makes m.variant c c' → ¬ R x → f c' = f c)
    (differs : f (m.step bus).1.core ≠ f m.core) :
    ∃ i, m.InFrontOf i ∧ ∃ x ∈ i.changes m.core, R x := by
  cases halted : m.isHalted with
  | true =>
    rw [step_of_isHalted bus halted] at differs
    exact absurd rfl differs
  | false =>
    cases decoded : Instruction.decode m.variant m.core.memory m.pc with
    | error e =>
      obtain ⟨console, stepped⟩ := exists_step_eq_of_error bus halted decoded
      rw [stepped] at differs
      cases policy : m.policy.illegalOpcode with
      | some r =>
        rw [policy] at differs
        exact absurd rfl differs
      | none =>
        rw [policy] at differs
        exact absurd (jump m.core (m.pc + 1)) differs
    | ok i =>
      refine ⟨i, ⟨halted, decoded⟩, ?_⟩
      refine Classical.byContradiction fun none => ?_
      have untouched : ∀ x ∈ i.changes (m.core.jump i.next), ¬ R x := by
        rw [Instruction.changes_jump]
        exact fun x mem concerns => none ⟨x, mem, concerns⟩
      have survives := Core.survives_of_eq (f := f)
        (fun x mem c c' makes => leaves x c c' makes (untouched x mem)) (f m.core)
      obtain keeps | ⟨same, -⟩ := step_survives ⟨halted, decoded⟩ bus survives (jump _ _)
      · exact differs keeps
      · exact differs (congrArg f same)

end Machine

end Micro80
