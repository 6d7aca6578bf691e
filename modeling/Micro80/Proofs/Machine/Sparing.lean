import Micro80.Proofs.Instruction.Sparing
import Micro80.Proofs.Machine.Canonical
import Micro80.Proofs.Machine.Step

/-!
# Flags that steps spare

A step changes no flags but those that the instruction touches. It matters here that the flags are
bytes that the processor can hold, since setting them fixes the bits that are not flags. So this is
said of machines that a user can get.

A comparison sets the flags and does nothing else, so it leaves the accumulator and its operand.

## Main statements

* `Machine.step_of_compare`: what a comparison does.
* `Machine.step_spares_flags`: the flags that steps spare.
-/

namespace Micro80

namespace Machine

variable {ι σ : Type} {v : Variant} {m : Machine ι σ} {i : Instruction}

/-- **A comparison** sets the flags for the accumulator and the byte for which the source stands. -/
theorem step_of_compare (front : m.InFrontOf i) (operation : i.operation = .arithmetic .cp)
    (bus : Peripherals ι σ) :
    ∃ b, m.core.value8? i.src = some b ∧
      (m.step bus).1.core = (m.core.jump i.next).setFlags m.variant.layout
        (Alu.arithmetic m.variant.layout .cp m.core.accumulator b m.core.flags).flags := by
  have sound := Instruction.isSound_of_decode front.decoded
  obtain ⟨e, effect⟩ := Option.isSome_iff_exists.1
    (sound.isSome_effect? m.variant.layout (m.core.jump i.next))
  have compares := effect
  unfold Instruction.effect? at compares
  rw [operation] at compares
  obtain ⟨b, value, rfl⟩ := Option.map_eq_some_iff.1 compares
  obtain ⟨console, stepped⟩ := exists_step_eq_of_done front bus effect
  rw [Operand.value8?_jump] at value
  refine ⟨b, value, ?_⟩
  rw [stepped]
  rfl

/-- **Steps spare flags.** A machine that a user can get is in front of an instruction. After the
step no other bits of the flags differ than those that the instruction touches. If it is a
comparison, nothing differs but the flags and the program counter; the accumulator and the operand
are what they were. -/
theorem step_spares_flags [DecidableEq ι] (reachable : Reachable v m) (bus : Peripherals ι σ)
    (front : m.InFrontOf i) :
    let c := (m.step bus).1.core
    Flags.SameBut (i.touchedFlags v m.core) m.core.flags c.flags ∧
    (i.operation = .arithmetic .cp →
      (∃ f, c = (m.core.jump i.next).setFlags v.layout f) ∧
        c.accumulator = m.core.accumulator ∧
        ∃ b, m.core.value8? i.src = some b ∧ c.value8? i.src = some b) := by
  intro c
  have canonical := reachable.isCanonical
  obtain rfl := canonical.variant
  refine ⟨?_, fun operation => ?_⟩
  · obtain ⟨e, console, effect, stepped⟩ := exists_step_eq_of_ok front bus
    have keeps := Instruction.keeps_touchedFlags (c := m.core.jump i.next)
      canonical.registers.flags front.decoded e effect
    show Flags.SameBut _ m.core.flags (m.step bus).1.core.flags
    rw [stepped]
    cases result : (m.outcome bus e).result with
    | ok c' => exact outcome_keeps keeps (.refl _ _) result
    | error f => exact .refl _ _
  · obtain ⟨b, value, compared⟩ := step_of_compare front operation bus
    have plain := Instruction.src_involvesFlags_of_decode front.decoded (by simp [operation])
    refine ⟨⟨_, compared⟩, ?_⟩
    rw [show c = _ from compared]
    refine ⟨rfl, b, value, ?_⟩
    rw [Operand.value8?_setFlags plain, Operand.value8?_jump, value]

/-- `LDI` and `CP (HL)`, with all flags on. -/
def comparing : Machine Empty Unit :=
  ((start .z80 () none).setRegister 1 0xFF).load 0 [0xED, 0xA0, 0xBE]

/-- The block transfer keeps sign, zero and carry, and the comparison the accumulator. -/
theorem step_spares_flags_comparing :
    Reachable .z80 comparing ∧ comparing.core.flags = 0xD7 ∧
      Flags.SameBut 0x16 0xD7 (comparing.step .empty).1.core.flags ∧
      (comparing.step .empty).1.core.flags = 0xC5 ∧
      ((comparing.step .empty).1.step .empty).1.core.accumulator =
        (comparing.step .empty).1.core.accumulator ∧
      ((comparing.step .empty).1.step .empty).1.core.flags = 0x03 := by
  have reachable : Reachable .z80 comparing :=
    ((Reachable.start () none).setRegister 1 0xFF).load 0 [0xED, 0xA0, 0xBE]
  have ran : comparing.RunEnds .empty 1 (comparing.step .empty) := rfl
  have next : Reachable .z80 (comparing.step .empty).1 := reachable.run ran
  obtain ⟨copy, copies, touched⟩ := Instruction.exists_decode_of_map
    (show (Instruction.decode comparing.variant comparing.core.memory comparing.pc).toOption.map
      (fun i => i.touchedFlags .z80 comparing.core) = some 0x16 by decide +kernel)
  obtain ⟨compare, compares, operation⟩ := Instruction.exists_decode_of_map
    (show (Instruction.decode (comparing.step .empty).1.variant
      (comparing.step .empty).1.core.memory (comparing.step .empty).1.pc).toOption.map
      (fun i => i.operation) = some (.arithmetic .cp) by decide +kernel)
  obtain ⟨spared, -⟩ := step_spares_flags reachable .empty ⟨rfl, copies⟩
  rw [touched] at spared
  obtain ⟨-, kept⟩ := step_spares_flags next .empty ⟨by decide +kernel, compares⟩
  exact ⟨reachable, by decide +kernel, spared, by decide +kernel, (kept operation).2.1,
    by decide +kernel⟩

end Machine

end Micro80
