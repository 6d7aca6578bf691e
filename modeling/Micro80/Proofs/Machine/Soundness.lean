import Micro80.Proofs.Machine.Turn

/-!
# Soundness of runs

The tables, the decoder and the execution of instructions were made for each other: whatever memory
holds and wherever the program counter stands, decoding stays within the bytes that an instruction
may have and what it finds can be executed and shown. A run may therefore end for many reasons, but
never because the operands of an instruction do not fit its operation.

## Main statements

* `Machine.run_ne_malformed`, `Machine.runFree?_ne_malformed`: no run ends as malformed.
* `Machine.run_sound`: decoding, showing and running never meet what they are not made for.
-/

namespace Micro80

namespace Machine

variable {ι σ : Type}

/-- **Runs do not end as malformed,** however many turns they may take. -/
theorem run_ne_malformed (bus : Peripherals ι σ) (turns : Nat) (m : Machine ι σ) :
    (m.run bus turns).2 ≠ .malformed := by
  rw [run_eq]
  cases turns with
  | zero => simp
  | succ turns =>
    have regular := isRegular_take bus turns true m
    generalize m.take bus (turns + 1) true = p at regular ⊢
    cases regular with
    | running ready => simp
    | ended ends => exact ends.ne_malformed

theorem runFree?_ne_malformed {bus : Peripherals ι σ} {turns : Nat} {m : Machine ι σ}
    {r : Machine ι σ × Cause} (h : m.runFree? bus turns = some r) : r.2 ≠ .malformed := by
  rw [← run_of_runFree? h]
  exact run_ne_malformed bus turns m

/-- **Soundness.** For both processors, every memory and every address, decoding does not run out of
bytes, a decoded instruction is sound, and disassembly accounts for one to four bytes. No run with
or without a limit, nor a step, ends because operands do not fit. -/
theorem run_sound (bus : Peripherals ι σ) :
    (∀ (v : Variant) (memory : Memory) (a : UInt16),
      Instruction.decodeOwn v memory a ≠ .error .tooLong ∧
        Instruction.decode v memory a ≠ .error .tooLong ∧
        (∀ i, Instruction.decode v memory a = .ok i → i.IsSound v) ∧
        0 < (memory.disassemble v a).1 ∧
        (memory.disassemble v a).1 ≤ Instruction.maxLength) ∧
      ∀ (m : Machine ι σ) (turns : Nat),
        (m.run bus turns).2 ≠ .malformed ∧ (m.step bus).2 ≠ .malformed ∧
          ∀ r, m.runFree? bus turns = some r → r.2 ≠ .malformed := by
  refine ⟨fun v memory a => ?_, fun m turns => ?_⟩
  · exact ⟨Instruction.decodeOwn_ne_tooLong v memory a, Instruction.decode_ne_tooLong v memory a,
      fun i => Instruction.isSound_of_decode, memory.disassemble_bounds v a⟩
  · exact ⟨run_ne_malformed bus turns m, run_ne_malformed bus 1 m,
      fun r => runFree?_ne_malformed⟩

end Machine

end Micro80
