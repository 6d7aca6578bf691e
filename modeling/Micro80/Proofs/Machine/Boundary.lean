import Micro80.Instruction.Disassembly
import Micro80.Proofs.Instruction.Form
import Micro80.Proofs.Machine.Step

/-!
# Boundaries of instructions

Disassembly and execution decode the same bytes, so they agree on where an instruction ends. A step
goes there, unless the instruction is a jump, a call or a return that is taken. Nothing else that an
instruction does concerns the program counter: no operand is the program counter, and bytes that an
instruction stores in its own place come too late to change where it ends.

## Main definitions

* `Instruction.branch?`: where an instruction goes that does not go on behind itself.

## Main statements

* `Instruction.isSome_branch?_of_mem`: only branches change the program counter.
* `Instruction.exists_effect?_of_branch?`: branches go where they should.
* `Machine.pc_step`: the program counter after a step.
-/

namespace Micro80

namespace Instruction

/-- **Branches.** Where an instruction goes that does not go on behind itself. The bytes of the
target are those in memory behind the opcode, or behind the return address, a distance is counted
from the end of the instruction, and the address of a restart routine is in the opcode. -/
def branch? (i : Instruction) (c : Core) : Option UInt16 :=
  let a := i.address
  let near := displaced (a + 2) (c.memory.read (a + 1)).toInt8
  match i.operation with
  | .jp =>
    if i.dst.permits c.flags then
      if i.src = .reg16 (Index.orHL i.index) then some (c.registers.get16 (Index.orHL i.index))
      else some (c.memory.readWord (a + 1))
    else none
  | .jr => if i.dst.permits c.flags then some near else none
  | .djnz => if c.registers.get8 .b = 1 then none else some near
  | .call => if i.dst.permits c.flags then some (c.memory.readWord (a + 1)) else none
  | .ret => if i.dst.permits c.flags then some (c.memory.readWord c.registers.sp) else none
  | .rst => some (c.memory.read a &&& 0x38).toUInt16
  | _ => none

section

variable {v : Variant} {m : Memory} {a : UInt16} {i : Instruction}

/-- There is somewhere to go for branches, and for them only. -/
theorem isSome_branch? (i : Instruction) (c : Core) : (i.branch? c).isSome = i.branches c := by
  unfold branch? branches
  cases i.operation with
  | jp =>
    dsimp only
    cases i.dst.permits c.flags with
    | true =>
      rw [if_pos rfl]
      split <;> rfl
    | false => rfl
  | jr | call | ret => cases i.dst.permits c.flags <;> rfl
  | djnz =>
    dsimp only
    by_cases last : c.registers.get8 .b = 1 <;> simp [last]
  | _ => rfl

/-- **Only branches** change the program counter. -/
theorem isSome_branch?_of_mem (h : decode v m a = .ok i) {c : Core}
    (mem : .word .pc ∈ i.changes c) : (i.branch? c).isSome = true := by
  obtain ⟨noDst, noSrc⟩ := ne_pc_of_decode h
  obtain dst | src | ⟨-, branches⟩ := word_cases_of_mem_changes (r := .pc) nofun nofun mem
  · exact absurd dst noDst
  · exact absurd src noSrc
  · rw [isSome_branch?, branches]

/-- **Branches go where they should.** -/
theorem exists_effect?_of_branch? {c : Core} (h : decode v c.memory a = .ok i) {t : UInt16}
    (branch : i.branch? c = some t) (L : FlagLayout) :
    ∃ c', i.effect? L (c.jump i.next) = some (.done c') ∧ c'.registers.pc = t := by
  have address := address_of_decode h
  unfold branch? at branch
  unfold effect?
  simp only [address] at branch
  cases operation : i.operation with
  | jp =>
    simp only [operation, Option.ite_none_right_eq_some] at branch
    obtain ⟨taken, branch⟩ := branch
    obtain src | src := src_of_jp h operation
    · -- The program counter, which has moved on, is not the register that is asked for.
      have other : Index.orHL i.index ≠ .pc := fun pc => (ne_pc_of_decode h).2 (pc ▸ src)
      rw [if_pos src] at branch
      cases branch
      rw [src]
      refine ⟨_, congrArg some (congrArg Effect.done (if_pos taken)), ?_⟩
      show (c.registers.set16 .pc i.next).get16 (Index.orHL i.index) = _
      rw [Registers.get16_set16, if_neg other]
    · rw [src] at branch ⊢
      cases branch
      exact ⟨_, congrArg some (congrArg Effect.done (if_pos taken)), rfl⟩
  | jr =>
    simp only [operation, Option.ite_none_right_eq_some, Option.some.injEq] at branch
    obtain ⟨taken, rfl⟩ := branch
    rw [(src_of_jr h (.inl operation)).2]
    exact ⟨_, congrArg some (congrArg Effect.done (if_pos taken)), rfl⟩
  | djnz =>
    simp only [operation, Option.ite_none_left_eq_some, Option.some.injEq] at branch
    obtain ⟨last, rfl⟩ := branch
    have more : c.registers.get8 .b - 1 ≠ 0 := by grind
    rw [(src_of_jr h (.inr operation)).2]
    exact ⟨_, congrArg some (congrArg Effect.done (if_neg more)), rfl⟩
  | call =>
    simp only [operation, Option.ite_none_right_eq_some, Option.some.injEq] at branch
    obtain ⟨taken, rfl⟩ := branch
    rw [src_of_call h operation]
    exact ⟨_, congrArg some (congrArg Effect.done (if_pos taken)), rfl⟩
  | ret =>
    simp only [operation, Option.ite_none_right_eq_some, Option.some.injEq] at branch
    obtain ⟨taken, rfl⟩ := branch
    exact ⟨_, congrArg some (congrArg Effect.done (if_pos taken)), rfl⟩
  | rst =>
    simp only [operation, Option.some.injEq] at branch
    subst branch
    rw [src_of_rst h operation]
    exact ⟨_, rfl, rfl⟩
  | _ => simp [operation] at branch

end

/-- What is disassembled is as long as what is decoded. -/
theorem disassemble_fst_of_decode {v : Variant} {m : Memory} {a : UInt16} {i : Instruction}
    (h : decode v m a = .ok i) : (m.disassemble v a).1 = i.length := by
  rw [Memory.disassemble, h]

end Instruction

namespace Machine

variable {ι σ : Type}

/-- **The program counter after a step** of a machine that has not halted, if no device fails.
Disassembly tells where the instruction ends, and the step goes there unless the instruction is a
branch that is taken. Where there is no instruction disassembly tells of one byte, and it is passed
over unless the policy is to stop there. -/
theorem pc_step (bus : Peripherals ι σ) {m : Machine ι σ} (awake : m.isHalted = false)
    (works : ∀ f, (m.step bus).2 ≠ .failure f) :
    let next := m.pc + UInt16.ofNat (m.core.memory.disassemble m.variant m.pc).1
    (∀ i, Instruction.decode m.variant m.core.memory m.pc = .ok i →
      (m.step bus).1.pc = (i.branch? m.core).getD next) ∧
    ∀ e, Instruction.decode m.variant m.core.memory m.pc = .error e →
      (m.core.memory.disassemble m.variant m.pc).1 = 1 ∧
        (m.step bus).1.pc = if m.policy.stopOnIllegalOpcode then m.pc else next := by
  intro next
  refine ⟨fun i decoded => ?_, fun e undecodable => ?_⟩
  · have behind : i.next = next := by
      rw [Instruction.next, Instruction.address_of_decode decoded,
        ← Instruction.disassemble_fst_of_decode decoded]
    cases branch : i.branch? m.core with
    | some t =>
      obtain ⟨c, effect, goes⟩ :=
        Instruction.exists_effect?_of_branch? decoded branch m.variant.layout
      obtain ⟨console, stepped⟩ := exists_step_eq_of_done ⟨awake, decoded⟩ bus effect
      rw [stepped]
      exact goes
    | none =>
      have survives : Core.Survives m.variant (i.changes (m.core.jump i.next))
          fun c => c.registers.get16 .pc = next := by
        refine Core.survives_of_eq (f := fun c => c.registers.get16 .pc)
          (fun x mem c c' makes => makes.get16_eq nofun ?_) next
        rintro rfl
        rw [Instruction.changes_jump] at mem
        have goes := Instruction.isSome_branch?_of_mem decoded mem
        rw [branch] at goes
        cases goes
      obtain keeps | ⟨-, f, failed⟩ := step_survives ⟨awake, decoded⟩ bus survives behind
      · exact keeps
      · exact absurd failed (works f)
  · have one : (m.core.memory.disassemble m.variant m.pc).1 = 1 := by
      rw [Memory.disassemble, undecodable]
    refine ⟨one, ?_⟩
    obtain ⟨console, stepped⟩ := exists_step_eq_of_error bus awake undecodable
    rw [stepped, Policy.illegalOpcode]
    cases m.policy.stopOnIllegalOpcode with
    | true => rfl
    | false =>
      show m.pc + 1 = next
      rw [show next = m.pc + UInt16.ofNat 1 from by rw [← one]]
      rfl

/-- A machine in front of `LD (0002),A`, which overwrites its own last byte. -/
def overwriting : Machine Empty Unit := (start .z80 () none).load 0 [0x32, 0x02, 0x00]

/-- It still goes on behind its third byte. -/
theorem pc_step_overwriting :
    (overwriting.isHalted = false ∧ ∀ f, (overwriting.step .empty).2 ≠ .failure f) ∧
      (overwriting.step .empty).1.pc = 3 := by
  have finished : (overwriting.step .empty).2 = .stop .finished := by decide +kernel
  have works : ∀ f, (overwriting.step .empty).2 ≠ .failure f := by
    rw [finished]
    simp
  have found : (Instruction.decode overwriting.variant overwriting.core.memory
      overwriting.pc).toOption.map (fun i => i.branch? overwriting.core) = some none := by
    decide +kernel
  obtain ⟨i, decoded, straight⟩ := Instruction.exists_decode_of_map found
  refine ⟨⟨rfl, works⟩, ?_⟩
  rw [(pc_step .empty rfl works).1 i decoded, straight]
  decide +kernel

end Machine

end Micro80
