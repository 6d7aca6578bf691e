import Micro80.Proofs.Instruction.Assembly
import Micro80.Proofs.Instruction.Form
import Micro80.Proofs.Machine.Step

/-!
# Footprints of instructions

An instruction stores bytes in memory at a few addresses at most, and these can be told in advance
from its operands and from the registers before the step. No step changes anything else in memory,
and no step changes marks. The registers that few instructions are concerned with, and the interrupt
flip-flop, are not changed by any others.

## Main definitions

* `Operand.effective?`: the address of a byte in memory for which an operand stands.
* `Instruction.footprint`: the addresses at which an instruction may store bytes.

## Main statements

* `Instruction.mem_footprint`: the cells that an instruction changes are in its footprint.
* `Instruction.index_of_mem`: index registers are changed behind their leads.
* `Machine.step_footprint`: what a step leaves as it is.
-/

namespace Micro80

/-- **Effective addresses.** The address of the byte in memory for which an operand stands. -/
def Operand.effective? (o : Operand) (s : Registers) : Option UInt16 :=
  match o with
  | indirect p => some (s.main.pair p)
  | indexed x d => some (displaced (s.get16 x.register) d)
  | direct a => some a
  | _ => none

namespace Operand

variable {o : Operand} {s : Registers} {a : UInt16}

theorem effective?_of_place (h : o.place8? s = some (.cell a)) : o.effective? s = some a := by
  cases o <;> simp_all [place8?, effective?]

/-- A byte is stored at the effective address only, -/
theorem mem_effective?_of_cell_mem (h : .cell a ∈ o.changes8 s) : a ∈ (o.effective? s).toList := by
  rw [effective?_of_place (place8?_of_cell_mem h)]
  exact List.mem_singleton_self a

/-- and nowhere in memory if it is stored in a register. -/
theorem cell_notMem_changes8 (register : ∃ r, o = .reg8 r) : .cell a ∉ o.changes8 s := by
  obtain ⟨r, rfl⟩ := register
  intro mem
  cases place8?_of_cell_mem mem

/-- So it is with words. -/
theorem cell_notMem_changes16 (register : ∃ r, o = .reg16 r) : .cell a ∉ o.changes16 s := by
  obtain ⟨r, rfl⟩ := register
  intro mem
  obtain ⟨b, place, -⟩ := place16?_of_cell_mem mem
  cases place

end Operand

namespace Instruction

/-- **Footprints.** The addresses at which an instruction may store bytes, in terms of the registers
before it. -/
def footprint (i : Instruction) (c : Core) : List UInt16 :=
  let s := c.registers
  match i.operation with
  | .move | .inc | .dec | .shift _ => (i.dst.effective? s).toList
  | .set | .res => (i.src.effective? s).toList
  | .move16 =>
    match i.dst with
    | .direct16 a => [a, a + 1]
    | _ => []
  | .exchangeTop => [s.sp, s.sp + 1]
  | .push | .rst => [s.sp - 1, s.sp - 2]
  | .call => if i.dst.permits c.flags then [s.sp - 1, s.sp - 2] else []
  | .block _ false => [s.main.pair .de]
  | .block d true => (List.range (s.main.pair .bc).toNat).map (d.along (s.main.pair .de))
  | _ => []

section

variable {v : Variant} {m : Memory} {a : UInt16} {i : Instruction} (h : decode v m a = .ok i)

include h

/-- **The cells that an instruction changes** are in its footprint. -/
theorem mem_footprint {c : Core} {b : UInt16} (mem : .cell b ∈ i.changes c) :
    b ∈ i.footprint c := by
  unfold changes at mem
  unfold footprint
  cases operation : i.operation with
  | move | set | res =>
    simp only [operation] at mem ⊢
    exact Operand.mem_effective?_of_cell_mem mem
  | inc | dec | shift =>
    simp only [operation, List.mem_append, List.mem_singleton, reduceCtorEq, or_false] at mem ⊢
    exact Operand.mem_effective?_of_cell_mem mem
  | move16 =>
    simp only [operation] at mem ⊢
    obtain register | ⟨n, direct⟩ := exists_dst_of_move16 h operation
    · exact absurd mem (Operand.cell_notMem_changes16 register)
    · rw [direct] at mem ⊢
      obtain ⟨b', place, eq⟩ := Operand.place16?_of_cell_mem mem
      cases place
      simpa using eq
  | inc16 | dec16 =>
    simp only [operation] at mem
    exact absurd mem (Operand.cell_notMem_changes16 (exists_dst_of_word h (by simp [operation])))
  | arithmetic16 =>
    simp only [operation, List.mem_append, List.mem_singleton, reduceCtorEq, or_false] at mem
    exact absurd mem (Operand.cell_notMem_changes16 (exists_dst_of_word h (by simp [operation])))
  | pop =>
    simp only [operation, List.mem_cons, reduceCtorEq, false_or] at mem
    obtain ⟨r, register, -⟩ := exists_dst_of_pop h operation
    exact absurd mem (Operand.cell_notMem_changes16 ⟨r, register⟩)
  | exchangeTop =>
    obtain ⟨top, register⟩ := operands_of_exchangeTop h operation
    simp only [operation, List.mem_append] at mem ⊢
    obtain mem | mem := mem
    · rw [top] at mem
      obtain ⟨b', place, eq⟩ := Operand.place16?_of_cell_mem mem
      cases place
      simpa using eq
    · exact absurd mem (Operand.cell_notMem_changes16 ⟨_, register⟩)
  | input =>
    simp only [operation, List.mem_append] at mem
    obtain mem | mem := mem
    · exact absurd mem (Operand.cell_notMem_changes8 (exists_dst_of_input h operation))
    · split at mem <;> simp at mem
  | push | rst =>
    simpa [operation, Core.pushChanges] using mem
  | call =>
    simp only [operation] at mem ⊢
    split at mem
    · rename_i taken
      rw [if_pos taken]
      simpa [Core.pushChanges] using mem
    · cases mem
  | arithmetic | jp | jr | djnz | ret =>
    simp only [operation] at mem
    split at mem <;> simp at mem
  | block d repeats =>
    cases repeats with
    | false => simpa [operation, Core.blockChanges] using mem
    | true =>
      simp only [operation, List.mem_append] at mem ⊢
      obtain mem | mem := mem
      · simpa using mem
      · split at mem <;> simp [Core.blockChanges] at mem
  | _ => simp [operation] at mem

/-- **Index registers** are changed by instructions that have them in the place of HL. -/
theorem index_of_mem {c : Core} {x : Index} (mem : .word x.register ∈ i.changes c) :
    i.index = some x := by
  have noPair (p : Pair) : x.register ≠ .pair p := by cases x <;> simp [Index.register]
  have notSP : x.register ≠ .sp := by cases x <;> simp [Index.register]
  have notPC : x.register ≠ .pc := by cases x <;> simp [Index.register]
  have itself : (Operand.reg16 x.register).index? = some x := by cases x <;> rfl
  obtain ⟨lead, e, -, -, -, -, -, rfl⟩ := exists_entry_of_decode h
  show lead.index = some x
  obtain dst | src | ⟨pc, -⟩ := word_cases_of_mem_changes noPair notSP mem
  · have shared := e.dst.index?_operand (e.context lead a (m.ahead a)) (e.dstAt lead (m.ahead a))
    rw [← e.dst_ofEntry v, dst, itself] at shared
    exact (shared.resolve_left (Option.some_ne_none x)).symm
  · have shared := e.src.index?_operand (e.context lead a (m.ahead a))
      (e.dstAt lead (m.ahead a) + e.dst.size)
    rw [← e.src_ofEntry v, src, itself] at shared
    exact (shared.resolve_left (Option.some_ne_none x)).symm
  · exact absurd pc notPC

/-- An index register is in the place of HL behind its lead only. -/
theorem lead_of_index {x : Index} (index : i.index = some x) : v = .z80 ∧ m.read a = x.lead := by
  obtain ⟨lead, e, read, -, -, -, -, rfl⟩ := exists_entry_of_decode h
  replace index : lead.index = some x := index
  obtain ⟨rfl, -⟩ | ⟨rfl, -⟩ | ⟨y, rfl, selected⟩ := Lead.read?_cases read
  · cases index
  · cases index
  · cases index
    refine ⟨?_, ?_⟩
    · cases v with
      | z80 => rfl
      | i8085 => cases read
    · rw [m.ahead_zero] at selected
      exact Index.eq_lead_of_ofLead? selected

end

end Instruction

namespace Machine

variable {ι σ : Type}

/-- **Footprints of steps.** Whatever a machine does in a step, memory differs afterwards only
within the footprint of the instruction at the program counter, and marks do not differ at all. IX
and IY differ only behind an instruction of the Z80 with the lead of that register, the shadow
registers only behind an exchange with them, and the interrupt flip-flop only behind the two
instructions for it. -/
theorem step_footprint (bus : Peripherals ι σ) (m : Machine ι σ) :
    let c := (m.step bus).1.core
    (∀ a, c.memory.read a ≠ m.core.memory.read a →
      ∃ i, m.InFrontOf i ∧ a ∈ i.footprint m.core) ∧
    c.memory.marks = m.core.memory.marks ∧
    (∀ x : Index, c.registers.get16 x.register ≠ m.core.registers.get16 x.register →
      m.variant = .z80 ∧ m.core.memory.read m.pc = x.lead ∧
        ∃ i, m.InFrontOf i ∧ i.index = some x) ∧
    (c.registers.shadow ≠ m.core.registers.shadow →
      ∃ i, m.InFrontOf i ∧ (i.operation = .exchangeAF ∨ i.operation = .exchangeGeneral)) ∧
    (c.interrupts ≠ m.core.interrupts →
      ∃ i, m.InFrontOf i ∧ (i.operation = .ei ∨ i.operation = .di)) := by
  intro c
  refine ⟨fun a differs => ?_, ?_, fun x differs => ?_, fun differs => ?_, fun differs => ?_⟩
  · obtain ⟨i, front, _, mem, rfl⟩ := exists_mem_changes_of_ne bus (f := fun c => c.memory.read a)
      (R := (· = .cell a)) (fun _ _ => rfl) (fun _ _ _ makes => makes.read_eq) differs
    exact ⟨i, front, Instruction.mem_footprint front.decoded mem⟩
  · refine Classical.byContradiction fun differs => ?_
    obtain ⟨i, -, x, -, impossible⟩ := exists_mem_changes_of_ne bus (f := fun c => c.memory.marks)
      (R := fun _ => False) (fun _ _ => rfl) (fun _ _ _ makes _ => makes.marks_eq) differs
    exact impossible
  · have noPair (p : Pair) : x.register ≠ .pair p := by cases x <;> simp [Index.register]
    have jump (c : Core) (a : UInt16) :
        (c.jump a).registers.get16 x.register = c.registers.get16 x.register := by cases x <;> rfl
    obtain ⟨i, front, _, mem, rfl⟩ := exists_mem_changes_of_ne bus
      (f := fun c => c.registers.get16 x.register) (R := (· = .word x.register)) jump
      (fun _ _ _ makes => makes.get16_eq noPair) differs
    have index := Instruction.index_of_mem front.decoded mem
    obtain ⟨z80, lead⟩ := Instruction.lead_of_index front.decoded index
    exact ⟨z80, lead, i, front, index⟩
  · obtain ⟨i, front, x, mem, exchange⟩ := exists_mem_changes_of_ne bus
      (f := fun c => c.registers.shadow) (R := fun x => x = .exchangeAF ∨ x = .exchangeGeneral)
      (fun _ _ => rfl)
      (fun _ _ _ makes none => makes.shadow_eq (none <| .inl ·) (none <| .inr ·)) differs
    have suits := Instruction.suits_of_mem_changes x mem
    obtain rfl | rfl := exchange
    · exact ⟨i, front, .inl suits⟩
    · exact ⟨i, front, .inr suits⟩
  · obtain ⟨i, front, _, mem, rfl⟩ := exists_mem_changes_of_ne bus (f := fun c => c.interrupts)
      (R := (· = .interrupts)) (fun _ _ => rfl) (fun _ _ _ makes => makes.interrupts_eq) differs
    exact ⟨i, front, Instruction.suits_of_mem_changes _ mem⟩

/-- A machine in front of `EX (SP),IX`, with a word in IX and room for it in the stack. -/
def exchangingTop : Machine Empty Unit :=
  ((start .z80 () none).load 0 [0xDD, 0xE3]).alterCore fun c => (c.set16 .sp 0x40).set16 .ix 0x1234

/-- Both bytes of the top of the stack change, and so does IX. -/
theorem step_footprint_exchangingTop :
    let c := (exchangingTop.step .empty).1.core
    (c.memory.read 0x40 = 0x34 ∧ ∃ i, exchangingTop.InFrontOf i ∧
      0x40 ∈ i.footprint exchangingTop.core) ∧
    (c.memory.read 0x41 = 0x12 ∧ ∃ i, exchangingTop.InFrontOf i ∧
      0x41 ∈ i.footprint exchangingTop.core) ∧
    c.registers.ix = 0 ∧ ∃ i, exchangingTop.InFrontOf i ∧ i.index = some .ix := by
  intro c
  have low : c.memory.read 0x40 = 0x34 := by decide +kernel
  have high : c.memory.read 0x41 = 0x12 := by decide +kernel
  have ix : c.registers.ix = 0 := by decide +kernel
  have blank : exchangingTop.core.memory.read 0x40 = 0 ∧
      exchangingTop.core.memory.read 0x41 = 0 := by decide +kernel
  obtain ⟨bytes, -, index, -, -⟩ := step_footprint .empty exchangingTop
  have lowDiffers : c.memory.read 0x40 ≠ exchangingTop.core.memory.read 0x40 := by
    rw [low, blank.1]
    decide
  have highDiffers : c.memory.read 0x41 ≠ exchangingTop.core.memory.read 0x41 := by
    rw [high, blank.2]
    decide
  have ixDiffers : c.registers.ix ≠ exchangingTop.core.registers.ix := by
    rw [ix]
    decide
  obtain ⟨-, -, behind⟩ := index .ix ixDiffers
  exact ⟨⟨low, bytes _ lowDiffers⟩, ⟨high, bytes _ highDiffers⟩, ix, behind⟩

end Machine

end Micro80
