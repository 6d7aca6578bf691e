import Micro80.Proofs.Instruction.Substitution
import Micro80.Proofs.Machine.Turn

/-!
# Execution with index registers

An instruction with an index register does to a machine what the instruction without it does to the
machine with other contents of HL. Where no byte in memory is concerned, the index register and HL
are exchanged before and after. Where one is, HL is made to point to it, and the instruction with
the index register leaves both as they are.

Halves of HL are what the exception is about: beside a byte to which an index register points they
are H and L themselves, although the same instruction without the index register has HL in its other
operand.

## Main definitions

* `Machine.coreAfter?`: the core after an instruction that is complete.

## Main statements

* `Machine.index_replaces_hl_in_effect`: executing instructions with index registers.
-/

namespace Micro80

namespace Core

@[simp] theorem exchangeHL_exchangeHL (x : Index) (c : Core) :
    (c.exchangeHL x).exchangeHL x = c := by
  cases x <;> simp [exchangeHL, set16, Registers.set16, Registers.get16, Index.register,
    RegisterSet.setPair, RegisterSet.pair, RegisterSet.set, RegisterSet.get, Pair.high, Pair.low]

/-- Nothing changes by what is in HL already. -/
theorem withHL_get16 (c : Core) : c.withHL (c.registers.get16 (.pair .hl)) = c := by
  simp [withHL, set16, Registers.set16, Registers.get16, RegisterSet.setPair, RegisterSet.pair,
    RegisterSet.set, RegisterSet.get, Pair.high, Pair.low]

@[simp] theorem get16_withHL (c : Core) (w : UInt16) :
    (c.withHL w).registers.get16 (.pair .hl) = w :=
  (c.registers.get16_set16 (.pair .hl) (.pair .hl) w).trans (if_pos rfl)

end Core

namespace Machine

variable {ι σ : Type}

/-- **The core after an instruction** that has been executed, if the run goes on. -/
def coreAfter? (bus : Peripherals ι σ) (m : Machine ι σ) (i : Instruction) : Option Core :=
  match m.execute bus i with
  | .running m => some m.core
  | .ended .. => none

theorem coreAfter?_of_done (bus : Peripherals ι σ) {m : Machine ι σ} {i : Instruction} {c : Core}
    (h : i.effect? m.variant.layout (m.core.jump i.next) = some (.done c)) :
    m.coreAfter? bus i = some c := by
  unfold coreAfter?
  rw [execute_eq, h]
  rfl

section

open Micro80.Core Instruction

variable {x : Index} {d : Int8} {i j : Instruction} (s : IsIndexedForm x d i j)
  (bus : Peripherals ι σ) (m : Machine ι σ)

include s

/-- **Without an indexed operand** the index register and HL have been exchanged. -/
theorem coreAfter?_exchangeHL (unpointed : i.pointsByIndex = false) :
    ∃ c₁ c₂, m.coreAfter? bus i = some c₁ ∧
      (m.alterCore (exchangeHL x)).coreAfter? bus j = some c₂ ∧
      c₁ = (c₂.exchangeHL x).jump c₁.registers.pc ∧
      (c₁.registers.pc = c₂.registers.pc ∨
        c₁.registers.pc = i.next ∧ c₂.registers.pc = j.next) := by
  have reshaped : Reshaped (exchangeHL x) i.next j.next (m.core.jump i.next)
      ((m.core.exchangeHL x).jump j.next) :=
    ⟨j.next, by cases x <;> rfl, .inr ⟨rfl, rfl⟩⟩
  obtain ⟨c₁, _, effect, effect', k, rfl, pc⟩ :=
    s.effect?_exchangeHL m.variant.layout unpointed reshaped
  refine ⟨c₁, _, coreAfter?_of_done bus effect, coreAfter?_of_done bus effect', ?_,
    pc.imp_left Eq.symm⟩
  rw [(isAside_exchangeHL x).jump, exchangeHL_exchangeHL]
  rfl

/-- Other contents of HL do not matter, and they are kept. -/
theorem coreAfter?_withHL_self (whole : i.dst.isHalfOfHL = false ∧ i.src.isHalfOfHL = false) :
    ∃ c₁, m.coreAfter? bus i = some c₁ ∧ ∀ w,
      (m.alterCore (withHL w)).coreAfter? bus i = some (c₁.withHL w) := by
  obtain ⟨c₁, effect, -⟩ := s.effect?_self m.variant.layout whole 0 (m.core.jump i.next)
  refine ⟨c₁, coreAfter?_of_done bus effect, fun w => coreAfter?_of_done bus ?_⟩
  obtain ⟨c, same, effect'⟩ := s.effect?_self m.variant.layout whole w (m.core.jump i.next)
  cases effect.symm.trans same
  exact effect'

/-- **With an indexed operand** HL has pointed to the same byte. -/
theorem coreAfter?_withHL (pointed : i.pointsByIndex = true)
    (whole : i.dst.isHalfOfHL = false ∧ i.src.isHalfOfHL = false) :
    ∃ c₁ c₂, m.coreAfter? bus i = some c₁ ∧
      (m.alterCore (withHL (displaced (m.core.registers.get16 x.register) d))).coreAfter? bus j
        = some c₂ ∧
      (∀ r, r ≠ .h → r ≠ .l → c₁.registers.get8 r = c₂.registers.get8 r) ∧
      c₁.registers.sp = c₂.registers.sp ∧ c₁.memory = c₂.memory ∧
      c₁.registers.ix = m.core.registers.ix ∧ c₁.registers.iy = m.core.registers.iy ∧
      c₁.registers.get16 (.pair .hl) = m.core.registers.get16 (.pair .hl) := by
  have index : (m.core.jump i.next).registers.get16 x.register =
      m.core.registers.get16 x.register := by
    cases x <;> rfl
  have reshaped : Reshaped (withHL (displaced (m.core.registers.get16 x.register) d)) i.next j.next
      (m.core.jump i.next)
      ((m.core.withHL (displaced (m.core.registers.get16 x.register) d)).jump j.next) :=
    ⟨j.next, rfl, .inr ⟨rfl, rfl⟩⟩
  rw [← index] at reshaped
  obtain ⟨c₁, _, effect, effect', k, rfl, -⟩ :=
    s.effect?_withHL m.variant.layout pointed whole reshaped
  have hidden := s.isPlain.hidden_eq effect'
  have result := coreAfter?_of_done bus effect
  have hl : c₁.registers.get16 (.pair .hl) = m.core.registers.get16 (.pair .hl) := by
    obtain ⟨c, same, kept⟩ := coreAfter?_withHL_self s bus m whole
    cases result.symm.trans same
    have still : m.alterCore (withHL (m.core.registers.get16 (.pair .hl))) = m := by
      rw [alterCore, withHL_get16]
    have unchanged := kept (m.core.registers.get16 (.pair .hl))
    rw [still, result] at unchanged
    rw [Option.some.inj unchanged, get16_withHL]
  rw [index] at effect'
  exact ⟨c₁, _, result, coreAfter?_of_done bus effect',
    fun r h l => ((isAside_withHL _).get8 c₁ h l).symm, rfl, rfl,
    congrArg HiddenRegisters.ix hidden, congrArg HiddenRegisters.iy hidden, hl⟩

omit s in
/-- Without an indexed operand there is no half of HL either. -/
theorem whole_of_unpointed (s : IsIndexedForm x d i j) (unpointed : i.pointsByIndex = false) :
    i.dst.isHalfOfHL = false ∧ i.src.isHalfOfHL = false := by
  rw [s.dst_eq, s.src_eq, Operand.isHalfOfHL_substitute, Operand.isHalfOfHL_substitute]
  exact s.halves unpointed

end

/-- **Index registers replace HL in what instructions do.** An instruction `i` with an index
register is executed in place of the instruction `j` without it.

* Without an indexed operand the core afterwards is what it is after `j` if HL and the index
  register are exchanged before and after, apart from the program counter. What is in HL does not
  matter, and it is kept.
* With an indexed operand and no half of HL beside it, the core afterwards has in its byte registers
  other than H and L, in SP and in memory what it has after `j` if HL points to the same byte
  before. The index registers and HL are kept.
* A half of HL beside an indexed operand is that half of HL itself. -/
theorem index_replaces_hl_in_effect (bus : Peripherals ι σ) (m : Machine ι σ)
    {memory memory' : Memory} {a a' : UInt16} {x : Index} {i j : Instruction}
    (hi : Instruction.decode .z80 memory a = .ok i) (index : i.index = some x)
    (hj : Instruction.decode .z80 memory' a' = .ok j) (bytes : j.bytes = i.bareBytes) :
    let target := displaced (m.core.registers.get16 x.register) (memory.read (a + 2)).toInt8
    (i.pointsByIndex = false → ∃ c₁ c₂, m.coreAfter? bus i = some c₁ ∧
      (m.alterCore (Core.exchangeHL x)).coreAfter? bus j = some c₂ ∧
      c₁ = (c₂.exchangeHL x).jump c₁.registers.pc ∧
      (c₁.registers.pc = c₂.registers.pc ∨
        c₁.registers.pc = i.next ∧ c₂.registers.pc = j.next) ∧
      ∀ w, (m.alterCore (Core.withHL w)).coreAfter? bus i = some (c₁.withHL w)) ∧
    (i.pointsByIndex = true → i.dst.isHalfOfHL = false → i.src.isHalfOfHL = false →
      ∃ c₁ c₂, m.coreAfter? bus i = some c₁ ∧
        (m.alterCore (Core.withHL target)).coreAfter? bus j = some c₂ ∧
        (∀ r, r ≠ .h → r ≠ .l → c₁.registers.get8 r = c₂.registers.get8 r) ∧
        c₁.registers.sp = c₂.registers.sp ∧ c₁.memory = c₂.memory ∧
        c₁.registers.ix = m.core.registers.ix ∧ c₁.registers.iy = m.core.registers.iy ∧
        c₁.registers.get16 (.pair .hl) = m.core.registers.get16 (.pair .hl)) ∧
    ∀ r, r = .h ∨ r = .l →
      (i.dst = .reg8 r → m.coreAfter? bus i =
        some ((m.core.set8 r (m.core.memory.read target)).jump i.next)) ∧
      (i.src = .reg8 r → m.coreAfter? bus i =
        some ({ m.core with
          memory := m.core.memory.write target (m.core.registers.get8 r) }.jump i.next)) := by
  intro target
  have s := Instruction.isIndexedForm_of_decode hi index hj bytes
  have index : (m.core.jump i.next).registers.get16 x.register =
      m.core.registers.get16 x.register := by
    cases x <;> rfl
  refine ⟨fun unpointed => ?_, fun pointed dst src => coreAfter?_withHL s bus m pointed ⟨dst, src⟩,
    fun r half => ⟨fun dst => ?_, fun src => ?_⟩⟩
  · obtain ⟨c₁, c₂, first, second, same, pc⟩ := coreAfter?_exchangeHL s bus m unpointed
    obtain ⟨c, again, kept⟩ := coreAfter?_withHL_self s bus m (whole_of_unpointed s unpointed)
    cases first.symm.trans again
    exact ⟨c₁, c₂, first, second, same, pc, kept⟩
  · have effect := s.effect?_load m.variant.layout half dst (m.core.jump i.next)
    rw [index] at effect
    exact coreAfter?_of_done bus effect
  · have effect := s.effect?_store m.variant.layout half src (m.core.jump i.next)
    rw [index] at effect
    exact coreAfter?_of_done bus effect

end Machine

/-- A machine whose IX is one, with a byte at the top of memory. -/
def Machine.indexing : Machine Empty Unit :=
  ((Machine.start .z80 () none).load 0xFFFF [0x5A]).alterCore fun c => c.set16 .ix 1

open Instruction in
/-- The load of H from two bytes below where IX points, `DD 66 FE`, goes below the bottom of memory,
and L and IX stay as they are. -/
theorem Machine.index_replaces_hl_in_effect_load :
    ∃ i j, decode .z80 (((Memory.blank.write 0 0xDD).write 1 0x66).write 2 0xFE) 0 = .ok i ∧
      decode .z80 (Memory.blank.write 0 0x66) 0 = .ok j ∧ i.index = some .ix ∧
      j.bytes = i.bareBytes ∧
      indexing.coreAfter? .empty i =
        some ((indexing.core.set8 .h (indexing.core.memory.read 0xFFFF)).jump i.next) := by
  have found :
      (decode .z80 (((Memory.blank.write 0 0xDD).write 1 0x66).write 2 0xFE) 0).toOption.map
        (fun i => (i.index, i.bareBytes, i.dst)) = some (some .ix, [0x66], .reg8 .h) := by
    decide +kernel
  have found' : (decode .z80 (Memory.blank.write 0 0x66) 0).toOption.map bytes = some [0x66] := by
    decide +kernel
  obtain ⟨i, hi, known⟩ := exists_decode_of_map found
  obtain ⟨j, hj, bytes⟩ := exists_decode_of_map found'
  obtain ⟨index, bare, dst⟩ : i.index = some .ix ∧ i.bareBytes = [0x66] ∧ i.dst = .reg8 .h := by
    simpa using known
  have loaded := ((index_replaces_hl_in_effect .empty indexing hi index hj
    (bytes.trans bare.symm)).2.2 .h (.inl rfl)).1 dst
  have distance :
      (((Memory.blank.write 0 0xDD).write 1 0x66).write 2 0xFE).read (0 + 2) = 0xFE := by
    simp
  have target : displaced (indexing.core.registers.get16 Index.ix.register) (0xFE : UInt8).toInt8 =
      0xFFFF := by
    decide +kernel
  rw [distance, target] at loaded
  exact ⟨i, j, hi, hj, index, bytes.trans bare.symm, loaded⟩

end Micro80
