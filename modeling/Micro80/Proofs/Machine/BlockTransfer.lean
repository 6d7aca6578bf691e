import Micro80.Proofs.Machine.Step
import Micro80.Proofs.Memory.BlockCopy

/-!
# Repeated block transfers

A repeated block transfer copies as many bytes as BC counts, all within one instruction. HL and DE
walk along the source and the target, BC counts down to zero, and memory is copied byte by byte, so
that it makes a difference how source and target overlap.

## Main definitions

* `Core.count`: the number of bytes to be copied.
* `Core.Transferred`: what some steps of a block transfer have done.
* `Core.BlockMoved`: what a repeated block transfer leaves.
* `Z80.repeatOpcode`: the opcodes of repeated block transfers.

## Main statements

* `Core.transferred_transferMany`: steps of a block transfer, by their number.
* `Machine.step_repeated_transfer`: a repeated block transfer as an instruction.
-/

namespace Micro80

namespace Core

/-- The number of bytes to be copied. -/
def count (c : Core) : Nat := (c.registers.main.pair .bc).toNat

@[simp] theorem count_jump (c : Core) (a : UInt16) : (c.jump a).count = c.count := by
  unfold count jump
  rfl

/-- How far the target is ahead of the source. -/
def ahead (d : Direction) (c : Core) : Nat :=
  d.distance (c.registers.main.pair .hl) (c.registers.main.pair .de)

/-! ### Steps -/

/-- A step more is a step after the others. -/
theorem transferMany_succ (L : FlagLayout) (d : Direction) (n : Nat) (c : Core) :
    c.transferMany L d (n + 1) = (c.transferMany L d n).transfer L d := by
  induction n generalizing c with
  | zero => rfl
  | succ n ih => exact ih (c.transfer L d)

/-- **Transferred blocks.** What `n` steps of a block transfer on the Z80 have done to a core. -/
structure Transferred (d : Direction) (n : Nat) (c c' : Core) : Prop where
  hl : c'.registers.main.pair .hl = d.along (c.registers.main.pair .hl) n
  de : c'.registers.main.pair .de = d.along (c.registers.main.pair .de) n
  bc : c'.registers.main.pair .bc = c.registers.main.pair .bc - UInt16.ofNat n
  memory : c'.memory =
    c.memory.copy d (c.registers.main.pair .hl) (c.registers.main.pair .de) n
  flags : Flags.ofByte c'.flags =
    if n = 0 then Flags.ofByte c.flags
    else
      { Flags.ofByte c.flags with
        half := false
        parity := c'.registers.main.pair .bc != 0
        subtract := false }
  accumulator : c'.accumulator = c.accumulator
  shadow : c'.registers.shadow = c.registers.shadow
  sp : c'.registers.sp = c.registers.sp
  pc : c'.registers.pc = c.registers.pc
  ix : c'.registers.ix = c.registers.ix
  iy : c'.registers.iy = c.registers.iy
  interrupts : c'.interrupts = c.interrupts

theorem transferred_zero (d : Direction) (c : Core) : c.Transferred d 0 c where
  hl := by rw [Direction.along_zero]
  de := by rw [Direction.along_zero]
  bc := by simp
  memory := rfl
  flags := (if_pos rfl).symm
  accumulator := rfl
  shadow := rfl
  sp := rfl
  pc := rfl
  ix := rfl
  iy := rfl
  interrupts := rfl

/-- **A step more** copies the byte that comes next, from where the pairs have got to. -/
theorem Transferred.transfer {d : Direction} {n : Nat} {c c' : Core} (h : c.Transferred d n c') :
    c.Transferred d (n + 1) (c'.transfer .z80 d) where
  hl := by rw [pair_hl_transfer, Direction.along_succ, h.hl]
  de := by rw [pair_de_transfer, Direction.along_succ, h.de]
  bc := by
    rw [pair_bc_transfer, h.bc, UInt16.ofNat_add]
    grind
  memory := by rw [memory_transfer, Memory.copy_succ, h.memory, h.hl, h.de]
  flags := by
    rw [flags_transfer, FlagLayout.ofByte_encode_z80, pair_bc_transfer, h.flags]
    -- The step sets the same three flags as the one before, if there was one.
    cases n <;> rfl
  accumulator := h.accumulator
  shadow := h.shadow
  sp := h.sp
  pc := h.pc
  ix := h.ix
  iy := h.iy
  interrupts := h.interrupts

/-- **Steps of a block transfer,** however many there are. -/
theorem transferred_transferMany (d : Direction) (n : Nat) (c : Core) :
    c.Transferred d n (c.transferMany .z80 d n) := by
  induction n with
  | zero => exact transferred_zero d c
  | succ n ih =>
    rw [transferMany_succ]
    exact ih.transfer

/-- BC counts down to zero, and it does so for the first time when as many bytes have been copied
as were to be copied. -/
theorem count_transferMany (d : Direction) {n : Nat} {c : Core} (h : n ≤ c.count) :
    (c.transferMany .z80 d n).count = c.count - n := by
  have bound : c.count < 65536 := UInt16.toNat_lt _
  unfold count at h bound ⊢
  rw [(transferred_transferMany d n c).bc, UInt16.toNat_sub, UInt16.toNat_ofNat']
  omega

/-! ### All steps -/

/-- **Moved blocks.** What a repeated block transfer on the Z80 leaves, if there is something to
copy. -/
structure BlockMoved (d : Direction) (c c' : Core) : Prop where
  hl : c'.registers.main.pair .hl = d.along (c.registers.main.pair .hl) c.count
  de : c'.registers.main.pair .de = d.along (c.registers.main.pair .de) c.count
  bc : c'.registers.main.pair .bc = 0
  flags : Flags.ofByte c'.flags =
    { Flags.ofByte c.flags with half := false, parity := false, subtract := false }
  /-- If the target begins within the source, the bytes before it are repeated. -/
  overlapping : 0 < c.ahead d → c.ahead d < c.count → ∀ i < c.count,
    c'.memory.read (d.along (c.registers.main.pair .de) i) =
      c.memory.read (d.along (c.registers.main.pair .hl) (i % c.ahead d))
  /-- Otherwise the target becomes what the source was. -/
  apart : c.ahead d = 0 ∨ c.count ≤ c.ahead d → ∀ i < c.count,
    c'.memory.read (d.along (c.registers.main.pair .de) i) =
      c.memory.read (d.along (c.registers.main.pair .hl) i)
  elsewhere : ∀ a, (∀ i < c.count, a ≠ d.along (c.registers.main.pair .de) i) →
    c'.memory.read a = c.memory.read a
  marks : c'.memory.marks = c.memory.marks
  accumulator : c'.accumulator = c.accumulator
  shadow : c'.registers.shadow = c.registers.shadow
  sp : c'.registers.sp = c.registers.sp
  pc : c'.registers.pc = c.registers.pc
  ix : c'.registers.ix = c.registers.ix
  iy : c'.registers.iy = c.registers.iy
  interrupts : c'.interrupts = c.interrupts

/-- **A repeated block transfer** moves a block. -/
theorem blockMoved_transferAll (d : Direction) {c : Core} (h : 0 < c.count) :
    c.BlockMoved d (c.transferAll .z80 d) := by
  have steps : c.Transferred d c.count (c.transferAll .z80 d) :=
    transferred_transferMany d c.count c
  have bound : c.count < 65536 := UInt16.toNat_lt _
  have empty : (c.transferAll .z80 d).registers.main.pair .bc = 0 := by
    rw [steps.bc]
    unfold count
    rw [UInt16.ofNat_toNat, UInt16.sub_self]
  have target : ∀ i < c.count,
      (c.transferAll .z80 d).memory.read (d.along (c.registers.main.pair .de) i) =
        c.memory.read (d.along (c.registers.main.pair .hl) (i % c.ahead d)) := fun i hi => by
    rw [steps.memory, Memory.read_copy_target _ (Nat.le_of_lt bound) hi]
    rfl
  exact {
    steps with
    bc := empty
    flags := by
      rw [steps.flags, if_neg (Nat.pos_iff_ne_zero.1 h), empty]
      rfl
    overlapping := fun _ _ i hi => target i hi
    apart := fun distinct i hi => by
      rw [target i hi]
      obtain same | far := distinct
      · rw [same, Nat.mod_zero]
      · rw [Nat.mod_eq_of_lt (Nat.lt_of_lt_of_le hi far)]
    elsewhere := fun a ha => by rw [steps.memory, Memory.read_copy_of_ne ha]
    marks := by rw [steps.memory, Memory.marks_copy] }

end Core

/-! ### The instruction -/

/-- The opcodes of repeated block transfers, which stand after a byte `ED`. -/
def Z80.repeatOpcode : Direction → UInt8
  | .up => 0xB0
  | .down => 0xB8

theorem Z80.exists_find?_repeatOpcode (d : Direction) :
    ∃ entry, Opcode.find? Z80.opcodes (some 0xED) false (repeatOpcode d) = some entry
      ∧ entry.registersOnly = false ∧ entry.operation = .block d true ∧ entry.dst = .absent
      ∧ entry.src = .absent := by
  cases d <;> exact ⟨_, rfl, rfl, rfl, rfl, rfl⟩

/-- The Z80 decodes a repeated block transfer where its two bytes are. -/
theorem Instruction.exists_decode_repeatOpcode {m : Memory} {a : UInt16} {d : Direction}
    (lead : m.read a = 0xED) (opcode : m.read (a + 1) = Z80.repeatOpcode d) :
    ∃ i, decode .z80 m a = .ok i ∧ i.operation = .block d true ∧ i.next = a + 2 := by
  obtain ⟨entry, found, anyOperands, operation, dst, src⟩ := Z80.exists_find?_repeatOpcode d
  have length : (ofEntry entry .z80 ⟨none, some 0xED, 1⟩ a (m.ahead a)).length = 2 := by
    rw [length_ofEntry, dst, src]
    rfl
  refine ⟨_, decode_eq_ok_iff.2 (decodeWith_eq_ok_iff.2
    ⟨⟨none, some 0xED, 1⟩, entry, ?_, ?_, ?_, rfl, ?_⟩), operation, ?_⟩
  · rw [Lead.read?, m.ahead_zero, lead]
    rfl
  · rw [m.ahead_one, opcode]
    exact found
  · rw [anyOperands, Bool.false_and]
  · unfold defect?
    rw [length, if_neg (by decide), if_neg, if_neg]
    · rintro ⟨indexed, -⟩
      cases indexed
    · rintro ⟨moves, -⟩
      cases operation.symm.trans moves
  · rw [next, length]
    rfl

namespace Machine

variable {ι σ : Type}

/-- The step of a machine in front of a repeated block transfer. -/
theorem step_at_repeatOpcode (bus : Peripherals ι σ) {m : Machine ι σ} {d : Direction}
    (z80 : m.variant = .z80) (awake : m.isHalted = false)
    (lead : m.core.memory.read m.pc = 0xED)
    (opcode : m.core.memory.read (m.pc + 1) = Z80.repeatOpcode d) :
    ∃ console, m.step bus =
      ({ m with
        fault := none
        lastPC := m.pc
        phase := .fetch
        console := console
        core := (m.core.jump (m.pc + 2)).transferAll .z80 d }, .stop .finished) := by
  obtain ⟨i, decoded, operation, next⟩ := Instruction.exists_decode_repeatOpcode lead opcode
  rw [← z80] at decoded
  have effect : i.effect? m.variant.layout (m.core.jump i.next) =
      some (.done ((m.core.jump (m.pc + 2)).transferAll .z80 d)) := by
    unfold Instruction.effect?
    rw [operation, next, z80]
    rfl
  exact exists_step_eq_of_done ⟨awake, decoded⟩ bus effect

/-- **Repeated block transfers.** On a Z80 that has not halted a step at such an instruction is
finished after as many bytes have been copied as BC counts, and leaves everything but the core as it
was, apart from what tells of the last instruction. If there is nothing to copy, only the program
counter changes; otherwise the core is that of a moved block, with the program counter behind the
instruction. -/
theorem step_repeated_transfer (bus : Peripherals ι σ) {m : Machine ι σ} {d : Direction}
    (z80 : m.variant = .z80) (awake : m.isHalted = false)
    (lead : m.core.memory.read m.pc = 0xED)
    (opcode : m.core.memory.read (m.pc + 1) = Z80.repeatOpcode d) :
    let behind := m.core.jump (m.pc + 2)
    ∃ c console,
      m.step bus =
        ({ m with
          fault := none
          lastPC := m.pc
          phase := .fetch
          console := console
          core := c }, .stop .finished) ∧
      c = behind.transferMany .z80 d m.core.count ∧
      (∀ n ≤ m.core.count, (behind.transferMany .z80 d n).count = m.core.count - n) ∧
      (m.core.count = 0 → c = behind) ∧
      (0 < m.core.count → behind.BlockMoved d c) := by
  intro behind
  obtain ⟨console, stepped⟩ := step_at_repeatOpcode bus z80 awake lead opcode
  rw [← m.core.count_jump (m.pc + 2)]
  refine ⟨_, console, stepped, rfl, fun n => Core.count_transferMany d, fun nothing => ?_,
    Core.blockMoved_transferAll d⟩
  show behind.transferMany .z80 d behind.count = behind
  rw [nothing]
  rfl

end Machine

/-- A machine about to copy five bytes downwards, of which only the first two are there before. -/
def Machine.repeating : Machine Empty Unit :=
  ((Machine.start .z80 () none).load 2 [0x11, 0x22, 0xED, 0xB8]).alterCore
    fun c => (((c.set16 (.pair .hl) 3).set16 (.pair .de) 1).set16 (.pair .bc) 5).jump 4

/-- The two bytes are repeated across the end of memory. -/
theorem Machine.step_repeated_transfer_repeating :
    (repeating.variant = .z80 ∧ repeating.isHalted = false
      ∧ repeating.core.memory.read repeating.pc = 0xED
      ∧ repeating.core.memory.read (repeating.pc + 1) = Z80.repeatOpcode .down) ∧
    (repeating.step .empty).2 = .stop .finished ∧
    (repeating.step .empty).1.core.registers.main.pair .hl = 0xFFFE ∧
    (repeating.step .empty).1.core.memory.read 0xFFFE = 0x11 := by
  have lead : repeating.core.memory.read repeating.pc = 0xED := by decide +kernel
  have opcode : repeating.core.memory.read (repeating.pc + 1) = Z80.repeatOpcode .down := by
    decide +kernel
  refine ⟨⟨rfl, rfl, lead, opcode⟩, ?_⟩
  obtain ⟨c, console, stepped, -, -, -, moved⟩ :=
    step_repeated_transfer Peripherals.empty rfl rfl lead opcode
  have moved := moved (by decide +kernel)
  rw [stepped]
  refine ⟨rfl, moved.hl.trans (by decide +kernel), ?_⟩
  have last := moved.overlapping (by decide +kernel) (by decide +kernel) 3 (by decide +kernel)
  exact last.trans (by decide +kernel)

end Micro80
