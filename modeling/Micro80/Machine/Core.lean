import Micro80.Instruction.Operand
import Micro80.Memory

/-!
# The core of a machine

The core is what instructions work on: the registers, the memory and the interrupt flip-flop. Every
operand that can be read or written stands for a place in the core, which is a register or a cell of
memory, so that execution need not tell operands apart.

Flags never enter a register without being fixed to the bits that the processor has.

## Main definitions

* `Core`.
* `Place8`, `Place16`: where a byte or a word is kept.
* `Operand.place8?`, `Operand.place16?`: the place for which an operand stands.
* `Core.push`, `Core.pop`: the stack.
* `Core.transfer`, `Core.transferAll`: copying a block.
-/

namespace Micro80

/-- **Cores.** -/
structure Core where
  registers : Registers
  memory : Memory
  /-- Whether interrupts are enabled. -/
  interrupts : Bool

/-- **Places of bytes.** -/
inductive Place8 where
  /-- A byte register. -/
  | register (r : Reg8)
  /-- A cell of memory. -/
  | cell (a : UInt16)
  deriving DecidableEq

/-- **Places of words.** -/
inductive Place16 where
  /-- A word register. -/
  | register (r : Reg16)
  /-- Two cells of memory, the first for the low byte. -/
  | cells (a : UInt16)
  deriving DecidableEq

/-! ### From operands to places -/

/-- An address at a signed distance from another one. -/
def displaced (a : UInt16) (d : Int8) : UInt16 := a + d.toInt16.toUInt16

namespace Operand

/-- The place of a byte for which an operand stands. -/
def place8? (o : Operand) (s : Registers) : Option Place8 :=
  match o with
  | reg8 r => some (.register r)
  | indirect p => some (.cell (s.main.pair p))
  | indexed x d => some (.cell (displaced (s.get16 x.register) d))
  | direct a => some (.cell a)
  | _ => none

/-- The place of a word for which an operand stands. -/
def place16? (o : Operand) (s : Registers) : Option Place16 :=
  match o with
  | reg16 r => some (.register r)
  | direct16 a => some (.cells a)
  | stackTop => some (.cells s.sp)
  | _ => none

/-- Whether an operand that may be a condition lets an instruction take effect. -/
def permits (o : Operand) (f : UInt8) : Bool :=
  match o with
  | condition k => k.holds f
  | _ => true

end Operand

namespace Core

/-! ### Reading and writing -/

/-- The flags. -/
def flags (c : Core) : UInt8 := c.registers.flags

/-- The accumulator. -/
def accumulator (c : Core) : UInt8 := c.registers.accumulator

/-- The core after a byte register other than the flags has been loaded. -/
def set8 (c : Core) (r : Reg8) (b : UInt8) : Core :=
  { c with registers := c.registers.set8 r b }

/-- The core after a word register other than AF has been loaded. -/
def set16 (c : Core) (r : Reg16) (w : UInt16) : Core :=
  { c with registers := c.registers.set16 r w }

/-- **Setting flags.** Bits that the processor does not have are fixed. -/
def setFlags (L : FlagLayout) (c : Core) (f : UInt8) : Core := c.set8 .f (L.fix f)

/-- The core after the accumulator and the flags have taken a result. -/
def setResult (L : FlagLayout) (c : Core) (r : AluResult UInt8) : Core :=
  (c.set8 .a r.value).setFlags L r.flags

/-- The core with the program counter at an address. -/
def jump (c : Core) (a : UInt16) : Core := c.set16 .pc a

/-- The byte at a place. -/
def read8 (c : Core) : Place8 → UInt8
  | .register r => c.registers.get8 r
  | .cell a => c.memory.read a

/-- The core after a byte has been stored at a place. -/
def write8 (L : FlagLayout) (c : Core) (p : Place8) (b : UInt8) : Core :=
  match p with
  | .register .f => c.setFlags L b
  | .register r => c.set8 r b
  | .cell a => { c with memory := c.memory.write a b }

/-- The word at a place. -/
def read16 (c : Core) : Place16 → UInt16
  | .register r => c.registers.get16 r
  | .cells a => c.memory.readWord a

/-- The core after a word has been stored at a place. -/
def write16 (L : FlagLayout) (c : Core) (p : Place16) (w : UInt16) : Core :=
  match p with
  | .register (.pair .af) => (c.set8 .a (highByte w)).setFlags L (lowByte w)
  | .register r => c.set16 r w
  | .cells a => { c with memory := c.memory.writeWord a w }

/-- The byte for which an operand stands. -/
def value8? (c : Core) (o : Operand) : Option UInt8 :=
  match o with
  | .imm8 b => some b
  | o => (o.place8? c.registers).map c.read8

/-- The word for which an operand stands. -/
def value16? (c : Core) (o : Operand) : Option UInt16 :=
  match o with
  | .imm16 w => some w
  | .address a | .relative a _ => some a
  | o => (o.place16? c.registers).map c.read16

/-- Loading registers leaves memory as it is. -/
@[simp] theorem memory_set8 (c : Core) (r : Reg8) (b : UInt8) : (c.set8 r b).memory = c.memory :=
  rfl

@[simp] theorem memory_set16 (c : Core) (r : Reg16) (w : UInt16) :
    (c.set16 r w).memory = c.memory := rfl

@[simp] theorem memory_setFlags (L : FlagLayout) (c : Core) (f : UInt8) :
    (c.setFlags L f).memory = c.memory := rfl

@[simp] theorem memory_jump (c : Core) (a : UInt16) : (c.jump a).memory = c.memory := rfl

/-- Flags that have been set are the fixed ones. -/
@[simp] theorem flags_setFlags (L : FlagLayout) (c : Core) (f : UInt8) :
    (c.setFlags L f).flags = L.fix f := rfl

/-- Storing a byte changes memory in its own cell only, and not at all if its place is a
register. -/
theorem memory_write8 (L : FlagLayout) (c : Core) (p : Place8) (b : UInt8) :
    (c.write8 L p b).memory
      = match p with
        | .register _ => c.memory
        | .cell a => c.memory.write a b := by
  cases p with
  | cell a => rfl
  | register r => cases r <;> rfl

/-- Storing a word changes memory in its own two cells only, and not at all if its place is a
register. -/
theorem memory_write16 (L : FlagLayout) (c : Core) (p : Place16) (w : UInt16) :
    (c.write16 L p w).memory
      = match p with
        | .register _ => c.memory
        | .cells a => c.memory.writeWord a w := by
  cases p with
  | cells a => rfl
  | register r =>
    cases r with
    | pair q => cases q <;> rfl
    | sp | ix | iy | pc => rfl

/-! ### The stack -/

/-- The core after a word has been pushed: the stack grows towards lower addresses. -/
def push (c : Core) (w : UInt16) : Core :=
  let sp := c.registers.sp
  let memory := (c.memory.write (sp - 1) (highByte w)).write (sp - 2) (lowByte w)
  { c with memory := memory, registers := c.registers.set16 .sp (sp - 2) }

/-- The word on top of the stack. -/
def top (c : Core) : UInt16 := c.memory.readWord c.registers.sp

/-- The core after the word on top of the stack has been popped. -/
def pop (c : Core) : Core := c.set16 .sp (c.registers.sp + 2)

/-! ### Block transfers -/

/-- **One step of a block transfer.** Copies the byte to which HL points to where DE points, moves
both, and counts BC down. The parity flag tells that there is more to count. -/
def transfer (L : FlagLayout) (d : Direction) (c : Core) : Core :=
  let s := c.registers
  let hl := s.main.pair .hl
  let de := s.main.pair .de
  let bc := s.main.pair .bc - 1
  let old := Flags.ofByte s.flags
  let registers :=
    ((s.set16 (.pair .hl) (d.next hl)).set16 (.pair .de) (d.next de)).set16 (.pair .bc) bc
  let memory := c.memory.write de (c.memory.read hl)
  { c with memory := memory, registers := registers }.setFlags L
    { old with half := false, parity := bc != 0, subtract := false }.toByte

section

variable (L : FlagLayout) (d : Direction) (c : Core)

/-- The pairs other than AF, which holds the flags. -/
theorem pair_transfer {p : Pair} (h : p ≠ .af) :
    (c.transfer L d).registers.main.pair p =
      (((c.registers.main.setPair .hl (d.next (c.registers.main.pair .hl))).setPair .de
        (d.next (c.registers.main.pair .de))).setPair .bc
          (c.registers.main.pair .bc - 1)).pair p := by
  cases p with
  | af => exact absurd rfl h
  | bc | de | hl => rfl

@[simp] theorem pair_hl_transfer :
    (c.transfer L d).registers.main.pair .hl = d.next (c.registers.main.pair .hl) := by
  simp [pair_transfer]

@[simp] theorem pair_de_transfer :
    (c.transfer L d).registers.main.pair .de = d.next (c.registers.main.pair .de) := by
  simp [pair_transfer]

@[simp] theorem pair_bc_transfer :
    (c.transfer L d).registers.main.pair .bc = c.registers.main.pair .bc - 1 := by
  simp [pair_transfer]

theorem memory_transfer :
    (c.transfer L d).memory =
      c.memory.write (c.registers.main.pair .de)
        (c.memory.read (c.registers.main.pair .hl)) := rfl

theorem flags_transfer :
    (c.transfer L d).flags =
      L.encode
        { Flags.ofByte c.flags with
          half := false
          parity := c.registers.main.pair .bc - 1 != 0
          subtract := false } := rfl

end

/-- The core after some steps of a block transfer. -/
def transferMany (L : FlagLayout) (d : Direction) : (steps : Nat) → Core → Core
  | 0, c => c
  | steps + 1, c => transferMany L d steps (c.transfer L d)

/-- **Block transfers.** As many steps as BC counts, and none at all if BC is zero. -/
def transferAll (L : FlagLayout) (d : Direction) (c : Core) : Core :=
  c.transferMany L d (c.registers.main.pair .bc).toNat

end Core

end Micro80
