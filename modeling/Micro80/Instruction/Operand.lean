import Micro80.Instruction.Operation
import Micro80.Registers

/-!
# Operands

A decoded operand says completely where a value comes from or goes to. Whoever executes or shows
an instruction looks at its operands and never at its bytes.

## Main definitions

* `Index`: the two index registers.
* `Operand`, with `Operand.isMemory` and `Operand.isIndexed`.
-/

namespace Micro80

/-- **Index registers.** -/
inductive Index where
  | ix | iy
  deriving DecidableEq

namespace Index

/-- An index register among the word registers. -/
def register : Index → Reg16
  | ix => .ix
  | iy => .iy

/-- The byte in front of an instruction that puts an index register in the place of HL. -/
def lead : Index → UInt8
  | ix => 0xDD
  | iy => 0xFD

/-- The index register that a byte in front of an instruction selects. -/
def ofLead? (b : UInt8) : Option Index :=
  if b = 0xDD then some ix else if b = 0xFD then some iy else none

@[simp] theorem ofLead?_lead (x : Index) : ofLead? x.lead = some x := by
  cases x <;> rfl

end Index

/-- **Operands.** -/
inductive Operand where
  /-- There is no operand. -/
  | absent
  /-- A byte register. -/
  | reg8 (r : Reg8)
  /-- A word register. -/
  | reg16 (r : Reg16)
  /-- The byte itself. -/
  | imm8 (b : UInt8)
  /-- The word itself. -/
  | imm16 (w : UInt16)
  /-- The byte in memory to which a pair points. -/
  | indirect (p : Pair)
  /-- The byte in memory at a distance from where an index register points. -/
  | indexed (x : Index) (d : Int8)
  /-- The byte at an address. -/
  | direct (a : UInt16)
  /-- The word at an address. -/
  | direct16 (a : UInt16)
  /-- The word on top of the stack. -/
  | stackTop
  /-- An address to go to. -/
  | address (a : UInt16)
  /-- An address to go to, given by its distance. -/
  | relative (a : UInt16) (d : Int8)
  /-- A condition. -/
  | condition (k : Condition)
  /-- The address of a restart routine. -/
  | restart (a : UInt16)
  /-- The number of a bit. -/
  | bit (n : Fin 8)
  /-- A port. -/
  | port (p : UInt8)
  /-- The port whose number is in register C. -/
  | portC
  deriving DecidableEq

namespace Operand

/-- Whether an operand is a byte or word at an address that is not the top of the stack. -/
def isMemory : Operand → Bool
  | indirect _ | indexed .. | direct _ | direct16 _ => true
  | _ => false

/-- Whether an operand is a byte to which an index register points. -/
def isIndexed : Operand → Bool
  | indexed .. => true
  | _ => false

/-- Whether an operand is or uses an index register. -/
def usesIndex : Operand → Bool
  | indexed .. | reg16 .ix | reg16 .iy => true
  | _ => false

/-- Whether an operand is one of the halves of HL. -/
def isHalfOfHL : Operand → Bool
  | reg8 .h | reg8 .l => true
  | _ => false

/-- The word that an operand of a jump or call stands for. -/
def target? : Operand → Option UInt16
  | address a | relative a _ | restart a => some a
  | _ => none

end Operand

end Micro80
