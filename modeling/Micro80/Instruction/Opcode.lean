import Micro80.Instruction.Encoding
import Micro80.Text

/-!
# Opcodes

An opcode table is a list of entries. Each entry stands for all opcode bytes that agree with its
code in the bits of its mask, and the first entry that matches decides. So an entry may be an
exception to a later one.

## Main definitions

* `Opcode`: an entry of a table.
* `Opcode.find?`: the first entry that matches.
-/

namespace Micro80

/-- **Opcodes.** An entry of an opcode table. -/
structure Opcode where
  /-- What is shown for an instruction; `%D` and `%S` stand for its operands. -/
  name : Text
  /-- The byte that has to stand in front of the opcode, if one has to. -/
  lead : Option UInt8
  /-- The opcode in the bits of the mask. -/
  code : UInt8
  /-- The bits of the opcode byte that matter. -/
  mask : UInt8
  /-- What the instruction does. -/
  operation : Operation
  /-- The destination, or the only operand of most operations. -/
  dst : Encoding
  /-- The source. -/
  src : Encoding
  /-- Whether an index register may take the place of HL. -/
  indexable : Bool
  /-- Whether the operands must be registers where they could be memory. -/
  registersOnly : Bool

namespace Opcode

/-! ### Entries -/

/-- An entry without a byte in front of it. -/
def plain (name : String) (code mask : UInt8) (operation : Operation) (dst src : Encoding) :
    Opcode where
  name := .ascii name
  lead := none
  code := code
  mask := mask
  operation := operation
  dst := dst
  src := src
  indexable := false
  registersOnly := false

/-- An entry without a byte in front of it in which an index register may take the place of HL. -/
def indexed (name : String) (code mask : UInt8) (operation : Operation) (dst src : Encoding) :
    Opcode :=
  { plain name code mask operation dst src with indexable := true }

/-- An entry with a byte in front of it. -/
def led (lead : UInt8) (name : String) (code mask : UInt8) (operation : Operation)
    (dst src : Encoding) : Opcode :=
  { plain name code mask operation dst src with lead := some lead }

/-- An entry with a byte in front of it whose operands must be registers. -/
def ledRegister (lead : UInt8) (name : String) (code mask : UInt8) (operation : Operation)
    (dst src : Encoding) : Opcode :=
  { led lead name code mask operation dst src with registersOnly := true }

/-! ### Matching -/

/-- Whether an entry stands for an opcode byte, given the byte in front of it and whether an index
register is to take the place of HL. -/
def matching (e : Opcode) (lead : Option UInt8) (isIndexed : Bool) (opcode : UInt8) : Bool :=
  e.lead == lead && opcode &&& e.mask == e.code && (!isIndexed || e.indexable)

/-- **First match.** The entry of a table that decides what an opcode byte means. -/
def find? (table : List Opcode) (lead : Option UInt8) (isIndexed : Bool) (opcode : UInt8) :
    Option Opcode :=
  table.find? fun e => e.matching lead isIndexed opcode

/-- Whether one of the operands is the byte to which HL points, or its indexed counterpart. -/
def selectsMemory (e : Opcode) (opcode : UInt8) : Bool :=
  e.dst.selectsMemory opcode || e.src.selectsMemory opcode

/-- An entry of the first of two tables decides before any of the second. -/
theorem find?_append (table others : List Opcode) (lead : Option UInt8) (isIndexed : Bool)
    (opcode : UInt8) :
    find? (table ++ others) lead isIndexed opcode
      = (find? table lead isIndexed opcode).or (find? others lead isIndexed opcode) :=
  List.find?_append

end Opcode

end Micro80
