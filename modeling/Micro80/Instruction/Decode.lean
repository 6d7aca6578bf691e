import Micro80.Instruction.Table
import Micro80.Memory

/-!
# Decoding

Decoding looks at the bytes from an address on and finds the instruction they begin with, or the
reason why there is none. It changes nothing, and it depends on nothing but those bytes, apart
from the targets of relative jumps, which are counted from the address.

The steps are the same for every table: what stands in front of the opcode is read, the first
matching entry is taken, the distance from an index register is read if an operand needs one, and
then each operand takes the bytes of its encoding, destination first.

## Main definitions

* `DecodeError`: the ways in which decoding fails.
* `Instruction`: a decoded instruction.
* `Instruction.decodeWith`: decoding by any table.
* `Instruction.decode`: decoding by the table of a processor.
-/

namespace Micro80

/-- **Decode errors.** -/
inductive DecodeError where
  /-- No entry of the table stands for the bytes, or they ask for what it excludes. -/
  | illegalOpcode
  /-- A byte would be moved from memory to memory. -/
  | memoryToMemory
  /-- There is no such instruction, but the other processor has it. -/
  | wrongVariant
  /-- The instruction has more bytes than any instruction may have. -/
  | tooLong
  deriving DecidableEq

/-- The text for a decode error. -/
def DecodeError.message : DecodeError → Text
  | illegalOpcode => .ascii "illegal opcode"
  | memoryToMemory => .ascii "illegal memory to memory move"
  | wrongVariant => .ascii "opcode not implemented on this CPU"
  | tooLong => .ascii "instruction too long"

/-- The text for the outcome of decoding. -/
def DecodeError.status : Option DecodeError → Text
  | none => .ascii "no error"
  | some e => e.message

/-! ### Before the opcode -/

/-- **Leads.** What the bytes in front of an opcode say. -/
structure Lead where
  /-- The index register in the place of HL. -/
  index : Option Index
  /-- The byte that selects other entries of the table. -/
  page : Option UInt8
  /-- How many bytes there are. -/
  size : Nat

namespace Lead

/-- The lead of an instruction that begins with its opcode. -/
def empty : Lead := ⟨none, none, 0⟩

/-- Whether a byte selects other entries of the table. -/
def isPage (b : UInt8) : Bool := b == 0xCB || b == 0xED

/-- **Reading leads.** The 8085 has none. On the Z80 a byte may choose an index register and a byte
may select other entries, but not both, and no instruction has two index registers. -/
def read? (v : Variant) (byte : Nat → UInt8) : Option Lead :=
  match v with
  | .i8085 => some empty
  | .z80 =>
    match Index.ofLead? (byte 0) with
    | none => some (if isPage (byte 0) then ⟨none, some (byte 0), 1⟩ else empty)
    | some x =>
      if isPage (byte 1) || (Index.ofLead? (byte 1)).isSome then none else some ⟨some x, none, 1⟩

end Lead

/-! ### Instructions -/

/-- **Instructions.** Everything that can be known about an instruction without executing it. -/
structure Instruction where
  /-- The entry of the table that decided. -/
  entry : Opcode
  /-- The processor for which it was decoded. -/
  variant : Variant
  /-- The address of its first byte. -/
  address : UInt16
  /-- Its bytes. -/
  bytes : List UInt8
  /-- The index register in the place of HL. -/
  index : Option Index
  /-- The destination, or the only operand of most operations. -/
  dst : Operand
  /-- The source. -/
  src : Operand

namespace Instruction

/-- What an instruction does. -/
def operation (i : Instruction) : Operation := i.entry.operation

/-- The number of bytes of an instruction. -/
def length (i : Instruction) : Nat := i.bytes.length

/-- The address after an instruction. -/
def next (i : Instruction) : UInt16 := i.address + UInt16.ofNat i.length

/-- The greatest number of bytes that an instruction may have. -/
def maxLength : Nat := 4

/-- **Assembling an instruction** from the entry that decided and the bytes. A distance from an
index register stands before the bytes of the operands. -/
def ofEntry (entry : Opcode) (v : Variant) (lead : Lead) (address : UInt16) (byte : Nat → UInt8) :
    Instruction :=
  let opcode := byte lead.size
  let spaced := lead.index.isSome && entry.selectsMemory opcode
  let context : Encoding.Context :=
    { opcode := opcode
      index := lead.index
      displacement := if spaced then (byte (lead.size + 1)).toInt8 else 0
      start := address
      byte := byte }
  let dstAt := lead.size + 1 + spaced.toNat
  let srcAt := dstAt + entry.dst.size
  { entry := entry
    variant := v
    address := address
    bytes := (List.range (srcAt + entry.src.size)).map byte
    index := lead.index
    dst := entry.dst.operand context dstAt
    src := entry.src.operand context srcAt }

/-- Whether the index register of an instruction does what it is documented to do: an operand is or
uses it, and halves of HL occur beside a byte to which it points only. -/
def usesIndexWell (i : Instruction) : Bool :=
  (i.dst.usesIndex || i.src.usesIndex)
    && (!(i.dst.isHalfOfHL || i.src.isHalfOfHL) || i.dst.isIndexed || i.src.isIndexed)

/-- What is wrong with an instruction that a table allows, if anything is. -/
def defect? (i : Instruction) : Option DecodeError :=
  if maxLength < i.length then some .tooLong
  else if i.operation = .move ∧ i.dst.isMemory ∧ i.src.isMemory then some .memoryToMemory
  else if i.index.isSome ∧ !i.usesIndexWell then some .illegalOpcode
  else none

/-- **Decoding by a table.** The instruction that begins with the given bytes. -/
def decodeWith (table : List Opcode) (v : Variant) (address : UInt16) (byte : Nat → UInt8) :
    Except DecodeError Instruction :=
  match Lead.read? v byte with
  | none => .error .illegalOpcode
  | some lead =>
    match Opcode.find? table lead.page lead.index.isSome (byte lead.size) with
    | none => .error .illegalOpcode
    | some entry =>
      if entry.registersOnly && entry.selectsMemory (byte lead.size) then .error .illegalOpcode
      else
        let i := ofEntry entry v lead address byte
        match i.defect? with
        | some e => .error e
        | none => .ok i

/-- Decoding by the table of a processor, without a look at the other processor. -/
def decodeOwn (v : Variant) (m : Memory) (a : UInt16) : Except DecodeError Instruction :=
  decodeWith v.opcodes v a (m.ahead a)

/-- **Decoding.** The instruction at an address. Where there is no entry for it, the other processor
tells whether the instruction exists at all. -/
def decode (v : Variant) (m : Memory) (a : UInt16) : Except DecodeError Instruction :=
  match decodeOwn v m a with
  | .error .illegalOpcode =>
    match decodeOwn v.other m a with
    | .ok _ => .error .wrongVariant
    | .error _ => .error .illegalOpcode
  | r => r

end Instruction

end Micro80
