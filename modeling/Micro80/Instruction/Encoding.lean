import Micro80.Instruction.Operand

/-!
# Encodings of operands

An opcode table does not list operands but how they are encoded: in a field of the opcode byte, in
bytes that follow it, or not at all because the operation implies them.

Codes of byte registers leave out 6, which stands for the byte in memory to which HL points. An
index register takes the place of HL, and the byte in memory is then at a distance from it.

## Main definitions

* `Encoding`, with `Encoding.size` for the bytes that follow the opcode.
* `Encoding.operand`: the operand that an encoding stands for.
-/

namespace Micro80

/-! ### Fields of the opcode byte -/

namespace Field

/-- Bits 5 to 3. -/
def high (opcode : UInt8) : Fin 8 := ⟨opcode.toNat / 8 % 8, Nat.mod_lt _ (by decide)⟩

/-- Bits 2 to 0. -/
def low (opcode : UInt8) : Fin 8 := ⟨opcode.toNat % 8, Nat.mod_lt _ (by decide)⟩

/-- Bits 5 to 4. -/
def pair (opcode : UInt8) : Fin 4 := ⟨opcode.toNat / 16 % 4, Nat.mod_lt _ (by decide)⟩

/-- Bits 4 to 3, as the number of one of the first four conditions. -/
def short (opcode : UInt8) : Fin 8 := ⟨opcode.toNat / 8 % 4, by omega⟩

end Field

/-- The byte register with a given code; 6 stands for memory. -/
def Reg8.ofCode? : Fin 8 → Option Reg8
  | 0 => some .b
  | 1 => some .c
  | 2 => some .d
  | 3 => some .e
  | 4 => some .h
  | 5 => some .l
  | 6 => none
  | 7 => some .a

/-- The register that stands where HL does without an index register. -/
def Index.orHL : Option Index → Reg16
  | none => .pair .hl
  | some x => x.register

/-! ### Encodings -/

/-- **Encodings.** How an operand is found. -/
inductive Encoding where
  /-- There is no operand. -/
  | absent
  /-- The accumulator, implied. -/
  | accumulator
  /-- A byte register or memory in bits 5 to 3. -/
  | high
  /-- A byte register or memory in bits 2 to 0. -/
  | low
  /-- BC, DE, HL or SP in bits 5 to 4. -/
  | pair
  /-- BC, DE, HL or AF in bits 5 to 4. -/
  | pairAF
  /-- HL, implied. -/
  | hl
  /-- DE, implied. -/
  | de
  /-- SP, implied. -/
  | sp
  /-- The byte to which BC points, implied. -/
  | atBC
  /-- The byte to which DE points, implied. -/
  | atDE
  /-- The word on top of the stack, implied. -/
  | atSP
  /-- A byte that follows. -/
  | imm8
  /-- A word that follows. -/
  | imm16
  /-- The byte at the address that follows. -/
  | direct8
  /-- The word at the address that follows. -/
  | direct16
  /-- The address to go to follows. -/
  | address
  /-- The distance to go follows, counted from the byte after it. -/
  | relative
  /-- A condition in bits 5 to 3. -/
  | condition
  /-- One of the first four conditions in bits 4 to 3. -/
  | shortCondition
  /-- The address of a restart routine is the opcode's bits 5 to 3 in their place. -/
  | restart
  /-- The number of a bit in bits 5 to 3. -/
  | bit
  /-- The port follows. -/
  | port
  /-- The port is in register C, implied. -/
  | portC
  deriving DecidableEq

namespace Encoding

/-- The number of bytes that follow the opcode for an operand. -/
def size : Encoding → Nat
  | imm8 | relative | port => 1
  | imm16 | direct8 | direct16 | address => 2
  | _ => 0

/-- Whether an encoding selects the byte to which HL points, or its indexed counterpart. -/
def selectsMemory (e : Encoding) (opcode : UInt8) : Bool :=
  match e with
  | high => (Field.high opcode).val == 6
  | low => (Field.low opcode).val == 6
  | _ => false

/-- **Context.** What the operands of one instruction have in common. -/
structure Context where
  /-- The opcode byte. -/
  opcode : UInt8
  /-- The index register in the place of HL. -/
  index : Option Index
  /-- The distance from the index register. -/
  displacement : Int8
  /-- The address of the first byte. -/
  start : UInt16
  /-- The bytes of the instruction and those after it. -/
  byte : Nat → UInt8

/-- The word whose low byte is the one with the given number. -/
def Context.word (c : Context) (i : Nat) : UInt16 :=
  Micro80.word (c.byte (i + 1)) (c.byte i)

/-- The operand for a register code. -/
def Context.byCode (c : Context) (code : Fin 8) : Operand :=
  match Reg8.ofCode? code, c.index with
  | some r, _ => .reg8 r
  | none, some x => .indexed x c.displacement
  | none, none => .indirect .hl

/-- The register for a code of a pair. The last code stands for different registers. -/
def Context.pairByCode (c : Context) (last : Reg16) : Fin 4 → Reg16
  | 0 => .pair .bc
  | 1 => .pair .de
  | 2 => Index.orHL c.index
  | 3 => last

/-- **Decoded operands.** The operand for an encoding whose own bytes, if it has any, begin with
the one numbered `i`. -/
def operand (e : Encoding) (c : Context) (i : Nat) : Operand :=
  match e with
  | absent => .absent
  | accumulator => .reg8 .a
  | high => c.byCode (Field.high c.opcode)
  | low => c.byCode (Field.low c.opcode)
  | pair => .reg16 (c.pairByCode .sp (Field.pair c.opcode))
  | pairAF => .reg16 (c.pairByCode (.pair .af) (Field.pair c.opcode))
  | hl => .reg16 (Index.orHL c.index)
  | de => .reg16 (.pair .de)
  | sp => .reg16 .sp
  | atBC => .indirect .bc
  | atDE => .indirect .de
  | atSP => .stackTop
  | imm8 => .imm8 (c.byte i)
  | imm16 => .imm16 (c.word i)
  | direct8 => .direct (c.word i)
  | direct16 => .direct16 (c.word i)
  | address => .address (c.word i)
  | relative =>
    let d := (c.byte i).toInt8
    .relative (c.start + UInt16.ofNat (i + 1) + d.toInt16.toUInt16) d
  | condition => .condition (.ofCode (Field.high c.opcode))
  | shortCondition => .condition (.ofCode (Field.short c.opcode))
  | restart => .restart (c.opcode &&& 0x38).toUInt16
  | bit => .bit (Field.high c.opcode)
  | port => .port (c.byte i)
  | portC => .portC

end Encoding

end Micro80
