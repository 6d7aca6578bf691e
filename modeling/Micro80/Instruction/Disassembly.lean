import Micro80.Instruction.Decode

/-!
# Disassembly

The text of an instruction is the name of its opcode with the operands filled in. The two
processors write operands in different ways: for the 8085 pairs have the names of their first
registers and memory to which HL points is called M, for the Z80 whatever is in memory stands in
parentheses.

## Main definitions

* `Operand.text`, `Instruction.text`.
* `Memory.disassemble`: the text at an address and how many bytes it accounts for.
-/

namespace Micro80

/-! ### Numbers -/

namespace Text

/-- A hexadecimal number as assemblers write it: with an H after it, and with a zero in front if it
would begin with a letter. -/
def suffixed (digits : Text) : Text :=
  let t := digits ++ ascii "H"
  if t.head?.any isLetter then ascii "0" ++ t else t

/-- A byte as assemblers write it. -/
def hexByte (b : UInt8) : Text := suffixed (hex 2 b.toNat)

/-- A word as assemblers write it. -/
def hexWord (w : UInt16) : Text := suffixed (hex 4 w.toNat)

/-- A text in parentheses. -/
def parenthesized (t : Text) : Text := ascii "(" ++ t ++ ascii ")"

end Text

/-! ### Names -/

/-- The name of a byte register. -/
def Reg8.name : Reg8 → Text
  | b => .ascii "B"
  | c => .ascii "C"
  | d => .ascii "D"
  | e => .ascii "E"
  | h => .ascii "H"
  | l => .ascii "L"
  | f => .ascii "F"
  | a => .ascii "A"

/-- The name of a pair. -/
def Pair.name (v : Variant) (p : Pair) : Text :=
  match v, p with
  | .i8085, bc => .ascii "B"
  | .i8085, de => .ascii "D"
  | .i8085, hl => .ascii "H"
  | .i8085, af => .ascii "PSW"
  | .z80, bc => .ascii "BC"
  | .z80, de => .ascii "DE"
  | .z80, hl => .ascii "HL"
  | .z80, af => .ascii "AF"

/-- The name of a word register. -/
def Reg16.name (v : Variant) : Reg16 → Text
  | pair p => p.name v
  | sp => .ascii "SP"
  | ix => .ascii "IX"
  | iy => .ascii "IY"
  | pc => .ascii "PC"

/-- The name of a condition. -/
def Condition.name : Condition → Text
  | nz => .ascii "NZ"
  | z => .ascii "Z"
  | nc => .ascii "NC"
  | c => .ascii "C"
  | po => .ascii "PO"
  | pe => .ascii "PE"
  | p => .ascii "P"
  | m => .ascii "M"

/-! ### Operands and instructions -/

/-- A distance with its sign. -/
def Operand.distance (d : Int8) : Text :=
  .ascii (if d < 0 then "-" else "+") ++ Text.hexByte (UInt8.ofNat d.toInt.natAbs)

/-- **The text of an operand.** -/
def Operand.text (v : Variant) : Operand → Text
  | absent => []
  | reg8 r => r.name
  | reg16 r => r.name v
  | imm8 b => .hexByte b
  | imm16 w | address w | relative w _ => .hexWord w
  | indirect p =>
    match v, p with
    | .z80, p => .parenthesized (p.name v)
    | .i8085, .hl => .ascii "M"
    | .i8085, p => p.name v
  | indexed x d => .parenthesized (x.register.name v ++ distance d)
  | direct a | direct16 a =>
    match v with
    | .z80 => .parenthesized (.hexWord a)
    | .i8085 => .hexWord a
  | stackTop => .ascii "(SP)"
  | condition k => k.name
  | restart a =>
    match v with
    | .z80 => .hexByte (lowByte a)
    | .i8085 => .decimal 1 (a.toNat / 8)
  | bit n => .decimal 1 n.val
  | port p =>
    match v with
    | .z80 => .parenthesized (.hexByte p)
    | .i8085 => .hexByte p
  | portC => .ascii "(C)"

namespace Instruction

/-- A name with texts in the places of its operands. -/
def fill (dst src : Text) : Text → Text
  | [] => []
  | 37 :: 68 :: rest => dst ++ fill dst src rest
  | 37 :: 83 :: rest => src ++ fill dst src rest
  | c :: rest => c :: fill dst src rest

/-- **The text of an instruction.** -/
def text (i : Instruction) : Text :=
  fill (i.dst.text i.variant) (i.src.text i.variant) i.entry.name

end Instruction

/-- **Disassembly.** The text of the instruction at an address and the number of its bytes. Where
there is no instruction, one byte is accounted for. -/
def Memory.disassemble (m : Memory) (v : Variant) (a : UInt16) : Nat × Text :=
  match Instruction.decode v m a with
  | .ok i => (i.length, i.text)
  | .error _ => (1, .ascii "invalid opcode")

end Micro80
