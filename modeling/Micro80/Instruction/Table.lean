import Micro80.Instruction.Opcode
import Micro80.Variant

/-!
# Opcode tables

The instruction sets of the two processors, each under the names that its users know. There is no
interrupt system, so the 8085 lacks RIM and SIM, and the Z80 has neither interrupt modes nor their
returns. Of the Z80's further instructions the block searches, block input and output, and digit
rotates are left out, and no bit instruction takes an index register.

The halt instruction is in the place of the move from memory to memory, so it stands first.

## Main definitions

* `I8085.opcodes`, `Z80.opcodes`.
* `Variant.opcodes`: the table of a processor.
-/

namespace Micro80

/-! ### The 8085 -/

namespace I8085

/-- Moves and exchanges. -/
def moves : List Opcode :=
  [ .plain "HLT" 0x76 0xFF .halt .absent .absent,
    .plain "MOV\t%D,%S" 0x40 0xC0 .move .high .low,
    .plain "MVI\t%D,%S" 0x06 0xC7 .move .high .imm8,
    .plain "LXI\t%D,%S" 0x01 0xCF .move16 .pair .imm16,
    .plain "LDA\t%S" 0x3A 0xFF .move .accumulator .direct8,
    .plain "STA\t%D" 0x32 0xFF .move .direct8 .accumulator,
    .plain "LHLD\t%S" 0x2A 0xFF .move16 .hl .direct16,
    .plain "SHLD\t%D" 0x22 0xFF .move16 .direct16 .hl,
    .plain "LDAX\t%S" 0x0A 0xFF .move .accumulator .atBC,
    .plain "LDAX\t%S" 0x1A 0xFF .move .accumulator .atDE,
    .plain "STAX\t%D" 0x02 0xFF .move .atBC .accumulator,
    .plain "STAX\t%D" 0x12 0xFF .move .atDE .accumulator,
    .plain "XCHG" 0xEB 0xFF .exchangeDEHL .de .hl,
    .plain "XTHL" 0xE3 0xFF .exchangeTop .atSP .hl,
    .plain "SPHL" 0xF9 0xFF .move16 .sp .hl ]

/-- Arithmetic and logic. -/
def arithmetic : List Opcode :=
  [ .plain "ADD\t%S" 0x80 0xF8 (.arithmetic .add) .accumulator .low,
    .plain "ADC\t%S" 0x88 0xF8 (.arithmetic .adc) .accumulator .low,
    .plain "SUB\t%S" 0x90 0xF8 (.arithmetic .sub) .accumulator .low,
    .plain "SBB\t%S" 0x98 0xF8 (.arithmetic .sbc) .accumulator .low,
    .plain "ANA\t%S" 0xA0 0xF8 (.arithmetic .and) .accumulator .low,
    .plain "XRA\t%S" 0xA8 0xF8 (.arithmetic .xor) .accumulator .low,
    .plain "ORA\t%S" 0xB0 0xF8 (.arithmetic .or) .accumulator .low,
    .plain "CMP\t%S" 0xB8 0xF8 (.arithmetic .cp) .accumulator .low,
    .plain "ADI\t%S" 0xC6 0xFF (.arithmetic .add) .accumulator .imm8,
    .plain "ACI\t%S" 0xCE 0xFF (.arithmetic .adc) .accumulator .imm8,
    .plain "SUI\t%S" 0xD6 0xFF (.arithmetic .sub) .accumulator .imm8,
    .plain "SBI\t%S" 0xDE 0xFF (.arithmetic .sbc) .accumulator .imm8,
    .plain "ANI\t%S" 0xE6 0xFF (.arithmetic .and) .accumulator .imm8,
    .plain "XRI\t%S" 0xEE 0xFF (.arithmetic .xor) .accumulator .imm8,
    .plain "ORI\t%S" 0xF6 0xFF (.arithmetic .or) .accumulator .imm8,
    .plain "CPI\t%S" 0xFE 0xFF (.arithmetic .cp) .accumulator .imm8,
    .plain "INR\t%D" 0x04 0xC7 .inc .high .absent,
    .plain "DCR\t%D" 0x05 0xC7 .dec .high .absent,
    .plain "INX\t%D" 0x03 0xCF .inc16 .pair .absent,
    .plain "DCX\t%D" 0x0B 0xCF .dec16 .pair .absent,
    .plain "DAD\t%S" 0x09 0xCF (.arithmetic16 .add) .hl .pair,
    .plain "DAA" 0x27 0xFF .daa .accumulator .absent,
    .plain "CMA" 0x2F 0xFF .cpl .accumulator .absent,
    .plain "STC" 0x37 0xFF .scf .absent .absent,
    .plain "CMC" 0x3F 0xFF .ccf .absent .absent,
    .plain "RLC" 0x07 0xFF (.rotateA .rlc) .accumulator .absent,
    .plain "RRC" 0x0F 0xFF (.rotateA .rrc) .accumulator .absent,
    .plain "RAL" 0x17 0xFF (.rotateA .rl) .accumulator .absent,
    .plain "RAR" 0x1F 0xFF (.rotateA .rr) .accumulator .absent ]

/-- Jumps, calls and returns. -/
def branches : List Opcode :=
  [ .plain "JMP\t%S" 0xC3 0xFF .jp .absent .address,
    .plain "J%D\t%S" 0xC2 0xC7 .jp .condition .address,
    .plain "CALL\t%S" 0xCD 0xFF .call .absent .address,
    .plain "C%D\t%S" 0xC4 0xC7 .call .condition .address,
    .plain "RET" 0xC9 0xFF .ret .absent .absent,
    .plain "R%D" 0xC0 0xC7 .ret .condition .absent,
    .plain "RST\t%S" 0xC7 0xC7 .rst .absent .restart,
    .plain "PCHL" 0xE9 0xFF .jp .absent .hl ]

/-- The stack, ports and the processor itself. -/
def control : List Opcode :=
  [ .plain "PUSH\t%S" 0xC5 0xCF .push .absent .pairAF,
    .plain "POP\t%D" 0xC1 0xCF .pop .pairAF .absent,
    .plain "IN\t%S" 0xDB 0xFF .input .accumulator .port,
    .plain "OUT\t%D" 0xD3 0xFF .output .port .accumulator,
    .plain "EI" 0xFB 0xFF .ei .absent .absent,
    .plain "DI" 0xF3 0xFF .di .absent .absent,
    .plain "NOP" 0x00 0xFF .nop .absent .absent ]

/-- **The instruction set of the 8085.** -/
def opcodes : List Opcode := moves ++ arithmetic ++ branches ++ control

end I8085

/-! ### The Z80 -/

namespace Z80

/-- Moves of bytes. -/
def moves8 : List Opcode :=
  [ .plain "HALT" 0x76 0xFF .halt .absent .absent,
    .indexed "LD\t%D,%S" 0x40 0xC0 .move .high .low,
    .indexed "LD\t%D,%S" 0x06 0xC7 .move .high .imm8,
    .plain "LD\t%D,%S" 0x3A 0xFF .move .accumulator .direct8,
    .plain "LD\t%D,%S" 0x32 0xFF .move .direct8 .accumulator,
    .plain "LD\t%D,%S" 0x0A 0xFF .move .accumulator .atBC,
    .plain "LD\t%D,%S" 0x1A 0xFF .move .accumulator .atDE,
    .plain "LD\t%D,%S" 0x02 0xFF .move .atBC .accumulator,
    .plain "LD\t%D,%S" 0x12 0xFF .move .atDE .accumulator ]

/-- Moves of words, the stack and exchanges. -/
def moves16 : List Opcode :=
  [ .indexed "LD\t%D,%S" 0x01 0xCF .move16 .pair .imm16,
    .indexed "LD\t%D,%S" 0x2A 0xFF .move16 .hl .direct16,
    .indexed "LD\t%D,%S" 0x22 0xFF .move16 .direct16 .hl,
    .indexed "LD\t%D,%S" 0xF9 0xFF .move16 .sp .hl,
    .indexed "PUSH\t%S" 0xC5 0xCF .push .absent .pairAF,
    .indexed "POP\t%D" 0xC1 0xCF .pop .pairAF .absent,
    .plain "EX\t%D,%S" 0xEB 0xFF .exchangeDEHL .de .hl,
    .indexed "EX\t%D,%S" 0xE3 0xFF .exchangeTop .atSP .hl,
    .plain "EX\tAF,AF'" 0x08 0xFF .exchangeAF .absent .absent,
    .plain "EXX" 0xD9 0xFF .exchangeGeneral .absent .absent ]

/-- Arithmetic and logic on bytes. -/
def arithmetic8 : List Opcode :=
  [ .indexed "ADD\t%D,%S" 0x80 0xF8 (.arithmetic .add) .accumulator .low,
    .indexed "ADC\t%D,%S" 0x88 0xF8 (.arithmetic .adc) .accumulator .low,
    .indexed "SUB\t%S" 0x90 0xF8 (.arithmetic .sub) .accumulator .low,
    .indexed "SBC\t%D,%S" 0x98 0xF8 (.arithmetic .sbc) .accumulator .low,
    .indexed "AND\t%S" 0xA0 0xF8 (.arithmetic .and) .accumulator .low,
    .indexed "XOR\t%S" 0xA8 0xF8 (.arithmetic .xor) .accumulator .low,
    .indexed "OR\t%S" 0xB0 0xF8 (.arithmetic .or) .accumulator .low,
    .indexed "CP\t%S" 0xB8 0xF8 (.arithmetic .cp) .accumulator .low,
    .plain "ADD\t%D,%S" 0xC6 0xFF (.arithmetic .add) .accumulator .imm8,
    .plain "ADC\t%D,%S" 0xCE 0xFF (.arithmetic .adc) .accumulator .imm8,
    .plain "SUB\t%S" 0xD6 0xFF (.arithmetic .sub) .accumulator .imm8,
    .plain "SBC\t%D,%S" 0xDE 0xFF (.arithmetic .sbc) .accumulator .imm8,
    .plain "AND\t%S" 0xE6 0xFF (.arithmetic .and) .accumulator .imm8,
    .plain "XOR\t%S" 0xEE 0xFF (.arithmetic .xor) .accumulator .imm8,
    .plain "OR\t%S" 0xF6 0xFF (.arithmetic .or) .accumulator .imm8,
    .plain "CP\t%S" 0xFE 0xFF (.arithmetic .cp) .accumulator .imm8,
    .indexed "INC\t%D" 0x04 0xC7 .inc .high .absent,
    .indexed "DEC\t%D" 0x05 0xC7 .dec .high .absent ]

/-- Arithmetic on words. -/
def arithmetic16 : List Opcode :=
  [ .indexed "INC\t%D" 0x03 0xCF .inc16 .pair .absent,
    .indexed "DEC\t%D" 0x0B 0xCF .dec16 .pair .absent,
    .indexed "ADD\t%D,%S" 0x09 0xCF (.arithmetic16 .add) .hl .pair ]

/-- The accumulator, the carry and the processor itself. -/
def control : List Opcode :=
  [ .plain "DAA" 0x27 0xFF .daa .accumulator .absent,
    .plain "CPL" 0x2F 0xFF .cpl .accumulator .absent,
    .plain "SCF" 0x37 0xFF .scf .absent .absent,
    .plain "CCF" 0x3F 0xFF .ccf .absent .absent,
    .plain "RLCA" 0x07 0xFF (.rotateA .rlc) .accumulator .absent,
    .plain "RRCA" 0x0F 0xFF (.rotateA .rrc) .accumulator .absent,
    .plain "RLA" 0x17 0xFF (.rotateA .rl) .accumulator .absent,
    .plain "RRA" 0x1F 0xFF (.rotateA .rr) .accumulator .absent,
    .plain "EI" 0xFB 0xFF .ei .absent .absent,
    .plain "DI" 0xF3 0xFF .di .absent .absent,
    .plain "NOP" 0x00 0xFF .nop .absent .absent ]

/-- Jumps, calls and returns. -/
def branches : List Opcode :=
  [ .plain "JP\t%S" 0xC3 0xFF .jp .absent .address,
    .plain "JP\t%D,%S" 0xC2 0xC7 .jp .condition .address,
    .indexed "JP\t(%S)" 0xE9 0xFF .jp .absent .hl,
    .plain "JR\t%S" 0x18 0xFF .jr .absent .relative,
    .plain "JR\t%D,%S" 0x20 0xE7 .jr .shortCondition .relative,
    .plain "DJNZ\t%S" 0x10 0xFF .djnz .absent .relative,
    .plain "CALL\t%S" 0xCD 0xFF .call .absent .address,
    .plain "CALL\t%D,%S" 0xC4 0xC7 .call .condition .address,
    .plain "RET" 0xC9 0xFF .ret .absent .absent,
    .plain "RET\t%D" 0xC0 0xC7 .ret .condition .absent,
    .plain "RST\t%S" 0xC7 0xC7 .rst .absent .restart ]

/-- Ports with a number in the instruction. -/
def ports : List Opcode :=
  [ .plain "IN\t%D,%S" 0xDB 0xFF .input .accumulator .port,
    .plain "OUT\t%D,%S" 0xD3 0xFF .output .port .accumulator ]

/-- Shifts and bits, after a byte `CB`. -/
def bits : List Opcode :=
  [ .led 0xCB "RLC\t%D" 0x00 0xF8 (.shift .rlc) .low .absent,
    .led 0xCB "RRC\t%D" 0x08 0xF8 (.shift .rrc) .low .absent,
    .led 0xCB "RL\t%D" 0x10 0xF8 (.shift .rl) .low .absent,
    .led 0xCB "RR\t%D" 0x18 0xF8 (.shift .rr) .low .absent,
    .led 0xCB "SLA\t%D" 0x20 0xF8 (.shift .sla) .low .absent,
    .led 0xCB "SRA\t%D" 0x28 0xF8 (.shift .sra) .low .absent,
    .led 0xCB "SRL\t%D" 0x38 0xF8 (.shift .srl) .low .absent,
    .led 0xCB "BIT\t%D,%S" 0x40 0xC0 .bit .bit .low,
    .led 0xCB "RES\t%D,%S" 0x80 0xC0 .res .bit .low,
    .led 0xCB "SET\t%D,%S" 0xC0 0xC0 .set .bit .low ]

/-- Further instructions, after a byte `ED`. -/
def extended : List Opcode :=
  [ .ledRegister 0xED "IN\t%D,%S" 0x40 0xC7 .input .high .portC,
    .ledRegister 0xED "OUT\t%D,%S" 0x41 0xC7 .output .portC .high,
    .led 0xED "SBC\t%D,%S" 0x42 0xCF (.arithmetic16 .sbc) .hl .pair,
    .led 0xED "ADC\t%D,%S" 0x4A 0xCF (.arithmetic16 .adc) .hl .pair,
    .led 0xED "LD\t%D,%S" 0x43 0xCF .move16 .direct16 .pair,
    .led 0xED "LD\t%D,%S" 0x4B 0xCF .move16 .pair .direct16,
    .led 0xED "NEG" 0x44 0xFF .neg .accumulator .absent,
    .led 0xED "LDI" 0xA0 0xFF (.block .up false) .absent .absent,
    .led 0xED "LDD" 0xA8 0xFF (.block .down false) .absent .absent,
    .led 0xED "LDIR" 0xB0 0xFF (.block .up true) .absent .absent,
    .led 0xED "LDDR" 0xB8 0xFF (.block .down true) .absent .absent ]

/-- **The instruction set of the Z80.** -/
def opcodes : List Opcode :=
  moves8 ++ moves16 ++ arithmetic8 ++ arithmetic16 ++ control ++ branches ++ ports ++ bits
    ++ extended

end Z80

/-- The opcode table of a processor. -/
def Variant.opcodes : Variant → List Opcode
  | .i8085 => I8085.opcodes
  | .z80 => Z80.opcodes

end Micro80
