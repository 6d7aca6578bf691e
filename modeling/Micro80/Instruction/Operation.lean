import Micro80.Alu

/-!
# Operations

What an instruction does, apart from what it does it to. Both processors share these operations;
which of them a processor has, and in which encodings, is the matter of its opcode table.

Families of operations that differ only in the primitive they apply carry that primitive, so that
the execution of a family is written once.

## Main definitions

* `Operation`.
* `Condition`, with `Condition.holds` for the flags that satisfy it.
-/

namespace Micro80

/-- **Directions.** The way in which a block transfer walks through memory. -/
inductive Direction where
  /-- Towards higher addresses. -/
  | up
  /-- Towards lower addresses. -/
  | down
  deriving DecidableEq

/-- The address after `a` in a direction. -/
def Direction.next : Direction → UInt16 → UInt16
  | up, a => a + 1
  | down, a => a - 1

/-- **Operations.** -/
inductive Operation where
  /-- Nothing. -/
  | nop
  /-- Halts the processor. -/
  | halt
  /-- Moves a byte. -/
  | move
  /-- Moves a word. -/
  | move16
  /-- Arithmetic or logic on the accumulator and a byte. -/
  | arithmetic (k : Arithmetic)
  /-- Adds one to a byte. -/
  | inc
  /-- Takes one from a byte. -/
  | dec
  /-- Adds one to a word. -/
  | inc16
  /-- Takes one from a word. -/
  | dec16
  /-- Arithmetic on two words. -/
  | arithmetic16 (k : Arithmetic16)
  /-- Negates the accumulator. -/
  | neg
  /-- Adjusts the accumulator to packed decimal. -/
  | daa
  /-- Complements the accumulator. -/
  | cpl
  /-- Sets the carry. -/
  | scf
  /-- Complements the carry. -/
  | ccf
  /-- Rotates the accumulator. -/
  | rotateA (k : Rotate)
  /-- Shifts a byte. -/
  | shift (k : Shift)
  /-- Tests a bit. -/
  | bit
  /-- Sets a bit. -/
  | set
  /-- Resets a bit. -/
  | res
  /-- Jumps to an address. -/
  | jp
  /-- Jumps by a distance. -/
  | jr
  /-- Takes one from B and jumps if that is not zero. -/
  | djnz
  /-- Calls a subroutine. -/
  | call
  /-- Returns from a subroutine. -/
  | ret
  /-- Calls a restart routine. -/
  | rst
  /-- Pushes a word. -/
  | push
  /-- Pops a word. -/
  | pop
  /-- Exchanges DE and HL. -/
  | exchangeDEHL
  /-- Exchanges a word with the top of the stack. -/
  | exchangeTop
  /-- Exchanges the accumulator and flags with their shadows. -/
  | exchangeAF
  /-- Exchanges the general registers with their shadows. -/
  | exchangeGeneral
  /-- Reads a byte from a port. -/
  | input
  /-- Writes a byte to a port. -/
  | output
  /-- Copies one byte, or with `repeats` as many as BC counts. -/
  | block (direction : Direction) (repeats : Bool)
  /-- Enables interrupts. -/
  | ei
  /-- Disables interrupts. -/
  | di
  deriving DecidableEq

/-! ### Conditions -/

/-- **Conditions.** What a conditional jump, call or return asks of the flags. -/
inductive Condition where
  /-- Not zero. -/
  | nz
  /-- Zero. -/
  | z
  /-- No carry. -/
  | nc
  /-- Carry. -/
  | c
  /-- Odd parity, or no overflow. -/
  | po
  /-- Even parity, or overflow. -/
  | pe
  /-- Positive. -/
  | p
  /-- Negative. -/
  | m
  deriving DecidableEq

namespace Condition

/-- The condition with a given number, in the order of the opcodes. -/
def ofCode : Fin 8 → Condition
  | 0 => nz
  | 1 => z
  | 2 => nc
  | 3 => c
  | 4 => po
  | 5 => pe
  | 6 => p
  | 7 => m

/-- The number of a condition. -/
def code : Condition → Fin 8
  | nz => ⟨0, by decide⟩
  | z => ⟨1, by decide⟩
  | nc => ⟨2, by decide⟩
  | c => ⟨3, by decide⟩
  | po => ⟨4, by decide⟩
  | pe => ⟨5, by decide⟩
  | p => ⟨6, by decide⟩
  | m => ⟨7, by decide⟩

/-- Whether flags satisfy a condition. -/
def holds (k : Condition) (f : UInt8) : Bool :=
  let x := Flags.ofByte f
  match k with
  | nz => !x.zero
  | z => x.zero
  | nc => !x.carry
  | c => x.carry
  | po => !x.parity
  | pe => x.parity
  | p => !x.sign
  | m => x.sign

@[simp] theorem ofCode_code (k : Condition) : ofCode k.code = k := by
  cases k <;> rfl

end Condition

end Micro80
