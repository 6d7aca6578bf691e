import Micro80.Flags

/-!
# Arithmetic and logic

Every arithmetic, logical and shift primitive of both processors as a function of its operands and
the flags before it. It answers a value and the complete flags byte after it, whose fixed bits are
those of the layout.

Carries are found by comparing numbers: a carry out of a sum means that the sum does not fit, a
borrow that the minuend is smaller than the subtrahend, and signed overflow that the signed result
does not fit. Both processors set the carry of a subtraction to the borrow, but the 8085 sets the
half carry to the absence of one, since it adds the complement.

## Main definitions

* `Alu.addCarry`, `Alu.subBorrow`: addition and subtraction of bytes.
* `Alu.daa`: decimal adjustment.
* `Shift`, `Alu.shift`, `Alu.rotateA`: shifts and rotates.
* `Alu.add16`, `Alu.adc16`, `Alu.sbc16`: addition and subtraction of words.
-/

namespace Micro80

/-- **Results.** The value of an operation and the flags after it. -/
structure AluResult (α : Type) where
  /-- The value. -/
  value : α
  /-- The flags byte. -/
  flags : UInt8
  deriving DecidableEq

/-- **Shifts.** The ways to move the bits of a byte by one place. -/
inductive Shift where
  /-- Left, with bit 7 coming in at the right. -/
  | rlc
  /-- Right, with bit 0 coming in at the left. -/
  | rrc
  /-- Left, with the carry coming in at the right. -/
  | rl
  /-- Right, with the carry coming in at the left. -/
  | rr
  /-- Left, with zero coming in at the right. -/
  | sla
  /-- Right, with bit 7 staying. -/
  | sra
  /-- Right, with zero coming in at the left. -/
  | srl
  deriving DecidableEq

/-- **Rotates.** The shifts that also exist for the accumulator alone. -/
inductive Rotate where
  | rlc | rrc | rl | rr
  deriving DecidableEq

/-- The movement of bits in an accumulator rotate. -/
def Rotate.toShift : Rotate → Shift
  | rlc => .rlc
  | rrc => .rrc
  | rl => .rl
  | rr => .rr

/-- **Byte arithmetic.** The operations of the accumulator with a second operand. -/
inductive Arithmetic where
  | add | adc | sub | sbc | and | xor | or | cp
  deriving DecidableEq

/-- **Word arithmetic.** -/
inductive Arithmetic16 where
  | add | adc | sbc
  deriving DecidableEq

namespace Alu

/-! ### Properties of results -/

/-- A bit as a byte. -/
def bitByte (b : Bool) : UInt8 := if b then 1 else 0

/-- Whether bit 7 is on. -/
def isNegative (r : UInt8) : Bool := 128 ≤ r.toNat

/-- Whether bit 0 is on. -/
def isOdd (r : UInt8) : Bool := r.toNat % 2 == 1

/-- Whether the number of bits that are on is even. -/
def evenParity (r : UInt8) : Bool :=
  (List.range 8).countP r.toNat.testBit % 2 == 0

/-- The low four bits as a number. -/
def lowNibble (r : UInt8) : Nat := r.toNat % 16

/-- Whether a number fits in a signed byte. -/
def fits8 (n : Int) : Bool := -128 ≤ n && n < 128

/-- Whether a number fits in a signed word. -/
def fits16 (n : Int) : Bool := -32768 ≤ n && n < 32768

/-- The carry of a flags byte. -/
def carryOf (f : UInt8) : Bool := (Flags.ofByte f).carry

/-- The parity flag after arithmetic with result `r`, whose exact signed value is `n`. -/
def parityOrOverflow (L : FlagLayout) (r : UInt8) (n : Int) : Bool :=
  if L.overflow then !fits8 n else evenParity r

/-- The half carry flag after a subtraction that borrowed from the high half or not. -/
def halfOfBorrow (L : FlagLayout) (borrow : Bool) : Bool :=
  if L.subtract then borrow else !borrow

/-! ### Byte arithmetic -/

/-- **Addition** of two bytes and a carry. -/
def addCarry (L : FlagLayout) (a b : UInt8) (carry : Bool) : AluResult UInt8 :=
  let r := a + b + bitByte carry
  { value := r
    flags := L.encode
      { sign := isNegative r
        zero := r == 0
        half := 16 ≤ lowNibble a + lowNibble b + carry.toNat
        parity := parityOrOverflow L r (a.toInt8.toInt + b.toInt8.toInt + carry.toNat)
        subtract := false
        carry := 256 ≤ a.toNat + b.toNat + carry.toNat } }

/-- **Subtraction** of a byte and a borrow. -/
def subBorrow (L : FlagLayout) (a b : UInt8) (borrow : Bool) : AluResult UInt8 :=
  let r := a - b - bitByte borrow
  { value := r
    flags := L.encode
      { sign := isNegative r
        zero := r == 0
        half := halfOfBorrow L (lowNibble a < lowNibble b + borrow.toNat)
        parity := parityOrOverflow L r (a.toInt8.toInt - b.toInt8.toInt - borrow.toNat)
        subtract := true
        carry := a.toNat < b.toNat + borrow.toNat } }

/-- Addition without carry. -/
def add (L : FlagLayout) (a b : UInt8) : AluResult UInt8 := addCarry L a b false

/-- Addition with the carry of the flags. -/
def adc (L : FlagLayout) (a b f : UInt8) : AluResult UInt8 := addCarry L a b (carryOf f)

/-- Subtraction without borrow. -/
def sub (L : FlagLayout) (a b : UInt8) : AluResult UInt8 := subBorrow L a b false

/-- Subtraction with the carry of the flags as borrow. -/
def sbc (L : FlagLayout) (a b f : UInt8) : AluResult UInt8 := subBorrow L a b (carryOf f)

/-- Comparison: the flags of a subtraction, with the first operand unchanged. -/
def cp (L : FlagLayout) (a b : UInt8) : AluResult UInt8 := { sub L a b with value := a }

/-- Negation: subtraction from zero. -/
def neg (L : FlagLayout) (a : UInt8) : AluResult UInt8 := subBorrow L 0 a false

/-- Increment. The carry stays. -/
def inc (L : FlagLayout) (a f : UInt8) : AluResult UInt8 :=
  let r := a + 1
  { value := r
    flags := L.encode
      { sign := isNegative r
        zero := r == 0
        half := lowNibble a == 15
        parity := parityOrOverflow L r (a.toInt8.toInt + 1)
        subtract := false
        carry := carryOf f } }

/-- Decrement. The carry stays. -/
def dec (L : FlagLayout) (a f : UInt8) : AluResult UInt8 :=
  let r := a - 1
  { value := r
    flags := L.encode
      { sign := isNegative r
        zero := r == 0
        half := halfOfBorrow L (lowNibble a == 0)
        parity := parityOrOverflow L r (a.toInt8.toInt - 1)
        subtract := true
        carry := carryOf f } }

/-- What decimal adjustment after an addition adds up to, before it is cut to a byte: 6 for the low
digit, and then 60H for the high digit as it stands after that. -/
def adjustedSum (a : UInt8) (carry half : Bool) : Nat :=
  let low := if 9 < lowNibble a || half then a.toNat + 0x06 else a.toNat
  if 9 < low / 16 % 16 || carry || 0xFF < low then low + 0x60 else low

/-- What decimal adjustment after a subtraction takes away. -/
def adjustment (a : UInt8) (carry half : Bool) : UInt8 :=
  (if half || 9 < lowNibble a then 0x06 else 0) + (if carry || 0x99 < a.toNat then 0x60 else 0)

/-- **Decimal adjustment** of a sum of two packed decimal bytes, or, on a processor that knows that
the last arithmetic was a subtraction, of a difference. Bytes that are not packed decimal are
adjusted by the same rules. -/
def daa (L : FlagLayout) (a f : UInt8) : AluResult UInt8 :=
  let old := Flags.ofByte f
  let difference := L.subtract && old.subtract
  let sum := adjustedSum a old.carry old.half
  let r := if difference then a - adjustment a old.carry old.half else UInt8.ofNat sum
  { value := r
    flags := L.encode
      { sign := isNegative r
        zero := r == 0
        half :=
          if difference then old.half && lowNibble a < 6
          else (9 < lowNibble a || old.half) && 16 ≤ lowNibble a + 6
        parity := evenParity r
        subtract := old.subtract
        carry := old.carry || (if difference then 0x99 < a.toNat else 0xFF < sum) } }

/-! ### Logic -/

/-- The result of a logical operation: all flags but those of the result are off. -/
def logical (L : FlagLayout) (r : UInt8) : AluResult UInt8 :=
  { value := r
    flags := L.encode
      { sign := isNegative r
        zero := r == 0
        half := false
        parity := evenParity r
        subtract := false
        carry := false } }

/-- The complement of a byte. No flag changes. -/
def cpl (L : FlagLayout) (a f : UInt8) : AluResult UInt8 := ⟨~~~a, L.fix f⟩

/-- Sets the carry. There is no operand, and the value is zero. -/
def scf (L : FlagLayout) (f : UInt8) : AluResult UInt8 :=
  let old := Flags.ofByte f
  { value := 0
    flags := L.encode
      { old with
        half := old.half && !L.clearHalf
        subtract := old.subtract && !L.clearHalf
        carry := true } }

/-- Complements the carry; where the half carry is cleared it takes the old carry. There is no
operand, and the value is zero. -/
def ccf (L : FlagLayout) (f : UInt8) : AluResult UInt8 :=
  let old := Flags.ofByte f
  { value := 0
    flags := L.encode
      { old with
        half := if L.clearHalf then old.carry else old.half
        subtract := old.subtract && !L.clearHalf
        carry := !old.carry } }

/-- **Byte arithmetic** of the accumulator `a` with a second operand. -/
def arithmetic (L : FlagLayout) (k : Arithmetic) (a b f : UInt8) : AluResult UInt8 :=
  match k with
  | .add => add L a b
  | .adc => adc L a b f
  | .sub => sub L a b
  | .sbc => sbc L a b f
  | .and => logical L (a &&& b)
  | .xor => logical L (a ^^^ b)
  | .or => logical L (a ||| b)
  | .cp => cp L a b

/-! ### Word arithmetic -/

/-- The low twelve bits as a number. -/
def lowTwelve (w : UInt16) : Nat := w.toNat % 4096

/-- Addition of words. The sign, zero and parity flags stay; whether the half carry and the
subtraction flag change depends on the layout. -/
def add16 (L : FlagLayout) (a b : UInt16) (f : UInt8) : AluResult UInt16 :=
  let old := Flags.ofByte f
  { value := a + b
    flags := L.encode
      { old with
        half := if L.half16 then 4096 ≤ lowTwelve a + lowTwelve b else old.half
        subtract := old.subtract && !L.half16
        carry := 65536 ≤ a.toNat + b.toNat } }

/-- Addition of words and the carry of the flags. Every flag changes. -/
def adc16 (L : FlagLayout) (a b : UInt16) (f : UInt8) : AluResult UInt16 :=
  let carry := carryOf f
  let r := a + b + (bitByte carry).toUInt16
  { value := r
    flags := L.encode
      { sign := 32768 ≤ r.toNat
        zero := r == 0
        half := 4096 ≤ lowTwelve a + lowTwelve b + carry.toNat
        parity := !fits16 (a.toInt16.toInt + b.toInt16.toInt + carry.toNat)
        subtract := false
        carry := 65536 ≤ a.toNat + b.toNat + carry.toNat } }

/-- Subtraction of a word and the carry of the flags. Every flag changes. -/
def sbc16 (L : FlagLayout) (a b : UInt16) (f : UInt8) : AluResult UInt16 :=
  let borrow := carryOf f
  let r := a - b - (bitByte borrow).toUInt16
  { value := r
    flags := L.encode
      { sign := 32768 ≤ r.toNat
        zero := r == 0
        half := lowTwelve a < lowTwelve b + borrow.toNat
        parity := !fits16 (a.toInt16.toInt - b.toInt16.toInt - borrow.toNat)
        subtract := true
        carry := a.toNat < b.toNat + borrow.toNat } }

/-- **Word arithmetic.** -/
def arithmetic16 (L : FlagLayout) (k : Arithmetic16) (a b : UInt16) (f : UInt8) :
    AluResult UInt16 :=
  match k with
  | .add => add16 L a b f
  | .adc => adc16 L a b f
  | .sbc => sbc16 L a b f

/-! ### Shifts -/

/-- A byte moved left by one place, with the given bit coming in. -/
def moveLeft (a : UInt8) (bit : Bool) : UInt8 := a + a + bitByte bit

/-- A byte moved right by one place, with the given bit coming in. -/
def moveRight (a : UInt8) (bit : Bool) : UInt8 := a / 2 + (if bit then 128 else 0)

/-- The byte after a shift of `a`, and the bit that went out. -/
def shifted (k : Shift) (a : UInt8) (carry : Bool) : UInt8 × Bool :=
  match k with
  | .rlc => (moveLeft a (isNegative a), isNegative a)
  | .rrc => (moveRight a (isOdd a), isOdd a)
  | .rl => (moveLeft a carry, isNegative a)
  | .rr => (moveRight a carry, isOdd a)
  | .sla => (moveLeft a false, isNegative a)
  | .sra => (moveRight a (isNegative a), isOdd a)
  | .srl => (moveRight a false, isOdd a)

/-- **Shifts.** The bit that goes out becomes the carry, and the other flags are those of the
result. -/
def shift (L : FlagLayout) (k : Shift) (a f : UInt8) : AluResult UInt8 :=
  let (r, out) := shifted k a (carryOf f)
  { value := r
    flags := L.encode
      { sign := isNegative r
        zero := r == 0
        half := false
        parity := evenParity r
        subtract := false
        carry := out } }

/-- **Accumulator rotates.** The bit that goes out becomes the carry, and the sign, zero and parity
flags stay. -/
def rotateA (L : FlagLayout) (k : Rotate) (a f : UInt8) : AluResult UInt8 :=
  let old := Flags.ofByte f
  let (r, out) := shifted k.toShift a old.carry
  { value := r
    flags := L.encode
      { old with
        half := old.half && !L.clearHalf
        subtract := old.subtract && !L.clearHalf
        carry := out } }

/-! ### Bits and input -/

/-- **Bit tests.** The zero and parity flags tell that the bit is off, and the sign flag that it is
bit 7 and on. The carry and the operand stay. -/
def bit (L : FlagLayout) (n : Fin 8) (a f : UInt8) : AluResult UInt8 :=
  let on := a.toNat.testBit n
  { value := a
    flags := L.encode
      { sign := n == 7 && on
        zero := !on
        half := true
        parity := !on
        subtract := false
        carry := carryOf f } }

/-- The flags for a byte that has been read from a port. The carry stays. -/
def input (L : FlagLayout) (a f : UInt8) : AluResult UInt8 :=
  { value := a
    flags := L.encode
      { sign := isNegative a
        zero := a == 0
        half := false
        parity := evenParity a
        subtract := false
        carry := carryOf f } }

end Alu

end Micro80
