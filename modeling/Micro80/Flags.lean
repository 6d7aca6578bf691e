import Micro80.Text
import Micro80.Variant

/-!
# Flags

Both processors keep their flags in the same bits of a byte, but they do not have the same flags
and do not compute them alike. A `FlagLayout` holds all of these differences, so that the
arithmetic is written once.

## Main definitions

* `Flags`: the six flags of a flags byte.
* `FlagLayout`: which flags a processor has and how its arithmetic sets them.
* `FlagLayout.fix`: the flags byte a processor can hold.
* `FlagLayout.encode`: the flags byte for given flags.
-/

namespace Micro80

/-! ### The flags of a byte -/

/-- **Flags.** What the bits of a flags byte stand for. -/
structure Flags where
  /-- The result is negative (bit 7). -/
  sign : Bool
  /-- The result is zero (bit 6). -/
  zero : Bool
  /-- Carry between the two halves of the result (bit 4). -/
  half : Bool
  /-- Even parity, or signed overflow (bit 2). -/
  parity : Bool
  /-- The last arithmetic was a subtraction (bit 1). -/
  subtract : Bool
  /-- Carry or borrow out of the result (bit 0). -/
  carry : Bool
  deriving DecidableEq

namespace Flags

/-- The given bits if the condition holds, else none. -/
def bits (mask : UInt8) (condition : Bool) : UInt8 := if condition then mask else 0

/-- The byte with exactly the bits of the flags that are on. -/
def toByte (x : Flags) : UInt8 :=
  bits 0x80 x.sign ||| bits 0x40 x.zero ||| bits 0x10 x.half ||| bits 0x04 x.parity
    ||| bits 0x02 x.subtract ||| bits 0x01 x.carry

/-- Whether some bit of a mask is on. -/
def isOn (f mask : UInt8) : Bool := f &&& mask != 0

/-- The flags of a byte. -/
def ofByte (f : UInt8) : Flags where
  sign := isOn f 0x80
  zero := isOn f 0x40
  half := isOn f 0x10
  parity := isOn f 0x04
  subtract := isOn f 0x02
  carry := isOn f 0x01

/-- The flags written into a byte are read back from it. -/
@[simp] theorem ofByte_toByte (x : Flags) : ofByte x.toByte = x := by
  obtain ⟨s, z, h, p, n, c⟩ := x
  cases s <;> cases z <;> cases h <;> cases p <;> cases n <;> cases c <;> rfl

end Flags

/-! ### The layouts -/

/-- **Flag layouts.** Which flags a processor has and how its arithmetic sets them. -/
structure FlagLayout where
  /-- The names of bits 7 to 0, with a hyphen for a bit that is not a flag. -/
  names : Text
  /-- The bits that instructions can change. -/
  defined : UInt8
  /-- The bits that always read as one. -/
  ones : UInt8
  /-- Whether arithmetic sets the parity flag to signed overflow. -/
  overflow : Bool
  /-- Whether there is a flag for subtraction. Then the half carry of a subtraction is a borrow,
  else it is the carry of adding the complement. -/
  subtract : Bool
  /-- Whether a word addition changes the half carry and the subtraction flag. -/
  half16 : Bool
  /-- Whether accumulator rotates and carry instructions clear the half carry and the subtraction
  flag. -/
  clearHalf : Bool

namespace FlagLayout

/-- The layout of the 8085. -/
def i8085 : FlagLayout where
  names := .ascii "SZ-A-P-C"
  defined := 0xD5
  ones := 0x02
  overflow := false
  subtract := false
  half16 := false
  clearHalf := false

/-- The layout of the Z80. -/
def z80 : FlagLayout where
  names := .ascii "SZ-H-PNC"
  defined := 0xD7
  ones := 0x00
  overflow := true
  subtract := true
  half16 := true
  clearHalf := true

/-- **Fixed bits.** The flags byte that a processor holds after it has been given `f`: bits that
are not flags read as zero or one whatever they were given. -/
def fix (L : FlagLayout) (f : UInt8) : UInt8 := (f &&& L.defined) ||| L.ones

/-- The flags byte for given flags. -/
def encode (L : FlagLayout) (x : Flags) : UInt8 := L.fix x.toByte

/-- The flags byte after a reset. -/
def reset (L : FlagLayout) : UInt8 := L.ones

/-- The masks of bits 7 to 0. -/
def masks : List UInt8 := [0x80, 0x40, 0x20, 0x10, 0x08, 0x04, 0x02, 0x01]

/-- **Showing flags.** The name of each flag that is on, a full stop for each that is off, and a
hyphen for each bit that is not a flag. -/
def display (L : FlagLayout) (f : UInt8) : Text :=
  List.zipWith
    (fun name mask => if name = 45 then 45 else if Flags.isOn f mask then name else 46)
    L.names masks

end FlagLayout

/-- The flag layout of a processor. -/
def Variant.layout : Variant → FlagLayout
  | .i8085 => .i8085
  | .z80 => .z80

/-- Keeping bits and switching others on is idempotent. -/
private theorem keep_on_idem (f d o : UInt8) (h : o &&& d = 0) :
    ((f &&& d ||| o) &&& d) ||| o = (f &&& d) ||| o := by
  rw [← UInt8.toBitVec_inj] at h ⊢
  simp only [UInt8.toBitVec_and, UInt8.toBitVec_or] at h ⊢
  ext i hi
  have hi := congrArg (·[i]) h
  simp only [BitVec.getElem_and, BitVec.getElem_or, BitVec.getElem_zero, UInt8.toBitVec_ofNat]
    at hi ⊢
  cases f.toBitVec[i] <;> cases d.toBitVec[i] <;> cases o.toBitVec[i] <;> simp_all

/-- **What is read back** from the flags byte for given flags is these flags, but that the 8085 has
no flag for subtraction and reads its bit as one. -/
theorem FlagLayout.ofByte_encode (v : Variant) (x : Flags) :
    Flags.ofByte (v.layout.encode x)
      = { x with subtract := decide (v = .i8085) || x.subtract } := by
  obtain ⟨s, z, h, p, n, c⟩ := x
  cases v <;> cases s <;> cases z <;> cases h <;> cases p <;> cases n <;> cases c <;> rfl

/-- On the Z80 the flags byte for given flags has no other bits, -/
theorem FlagLayout.encode_z80 (x : Flags) : z80.encode x = x.toByte := by
  obtain ⟨s, z, h, p, n, c⟩ := x
  cases s <;> cases z <;> cases h <;> cases p <;> cases n <;> cases c <;> rfl

/-- and nothing of the flags is lost in it. -/
theorem FlagLayout.ofByte_encode_z80 (x : Flags) : Flags.ofByte (z80.encode x) = x := by
  rw [encode_z80, Flags.ofByte_toByte]

/-- Fixing the bits of a flags byte twice is fixing them once. -/
theorem FlagLayout.fix_fix (v : Variant) (f : UInt8) :
    v.layout.fix (v.layout.fix f) = v.layout.fix f := by
  cases v
  · exact keep_on_idem _ _ _ (by decide)
  · exact keep_on_idem _ _ _ (by decide)

end Micro80
