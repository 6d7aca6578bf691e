import Micro80.Alu
import Micro80.Word

/-!
# Flags that are spared

An operation that does not concern a flag leaves its bit as it was. Here this is told of each
operation that spares some of the flags, by a mask of the bits that may differ afterwards. It takes
flags that the processor can hold, since fixing others would change bits that nobody meant to touch.

It does not matter in which bits the mask has the flags. Two flags bytes that are made of flags
differ at most where the flags do, and fixing the bits that are not flags makes no more of a
difference.

## Main definitions

* `Flags.SameBut`: two flags bytes that differ within a mask at most.

## Main statements

* `Flags.sameBut_toByte`: flags bytes differ at most where the flags do.
* `Flags.sameBut_encode`: a flags byte for flags some of which have been kept.
* `Alu.sameBut_inc` and others, one for each primitive that spares flags.
-/

namespace Micro80

namespace Flags

/-! ### Masks -/

/-- **The same flags but for a mask.** Two flags bytes have the same bits outside of a mask. -/
def SameBut (mask f g : UInt8) : Prop := f &&& ~~~mask = g &&& ~~~mask

/-- All bits may differ. -/
theorem sameBut_all (f g : UInt8) : SameBut 0xFF f g := by
  show f &&& 0 = g &&& 0
  rw [UInt8.and_zero, UInt8.and_zero]

theorem or_and_distrib (f g mask : UInt8) : (f ||| g) &&& mask = f &&& mask ||| g &&& mask := by
  rw [← UInt8.toBitVec_inj]
  exact BitVec.and_or_distrib_right

namespace SameBut

variable {mask f g h : UInt8}

theorem refl (mask f : UInt8) : SameBut mask f f := rfl

theorem trans (first : SameBut mask f g) (second : SameBut mask g h) : SameBut mask f h :=
  Eq.trans first second

/-- Bits may be switched on in two flags bytes with the same bits outside of a mask. -/
theorem or {f' g' : UInt8} (same : SameBut mask f g) (same' : SameBut mask f' g') :
    SameBut mask (f ||| f') (g ||| g') := by
  rw [SameBut, or_and_distrib, or_and_distrib, same, same']

/-- Fixing the bits that are not flags makes no more of a difference. -/
theorem fix (same : SameBut mask f g) (L : FlagLayout) : SameBut mask (L.fix f) (L.fix g) := by
  refine or ?_ (refl _ _)
  rw [SameBut, UInt8.and_assoc, UInt8.and_assoc, UInt8.and_comm L.defined, ← UInt8.and_assoc,
    ← UInt8.and_assoc, same]

end SameBut

/-! ### Flags -/

/-- A flag that may differ is within the mask, and any other is the same. -/
theorem sameBut_bits {mask bit : UInt8} {x y : Bool} (within : bit &&& ~~~mask = 0 ∨ x = y) :
    SameBut mask (bits bit x) (bits bit y) := by
  obtain inside | rfl := within
  · cases x <;> cases y <;> simp [SameBut, bits, inside]
  · exact .refl _ _

/-- **Flags bytes** differ at most where the flags do. -/
theorem sameBut_toByte {mask : UInt8} {x y : Flags}
    (sign : 0x80 &&& ~~~mask = 0 ∨ x.sign = y.sign) (zero : 0x40 &&& ~~~mask = 0 ∨ x.zero = y.zero)
    (half : 0x10 &&& ~~~mask = 0 ∨ x.half = y.half)
    (parity : 0x04 &&& ~~~mask = 0 ∨ x.parity = y.parity)
    (subtract : 0x02 &&& ~~~mask = 0 ∨ x.subtract = y.subtract)
    (carry : 0x01 &&& ~~~mask = 0 ∨ x.carry = y.carry) : SameBut mask x.toByte y.toByte :=
  (((((sameBut_bits sign).or (sameBut_bits zero)).or (sameBut_bits half)).or
    (sameBut_bits parity)).or (sameBut_bits subtract)).or (sameBut_bits carry)

/-- The flags of a flags byte, put into a byte again. -/
theorem toByte_ofByte (f : UInt8) : (ofByte f).toByte = f &&& 0xD7 := by
  revert f
  apply forall_byte
  decide +kernel

end Flags

/-- The flags byte of a processor for the flags of a byte. -/
theorem FlagLayout.encode_ofByte (v : Variant) (f : UInt8) :
    v.layout.encode (.ofByte f) = v.layout.fix f := by
  have within : 0xD7 &&& v.layout.defined = v.layout.defined := by cases v <;> decide
  rw [encode, Flags.toByte_ofByte, fix, fix, UInt8.and_assoc, within]

/-- **The flags of the carry.** What instructions that are about the carry may change: on the 8085
the carry alone, and on the Z80 half carry and subtraction as well. -/
def Variant.carryFlags : Variant → UInt8
  | i8085 => 0x01
  | z80 => 0x13

section

variable {v : Variant} {f : UInt8} (canonical : v.layout.fix f = f)

include canonical

/-- **A flags byte for flags some of which have been kept** is the same as before but for the
others. -/
theorem Flags.sameBut_encode {mask : UInt8} {x : Flags}
    (same : SameBut mask (ofByte f).toByte x.toByte) : SameBut mask f (v.layout.encode x) := by
  have fixed := same.fix v.layout
  rw [show v.layout.fix (ofByte f).toByte = v.layout.encode (ofByte f) from rfl,
    FlagLayout.encode_ofByte, canonical] at fixed
  exact fixed

namespace Alu

/-! ### Primitives -/

/-- A primitive that sets the other flags keeps the carry. -/
theorem sameBut_of_carry {x : Flags} (kept : carryOf f = x.carry) :
    Flags.SameBut (~~~0x01) f (v.layout.encode x) := by
  refine Flags.sameBut_encode canonical (Flags.sameBut_toByte ?_ ?_ ?_ ?_ ?_ (.inr kept))
  all_goals exact .inl rfl

theorem sameBut_inc (a : UInt8) : Flags.SameBut (~~~0x01) f (inc v.layout a f).flags :=
  sameBut_of_carry canonical rfl

theorem sameBut_dec (a : UInt8) : Flags.SameBut (~~~0x01) f (dec v.layout a f).flags :=
  sameBut_of_carry canonical rfl

theorem sameBut_bit (n : Fin 8) (a : UInt8) :
    Flags.SameBut (~~~0x01) f (bit v.layout n a f).flags :=
  sameBut_of_carry canonical rfl

theorem sameBut_input (a : UInt8) : Flags.SameBut (~~~0x01) f (input v.layout a f).flags :=
  sameBut_of_carry canonical rfl

/-- Decimal adjustment keeps the subtraction flag. -/
theorem sameBut_daa (a : UInt8) : Flags.SameBut (~~~0x02) f (daa v.layout a f).flags := by
  refine Flags.sameBut_encode canonical
    (Flags.sameBut_toByte ?_ ?_ ?_ ?_ (.inr rfl) ?_)
  all_goals exact .inl rfl

/-- A primitive that is about the carry keeps sign, zero and parity. On the 8085 it keeps the half
carry, and it does not clear the subtraction flag. -/
theorem sameBut_carryFlags {half clears carry : Bool}
    (keeps : v = .i8085 → half = (Flags.ofByte f).half ∧ clears = false) :
    Flags.SameBut v.carryFlags f
      (v.layout.encode
        { Flags.ofByte f with
          half := half
          subtract := (Flags.ofByte f).subtract && !clears
          carry := carry }) := by
  refine Flags.sameBut_encode canonical ?_
  cases v with
  | i8085 =>
    obtain ⟨rfl, rfl⟩ := keeps rfl
    exact Flags.sameBut_toByte (.inr rfl) (.inr rfl) (.inr rfl) (.inr rfl)
      (.inr (Bool.and_true _).symm) (.inl rfl)
  | z80 =>
    exact Flags.sameBut_toByte (.inr rfl) (.inr rfl) (.inl rfl) (.inr rfl) (.inl rfl) (.inl rfl)

theorem sameBut_scf : Flags.SameBut v.carryFlags f (scf v.layout f).flags := by
  refine sameBut_carryFlags canonical ?_
  rintro rfl
  exact ⟨Bool.and_true _, rfl⟩

theorem sameBut_ccf : Flags.SameBut v.carryFlags f (ccf v.layout f).flags := by
  refine sameBut_carryFlags canonical ?_
  rintro rfl
  exact ⟨rfl, rfl⟩

theorem sameBut_rotateA (k : Rotate) (a : UInt8) :
    Flags.SameBut v.carryFlags f (rotateA v.layout k a f).flags := by
  refine sameBut_carryFlags canonical ?_
  rintro rfl
  exact ⟨Bool.and_true _, rfl⟩

theorem sameBut_add16 (a b : UInt16) :
    Flags.SameBut v.carryFlags f (add16 v.layout a b f).flags := by
  refine sameBut_carryFlags canonical ?_
  rintro rfl
  exact ⟨rfl, rfl⟩

/-- The complement keeps all flags. -/
theorem flags_cpl (a : UInt8) : (cpl v.layout a f).flags = f := canonical

end Alu

end

end Micro80
