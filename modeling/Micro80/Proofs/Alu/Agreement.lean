import Micro80.Instruction.Operation

/-!
# Agreement of the processors on flags

The two processors agree on the sign, the zero and the carry flag: they keep them in the same bits,
and whatever is computed alike from operands and from these three flags has the same value and the
same three flags on both. Half carry, parity and subtraction do differ, but nothing reads them apart
from decimal adjustment and the two conditions on parity.

## Main definitions

* `Flags.Agree`: two flags bytes with the same sign, zero and carry.
* `AluResult.Agree`: two results with the same value and such flags.

## Main statements

* `Flags.agree_fix`: fixing the bits of a flags byte does not touch the three flags.
* `Alu.agree_arithmetic` and others, one for each primitive but decimal adjustment.
-/

namespace Micro80

/-! ### Flags -/

/-- **Agreement of flags.** Two flags bytes have the same sign, zero and carry. -/
structure Flags.Agree (f g : UInt8) : Prop where
  sign : (Flags.ofByte f).sign = (Flags.ofByte g).sign
  zero : (Flags.ofByte f).zero = (Flags.ofByte g).zero
  carry : (Flags.ofByte f).carry = (Flags.ofByte g).carry

namespace Flags

theorem Agree.refl (f : UInt8) : Agree f f := ⟨rfl, rfl, rfl⟩

theorem Agree.symm {f g : UInt8} (h : Agree f g) : Agree g f :=
  ⟨h.sign.symm, h.zero.symm, h.carry.symm⟩

theorem Agree.trans {f g h : UInt8} (hfg : Agree f g) (hgh : Agree g h) : Agree f h :=
  ⟨hfg.sign.trans hgh.sign, hfg.zero.trans hgh.zero, hfg.carry.trans hgh.carry⟩

/-- A bit that is kept and not switched on is as it was. -/
theorem isOn_keep {d o mask : UInt8} (kept : d &&& mask = mask) (untouched : o &&& mask = 0)
    (f : UInt8) : isOn (f &&& d ||| o) mask = isOn f mask := by
  have same : (f &&& d ||| o) &&& mask = f &&& mask := by
    rw [← UInt8.toBitVec_inj] at kept untouched ⊢
    simp only [UInt8.toBitVec_and, UInt8.toBitVec_or] at kept untouched ⊢
    rw [BitVec.and_or_distrib_right, BitVec.and_assoc, kept, untouched]
    exact BitVec.or_zero
  rw [isOn, same, isOn]

/-- **Fixing** the bits that a processor does not have leaves the three flags alone. -/
theorem agree_fix (v : Variant) (f : UInt8) : Agree (v.layout.fix f) f := by
  cases v with
  | i8085 => exact ⟨isOn_keep rfl rfl f, isOn_keep rfl rfl f, isOn_keep rfl rfl f⟩
  | z80 => exact ⟨isOn_keep rfl rfl f, isOn_keep rfl rfl f, isOn_keep rfl rfl f⟩

theorem Agree.fix {f g : UInt8} (h : Agree f g) (v w : Variant) :
    Agree (v.layout.fix f) (w.layout.fix g) :=
  (agree_fix v f).trans (h.trans (agree_fix w g).symm)

/-- Flags bytes for flags with the same sign, zero and carry. -/
theorem agree_encode (v w : Variant) {x y : Flags} (sign : x.sign = y.sign)
    (zero : x.zero = y.zero) (carry : x.carry = y.carry) :
    Agree (v.layout.encode x) (w.layout.encode y) := by
  refine Agree.fix ⟨?_, ?_, ?_⟩ v w
  · rw [ofByte_toByte, ofByte_toByte, sign]
  · rw [ofByte_toByte, ofByte_toByte, zero]
  · rw [ofByte_toByte, ofByte_toByte, carry]

end Flags

/-- A condition that is not about parity depends on the three flags only. -/
theorem Condition.holds_eq_of_agree {f g : UInt8} (h : Flags.Agree f g) {k : Condition}
    (odd : k ≠ .po) (even : k ≠ .pe) : k.holds f = k.holds g := by
  cases k with
  | nz => exact congrArg not h.zero
  | z => exact h.zero
  | nc => exact congrArg not h.carry
  | c => exact h.carry
  | po => exact absurd rfl odd
  | pe => exact absurd rfl even
  | p => exact congrArg not h.sign
  | m => exact h.sign

/-! ### Results -/

/-- **Agreement of results.** -/
structure AluResult.Agree {α : Type} (r s : AluResult α) : Prop where
  value : r.value = s.value
  flags : Flags.Agree r.flags s.flags

namespace Alu

variable (v w : Variant)

theorem agree_addCarry (a b : UInt8) (carry : Bool) :
    (addCarry v.layout a b carry).Agree (addCarry w.layout a b carry) :=
  ⟨rfl, Flags.agree_encode v w rfl rfl rfl⟩

theorem agree_subBorrow (a b : UInt8) (borrow : Bool) :
    (subBorrow v.layout a b borrow).Agree (subBorrow w.layout a b borrow) :=
  ⟨rfl, Flags.agree_encode v w rfl rfl rfl⟩

theorem agree_logical (r : UInt8) : (logical v.layout r).Agree (logical w.layout r) :=
  ⟨rfl, Flags.agree_encode v w rfl rfl rfl⟩

theorem agree_neg (a : UInt8) : (neg v.layout a).Agree (neg w.layout a) :=
  agree_subBorrow v w 0 a false

variable {f g : UInt8} (h : Flags.Agree f g)

include h

theorem carryOf_eq_of_agree : carryOf f = carryOf g := h.carry

/-- **Byte arithmetic** agrees. -/
theorem agree_arithmetic (k : Arithmetic) (a b : UInt8) :
    (arithmetic v.layout k a b f).Agree (arithmetic w.layout k a b g) := by
  cases k with
  | add => exact agree_addCarry v w a b false
  | sub => exact agree_subBorrow v w a b false
  | adc =>
    rw [arithmetic, arithmetic, adc, adc, carryOf_eq_of_agree h]
    exact agree_addCarry v w a b (carryOf g)
  | sbc =>
    rw [arithmetic, arithmetic, sbc, sbc, carryOf_eq_of_agree h]
    exact agree_subBorrow v w a b (carryOf g)
  | and => exact agree_logical v w (a &&& b)
  | xor => exact agree_logical v w (a ^^^ b)
  | or => exact agree_logical v w (a ||| b)
  | cp => exact ⟨rfl, (agree_subBorrow v w a b false).flags⟩

theorem agree_inc (a : UInt8) : (inc v.layout a f).Agree (inc w.layout a g) :=
  ⟨rfl, Flags.agree_encode v w rfl rfl h.carry⟩

theorem agree_dec (a : UInt8) : (dec v.layout a f).Agree (dec w.layout a g) :=
  ⟨rfl, Flags.agree_encode v w rfl rfl h.carry⟩

theorem agree_cpl (a : UInt8) : (cpl v.layout a f).Agree (cpl w.layout a g) :=
  ⟨rfl, h.fix v w⟩

theorem agree_scf : (scf v.layout f).Agree (scf w.layout g) :=
  ⟨rfl, Flags.agree_encode v w h.sign h.zero rfl⟩

theorem agree_ccf : (ccf v.layout f).Agree (ccf w.layout g) :=
  ⟨rfl, Flags.agree_encode v w h.sign h.zero (congrArg not h.carry)⟩

/-- **Word arithmetic** agrees. -/
theorem agree_arithmetic16 (k : Arithmetic16) (a b : UInt16) :
    (arithmetic16 v.layout k a b f).Agree (arithmetic16 w.layout k a b g) := by
  cases k with
  | add => exact ⟨rfl, Flags.agree_encode v w h.sign h.zero rfl⟩
  | adc =>
    rw [arithmetic16, arithmetic16, adc16, adc16, carryOf_eq_of_agree h]
    exact ⟨rfl, Flags.agree_encode v w rfl rfl rfl⟩
  | sbc =>
    rw [arithmetic16, arithmetic16, sbc16, sbc16, carryOf_eq_of_agree h]
    exact ⟨rfl, Flags.agree_encode v w rfl rfl rfl⟩

/-- **Shifts** agree. -/
theorem agree_shift (k : Shift) (a : UInt8) :
    (shift v.layout k a f).Agree (shift w.layout k a g) := by
  rw [shift, shift, carryOf_eq_of_agree h]
  exact ⟨rfl, Flags.agree_encode v w rfl rfl rfl⟩

/-- **Accumulator rotates** agree. -/
theorem agree_rotateA (k : Rotate) (a : UInt8) :
    (rotateA v.layout k a f).Agree (rotateA w.layout k a g) := by
  rw [rotateA, rotateA, h.carry]
  exact ⟨rfl, Flags.agree_encode v w h.sign h.zero rfl⟩

theorem agree_bit (n : Fin 8) (a : UInt8) : (bit v.layout n a f).Agree (bit w.layout n a g) :=
  ⟨rfl, Flags.agree_encode v w rfl rfl h.carry⟩

theorem agree_input (a : UInt8) : (input v.layout a f).Agree (input w.layout a g) :=
  ⟨rfl, Flags.agree_encode v w rfl rfl h.carry⟩

end Alu

end Micro80
