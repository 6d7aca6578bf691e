import Micro80.Proofs.Alu.Binary

/-!
# Decimal arithmetic of any length

A packed decimal byte holds two decimal digits, one in each half, and is a digit of base 100.
Addition with carry followed by decimal adjustment adds such digits on both processors: the half
carry and the carry tell the adjustment which halves have gone past nine, even where what is left of
them looks like a digit. A processor that knows that the last arithmetic was a subtraction adjusts
differences as well.

The carry after the adjustment is that of base 100, so chains of adjusted operations are decimal
arithmetic of any length.

## Main definitions

* `Alu.IsPacked`, `Alu.packed`: packed decimal bytes and the numbers below 100 they stand for.
* `Alu.decimal`: what packed decimal bytes stand for together.
* `Alu.adjusted`: a byte operation followed by decimal adjustment.

## Main statements

* `Alu.isPositional_adjusted_adc`, `Alu.isPositional_adjusted_sbc`: packed decimal bytes are added,
  and on the Z80 subtracted, as digits.
* `Alu.decimal_chains`: what chains of adjusted operations leave.
-/

namespace Micro80

namespace Alu

/-! ### Packed decimal -/

/-- The high four bits as a number. -/
def highNibble (r : UInt8) : Nat := r.toNat / 16

/-- **Packed decimal.** Both halves of a byte are decimal digits. -/
def IsPacked (x : UInt8) : Prop := highNibble x ≤ 9 ∧ lowNibble x ≤ 9

instance decidableIsPacked (x : UInt8) : Decidable (IsPacked x) :=
  inferInstanceAs (Decidable (_ ∧ _))

/-- The number for a packed decimal byte. -/
def packed (x : UInt8) : Nat := 10 * highNibble x + lowNibble x

/-- The number for packed decimal bytes, the low one first. -/
def decimal (xs : List UInt8) : Nat := number 100 packed xs

/-- **Adjusted operations.** A byte operation and the decimal adjustment of what it leaves. -/
def adjusted (L : FlagLayout) (k : Arithmetic) (x y f : UInt8) : AluResult UInt8 :=
  let r := arithmetic L k x y f
  daa L r.value r.flags

theorem packed_lt {x : UInt8} (h : IsPacked x) : packed x < 100 := by
  obtain ⟨high, low⟩ := h
  unfold packed
  omega

/-! ### Sums -/

/-- The adjustment of a sum, if it is not known to be a difference. -/
theorem daa_of_sum (v : Variant) (a f : UInt8)
    (sum : (v.layout.subtract && (Flags.ofByte f).subtract) = false) :
    (daa v.layout a f).value =
        UInt8.ofNat (adjustedSum a (Flags.ofByte f).carry (Flags.ofByte f).half) ∧
      carryOf (daa v.layout a f).flags = ((Flags.ofByte f).carry
        || decide (0xFF < adjustedSum a (Flags.ofByte f).carry (Flags.ofByte f).half)) := by
  unfold daa
  simp only [sum, carryOf_encode, Bool.false_eq_true, if_false]
  exact ⟨trivial, trivial⟩

/-- The carry out of the low digits of a decimal sum. -/
def lowCarry (x y : UInt8) (c : Bool) : Bool :=
  decide (10 ≤ lowNibble x + lowNibble y + c.toNat)

/-- The carry out of both digits of a decimal sum. -/
def highCarry (x y : UInt8) (c : Bool) : Bool :=
  decide (10 ≤ highNibble x + highNibble y + (lowCarry x y c).toNat)

/-- A byte in halves. -/
theorem toNat_eq_nibbles (x : UInt8) : x.toNat = 16 * highNibble x + lowNibble x := by
  unfold highNibble lowNibble
  omega

/-- A carry takes ten away from a sum that has gone past nine. -/
theorem digit_of_sum {s : Nat} (h : s ≤ 19) :
    10 * (decide (10 ≤ s)).toNat ≤ s ∧ s ≤ 10 * (decide (10 ≤ s)).toNat + 9 := by
  by_cases past : 10 ≤ s
  · rw [decide_eq_true past, Bool.toNat_true]
    omega
  · rw [decide_eq_false past, Bool.toNat_false]
    omega

section Sum

variable {x y : UInt8} (hx : IsPacked x) (hy : IsPacked y) (c : Bool)

include hx hy

theorem lowCarry_bounds :
    10 * (lowCarry x y c).toNat ≤ lowNibble x + lowNibble y + c.toNat ∧
      lowNibble x + lowNibble y + c.toNat ≤ 10 * (lowCarry x y c).toNat + 9 := by
  have hc := c.toNat_le
  have hxl := hx.2
  have hyl := hy.2
  exact digit_of_sum (by omega)

theorem highCarry_bounds :
    10 * (highCarry x y c).toNat ≤ highNibble x + highNibble y + (lowCarry x y c).toNat ∧
      highNibble x + highNibble y + (lowCarry x y c).toNat
        ≤ 10 * (highCarry x y c).toNat + 9 := by
  have hl := (lowCarry x y c).toNat_le
  have hxh := hx.1
  have hyh := hy.1
  exact digit_of_sum (by omega)

variable {c} {a : UInt8} (ha : a.toNat = (x.toNat + y.toNat + c.toNat) % 256) {carry half : Bool}
  (hcarry : carry = decide (256 ≤ x.toNat + y.toNat + c.toNat))
  (hhalf : half = decide (16 ≤ lowNibble x + lowNibble y + c.toNat))

include ha hcarry hhalf

/-- **Adjusting a sum** of two packed decimal bytes and a carry adds six to each digit that has gone
past nine. What the byte has lost is in the carry and the half carry. -/
theorem adjustedSum_eq :
    adjustedSum a carry half =
      a.toNat + 0x06 * (lowCarry x y c).toNat + 0x60 * (highCarry x y c).toNat := by
  have hxl := hx.2
  have hyl := hy.2
  have low := lowCarry_bounds hx hy c
  have hx' := toNat_eq_nibbles x
  have hy' := toNat_eq_nibbles y
  have adjustLow : (decide (9 < lowNibble a) || half) = lowCarry x y c := by
    unfold lowCarry lowNibble
    unfold lowNibble at hhalf
    rw [ha, hhalf, ← Bool.decide_or]
    exact decide_eq_decide.2 (by omega)
  -- The high digit is looked at when the low one has been adjusted.
  have adjustHigh : (decide (9 < (a.toNat + 0x06 * (lowCarry x y c).toNat) / 16 % 16) || carry
      || decide (0xFF < a.toNat + 0x06 * (lowCarry x y c).toNat)) = highCarry x y c := by
    have hxh := hx.1
    have hyh := hy.1
    unfold highCarry
    rw [ha, hcarry, ← Bool.decide_or, ← Bool.decide_or]
    refine decide_eq_decide.2 ?_
    obtain below | past := Nat.le_one_iff_eq_zero_or_eq_one.1 (lowCarry x y c).toNat_le
    · rw [below] at low ⊢
      omega
    · rw [past] at low ⊢
      omega
  have first : (if lowCarry x y c then a.toNat + 0x06 else a.toNat) =
      a.toNat + 0x06 * (lowCarry x y c).toNat := by
    cases lowCarry x y c <;> rfl
  unfold adjustedSum
  simp only [adjustLow, first, adjustHigh]
  cases highCarry x y c <;> rfl

/-- The carry after the adjustment is that of the decimal sum. -/
theorem carry_adjustedSum :
    (carry || decide (0xFF < adjustedSum a carry half)) = highCarry x y c := by
  rw [adjustedSum_eq hx hy ha hcarry hhalf]
  have low := lowCarry_bounds hx hy c
  have high := highCarry_bounds hx hy c
  have hx' := toNat_eq_nibbles x
  have hy' := toNat_eq_nibbles y
  rw [ha, hcarry, ← Bool.decide_or]
  cases hh : highCarry x y c with
  | false =>
    rw [hh] at high
    simp only [Bool.toNat_false] at high ⊢
    exact decide_eq_false (by omega)
  | true =>
    rw [hh] at high
    simp only [Bool.toNat_true] at high ⊢
    exact decide_eq_true (by omega)

end Sum

/-- A byte made of two decimal digits. -/
theorem isPacked_of_digits {r : UInt8} {high low : Nat} (digits : r.toNat = 16 * high + low)
    (hhigh : high ≤ 9) (hlow : low ≤ 9) : IsPacked r ∧ packed r = 10 * high + low := by
  unfold IsPacked packed highNibble lowNibble
  omega

/-- **Packed decimal bytes are added as digits.** -/
theorem isPacked_adjusted_adc (v : Variant) {x y : UInt8} (hx : IsPacked x) (hy : IsPacked y)
    (f : UInt8) :
    let r := adjusted v.layout .adc x y f
    IsPacked r.value ∧
      packed x + packed y + (carryOf f).toNat = packed r.value + 100 * (carryOf r.flags).toNat := by
  let a := addCarry v.layout x y (carryOf f)
  have ha : a.value.toNat = _ := toNat_addCarry v.layout x y (carryOf f)
  have flags : Flags.ofByte a.flags = _ := FlagLayout.ofByte_encode v _
  have hcarry : (Flags.ofByte a.flags).carry =
      decide (256 ≤ x.toNat + y.toNat + (carryOf f).toNat) := by rw [flags]
  have hhalf : (Flags.ofByte a.flags).half =
      decide (16 ≤ lowNibble x + lowNibble y + (carryOf f).toNat) := by rw [flags]
  have sum : (v.layout.subtract && (Flags.ofByte a.flags).subtract) = false := by
    rw [flags]
    cases v <;> rfl
  obtain ⟨value, carry⟩ := daa_of_sum v a.value a.flags sum
  rw [adjustedSum_eq hx hy ha hcarry hhalf] at value
  rw [carry_adjustedSum hx hy ha hcarry hhalf] at carry
  have low := lowCarry_bounds hx hy (carryOf f)
  have high := highCarry_bounds hx hy (carryOf f)
  have hx' := toNat_eq_nibbles x
  have hy' := toNat_eq_nibbles y
  -- What is left of each half is the digit of the decimal sum in its place.
  have digits : (daa v.layout a.value a.flags).value.toNat =
      16 * (highNibble x + highNibble y + (lowCarry x y (carryOf f)).toNat
        - 10 * (highCarry x y (carryOf f)).toNat)
      + (lowNibble x + lowNibble y + (carryOf f).toNat
        - 10 * (lowCarry x y (carryOf f)).toNat) := by
    rw [value, UInt8.toNat_ofNat', ha]
    omega
  obtain ⟨isPacked, number⟩ := isPacked_of_digits digits (by omega) (by omega)
  refine ⟨isPacked, ?_⟩
  show _ = packed (daa v.layout a.value a.flags).value
    + 100 * (carryOf (daa v.layout a.value a.flags).flags).toNat
  rw [number, carry]
  unfold packed
  omega

/-- Addition with carry and adjustment is positional. -/
theorem isPositional_adjusted_adc (v : Variant) :
    IsPositional 100 packed IsPacked 1 (adjusted v.layout .adc) where
  one_lt_base := by decide
  digit_lt _ := packed_lt
  isDigit_value _ _ f hx hy := (isPacked_adjusted_adc v hx hy f).1
  exact x y f hx hy := by
    have total := (isPacked_adjusted_adc v hx hy f).2
    push_cast
    omega

/-! ### Differences -/

/-- The adjustment of a difference, where it is known to be one. -/
theorem daa_of_difference (a : UInt8) {f : UInt8} (difference : (Flags.ofByte f).subtract = true) :
    (daa Variant.z80.layout a f).value =
        a - adjustment a (Flags.ofByte f).carry (Flags.ofByte f).half ∧
      carryOf (daa Variant.z80.layout a f).flags =
        ((Flags.ofByte f).carry || decide (0x99 < a.toNat)) := by
  have known : (Variant.z80.layout.subtract && (Flags.ofByte f).subtract) = true := difference
  unfold daa
  simp only [known, carryOf_encode, if_true]
  exact ⟨trivial, trivial⟩

/-- The borrow of the low digits of a decimal difference. -/
def lowBorrow (x y : UInt8) (c : Bool) : Bool := decide (lowNibble x < lowNibble y + c.toNat)

/-- The borrow of both digits of a decimal difference. -/
def highBorrow (x y : UInt8) (c : Bool) : Bool :=
  decide (highNibble x < highNibble y + (lowBorrow x y c).toNat)

/-- A borrow puts ten on top of a digit from which too much is taken. -/
theorem digit_of_difference {m s : Nat} (hm : m ≤ 9) (hs : s ≤ 10) :
    s ≤ m + 10 * (decide (m < s)).toNat ∧ m + 10 * (decide (m < s)).toNat ≤ s + 9 := by
  by_cases less : m < s
  · rw [decide_eq_true less, Bool.toNat_true]
    omega
  · rw [decide_eq_false less, Bool.toNat_false]
    omega

section Difference

variable {x y : UInt8} (hx : IsPacked x) (hy : IsPacked y) (c : Bool)

include hx hy

theorem lowBorrow_bounds :
    lowNibble y + c.toNat ≤ lowNibble x + 10 * (lowBorrow x y c).toNat ∧
      lowNibble x + 10 * (lowBorrow x y c).toNat ≤ lowNibble y + c.toNat + 9 := by
  have hc := c.toNat_le
  have hyl := hy.2
  exact digit_of_difference hx.2 (by omega)

theorem highBorrow_bounds :
    highNibble y + (lowBorrow x y c).toNat ≤ highNibble x + 10 * (highBorrow x y c).toNat ∧
      highNibble x + 10 * (highBorrow x y c).toNat
        ≤ highNibble y + (lowBorrow x y c).toNat + 9 := by
  have hl := (lowBorrow x y c).toNat_le
  have hyh := hy.1
  exact digit_of_difference hx.1 (by omega)

variable {c} {a : UInt8} (ha : (a.toNat : Int) = ((x.toNat : Int) - y.toNat - c.toNat) % 256)

include ha

omit hy in
/-- The low digit of a difference that needs no borrow is right as it stands. -/
theorem adjustLow_difference : (lowBorrow x y c || decide (9 < lowNibble a)) = lowBorrow x y c := by
  have hxl := hx.2
  have hx' := toNat_eq_nibbles x
  have hy' := toNat_eq_nibbles y
  cases hb : lowBorrow x y c with
  | true => rfl
  | false =>
    have enough : ¬lowNibble x < lowNibble y + c.toNat := of_decide_eq_false hb
    rw [Bool.false_or]
    refine decide_eq_false ?_
    unfold lowNibble at *
    omega

variable {carry : Bool} (hcarry : carry = decide (x.toNat < y.toNat + c.toNat))

include hcarry

/-- The carry of a difference is the borrow of its high digits, and is not too small a difference
after all. -/
theorem adjustHigh_difference : (carry || decide (0x99 < a.toNat)) = highBorrow x y c := by
  have low := lowBorrow_bounds hx hy c
  have high := highBorrow_bounds hx hy c
  have one := (lowBorrow x y c).toNat_le
  have hxl := hx.2
  have hxh := hx.1
  have hyl := hy.2
  have hx' := toNat_eq_nibbles x
  have hy' := toNat_eq_nibbles y
  rw [hcarry, ← Bool.decide_or]
  cases hh : highBorrow x y c with
  | false =>
    rw [hh] at high
    simp only [Bool.toNat_false] at high
    have enough : y.toNat + c.toNat ≤ x.toNat := by omega
    have small : x.toNat ≤ y.toNat + c.toNat + 0x99 := by omega
    exact decide_eq_false (by omega)
  | true =>
    rw [hh] at high
    simp only [Bool.toNat_true] at high
    exact decide_eq_true (by omega)

/-- **Adjusting a difference** takes six from each digit that has borrowed. -/
theorem toNat_adjustment :
    (adjustment a carry (lowBorrow x y c)).toNat =
      0x06 * (lowBorrow x y c).toNat + 0x60 * (highBorrow x y c).toNat := by
  unfold adjustment
  rw [adjustLow_difference hx ha, adjustHigh_difference hx hy ha hcarry]
  cases lowBorrow x y c <;> cases highBorrow x y c <;> rfl

end Difference

/-- **Packed decimal bytes are subtracted as digits** on the Z80. -/
theorem isPacked_adjusted_sbc {x y : UInt8} (hx : IsPacked x) (hy : IsPacked y) (f : UInt8) :
    let r := adjusted Variant.z80.layout .sbc x y f
    IsPacked r.value ∧
      packed x + 100 * (carryOf r.flags).toNat = packed r.value + packed y + (carryOf f).toNat := by
  let a := subBorrow Variant.z80.layout x y (carryOf f)
  have ha : (a.value.toNat : Int) = _ := toNat_subBorrow Variant.z80.layout x y (carryOf f)
  have flags : Flags.ofByte a.flags = _ := FlagLayout.ofByte_encode .z80 _
  have hcarry : (Flags.ofByte a.flags).carry =
      decide (x.toNat < y.toNat + (carryOf f).toNat) := by rw [flags]
  have hhalf : (Flags.ofByte a.flags).half = lowBorrow x y (carryOf f) := by
    rw [flags]
    rfl
  have difference : (Flags.ofByte a.flags).subtract = true := by
    rw [flags]
    rfl
  obtain ⟨value, carry⟩ := daa_of_difference a.value difference
  have taken := toNat_adjustment hx hy ha hcarry
  rw [hhalf] at value
  rw [adjustHigh_difference hx hy ha hcarry] at carry
  have low := lowBorrow_bounds hx hy (carryOf f)
  have high := highBorrow_bounds hx hy (carryOf f)
  have hx' := toNat_eq_nibbles x
  have hy' := toNat_eq_nibbles y
  -- What is left of each half is the digit of the decimal difference in its place.
  have digits : (daa Variant.z80.layout a.value a.flags).value.toNat =
      16 * (highNibble x + 10 * (highBorrow x y (carryOf f)).toNat
        - (highNibble y + (lowBorrow x y (carryOf f)).toNat))
      + (lowNibble x + 10 * (lowBorrow x y (carryOf f)).toNat
        - (lowNibble y + (carryOf f).toNat)) := by
    have oneLow := (lowBorrow x y (carryOf f)).toNat_le
    have oneHigh := (highBorrow x y (carryOf f)).toNat_le
    rw [value, UInt8.toNat_sub, taken]
    omega
  obtain ⟨isPacked, number⟩ := isPacked_of_digits digits (by omega) (by omega)
  refine ⟨isPacked, ?_⟩
  show _ + 100 * (carryOf (daa Variant.z80.layout a.value a.flags).flags).toNat
    = packed (daa Variant.z80.layout a.value a.flags).value + _ + _
  rw [number, carry]
  unfold packed
  omega

/-- Subtraction with carry and adjustment is positional on the Z80. -/
theorem isPositional_adjusted_sbc :
    IsPositional 100 packed IsPacked (-1) (adjusted Variant.z80.layout .sbc) where
  one_lt_base := by decide
  digit_lt _ := packed_lt
  isDigit_value _ _ f hx hy := (isPacked_adjusted_sbc hx hy f).1
  exact x y f hx hy := by
    have total := (isPacked_adjusted_sbc hx hy f).2
    push_cast
    omega

/-! ### Chains -/

/-- **Decimal arithmetic of any length.** Chains of adjusted additions leave packed decimal bytes,
which together with the carry are the sum. Chains of adjusted subtractions on the Z80 leave the
difference, modulo the range of the bytes, and a carry if it is negative. -/
theorem decimal_chains {xs ys : List UInt8} (same : xs.length = ys.length)
    (hx : ∀ x ∈ xs, IsPacked x) (hy : ∀ y ∈ ys, IsPacked y) (f : UInt8) :
    let n := xs.length
    let c := (carryOf f).toNat
    (∀ v : Variant,
      let op := adjusted v.layout .adc
      let sum := chain op op xs ys f
      (sum.value.length = n ∧ ∀ z ∈ sum.value, IsPacked z) ∧
        decimal sum.value + (carryOf sum.flags).toNat * 100 ^ n = decimal xs + decimal ys + c) ∧
    (let op := adjusted Variant.z80.layout .sbc
      let difference := chain op op xs ys f
      (difference.value.length = n ∧ ∀ z ∈ difference.value, IsPacked z) ∧
        (decimal difference.value : Int) =
          ((decimal xs : Int) - decimal ys - c) % (100 ^ n : Nat) ∧
        (carryOf difference.flags = true ↔ decimal xs < decimal ys + c)) := by
  intro n c
  refine ⟨?_, ?_⟩
  · intro v op sum
    have positional := isPositional_adjusted_adc v
    have exact := positional.exact_chain same hx hy f
    refine ⟨⟨length_chain same f, positional.isDigit_chain hx hy f⟩, ?_⟩
    rw [one_mul, one_mul] at exact
    norm_cast at exact
    rw [Nat.mul_comm, Nat.add_assoc]
    exact exact.symm
  · intro op difference
    have positional := isPositional_adjusted_sbc
    have number := positional.number_difference same hx hy f
    exact ⟨⟨length_chain same f, positional.isDigit_chain hx hy f⟩, number⟩

/-- Ten thousand less one. -/
theorem decimal_chains_borrowing :
    let xs : List UInt8 := [0x00, 0x00, 0x01]
    let ys : List UInt8 := [0x01, 0x00, 0x00]
    let op := adjusted Variant.z80.layout .sbc
    let difference := chain op op xs ys 0
    (xs.length = ys.length ∧ (∀ x ∈ xs, IsPacked x) ∧ ∀ y ∈ ys, IsPacked y) ∧
      (∀ z ∈ difference.value, IsPacked z) ∧ decimal difference.value = 9999 ∧
      carryOf difference.flags = false := by
  intro xs ys op difference
  have same : xs.length = ys.length := rfl
  have hx : ∀ x ∈ xs, IsPacked x := by
    simp only [xs, List.forall_mem_cons]
    exact ⟨by decide, by decide, by decide, List.forall_mem_nil _⟩
  have hy : ∀ y ∈ ys, IsPacked y := by
    simp only [ys, List.forall_mem_cons]
    exact ⟨by decide, by decide, by decide, List.forall_mem_nil _⟩
  obtain ⟨-, ⟨-, packed⟩, value, carry⟩ := decimal_chains same hx hy 0
  refine ⟨⟨same, hx, hy⟩, packed, Int.ofNat.inj (value.trans (by decide)), ?_⟩
  exact Bool.eq_false_iff.2 fun h => absurd (carry.1 h) (by decide)

end Alu

end Micro80
