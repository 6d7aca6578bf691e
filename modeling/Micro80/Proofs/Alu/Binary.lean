import Micro80.Proofs.Alu.Chain

/-!
# Binary arithmetic of any length

Bytes are digits of base 256, and adding or subtracting them with carry is a positional operation on
both processors. So chains of these operations add and subtract numbers of any length, and the carry
tells whether the unsigned result fits.

The other flags are those of the last operation, and they speak of the whole number too. Its top bit
is that of the last byte. Whether the signed result fits is also decided in the last byte: the bytes
below it only count up from what the higher ones are worth, and never reach the next higher unit.
A processor that has parity in the place of overflow shows the parity of the last byte alone.

## Main definitions

* `Alu.natural`, `Alu.integer`: what bytes stand for without and with a sign.
* `Alu.Fits`: whether an integer fits in bytes with a sign.
* `Alu.FinalFlags`: what the flags say of the result of a chain.

## Main statements

* `Alu.isPositional_adc`, `Alu.isPositional_sbc`: bytes are added and subtracted as digits.
* `Alu.binary_chains`: what chains of additions and of subtractions leave.
-/

namespace Micro80

namespace Alu

/-! ### What bytes stand for -/

/-- The natural number with the given bytes, the low one first. -/
def natural (xs : List UInt8) : Nat := number 256 UInt8.toNat xs

/-- The integer that the given bytes stand for in two's complement. -/
def integer (xs : List UInt8) : Int := (natural xs : Int).bmod (256 ^ xs.length)

/-- **Fitting.** Whether an integer is one of those that bytes stand for in two's complement. -/
def Fits (n : Nat) (s : Int) : Prop := -(256 ^ n : Int) ≤ 2 * s ∧ 2 * s < 256 ^ n

theorem natural_cons (x : UInt8) (xs : List UInt8) :
    natural (x :: xs) = x.toNat + 256 * natural xs :=
  number_cons x xs

theorem natural_lt (xs : List UInt8) : natural xs < 256 ^ xs.length :=
  number_lt (by decide) fun x _ => x.toNat_lt

/-- The sign is in the number: from half of the range on it stands for what is missing. -/
theorem integer_eq (xs : List UInt8) :
    integer xs =
      if 2 * natural xs < 256 ^ xs.length then (natural xs : Int)
      else natural xs - (256 ^ xs.length : Nat) := by
  have below := natural_lt xs
  unfold integer
  rw [Int.bmod_def, Int.emod_eq_of_lt (Int.natCast_nonneg _) (Int.ofNat_lt.2 below)]
  generalize natural xs = k at below ⊢
  generalize 256 ^ xs.length = m at below ⊢
  split <;> split <;> omega

theorem toInt_toInt8 (x : UInt8) :
    x.toInt8.toInt = if x.toNat < 128 then (x.toNat : Int) else x.toNat - 256 := by
  show x.toBitVec.toInt = _
  rw [BitVec.toInt_eq_toNat_cond]
  simp only [UInt8.toNat_toBitVec]
  split <;> split <;> omega

/-- One byte with a sign. -/
theorem integer_singleton (x : UInt8) : integer [x] = x.toInt8.toInt := by
  rw [integer_eq, toInt_toInt8, natural_cons]
  show (if 2 * (x.toNat + 256 * 0) < 256 then ((x.toNat + 256 * 0 : Nat) : Int)
    else ((x.toNat + 256 * 0 : Nat) : Int) - 256) = _
  split <;> split <;> omega

/-- Only the highest byte has a sign. -/
theorem integer_cons (x : UInt8) {xs : List UInt8} (nonempty : xs ≠ []) :
    integer (x :: xs) = x.toNat + 256 * integer xs := by
  have byte := x.toNat_lt
  obtain ⟨n, hn⟩ := Nat.exists_eq_succ_of_ne_zero (List.length_pos_iff.2 nonempty).ne'
  rw [integer_eq, integer_eq, natural_cons, List.length_cons, hn, Nat.pow_succ', Nat.pow_succ']
  generalize 256 ^ n = m
  generalize natural xs = k
  split <;> split <;> push_cast <;> omega

/-! ### Final flags -/

/-- **Final flags** after a chain that leaves the given bytes, where the exact result with a sign is
the given integer. -/
structure FinalFlags (v : Variant) (exact : Int) (r : AluResult (List UInt8)) : Prop where
  /-- The sign flag is the top bit. -/
  sign : (Flags.ofByte r.flags).sign = (natural r.value).testBit (8 * r.value.length - 1)
  /-- On the Z80 the parity flag is on if the exact result does not fit. -/
  overflow : v = .z80 →
    ((Flags.ofByte r.flags).parity = true ↔ ¬Fits r.value.length exact)
  /-- On the Z80 the two flags differ if the exact result is negative. -/
  negative : v = .z80 →
    ((Flags.ofByte r.flags).sign ≠ (Flags.ofByte r.flags).parity ↔ exact < 0)
  /-- On the 8085 the parity flag is on if the top byte has even parity. -/
  parity : v = .i8085 →
    ∃ top, r.value.getLast? = some top ∧ (Flags.ofByte r.flags).parity = evenParity top

/-- The top bit of a byte. -/
theorem isNegative_eq (x : UInt8) : isNegative x = (natural [x]).testBit 7 := by
  have byte := x.toNat_lt
  unfold isNegative
  rw [natural_cons, Nat.testBit_eq_decide_div_mod_eq]
  show decide (128 ≤ x.toNat) = decide ((x.toNat + 256 * 0) / 128 % 2 = 1)
  exact decide_eq_decide.2 (by omega)

/-- A byte fits if the flags say so. -/
theorem fits_one_iff (s : Int) : Fits 1 s ↔ fits8 s = true := by
  simp only [Fits, fits8, pow_one, Bool.and_eq_true, decide_eq_true_eq]
  omega

/-- A byte below others does not matter for whether the whole fits. -/
theorem fits_succ_iff {n : Nat} (positive : n ≠ 0) (z : UInt8) (s : Int) :
    Fits (n + 1) (z.toNat + 256 * s) ↔ Fits n s := by
  have byte := z.toNat_lt
  obtain ⟨m, rfl⟩ := Nat.exists_eq_succ_of_ne_zero positive
  simp only [Fits, Nat.succ_eq_add_one, pow_succ]
  generalize (256 ^ m : Int) = k
  omega

/-- The top bit stays where it is when a byte is put below. -/
theorem testBit_natural_cons {zs : List UInt8} (nonempty : zs ≠ []) (z : UInt8) :
    (natural (z :: zs)).testBit (8 * (z :: zs).length - 1)
      = (natural zs).testBit (8 * zs.length - 1) := by
  have positive := List.length_pos_iff.2 nonempty
  have place : 8 * (z :: zs).length - 1 = 8 + (8 * zs.length - 1) := by
    rw [List.length_cons]
    omega
  rw [natural_cons, place, Nat.add_comm z.toNat, Nat.testBit_two_pow_mul_add _ z.toNat_lt,
    if_neg (by omega), Nat.add_sub_cancel_left]

/-- The flags of a chain speak of the bytes below, too. -/
theorem FinalFlags.cons {v : Variant} {exact : Int} {zs : List UInt8} {g : UInt8}
    (h : FinalFlags v exact ⟨zs, g⟩) (nonempty : zs ≠ []) (z : UInt8) :
    FinalFlags v (z.toNat + 256 * exact) ⟨z :: zs, g⟩ where
  sign := h.sign.trans (testBit_natural_cons nonempty z).symm
  overflow hv := by
    have positive : zs.length ≠ 0 := (List.length_pos_iff.2 nonempty).ne'
    rw [List.length_cons, fits_succ_iff positive]
    exact h.overflow hv
  negative hv := by
    have byte := z.toNat_lt
    refine (h.negative hv).trans ?_
    omega
  parity hv := by
    obtain ⟨top, last, even⟩ := h.parity hv
    exact ⟨top, (List.getLast?_cons_of_ne_nil nonempty).trans last, even⟩

/-! ### One byte -/

theorem toNat_bitByte (b : Bool) : (bitByte b).toNat = b.toNat := by
  cases b <;> rfl

theorem toNat_addCarry (L : FlagLayout) (a b : UInt8) (carry : Bool) :
    (addCarry L a b carry).value.toNat = (a.toNat + b.toNat + carry.toNat) % 256 := by
  show (a + b + bitByte carry).toNat = _
  rw [UInt8.toNat_add, UInt8.toNat_add, toNat_bitByte]
  omega

theorem toNat_subBorrow (L : FlagLayout) (a b : UInt8) (borrow : Bool) :
    ((subBorrow L a b borrow).value.toNat : Int)
      = ((a.toNat : Int) - b.toNat - borrow.toNat) % 256 := by
  have low := borrow.toNat_le
  have ha := a.toNat_lt
  have hb := b.toNat_lt
  show ((a - b - bitByte borrow).toNat : Int) = _
  rw [UInt8.toNat_sub, UInt8.toNat_sub, toNat_bitByte]
  omega

theorem carryOf_encode (v : Variant) (x : Flags) : carryOf (v.layout.encode x) = x.carry := by
  rw [carryOf, FlagLayout.ofByte_encode]

variable (v : Variant)

/-- The carry of a sum is what does not fit in a byte, -/
theorem carryOf_addCarry (x y : UInt8) (carry : Bool) :
    carryOf (addCarry v.layout x y carry).flags =
      decide (256 ≤ x.toNat + y.toNat + carry.toNat) :=
  carryOf_encode v _

/-- and that of a difference is a borrow. -/
theorem carryOf_subBorrow (x y : UInt8) (borrow : Bool) :
    carryOf (subBorrow v.layout x y borrow).flags = decide (x.toNat < y.toNat + borrow.toNat) :=
  carryOf_encode v _

/-- **Bytes are added as digits.** -/
theorem isPositional_adc :
    IsPositional 256 UInt8.toNat (fun _ => True) 1 (arithmetic v.layout .adc) where
  one_lt_base := by decide
  digit_lt x _ := x.toNat_lt
  isDigit_value _ _ _ _ _ := trivial
  exact x y f _ _ := by
    have value := toNat_addCarry v.layout x y (carryOf f)
    have carry := carryOf_addCarry v x y (carryOf f)
    have low := (carryOf f).toNat_le
    have hx := x.toNat_lt
    have hy := y.toNat_lt
    show (x.toNat : Int) + 1 * (y.toNat + (carryOf f).toNat) =
      (addCarry v.layout x y (carryOf f)).value.toNat
        + 1 * 256 * (carryOf (addCarry v.layout x y (carryOf f)).flags).toNat
    rw [value, carry]
    by_cases large : 256 ≤ x.toNat + y.toNat + (carryOf f).toNat
    · rw [decide_eq_true large, Bool.toNat_true]
      omega
    · rw [decide_eq_false large, Bool.toNat_false]
      omega

/-- **Bytes are subtracted as digits.** -/
theorem isPositional_sbc :
    IsPositional 256 UInt8.toNat (fun _ => True) (-1) (arithmetic v.layout .sbc) where
  one_lt_base := by decide
  digit_lt x _ := x.toNat_lt
  isDigit_value _ _ _ _ _ := trivial
  exact x y f _ _ := by
    have value := toNat_subBorrow v.layout x y (carryOf f)
    have carry := carryOf_subBorrow v x y (carryOf f)
    have low := (carryOf f).toNat_le
    have hx := x.toNat_lt
    have hy := y.toNat_lt
    show (x.toNat : Int) + -1 * (y.toNat + (carryOf f).toNat) =
      (subBorrow v.layout x y (carryOf f)).value.toNat
        + -1 * 256 * (carryOf (subBorrow v.layout x y (carryOf f)).flags).toNat
    rw [value, carry]
    by_cases borrow : x.toNat < y.toNat + (carryOf f).toNat
    · rw [decide_eq_true borrow, Bool.toNat_true]
      omega
    · rw [decide_eq_false borrow, Bool.toNat_false]
      omega

/-- The sign of a byte tells that of an exact result, unless that does not fit. -/
theorem isNegative_ne_iff {r : UInt8} {n : Int} (least : -256 ≤ n) (most : n < 256)
    (wrapped : (r.toNat : Int) = n % 256) : isNegative r ≠ !fits8 n ↔ n < 0 := by
  have byte := r.toNat_lt
  unfold isNegative fits8
  by_cases high : 128 ≤ r.toNat
  · rw [decide_eq_true high]
    simp only [ne_eq, Bool.true_eq, Bool.not_eq_true', Bool.not_eq_false, Bool.and_eq_true,
      decide_eq_true_eq]
    omega
  · rw [decide_eq_false high]
    simp only [ne_eq, Bool.false_eq, Bool.not_eq_false', Bool.and_eq_true, decide_eq_true_eq]
    omega

/-- **The flags after one byte.** It is enough that the operation sets the sign flag to the sign of
the byte and the parity flag by the exact result. -/
theorem finalFlags_singleton {r : UInt8} {x : Flags} {n : Int} (sign : x.sign = isNegative r)
    (parity : x.parity = parityOrOverflow v.layout r n) (least : -256 ≤ n) (most : n < 256)
    (wrapped : (r.toNat : Int) = n % 256) : FinalFlags v n ⟨[r], v.layout.encode x⟩ where
  sign := by
    rw [FlagLayout.ofByte_encode]
    exact sign.trans (isNegative_eq r)
  overflow hv := by
    subst hv
    rw [FlagLayout.ofByte_encode]
    show x.parity = true ↔ ¬Fits 1 n
    rw [parity, fits_one_iff]
    show (!fits8 n) = true ↔ _
    rw [Bool.not_eq_true', Bool.not_eq_true]
  negative hv := by
    subst hv
    rw [FlagLayout.ofByte_encode]
    show x.sign ≠ x.parity ↔ n < 0
    rw [sign, parity]
    exact isNegative_ne_iff least most wrapped
  parity hv := by
    subst hv
    rw [FlagLayout.ofByte_encode]
    exact ⟨r, rfl, parity⟩

theorem finalFlags_adc (x y f : UInt8) :
    FinalFlags v (integer [x] + 1 * (integer [y] + (carryOf f).toNat))
      ⟨[(arithmetic v.layout .adc x y f).value], (arithmetic v.layout .adc x y f).flags⟩ := by
  have low := (carryOf f).toNat_le
  have hx := x.toNat_lt
  have hy := y.toNat_lt
  have value := toNat_addCarry v.layout x y (carryOf f)
  rw [integer_singleton, integer_singleton, one_mul, ← add_assoc]
  refine finalFlags_singleton v rfl rfl ?_ ?_ ?_
  all_goals rw [toInt_toInt8, toInt_toInt8]
  · split <;> split <;> omega
  · split <;> split <;> omega
  · rw [show (arithmetic v.layout .adc x y f).value.toNat = _ from value]
    split <;> split <;> omega

theorem finalFlags_sbc (x y f : UInt8) :
    FinalFlags v (integer [x] + -1 * (integer [y] + (carryOf f).toNat))
      ⟨[(arithmetic v.layout .sbc x y f).value], (arithmetic v.layout .sbc x y f).flags⟩ := by
  have low := (carryOf f).toNat_le
  have hx := x.toNat_lt
  have hy := y.toNat_lt
  have value := toNat_subBorrow v.layout x y (carryOf f)
  rw [integer_singleton, integer_singleton, neg_one_mul, ← sub_eq_add_neg, ← sub_sub]
  refine finalFlags_singleton v rfl rfl ?_ ?_ ?_
  all_goals rw [toInt_toInt8, toInt_toInt8]
  · split <;> split <;> omega
  · split <;> split <;> omega
  · rw [show ((arithmetic v.layout .sbc x y f).value.toNat : Int) = _ from value]
    split <;> split <;> omega

/-! ### Chains -/

variable {v}

/-- **The flags after a chain** are those of its last operation, and what they say of the last byte
holds of the whole number. -/
theorem finalFlags_chain {sign : Int} {op : UInt8 → UInt8 → UInt8 → AluResult UInt8}
    (positional : IsPositional 256 UInt8.toNat (fun _ => True) sign op)
    (single : ∀ x y f, FinalFlags v (integer [x] + sign * (integer [y] + (carryOf f).toNat))
      ⟨[(op x y f).value], (op x y f).flags⟩)
    {xs ys : List UInt8} (same : xs.length = ys.length) (nonempty : xs ≠ []) (f : UInt8) :
    FinalFlags v (integer xs + sign * (integer ys + (carryOf f).toNat)) (chain op op xs ys f) := by
  induction xs generalizing ys f with
  | nil => exact absurd rfl nonempty
  | cons x xs ih =>
    obtain _ | ⟨y, ys⟩ := ys
    · cases same
    · have same : xs.length = ys.length := Nat.succ.inj same
      rw [chain_cons]
      by_cases last : xs = []
      · have none : ys = [] := List.length_eq_zero_iff.1 (by rw [← same, last, List.length_nil])
        subst last none
        exact single x y f
      · -- What the low byte passes on as carry is all that the bytes above it see of it.
        have more : ys ≠ [] := by
          rintro rfl
          exact last (List.length_eq_zero_iff.1 same)
        have left : (chain op op xs ys (op x y f).flags).value ≠ [] := by
          intro none
          have length : (chain op op xs ys (op x y f).flags).value.length = xs.length :=
            length_chain same (op x y f).flags
          rw [none] at length
          exact last (List.length_eq_zero_iff.1 length.symm)
        have high := (ih same last (op x y f).flags).cons left (op x y f).value
        have low := positional.exact x y f trivial trivial
        have total : integer (x :: xs) + sign * (integer (y :: ys) + (carryOf f).toNat) =
            (op x y f).value.toNat + 256 *
              (integer xs + sign * (integer ys + (carryOf (op x y f).flags).toNat)) := by
          rw [integer_cons x last, integer_cons y more]
          linear_combination low
        rw [total]
        exact high

/-- **Binary arithmetic of any length.** Chains of additions and of subtractions leave the sum and
the difference modulo the range of the bytes; the carry tells whether they are outside of it, and
the other flags are as after one operation on the whole numbers. An operation that does not look at
the carry may begin a chain in the place of one that finds none. -/
theorem binary_chains (v : Variant) {xs ys : List UInt8} (same : xs.length = ys.length)
    (nonempty : xs ≠ []) (f : UInt8) :
    let n := xs.length
    let c := (carryOf f).toNat
    let sum := chain (arithmetic v.layout .adc) (arithmetic v.layout .adc) xs ys f
    let difference := chain (arithmetic v.layout .sbc) (arithmetic v.layout .sbc) xs ys f
    (sum.value.length = n ∧
      natural sum.value = (natural xs + natural ys + c) % 256 ^ n ∧
      (carryOf sum.flags = true ↔ 256 ^ n ≤ natural xs + natural ys + c) ∧
      FinalFlags v (integer xs + integer ys + c) sum) ∧
    (difference.value.length = n ∧
      (natural difference.value : Int) = ((natural xs : Int) - natural ys - c) % (256 ^ n : Nat) ∧
      (carryOf difference.flags = true ↔ natural xs < natural ys + c) ∧
      FinalFlags v (integer xs - integer ys - c) difference) ∧
    (carryOf f = false → ∀ g,
      chain (arithmetic v.layout .add) (arithmetic v.layout .adc) xs ys g = sum ∧
      chain (arithmetic v.layout .sub) (arithmetic v.layout .sbc) xs ys g = difference) := by
  have all : ∀ zs : List UInt8, ∀ z ∈ zs, True := fun _ _ _ => trivial
  intro n c sum difference
  refine ⟨?_, ?_, ?_⟩
  · obtain ⟨value, carry⟩ := (isPositional_adc v).number_sum same (all xs) (all ys) f
    have flags := finalFlags_chain (isPositional_adc v) (finalFlags_adc v) same nonempty f
    rw [one_mul, ← add_assoc] at flags
    exact ⟨length_chain same f, value, carry, flags⟩
  · obtain ⟨value, carry⟩ := (isPositional_sbc v).number_difference same (all xs) (all ys) f
    have flags := finalFlags_chain (isPositional_sbc v) (finalFlags_sbc v) same nonempty f
    rw [neg_one_mul, ← sub_eq_add_neg, ← sub_sub] at flags
    exact ⟨length_chain same f, value, carry, flags⟩
  · intro noCarry g
    obtain _ | ⟨x, xs⟩ := xs
    · exact absurd rfl nonempty
    · obtain _ | ⟨y, ys⟩ := ys
      · cases same
      · have add : arithmetic v.layout .adc x y f = arithmetic v.layout .add x y g := by
          show addCarry v.layout x y (carryOf f) = addCarry v.layout x y false
          rw [noCarry]
        have sub : arithmetic v.layout .sbc x y f = arithmetic v.layout .sub x y g := by
          show subBorrow v.layout x y (carryOf f) = subBorrow v.layout x y false
          rw [noCarry]
        refine ⟨?_, ?_⟩
        · show _ = chain _ _ (x :: xs) (y :: ys) f
          rw [chain_cons, chain_cons, add]
        · show _ = chain _ _ (x :: xs) (y :: ys) f
          rw [chain_cons, chain_cons, sub]

/-- The greatest positive number of three bytes and one more. -/
theorem binary_chains_overflowing :
    let xs : List UInt8 := [0xFF, 0xFF, 0x7F]
    let ys : List UInt8 := [0x01, 0x00, 0x00]
    let op := arithmetic Variant.z80.layout .adc
    let sum := chain op op xs ys 0
    (xs.length = ys.length ∧ xs ≠ []) ∧
      natural sum.value = 0x800000 ∧ carryOf sum.flags = false ∧
      (Flags.ofByte sum.flags).parity = true ∧ (Flags.ofByte sum.flags).sign = true := by
  intro xs ys op sum
  have same : xs.length = ys.length := rfl
  have nonempty : xs ≠ [] := List.cons_ne_nil _ _
  obtain ⟨⟨-, value, carry, flags⟩, -⟩ := binary_chains .z80 same nonempty 0
  refine ⟨⟨same, nonempty⟩, value.trans (by decide), ?_, (flags.overflow rfl).2 ?_, ?_⟩
  · exact Bool.eq_false_iff.2 fun h => absurd (carry.1 h) (by decide)
  · rintro ⟨-, most⟩
    exact absurd most (by decide)
  · rw [flags.sign, value]
    decide

end Alu

end Micro80
