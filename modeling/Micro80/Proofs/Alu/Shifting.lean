import Mathlib.Data.List.Basic
import Mathlib.Data.List.Induction
import Micro80.Proofs.Alu.Binary

/-!
# Shifts of any length

A number of any length is moved by one place byte by byte, with the carry as the only link between
bytes: to the left from the low byte up, to the right from the high byte down. At the end where the
pass begins, a bit comes in; the bit that goes out at the other end is the carry after the pass.

One equation says all of this. Moving to the left doubles a byte, and what does not fit becomes the
carry; moving to the right halves it together with what comes in above, and the remainder becomes
the carry. Whole passes do to numbers what their operations do to bytes. The operations of a pass
may be those for any byte or those for the accumulator: both meet the equation, and neither looks at
any other flag.

## Main definitions

* `Alu.pass`, `Alu.passDown`: an operation on each byte of a number.
* `Alu.IsDoubling`, `Alu.IsHalving`: operations that move a byte by one place through the carry.

## Main statements

* `Alu.IsDoubling.exact_pass`, `Alu.IsHalving.exact_passDown`: what passes do to numbers.
* `Alu.multibyte_shifts`: shifts and rotates of numbers of any length.
-/

namespace Micro80

namespace Alu

/-! ### Passes -/

/-- **Passes.** An operation on the first byte of a number, and then one on each further byte, each
with the flags that the one before it has left. -/
def pass (first rest : UInt8 → UInt8 → AluResult UInt8) :
    List UInt8 → UInt8 → AluResult (List UInt8)
  | [], f => { value := [], flags := f }
  | x :: xs, f =>
    let here := first x f
    let others := pass rest rest xs here.flags
    { value := here.value :: others.value, flags := others.flags }

/-- **Downward passes** begin with the last byte. -/
def passDown (first rest : UInt8 → UInt8 → AluResult UInt8) (xs : List UInt8) (f : UInt8) :
    AluResult (List UInt8) :=
  let result := pass first rest xs.reverse f
  { result with value := result.value.reverse }

section Pass

variable {first rest op : UInt8 → UInt8 → AluResult UInt8}

@[simp] theorem pass_nil (f : UInt8) : pass first rest [] f = { value := [], flags := f } := by
  rw [pass]

theorem pass_cons (x : UInt8) (xs : List UInt8) (f : UInt8) :
    pass first rest (x :: xs) f =
      { value := (first x f).value :: (pass rest rest xs (first x f).flags).value
        flags := (pass rest rest xs (first x f).flags).flags } := by
  rw [pass]

@[simp] theorem passDown_nil (f : UInt8) :
    passDown first rest [] f = { value := [], flags := f } := by
  rw [passDown, List.reverse_nil, pass_nil]
  rfl

theorem passDown_concat (xs : List UInt8) (x f : UInt8) :
    passDown first rest (xs ++ [x]) f =
      { value := (passDown rest rest xs (first x f).flags).value ++ [(first x f).value]
        flags := (passDown rest rest xs (first x f).flags).flags } := by
  simp only [passDown, List.reverse_concat, pass_cons, List.reverse_cons]

/-- A pass leaves as many bytes as it has been given. -/
@[simp] theorem length_pass (xs : List UInt8) (f : UInt8) :
    (pass first rest xs f).value.length = xs.length := by
  induction xs generalizing first f with
  | nil => rw [pass_nil]
  | cons x xs ih => rw [pass_cons, List.length_cons, List.length_cons, ih]

@[simp] theorem length_passDown (xs : List UInt8) (f : UInt8) :
    (passDown first rest xs f).value.length = xs.length := by
  rw [passDown, List.length_reverse, length_pass, List.length_reverse]

end Pass

/-! ### Numbers and their ends -/

/-- A byte above all others. -/
theorem natural_concat (xs : List UInt8) (x : UInt8) :
    natural (xs ++ [x]) = natural xs + 256 ^ xs.length * x.toNat := by
  unfold natural number
  rw [List.map_append, Nat.ofDigits_append, List.length_map, List.map_singleton,
    Nat.ofDigits_singleton]

/-- Bytes are determined by their number and by how many they are. -/
theorem natural_inj {xs ys : List UInt8} (same : xs.length = ys.length)
    (h : natural xs = natural ys) : xs = ys := by
  have digits : ∀ zs : List UInt8, ∀ d ∈ zs.map UInt8.toNat, d < 256 := by
    intro zs d hd
    obtain ⟨z, -, rfl⟩ := List.mem_map.1 hd
    exact z.toNat_lt
  have equal : xs.map UInt8.toNat = ys.map UInt8.toNat :=
    Nat.ofDigits_inj_of_len_eq (by decide) (by rw [List.length_map, List.length_map, same])
      (digits xs) (digits ys) h
  exact (List.map_inj_right fun _ _ => UInt8.toNat_inj.1).1 equal

/-- The top bit tells which half of the range a number is in. -/
theorem testBit_top {xs : List UInt8} (nonempty : xs ≠ []) :
    (natural xs).testBit (8 * xs.length - 1) = decide (256 ^ xs.length ≤ 2 * natural xs) := by
  have below := natural_lt xs
  have positive := List.length_pos_iff.2 nonempty
  have range : 256 ^ xs.length = 2 * 2 ^ (8 * xs.length - 1) := by
    rw [← pow_succ', show 8 * xs.length - 1 + 1 = 8 * xs.length by omega, pow_mul]
    rfl
  rw [range] at below ⊢
  by_cases high : 2 ^ (8 * xs.length - 1) ≤ natural xs
  · rw [decide_eq_true (Nat.mul_le_mul_left 2 high)]
    exact Nat.testBit_of_two_pow_le_and_two_pow_add_one_gt high (by omega)
  · rw [decide_eq_false (by omega)]
    exact Nat.testBit_lt_two_pow (by omega)

/-- The top bit of a number is that of its last byte. -/
theorem testBit_top_concat (xs : List UInt8) (x : UInt8) :
    (natural (xs ++ [x])).testBit (8 * (xs ++ [x]).length - 1) = isNegative x := by
  have below := natural_lt xs
  rw [testBit_top (List.concat_ne_nil x xs), natural_concat, List.length_append,
    List.length_singleton, pow_succ, isNegative]
  generalize 256 ^ xs.length = range at below ⊢
  refine decide_eq_decide.2 ⟨fun high => ?_, fun high => ?_⟩
  · by_contra low
    have bound : range * x.toNat ≤ range * 127 := Nat.mul_le_mul_left range (by omega)
    omega
  · have bound : range * 128 ≤ range * x.toNat := Nat.mul_le_mul_left range high
    omega

/-- **Halving with a sign.** If the bit that comes in above is the top bit, then what is left is
half of the integer, rounded down. -/
theorem integer_eq_div_two {xs zs : List UInt8} (nonempty : xs ≠ [])
    (same : zs.length = xs.length) {out : Bool}
    (exact : 2 * natural zs + out.toNat =
      natural xs + 256 ^ xs.length * ((natural xs).testBit (8 * xs.length - 1)).toNat) :
    integer zs = integer xs / 2 := by
  have small := out.toNat_le
  rw [testBit_top nonempty] at exact
  rw [integer_eq, integer_eq, same]
  generalize 256 ^ xs.length = range at exact ⊢
  by_cases high : range ≤ 2 * natural xs
  · rw [decide_eq_true high, Bool.toNat_true, mul_one] at exact
    rw [if_neg (by omega), if_neg (by omega)]
    omega
  · rw [decide_eq_false high, Bool.toNat_false, mul_zero, add_zero] at exact
    rw [if_pos (by omega), if_pos (by omega)]
    omega

/-! ### One byte -/

theorem exact_moveLeft (x : UInt8) (bit : Bool) :
    (moveLeft x bit).toNat + 256 * (isNegative x).toNat = 2 * x.toNat + bit.toNat := by
  have byte := x.toNat_lt
  have small := bit.toNat_le
  unfold moveLeft isNegative
  rw [UInt8.toNat_add, UInt8.toNat_add, toNat_bitByte]
  by_cases high : 128 ≤ x.toNat
  · rw [decide_eq_true high, Bool.toNat_true]
    omega
  · rw [decide_eq_false high, Bool.toNat_false]
    omega

theorem exact_moveRight (x : UInt8) (bit : Bool) :
    2 * (moveRight x bit).toNat + (isOdd x).toNat = x.toNat + 256 * bit.toNat := by
  have byte := x.toNat_lt
  have half : (x / 2).toNat = x.toNat / 2 := UInt8.toNat_div x 2
  have odd : (isOdd x).toNat = x.toNat % 2 := by
    unfold isOdd
    obtain even | odd := Nat.mod_two_eq_zero_or_one x.toNat
    · rw [even]
      rfl
    · rw [odd]
      rfl
  unfold moveRight
  rw [UInt8.toNat_add, half, odd]
  cases bit with
  | false =>
    show 2 * ((x.toNat / 2 + 0) % 256) + x.toNat % 2 = x.toNat + 256 * 0
    omega
  | true =>
    show 2 * ((x.toNat / 2 + 128) % 256) + x.toNat % 2 = x.toNat + 256 * 1
    omega

/-! ### Moves through the carry -/

/-- **Doubling.** An operation that moves a byte to the left, with the carry coming in and the bit
that goes out as carry. -/
def IsDoubling (op : UInt8 → UInt8 → AluResult UInt8) : Prop :=
  ∀ x f, (op x f).value.toNat + 256 * (carryOf (op x f).flags).toNat =
    2 * x.toNat + (carryOf f).toNat

/-- **Halving.** An operation that moves a byte to the right, with the carry coming in and the bit
that goes out as carry. -/
def IsHalving (op : UInt8 → UInt8 → AluResult UInt8) : Prop :=
  ∀ x f, 2 * (op x f).value.toNat + (carryOf (op x f).flags).toNat =
    x.toNat + 256 * (carryOf f).toNat

section Moves

variable {first rest op : UInt8 → UInt8 → AluResult UInt8}

/-- **Passes that double.** Only the first operation may have something else than the carry coming
in. -/
theorem IsDoubling.exact_pass_cons (h : IsDoubling rest) {x f : UInt8} {c : Nat}
    (low : (first x f).value.toNat + 256 * (carryOf (first x f).flags).toNat = 2 * x.toNat + c)
    (xs : List UInt8) :
    natural (pass first rest (x :: xs) f).value +
        256 ^ (x :: xs).length * (carryOf (pass first rest (x :: xs) f).flags).toNat =
      2 * natural (x :: xs) + c := by
  rw [pass_cons, natural_cons, natural_cons, List.length_cons, pow_succ]
  induction xs generalizing first x f c with
  | nil =>
    rw [pass_nil]
    show _ + 256 * 0 + 256 ^ 0 * 256 * _ = 2 * (_ + 256 * 0) + c
    omega
  | cons y ys ih =>
    have high := ih (h y (first x f).flags)
    rw [pass_cons, natural_cons, natural_cons, List.length_cons, pow_succ]
    linarith

theorem IsDoubling.exact_pass (h : IsDoubling op) (xs : List UInt8) (f : UInt8) :
    natural (pass op op xs f).value +
        256 ^ xs.length * (carryOf (pass op op xs f).flags).toNat =
      2 * natural xs + (carryOf f).toNat := by
  cases xs with
  | nil =>
    rw [pass_nil]
    show 0 + 256 ^ 0 * (carryOf f).toNat = 2 * 0 + (carryOf f).toNat
    omega
  | cons x xs => exact h.exact_pass_cons (h x f) xs

/-- **Passes that halve.** Only the first operation may have something else than the carry coming
in. -/
theorem IsHalving.exact_passDown_concat (h : IsHalving rest) {x f : UInt8} {c : Nat}
    (high : 2 * (first x f).value.toNat + (carryOf (first x f).flags).toNat = x.toNat + 256 * c)
    (xs : List UInt8) :
    2 * natural (passDown first rest (xs ++ [x]) f).value +
        (carryOf (passDown first rest (xs ++ [x]) f).flags).toNat =
      natural (xs ++ [x]) + 256 ^ (xs ++ [x]).length * c := by
  induction xs using List.reverseRecOn generalizing first x f c with
  | nil =>
    rw [passDown_concat, passDown_nil, List.nil_append, List.nil_append, natural_cons, natural_cons]
    show 2 * (_ + 256 * 0) + _ = _ + 256 * 0 + 256 ^ 1 * c
    omega
  | append_singleton ys y ih =>
    have low := ih (h y (first x f).flags)
    rw [passDown_concat, natural_concat, natural_concat (ys ++ [y]), length_passDown]
    simp only [List.length_append, List.length_singleton, pow_succ] at low ⊢
    linear_combination low + 256 ^ ys.length * 256 * high

theorem IsHalving.exact_passDown (h : IsHalving op) (xs : List UInt8) (f : UInt8) :
    2 * natural (passDown op op xs f).value + (carryOf (passDown op op xs f).flags).toNat =
      natural xs + 256 ^ xs.length * (carryOf f).toNat := by
  induction xs using List.reverseRecOn with
  | nil =>
    rw [passDown_nil]
    show 2 * 0 + (carryOf f).toNat = 0 + 256 ^ 0 * (carryOf f).toNat
    omega
  | append_singleton xs x => exact h.exact_passDown_concat (h x f) xs

end Moves

/-! ### The operations of the processors -/

section Operations

variable (v : Variant)

theorem carryOf_shift (k : Shift) (x f : UInt8) :
    carryOf (shift v.layout k x f).flags = (shifted k x (carryOf f)).2 :=
  carryOf_encode v _

theorem carryOf_rotateA (k : Rotate) (x f : UInt8) :
    carryOf (rotateA v.layout k x f).flags = (shifted k.toShift x (carryOf f)).2 :=
  carryOf_encode v _

/-- **The two kinds of rotates** have the same value and the same carry. -/
theorem rotateA_agrees_with_shift (k : Rotate) (x f : UInt8) :
    (rotateA v.layout k x f).value = (shift v.layout k.toShift x f).value ∧
      carryOf (rotateA v.layout k x f).flags = carryOf (shift v.layout k.toShift x f).flags :=
  ⟨rfl, (carryOf_rotateA v k x f).trans (carryOf_shift v k.toShift x f).symm⟩

/-- Rotates to the left through the carry double, -/
theorem isDoubling_of_mem {left : UInt8 → UInt8 → AluResult UInt8}
    (h : left ∈ [shift v.layout .rl, rotateA v.layout .rl]) : IsDoubling left := by
  intro x f
  obtain rfl | h := List.mem_cons.1 h
  · rw [carryOf_shift]
    exact exact_moveLeft x (carryOf f)
  · rw [List.mem_singleton.1 h, carryOf_rotateA]
    exact exact_moveLeft x (carryOf f)

/-- and those to the right halve. -/
theorem isHalving_of_mem {right : UInt8 → UInt8 → AluResult UInt8}
    (h : right ∈ [shift v.layout .rr, rotateA v.layout .rr]) : IsHalving right := by
  intro x f
  obtain rfl | h := List.mem_cons.1 h
  · rw [carryOf_shift]
    exact exact_moveRight x (carryOf f)
  · rw [List.mem_singleton.1 h, carryOf_rotateA]
    exact exact_moveRight x (carryOf f)

end Operations

/-! ### Whole numbers -/

section Whole

variable {v : Variant} {left right : UInt8 → UInt8 → AluResult UInt8} {xs : List UInt8}

/-- **Doubling.** With nothing coming in below, a pass leaves twice the number as far as it fits. -/
theorem natural_pass_sla (h : IsDoubling left) (nonempty : xs ≠ []) (f : UInt8) :
    natural (pass (shift v.layout .sla) left xs f).value = 2 * natural xs % 256 ^ xs.length ∧
      carryOf (pass (shift v.layout .sla) left xs f).flags =
        (natural xs).testBit (8 * xs.length - 1) := by
  obtain ⟨x, rest, rfl⟩ := List.exists_cons_of_ne_nil nonempty
  have low : (shift v.layout .sla x f).value.toNat +
      256 * (carryOf (shift v.layout .sla x f).flags).toNat = 2 * x.toNat + 0 := by
    rw [carryOf_shift]
    exact exact_moveLeft x false
  have exact := h.exact_pass_cons low rest
  have below := natural_lt (pass (shift v.layout .sla) left (x :: rest) f).value
  rw [length_pass] at below
  rw [testBit_top nonempty, ← add_zero (2 * natural (x :: rest)), ← exact]
  generalize 256 ^ (x :: rest).length = range at below ⊢
  cases carryOf (pass (shift v.layout .sla) left (x :: rest) f).flags with
  | false => simp [Nat.mod_eq_of_lt below, below]
  | true => simp [Nat.mod_eq_of_lt below]

/-- What goes out below is the lowest bit, whatever has come in above. -/
theorem eq_testBit_zero {r c : Nat} {out : Bool} (nonempty : xs ≠ [])
    (exact : 2 * r + out.toNat = natural xs + 256 ^ xs.length * c) :
    out = (natural xs).testBit 0 := by
  obtain ⟨n, hn⟩ := Nat.exists_eq_succ_of_ne_zero (List.length_pos_iff.2 nonempty).ne'
  rw [hn, pow_succ', mul_assoc] at exact
  generalize 256 ^ n * c = above at exact
  rw [Nat.testBit_zero]
  cases out with
  | false =>
    rw [Bool.toNat_false] at exact
    exact (decide_eq_false (by omega)).symm
  | true =>
    rw [Bool.toNat_true] at exact
    exact (decide_eq_true (by omega)).symm

/-- **Halving.** With nothing coming in above, a pass leaves half of the number. -/
theorem natural_passDown_srl (h : IsHalving right) (nonempty : xs ≠ []) (f : UInt8) :
    natural (passDown (shift v.layout .srl) right xs f).value = natural xs / 2 ∧
      carryOf (passDown (shift v.layout .srl) right xs f).flags = (natural xs).testBit 0 := by
  obtain ⟨rest, x, rfl⟩ := (List.eq_nil_or_concat' xs).resolve_left nonempty
  have high : 2 * (shift v.layout .srl x f).value.toNat +
      (carryOf (shift v.layout .srl x f).flags).toNat = x.toNat + 256 * 0 := by
    rw [carryOf_shift]
    exact exact_moveRight x false
  have exact := h.exact_passDown_concat high rest
  refine ⟨?_, eq_testBit_zero nonempty exact⟩
  have small := (carryOf (passDown (shift v.layout .srl) right (rest ++ [x]) f).flags).toNat_le
  omega

/-- **Halving with a sign.** With the top bit staying, a pass leaves half of the integer. -/
theorem integer_passDown_sra (h : IsHalving right) (nonempty : xs ≠ []) (f : UInt8) :
    integer (passDown (shift v.layout .sra) right xs f).value = integer xs / 2 ∧
      carryOf (passDown (shift v.layout .sra) right xs f).flags = (natural xs).testBit 0 := by
  obtain ⟨rest, x, rfl⟩ := (List.eq_nil_or_concat' xs).resolve_left nonempty
  have high : 2 * (shift v.layout .sra x f).value.toNat +
      (carryOf (shift v.layout .sra x f).flags).toNat =
        x.toNat + 256 * (isNegative x).toNat := by
    rw [carryOf_shift]
    exact exact_moveRight x (isNegative x)
  have exact := h.exact_passDown_concat high rest
  refine ⟨?_, eq_testBit_zero nonempty exact⟩
  rw [← testBit_top_concat rest x] at exact
  exact integer_eq_div_two nonempty (length_passDown _ f) exact

/-- **There and back.** What a pass to the left does, a pass to the right undoes. -/
theorem passDown_pass (hl : IsDoubling left) (hr : IsHalving right) (xs : List UInt8) (f : UInt8) :
    let rotated := pass left left xs f
    let restored := passDown right right rotated.value rotated.flags
    restored.value = xs ∧ carryOf restored.flags = carryOf f := by
  intro rotated restored
  have there : natural rotated.value + 256 ^ xs.length * (carryOf rotated.flags).toNat =
      2 * natural xs + (carryOf f).toNat := hl.exact_pass xs f
  have back : 2 * natural restored.value + (carryOf restored.flags).toNat =
      natural rotated.value + 256 ^ rotated.value.length * (carryOf rotated.flags).toNat :=
    hr.exact_passDown rotated.value rotated.flags
  rw [length_pass, there] at back
  have before := (carryOf f).toNat_le
  have after := (carryOf restored.flags).toNat_le
  have number : natural restored.value = natural xs := by omega
  have carry : (carryOf restored.flags).toNat = (carryOf f).toNat := by omega
  refine ⟨natural_inj ?_ number, Bool.eq_iff_iff.2 ?_⟩
  · rw [length_passDown, length_pass]
  · rw [← Bool.toNat_eq_one, ← Bool.toNat_eq_one, carry]

/-- **Shifts of any length.** Passes that begin with a shift of their own and go on through the
carry leave twice the number modulo the range of the bytes, half of it, or half of the integer, each
rounded down, and in the carry the bit that has gone out. A pass to the left and one back to the
right leave the number and the carry as they were. This holds of the operations for any byte and of
those for the accumulator, which have the same values and carries. -/
theorem multibyte_shifts (v : Variant) {xs : List UInt8} (nonempty : xs ≠ []) (f : UInt8) :
    let L := v.layout
    let n := xs.length
    let top := (natural xs).testBit (8 * n - 1)
    let bottom := (natural xs).testBit 0
    (∀ k ∈ [Rotate.rl, Rotate.rr], ∀ x g,
      (rotateA L k x g).value = (shift L k.toShift x g).value ∧
      carryOf (rotateA L k x g).flags = carryOf (shift L k.toShift x g).flags) ∧
    ∀ left ∈ [shift L .rl, rotateA L .rl], ∀ right ∈ [shift L .rr, rotateA L .rr],
      let doubled := pass (shift L .sla) left xs f
      let halved := passDown (shift L .srl) right xs f
      let quotient := passDown (shift L .sra) right xs f
      let rotated := pass left left xs f
      let restored := passDown right right rotated.value rotated.flags
      (doubled.value.length = n ∧ natural doubled.value = 2 * natural xs % 256 ^ n ∧
        carryOf doubled.flags = top) ∧
      (halved.value.length = n ∧ natural halved.value = natural xs / 2 ∧
        carryOf halved.flags = bottom) ∧
      (quotient.value.length = n ∧ integer quotient.value = integer xs / 2 ∧
        carryOf quotient.flags = bottom) ∧
      (restored.value = xs ∧ carryOf restored.flags = carryOf f) := by
  intro L n top bottom
  refine ⟨fun k _ => rotateA_agrees_with_shift v k, fun left hl right hr => ?_⟩
  have doubling : IsDoubling left := isDoubling_of_mem v hl
  have halving : IsHalving right := isHalving_of_mem v hr
  exact ⟨⟨length_pass xs f, natural_pass_sla doubling nonempty f⟩,
    ⟨length_passDown xs f, natural_passDown_srl halving nonempty f⟩,
    ⟨length_passDown xs f, integer_passDown_sra halving nonempty f⟩,
    passDown_pass doubling halving xs f⟩

/-- Three bytes with a sign, moved by the operations for the accumulator. -/
theorem multibyte_shifts_negative :
    let L := Variant.i8085.layout
    let xs : List UInt8 := [0x81, 0x00, 0xC0]
    let doubled := pass (shift L .sla) (rotateA L .rl) xs 0
    let quotient := passDown (shift L .sra) (rotateA L .rr) xs 0
    xs ≠ [] ∧
      (natural doubled.value = 0x800102 ∧ carryOf doubled.flags = true) ∧
      (integer xs = -0x3FFF7F ∧ integer quotient.value = -0x1FFFC0 ∧
        carryOf quotient.flags = true) := by
  intro L xs doubled quotient
  have nonempty : xs ≠ [] := List.cons_ne_nil _ _
  obtain ⟨-, all⟩ := multibyte_shifts .i8085 nonempty 0
  obtain ⟨⟨-, double, top⟩, -, ⟨-, half, bottom⟩, -⟩ :=
    all (rotateA L .rl) (by simp [L]) (rotateA L .rr) (by simp [L])
  have value : integer xs = -0x3FFF7F := by decide
  rw [value] at half
  exact ⟨nonempty, ⟨double.trans (by decide), top.trans (by decide)⟩, value, half,
    bottom.trans (by decide)⟩

end Whole

end Alu

end Micro80
