import Micro80.Proofs.Alu.Binary
import Micro80.Proofs.Alu.Sparing
import Micro80.Word

/-!
# Words as chains of two bytes

Arithmetic on words has nothing to do with arithmetic on bytes, as far as its definition goes. But a
word is two bytes, and a chain of operations on these leaves the two bytes of the same result. The
flags are those of the operation on the high bytes, which finds what the low bytes have passed on;
only the zero flag tells of both. Addition without carry keeps most flags, and sets those that it
sets in this way as well.

What makes this work is that the low byte counts up from what the high byte is worth, and never
reaches the next unit, whether one looks at the word without a sign, with a sign, or at the twelve
bits that decide about the half carry.

## Main definitions

* `Alu.bytes`: the bytes of a word.
* `Alu.bytewise`: a chain of two operations on the bytes of words.
* `Alu.AgreesWith`: results for words that agree with those for bytes.

## Main statements

* `Alu.bytes_sum`, `Alu.bytes_difference`: the bytes of a sum and of a difference.
* `Alu.word_arithmetic_bytewise`: arithmetic on words agrees with chains on their bytes.
-/

namespace Micro80

namespace Alu

/-! ### The bytes of a word -/

/-- **The bytes of a word,** the low one first. -/
def bytes (w : UInt16) : List UInt8 := [lowByte w, highByte w]

/-- **Byte by byte.** An operation on the low bytes of two words, and another one on the high
bytes. -/
def bytewise (L : FlagLayout) (first second : Arithmetic) (a b : UInt16) (f : UInt8) :
    AluResult (List UInt8) :=
  chain (arithmetic L first) (arithmetic L second) (bytes a) (bytes b) f

section

variable (w : UInt16)

/-- The number of a word. -/
theorem toNat_eq_bytes : w.toNat = 256 * (highByte w).toNat + (lowByte w).toNat := by
  rw [toNat_highByte, toNat_lowByte]
  omega

/-- The number of a word with a sign. Only the high byte has one. -/
theorem toInt_eq_bytes :
    w.toInt16.toInt = 256 * (highByte w).toInt8.toInt + (lowByte w).toNat := by
  have word := w.toNat_lt
  have signed : w.toInt16.toInt = if w.toNat < 32768 then (w.toNat : Int) else w.toNat - 65536 := by
    show w.toBitVec.toInt = _
    rw [BitVec.toInt_eq_toNat_cond]
    simp only [UInt16.toNat_toBitVec]
    split <;> split <;> omega
  rw [signed, toInt_toInt8, toNat_highByte, toNat_lowByte]
  split <;> split <;> omega

/-- The twelve bits of a word that decide about the half carry. -/
theorem lowTwelve_eq_bytes : lowTwelve w = 256 * lowNibble (highByte w) + (lowByte w).toNat := by
  rw [lowTwelve, lowNibble, toNat_highByte, toNat_lowByte]
  omega

/-- The top bit of a word is that of its high byte. -/
theorem isNegative_highByte : decide (32768 ≤ w.toNat) = isNegative (highByte w) := by
  rw [isNegative, toNat_highByte]
  exact decide_eq_decide.2 (by omega)

/-- A word is zero if its bytes are. -/
theorem beq_zero_eq_bytes : (w == 0) = (bytes w).all (· == 0) := by
  rw [Bool.eq_iff_iff, beq_iff_eq, ← UInt16.toNat_inj, toNat_eq_bytes]
  simp only [bytes, List.all_cons, List.all_nil, Bool.and_true, Bool.and_eq_true, beq_iff_eq,
    ← UInt8.toNat_inj, UInt16.toNat_ofNat, UInt8.toNat_ofNat]
  omega

end

/-- The bytes of a word are known by their numbers. -/
theorem bytes_eq {w : UInt16} {low high : UInt8} (h : w.toNat = 256 * high.toNat + low.toNat) :
    bytes w = [low, high] := by
  have byte := low.toNat_lt
  have lows : lowByte w = low := by
    rw [← UInt8.toNat_inj, toNat_lowByte]
    omega
  have highs : highByte w = high := by
    rw [← UInt8.toNat_inj, toNat_highByte]
    omega
  rw [bytes, lows, highs]

/-- A low byte does not matter for whether a number with a sign fits. -/
theorem fits16_eq_fits8 (n : Int) (low : UInt8) : fits16 (256 * n + low.toNat) = fits8 n := by
  have byte := low.toNat_lt
  unfold fits16 fits8
  rw [Bool.eq_iff_iff]
  simp only [Bool.and_eq_true, decide_eq_true_eq]
  omega

theorem toNat_bitByte_toUInt16 (b : Bool) : (bitByte b).toUInt16.toNat = b.toNat := by
  cases b <;> rfl

/-! ### Two bytes -/

section

variable (v : Variant) (x y f : UInt8)

/-- Nothing gets lost when bytes are added, -/
theorem toNat_adc :
    x.toNat + y.toNat + (carryOf f).toNat =
      256 * (carryOf (adc v.layout x y f).flags).toNat + (adc v.layout x y f).value.toNat := by
  have exact : (x.toNat : Int) + 1 * (y.toNat + (carryOf f).toNat) =
      (adc v.layout x y f).value.toNat + 1 * 256 * (carryOf (adc v.layout x y f).flags).toNat :=
    (isPositional_adc v).exact x y f trivial trivial
  omega

/-- nor when they are subtracted. -/
theorem toNat_sbc :
    x.toNat + 256 * (carryOf (sbc v.layout x y f).flags).toNat =
      y.toNat + (carryOf f).toNat + (sbc v.layout x y f).value.toNat := by
  have exact : (x.toNat : Int) + -1 * (y.toNat + (carryOf f).toNat) =
      (sbc v.layout x y f).value.toNat + -1 * 256 * (carryOf (sbc v.layout x y f).flags).toNat :=
    (isPositional_sbc v).exact x y f trivial trivial
  omega

end

section

variable (v : Variant) (a b : UInt16) (f : UInt8)

/-- **The bytes of a sum.** The operation on the high bytes finds what that on the low bytes has
passed on, and passes on what does not fit in a word. -/
theorem bytes_sum :
    let low := adc v.layout (lowByte a) (lowByte b) f
    let high := adc v.layout (highByte a) (highByte b) low.flags
    bytes (a + b + (bitByte (carryOf f)).toUInt16) = [low.value, high.value] ∧
      carryOf high.flags = decide (65536 ≤ a.toNat + b.toNat + (carryOf f).toNat) := by
  intro low high
  have lows : (lowByte a).toNat + (lowByte b).toNat + (carryOf f).toNat =
      256 * (carryOf low.flags).toNat + low.value.toNat := toNat_adc v _ _ f
  have highs : (highByte a).toNat + (highByte b).toNat + (carryOf low.flags).toNat =
      256 * (carryOf high.flags).toNat + high.value.toNat := toNat_adc v _ _ low.flags
  have lowLt := low.value.toNat_lt
  have highLt := high.value.toNat_lt
  have one := (carryOf high.flags).toNat_le
  rw [toNat_eq_bytes a, toNat_eq_bytes b]
  constructor
  · apply bytes_eq
    rw [UInt16.toNat_add, UInt16.toNat_add, toNat_bitByte_toUInt16, toNat_eq_bytes a,
      toNat_eq_bytes b]
    omega
  · rw [Bool.eq_iff_iff, decide_eq_true_iff, ← Bool.toNat_eq_one]
    omega

/-- **The bytes of a difference.** -/
theorem bytes_difference :
    let low := sbc v.layout (lowByte a) (lowByte b) f
    let high := sbc v.layout (highByte a) (highByte b) low.flags
    bytes (a - b - (bitByte (carryOf f)).toUInt16) = [low.value, high.value] ∧
      carryOf high.flags = decide (a.toNat < b.toNat + (carryOf f).toNat) := by
  intro low high
  have lows : (lowByte a).toNat + 256 * (carryOf low.flags).toNat =
      (lowByte b).toNat + (carryOf f).toNat + low.value.toNat := toNat_sbc v _ _ f
  have highs : (highByte a).toNat + 256 * (carryOf high.flags).toNat =
      (highByte b).toNat + (carryOf low.flags).toNat + high.value.toNat := toNat_sbc v _ _ low.flags
  have lowLt := low.value.toNat_lt
  have highLt := high.value.toNat_lt
  have one := (carryOf high.flags).toNat_le
  have one' := (carryOf f).toNat_le
  have ha := a.toNat_lt
  have hb := b.toNat_lt
  rw [toNat_eq_bytes a] at ha ⊢
  rw [toNat_eq_bytes b] at hb ⊢
  constructor
  · apply bytes_eq
    rw [UInt16.toNat_sub, UInt16.toNat_sub, toNat_bitByte_toUInt16, toNat_eq_bytes a,
      toNat_eq_bytes b]
    omega
  · rw [Bool.eq_iff_iff, decide_eq_true_iff, ← Bool.toNat_eq_one]
    omega

end

/-! ### Words -/

/-- **Agreeing with bytes.** A result for words has the same bytes as one for bytes and the same
flags, but that a word is zero only if all of its bytes are. -/
structure AgreesWith (r : AluResult UInt16) (s : AluResult (List UInt8)) : Prop where
  value : bytes r.value = s.value
  flags : r.flags = { Flags.ofByte s.flags with zero := s.value.all (· == 0) }.toByte

/-- A word with its own flags agrees with its bytes, if these have the flags of the high byte. -/
theorem agreesWith_encode {r : UInt16} {low high : UInt8} (value : bytes r = [low, high])
    {exact n : Int} (whole : exact = 256 * n + low.toNat) (half subtract carry : Bool) :
    AgreesWith
      { value := r
        flags := FlagLayout.z80.encode
          { sign := 32768 ≤ r.toNat, zero := r == 0, half, parity := !fits16 exact, subtract,
            carry } }
      { value := [low, high]
        flags := FlagLayout.z80.encode
          { sign := isNegative high, zero := high == 0, half, parity := !fits8 n, subtract,
            carry } } := by
  refine ⟨value, ?_⟩
  have top : highByte r = high := by
    rw [bytes] at value
    exact (List.cons.inj (List.cons.inj value).2).1
  rw [FlagLayout.encode_z80, FlagLayout.encode_z80, Flags.ofByte_toByte, isNegative_highByte,
    beq_zero_eq_bytes, value, top, whole, fits16_eq_fits8]

section

variable (v : Variant) (a b : UInt16) (f : UInt8)

/-- Whether the low twelve bits of a sum reach further is decided in the high bytes. -/
theorem half_sum :
    decide (4096 ≤ lowTwelve a + lowTwelve b + (carryOf f).toNat) =
      decide (16 ≤ lowNibble (highByte a) + lowNibble (highByte b)
        + (carryOf (adc v.layout (lowByte a) (lowByte b) f).flags).toNat) := by
  have lows := toNat_adc v (lowByte a) (lowByte b) f
  have byte := (adc v.layout (lowByte a) (lowByte b) f).value.toNat_lt
  rw [lowTwelve_eq_bytes, lowTwelve_eq_bytes]
  exact decide_eq_decide.2 (by omega)

/-- So it is with differences. -/
theorem half_difference :
    decide (lowTwelve a < lowTwelve b + (carryOf f).toNat) =
      decide (lowNibble (highByte a) < lowNibble (highByte b)
        + (carryOf (sbc v.layout (lowByte a) (lowByte b) f).flags).toNat) := by
  have lows := toNat_sbc v (lowByte a) (lowByte b) f
  have byte := (sbc v.layout (lowByte a) (lowByte b) f).value.toNat_lt
  rw [lowTwelve_eq_bytes, lowTwelve_eq_bytes]
  exact decide_eq_decide.2 (by omega)

end

section

variable (a b : UInt16) (f : UInt8)

/-- **Addition with carry** agrees with a chain of two. -/
theorem agreesWith_adc16 : AgreesWith (adc16 .z80 a b f) (bytewise .z80 .adc .adc a b f) := by
  let low := adc .z80 (lowByte a) (lowByte b) f
  obtain ⟨value, carry⟩ := bytes_sum .z80 a b f
  have lows : (lowByte a).toNat + (lowByte b).toNat + (carryOf f).toNat =
      256 * (carryOf low.flags).toNat + low.value.toNat := toNat_adc .z80 _ _ f
  have whole : a.toInt16.toInt + b.toInt16.toInt + (carryOf f).toNat =
      256 * ((highByte a).toInt8.toInt + (highByte b).toInt8.toInt + (carryOf low.flags).toNat)
        + low.value.toNat := by
    rw [toInt_eq_bytes a, toInt_eq_bytes b]
    omega
  rw [adc, carryOf_addCarry] at carry
  dsimp only [adc16]
  rw [half_sum .z80, ← carry]
  exact agreesWith_encode value whole _ _ _

/-- **Subtraction with borrow** agrees with a chain of two. -/
theorem agreesWith_sbc16 : AgreesWith (sbc16 .z80 a b f) (bytewise .z80 .sbc .sbc a b f) := by
  let low := sbc .z80 (lowByte a) (lowByte b) f
  obtain ⟨value, carry⟩ := bytes_difference .z80 a b f
  have lows : (lowByte a).toNat + 256 * (carryOf low.flags).toNat =
      (lowByte b).toNat + (carryOf f).toNat + low.value.toNat := toNat_sbc .z80 _ _ f
  have whole : a.toInt16.toInt - b.toInt16.toInt - (carryOf f).toNat =
      256 * ((highByte a).toInt8.toInt - (highByte b).toInt8.toInt - (carryOf low.flags).toNat)
        + low.value.toNat := by
    rw [toInt_eq_bytes a, toInt_eq_bytes b]
    omega
  rw [sbc, carryOf_subBorrow] at carry
  dsimp only [sbc16]
  rw [half_difference .z80, ← carry]
  exact agreesWith_encode value whole _ _ _

/-- **Addition without carry** leaves the bytes and the carry of a chain of two. -/
theorem bytes_add16 (v : Variant) :
    let r := add16 v.layout a b f
    let s := bytewise v.layout .add .adc a b f
    bytes r.value = s.value ∧ carryOf r.flags = carryOf s.flags := by
  -- It is addition with the carry of flags that are all off.
  obtain ⟨value, carry⟩ := bytes_sum v a b 0
  refine ⟨?_, (carryOf_encode v _).trans carry.symm⟩
  rw [show (bitByte (carryOf 0)).toUInt16 = 0 from rfl, UInt16.add_zero] at value
  exact value

/-- On the Z80 it also leaves the half carry, clears the subtraction flag and keeps the others. -/
theorem flags_add16_z80 :
    let s := bytewise .z80 .add .adc a b f
    (add16 .z80 a b f).flags =
      { Flags.ofByte f with
        half := (Flags.ofByte s.flags).half
        subtract := false
        carry := carryOf s.flags }.toByte := by
  intro s
  have half : (Flags.ofByte s.flags).half = decide (4096 ≤ lowTwelve a + lowTwelve b) :=
    (congrArg Flags.half (FlagLayout.ofByte_encode .z80 _)).trans (half_sum .z80 a b 0).symm
  have carry : carryOf s.flags = decide (65536 ≤ a.toNat + b.toNat) := (bytes_sum .z80 a b 0).2
  rw [half, carry, ← Bool.and_false (Flags.ofByte f).subtract]
  exact FlagLayout.encode_z80 _

end

/-- **Arithmetic on words agrees with arithmetic on their bytes.** Let the flags be those that the
processor can hold. Addition leaves the bytes of a chain of two and its carry; on the 8085 it keeps
all other flags, and on the Z80 it takes the half carry of the chain, clears the subtraction flag
and keeps the rest. On the Z80 addition with carry and subtraction with borrow leave the bytes of a
chain and all of its flags, but that the zero flag tells of both bytes. -/
theorem word_arithmetic_bytewise {v : Variant} {f : UInt8} (canonical : v.layout.fix f = f)
    (a b : UInt16) :
    (let r := add16 v.layout a b f
      let s := bytewise v.layout .add .adc a b f
      bytes r.value = s.value ∧ carryOf r.flags = carryOf s.flags ∧
        (v = .i8085 → Flags.SameBut 0x01 f r.flags) ∧
        (v = .z80 → r.flags =
          { Flags.ofByte f with
            half := (Flags.ofByte s.flags).half
            subtract := false
            carry := carryOf s.flags }.toByte)) ∧
    (v = .z80 →
      AgreesWith (adc16 v.layout a b f) (bytewise v.layout .adc .adc a b f) ∧
      AgreesWith (sbc16 v.layout a b f) (bytewise v.layout .sbc .sbc a b f)) := by
  obtain ⟨value, carry⟩ := bytes_add16 a b f v
  refine ⟨⟨value, carry, ?_, ?_⟩, ?_⟩
  · rintro rfl
    exact sameBut_add16 canonical a b
  · rintro rfl
    exact flags_add16_z80 a b f
  · rintro rfl
    exact ⟨agreesWith_adc16 a b f, agreesWith_sbc16 a b f⟩

/-- The greatest positive word and a carry: the low byte passes one on, and the word gets a sign. -/
theorem word_arithmetic_bytewise_overflowing :
    let s := bytewise Variant.z80.layout .adc .adc 0x7FFF 0 0x01
    Variant.z80.layout.fix 0x01 = 0x01 ∧ s.value = [0x00, 0x80] ∧
      bytes (adc16 Variant.z80.layout 0x7FFF 0 0x01).value = s.value ∧
      (adc16 Variant.z80.layout 0x7FFF 0 0x01).flags = 0x94 := by
  intro s
  have canonical : Variant.z80.layout.fix 0x01 = 0x01 := by decide
  obtain ⟨agrees, -⟩ := (word_arithmetic_bytewise canonical 0x7FFF 0).2 rfl
  exact ⟨canonical, by decide, agrees.value, agrees.flags.trans (by decide)⟩

end Alu

end Micro80
