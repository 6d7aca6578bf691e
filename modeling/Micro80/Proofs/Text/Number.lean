import Mathlib.Algebra.Group.Nat.Defs
import Micro80.Instruction.Disassembly

/-!
# Numbers in texts

A numeral of a fixed width determines its number, and so does a number as assemblers write it,
although a zero may stand in front: how many digits there are besides is known. Numbers are made of
letters and digits, and where one stands in a text can be seen from its first byte, which is a
decimal digit.

## Main statements

* `Text.numeral_inj`: numerals of the same width determine their numbers.
* `Text.hexByte_inj`, `Text.hexWord_inj`: so do bytes and words as assemblers write them.
* `Text.IsNumber.hexByte`, `Text.IsNumber.hexWord`, `Text.IsNumber.decimal`: what numbers look
  like.
-/

namespace Micro80

namespace Text

/-! ### Digits -/

/-- Whether a byte is a decimal digit. -/
def isDigit (c : UInt8) : Bool := 48 ≤ c && c ≤ 57

theorem digit_inj {m n : Nat} (hm : m < 16) (hn : n < 16) (h : digit m = digit n) : m = n := by
  have all : ∀ m < 16, ∀ n < 16, digit m = digit n → m = n := by decide
  exact all m hm n hn h

theorem isDigit_digit {n : Nat} (hn : n < 10) : isDigit (digit n) = true := by
  have all : ∀ n < 10, isDigit (digit n) = true := by decide
  exact all n hn

/-- The digits beyond nine are letters. -/
theorem isLetter_or_isDigit_digit {n : Nat} (hn : n < 16) :
    isLetter (digit n) = true ∨ isDigit (digit n) = true := by
  have all : ∀ n < 16, isLetter (digit n) = true ∨ isDigit (digit n) = true := by decide
  exact all n hn

/-! ### Numerals -/

theorem numeral_one {radix n : Nat} (hn : n < radix) : numeral radix 1 n = [digit n] := by
  rw [numeral, if_pos (.inl hn)]
  rfl

theorem numeral_ne_nil (radix width n : Nat) : numeral radix width n ≠ [] := by
  rw [numeral]
  split
  · exact List.append_ne_nil_of_right_ne_nil _ (List.cons_ne_nil _ _)
  · exact List.append_ne_nil_of_right_ne_nil _ (List.cons_ne_nil _ _)

section Numeral

variable {radix : Nat} (two : 2 ≤ radix)

include two

/-- The last digit of a numeral, apart. -/
theorem numeral_succ {width : Nat} (positive : 0 < width) (n : Nat) :
    numeral radix (width + 1) n = numeral radix width (n / radix) ++ [digit (n % radix)] := by
  by_cases single : n < radix
  · have zeros : List.replicate (width + 1 - 1) (digit 0) =
        List.replicate (width - 1) (digit 0) ++ [digit 0] := by
      rw [← List.replicate_succ', Nat.sub_add_cancel positive, Nat.add_sub_cancel]
    have none : (0 : Nat) < radix := by omega
    rw [Nat.div_eq_of_lt single, Nat.mod_eq_of_lt single, numeral, if_pos (.inl single), numeral,
      if_pos (.inl none), zeros]
  · rw [numeral, if_neg (by omega), Nat.add_sub_cancel]

/-- A number that fits has as many digits as its numeral is wide. -/
theorem length_numeral {width n : Nat} (hn : n < radix ^ (width + 1)) :
    (numeral radix (width + 1) n).length = width + 1 := by
  induction width generalizing n with
  | zero =>
    rw [Nat.zero_add, Nat.pow_one] at hn
    rw [numeral_one hn, List.length_singleton]
  | succ width ih =>
    rw [Nat.pow_succ] at hn
    rw [numeral_succ two (Nat.succ_pos width), List.length_append, List.length_singleton,
      ih (Nat.div_lt_of_lt_mul (by rwa [Nat.mul_comm]))]

/-- The numeral of a number that does not fit is wider. -/
theorem lt_length_numeral {width n : Nat} (hn : radix ^ (width + 1) ≤ n) :
    width + 1 < (numeral radix (width + 1) n).length := by
  induction width generalizing n with
  | zero =>
    rw [Nat.zero_add, Nat.pow_one] at hn
    rw [numeral, if_neg (by omega), List.length_append, List.length_singleton]
    exact Nat.succ_lt_succ (List.length_pos_iff.2 (numeral_ne_nil radix _ _))
  | succ width ih =>
    rw [Nat.pow_succ] at hn
    rw [numeral_succ two (Nat.succ_pos width), List.length_append, List.length_singleton]
    exact Nat.succ_lt_succ (ih ((Nat.le_div_iff_mul_le (by omega)).2 hn))

/-- **Numerals of the same width** determine their numbers. -/
theorem numeral_inj (sixteen : radix ≤ 16) {width m n : Nat} (hm : m < radix ^ (width + 1))
    (hn : n < radix ^ (width + 1))
    (h : numeral radix (width + 1) m = numeral radix (width + 1) n) : m = n := by
  induction width generalizing m n with
  | zero =>
    rw [Nat.zero_add, Nat.pow_one] at hm hn
    rw [numeral_one hm, numeral_one hn] at h
    exact digit_inj (by omega) (by omega) (List.singleton_inj.1 h)
  | succ width ih =>
    rw [numeral_succ two (Nat.succ_pos width), numeral_succ two (Nat.succ_pos width)] at h
    rw [Nat.pow_succ, Nat.mul_comm] at hm hn
    obtain ⟨front, last⟩ := List.append_inj' h rfl
    have same := ih (Nat.div_lt_of_lt_mul hm) (Nat.div_lt_of_lt_mul hn) front
    have hm' := Nat.mod_lt m (show 0 < radix by omega)
    have hn' := Nat.mod_lt n (show 0 < radix by omega)
    have same' := digit_inj (by omega) (by omega) (List.singleton_inj.1 last)
    rw [← Nat.div_add_mod m radix, ← Nat.div_add_mod n radix, same, same']

/-- A numeral is made of digits. -/
theorem exists_digit_of_mem_numeral {width n : Nat} {c : UInt8} (h : c ∈ numeral radix width n) :
    ∃ k < radix, c = digit k := by
  induction n using Nat.strongRecOn generalizing width with
  | ind n ih =>
    rw [numeral] at h
    by_cases single : n < radix
    · rw [if_pos (.inl single), List.mem_append] at h
      obtain zero | last := h
      · exact ⟨0, by omega, (List.mem_replicate.1 zero).2⟩
      · exact ⟨n, single, List.mem_singleton.1 last⟩
    · rw [if_neg (by omega), List.mem_append] at h
      obtain front | last := h
      · exact ih (n / radix) (Nat.div_lt_self (by omega) (by omega)) front
      · exact ⟨n % radix, Nat.mod_lt _ (by omega), List.mem_singleton.1 last⟩

end Numeral

/-! ### Numbers as assemblers write them -/

/-- A number may have a zero in front, but not so that it looks like a longer one. -/
theorem suffixed_inj {s t : Text} (length : s.length = t.length) (h : suffixed s = suffixed t) :
    s = t := by
  unfold suffixed at h
  simp only at h
  -- A zero in front of one of them only would make it longer than the other.
  split at h
  · split at h
    · exact List.append_cancel_right (List.append_cancel_left h)
    · have long := congrArg List.length h
      simp [length, ascii] at long
  · split at h
    · have long := congrArg List.length h
      simp [length, ascii] at long
    · exact List.append_cancel_right h

theorem suffixed_hex_inj (width : Nat) {m n : Nat} (hm : m < 16 ^ (width + 1))
    (hn : n < 16 ^ (width + 1))
    (h : suffixed (hex (width + 1) m) = suffixed (hex (width + 1) n)) : m = n := by
  have length : (hex (width + 1) m).length = (hex (width + 1) n).length := by
    unfold hex
    rw [length_numeral (by decide) hm, length_numeral (by decide) hn]
  exact numeral_inj (by decide) (by decide) hm hn (suffixed_inj length h)

/-- **A byte** is determined by how it is written. -/
theorem hexByte_inj {b c : UInt8} (h : hexByte b = hexByte c) : b = c :=
  UInt8.toNat_inj.1 (suffixed_hex_inj 1 b.toNat_lt c.toNat_lt h)

/-- **A word** is determined by how it is written. -/
theorem hexWord_inj {w x : UInt16} (h : hexWord w = hexWord x) : w = x :=
  UInt16.toNat_inj.1 (suffixed_hex_inj 3 w.toNat_lt x.toNat_lt h)

/-- **Numbers.** A text of letters and digits that begins with a decimal digit. -/
structure IsNumber (t : Text) : Prop where
  opens : ∃ c rest, t = c :: rest ∧ isDigit c = true
  word : ∀ c ∈ t, isLetter c = true ∨ isDigit c = true

/-- Decimal numerals of one digit determine their numbers. -/
theorem decimal_inj {m n : Nat} (hm : m < 10) (hn : n < 10)
    (h : decimal 1 (m : Int) = decimal 1 (n : Int)) : m = n := by
  have single : ∀ k : Nat, k < 10 → decimal 1 (k : Int) = [digit k] := by
    intro k hk
    have positive : ¬(k : Int) < 0 := by omega
    unfold decimal
    rw [if_neg positive, Int.natAbs_natCast, numeral_one hk]
  rw [single m hm, single n hn] at h
  exact digit_inj (by omega) (by omega) (List.singleton_inj.1 h)

namespace IsNumber

/-- A decimal numeral is a number. -/
theorem decimal (n : Nat) : IsNumber (Text.decimal 1 n) := by
  have positive : ¬(n : Int) < 0 := by omega
  unfold Text.decimal
  rw [if_neg positive, Int.natAbs_natCast]
  have digits : ∀ c ∈ numeral 10 1 n, isDigit c = true := by
    intro c hc
    obtain ⟨k, hk, rfl⟩ := exists_digit_of_mem_numeral (by decide) hc
    exact isDigit_digit hk
  refine ⟨?_, fun c hc => .inr (digits c hc)⟩
  obtain ⟨c, rest, h⟩ := List.exists_cons_of_ne_nil (numeral_ne_nil 10 1 n)
  rw [h] at digits ⊢
  exact ⟨c, rest, rfl, digits c List.mem_cons_self⟩

/-- A hexadecimal numeral with its suffix is a number, thanks to the zero in front. -/
theorem suffixed (width n : Nat) : IsNumber (Text.suffixed (hex width n)) := by
  have digits : ∀ c ∈ hex width n, isLetter c = true ∨ isDigit c = true := by
    intro c hc
    obtain ⟨k, hk, rfl⟩ := exists_digit_of_mem_numeral (by decide) hc
    exact isLetter_or_isDigit_digit hk
  obtain ⟨c, rest, h⟩ := List.exists_cons_of_ne_nil (numeral_ne_nil 16 width n)
  unfold hex at digits ⊢
  rw [h] at digits ⊢
  have word : ∀ b ∈ c :: rest ++ ascii "H", isLetter b = true ∨ isDigit b = true := by
    intro b hb
    obtain front | last := List.mem_append.1 hb
    · exact digits b front
    · rw [List.mem_singleton.1 last]
      exact .inl rfl
  unfold Text.suffixed
  simp only
  split
  · refine ⟨⟨48, _, rfl, rfl⟩, fun b hb => ?_⟩
    obtain rfl | hb := List.mem_cons.1 hb
    · exact .inr rfl
    · exact word b hb
  · rename_i letter
    exact ⟨⟨c, _, rfl, (digits c List.mem_cons_self).resolve_left letter⟩, word⟩

theorem hexByte (b : UInt8) : IsNumber (Text.hexByte b) := suffixed 2 b.toNat

theorem hexWord (w : UInt16) : IsNumber (Text.hexWord w) := suffixed 4 w.toNat

end IsNumber

end Text

end Micro80
