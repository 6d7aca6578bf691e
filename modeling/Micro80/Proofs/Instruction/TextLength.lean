import Micro80.Proofs.Instruction.Soundness
import Micro80.Proofs.Text.Number

/-!
# Lengths of texts of instructions

The text of an instruction is short: its name has a few characters, of which two may stand for
operands, and each operand is written in a few characters too. So what is formatted about an
instruction never reaches the length at which formatted texts are cut.

## Main statements

* `Text.length_numeral_le`, `Operand.length_text_le`: numbers and operands.
* `Instruction.length_text_le`: instructions of a processor.
-/

namespace Micro80

/-! ### Numbers -/

namespace Text

/-- A numeral has no more digits than the number or the width asks for. -/
theorem length_numeral_le {radix digits width n : Nat} (hn : n < radix ^ (digits + 1))
    (hw : width ≤ digits + 1) : (numeral radix width n).length ≤ digits + 1 := by
  induction digits generalizing width n with
  | zero =>
    rw [Nat.zero_add, Nat.pow_one] at hn
    rw [numeral, if_pos (.inl hn), List.length_append, List.length_replicate, List.length_singleton]
    omega
  | succ digits ih =>
    rw [numeral]
    split
    · rw [List.length_append, List.length_replicate, List.length_singleton]
      omega
    · rw [Nat.pow_succ, Nat.mul_comm] at hn
      rw [List.length_append, List.length_singleton]
      exact Nat.succ_le_succ (ih (Nat.div_lt_of_lt_mul hn) (by omega))

@[simp] theorem length_hex_byte (b : UInt8) : (hex 2 b.toNat).length = 2 :=
  length_numeral (by decide) b.toNat_lt

@[simp] theorem length_hex_word (w : UInt16) : (hex 4 w.toNat).length = 4 :=
  length_numeral (by decide) w.toNat_lt

theorem length_decimal_le {digits n : Nat} (hn : n < 10 ^ (digits + 1)) :
    (decimal 1 (n : Int)).length ≤ digits + 1 := by
  have positive : ¬(n : Int) < 0 := by omega
  unfold decimal
  rw [if_neg positive, Int.natAbs_natCast]
  exact length_numeral_le hn (by omega)

theorem length_suffixed_le (t : Text) : (suffixed t).length ≤ t.length + 2 := by
  have letter : (ascii "H").length = 1 := rfl
  have zero : (ascii "0").length = 1 := rfl
  unfold suffixed
  dsimp only
  split
  · rw [List.length_append, List.length_append, letter, zero]
    omega
  · rw [List.length_append, letter]
    omega

theorem length_hexByte_le (b : UInt8) : (hexByte b).length ≤ 4 := by
  have short := length_suffixed_le (hex 2 b.toNat)
  rwa [length_hex_byte] at short

theorem length_hexWord_le (w : UInt16) : (hexWord w).length ≤ 6 := by
  have short := length_suffixed_le (hex 4 w.toNat)
  rwa [length_hex_word] at short

theorem length_parenthesized (t : Text) : (parenthesized t).length = t.length + 2 := by
  have left : (ascii "(").length = 1 := rfl
  have right : (ascii ")").length = 1 := rfl
  rw [parenthesized, List.length_append, List.length_append, left, right]
  omega

theorem length_padRight (width : Nat) (t : Text) :
    (padRight width t).length = max width t.length := by
  unfold padRight
  rw [List.length_append, List.length_replicate]
  omega

end Text

/-! ### Operands -/

theorem Reg8.length_name (r : Reg8) : r.name.length = 1 := by
  cases r <;> rfl

theorem Pair.length_name_le (v : Variant) (p : Pair) : (p.name v).length ≤ 3 := by
  cases v <;> cases p <;> decide

theorem Reg16.length_name_le (v : Variant) (r : Reg16) : (r.name v).length ≤ 3 := by
  cases r with
  | pair p => exact p.length_name_le v
  | sp | ix | iy | pc => cases v <;> decide

theorem Condition.length_name_le (k : Condition) : k.name.length ≤ 2 := by
  cases k <;> decide

namespace Operand

theorem length_distance_le (d : Int8) : (distance d).length ≤ 5 := by
  have byte := Text.length_hexByte_le (UInt8.ofNat d.toInt.natAbs)
  have sign : (Text.ascii (if d < 0 then "-" else "+")).length = 1 := by
    split <;> rfl
  rw [distance, List.length_append, sign]
  omega

/-- A number in parentheses, or without them, as the processor has it. -/
theorem length_enclosed_le (v : Variant) {t : Text} (h : t.length ≤ 8) :
    (match v with
      | .z80 => Text.parenthesized t
      | .i8085 => t).length ≤ 10 := by
  cases v with
  | i8085 => exact Nat.le_trans h (by decide)
  | z80 =>
    dsimp only
    rw [Text.length_parenthesized]
    omega

/-- **Operands** are written in a few characters. -/
theorem length_text_le (v : Variant) (o : Operand) : (o.text v).length ≤ 10 := by
  cases o with
  | absent => exact Nat.zero_le 10
  | reg8 r => exact Nat.le_trans (Nat.le_of_eq r.length_name) (by decide)
  | reg16 r => exact Nat.le_trans (r.length_name_le v) (by decide)
  | imm8 b => exact Nat.le_trans (Text.length_hexByte_le b) (by decide)
  | imm16 w | address w | relative w => exact Nat.le_trans (Text.length_hexWord_le w) (by decide)
  | indirect p => cases v <;> cases p <;> decide
  | indexed x d =>
    have name := x.register.length_name_le v
    have distance := length_distance_le d
    show (Text.parenthesized _).length ≤ 10
    rw [Text.length_parenthesized, List.length_append]
    omega
  | direct w | direct16 w =>
    exact length_enclosed_le v (Nat.le_trans (Text.length_hexWord_le w) (by decide))
  | stackTop | portC => cases v <;> decide
  | condition k => exact Nat.le_trans k.length_name_le (by decide)
  | restart a =>
    have small : a.toNat / 8 < 10 ^ 4 := by
      have bound := a.toNat_lt
      omega
    cases v with
    | z80 => exact Nat.le_trans (Text.length_hexByte_le _) (by decide)
    | i8085 => exact Nat.le_trans (Text.length_decimal_le small) (by decide)
  | bit n =>
    have small : n.val < 10 ^ 1 := by omega
    exact Nat.le_trans (Text.length_decimal_le small) (by decide)
  | port p => exact length_enclosed_le v (Nat.le_trans (Text.length_hexByte_le p) (by decide))

end Operand

/-! ### Instructions -/

namespace Opcode

/-- **Names** have a few characters. -/
theorem length_name_le (v : Variant) : ∀ e ∈ v.opcodes, e.name.length ≤ 10 := by
  cases v <;> decide

end Opcode

namespace Instruction

/-- Each character of a name stands for itself or for a part of an operand. -/
theorem length_fill_le {dst src : Text} {k : Nat} (positive : 1 ≤ k) (hd : dst.length ≤ k)
    (hs : src.length ≤ k) (t : Text) : (fill dst src t).length ≤ k * t.length := by
  induction t using fill.induct with
  | case1 => exact Nat.zero_le _
  | case2 rest ih =>
    rw [fill, List.length_append, List.length_cons, List.length_cons, Nat.mul_add, Nat.mul_add]
    omega
  | case3 rest ih =>
    rw [fill, List.length_append, List.length_cons, List.length_cons, Nat.mul_add, Nat.mul_add]
    omega
  | case4 c rest noDst noSrc ih =>
    rw [fill, List.length_cons, List.length_cons, Nat.mul_add]
    · omega
    · exact noDst
    · exact noSrc

/-- **The text of an instruction** is short. -/
theorem length_text_le {v : Variant} {i : Instruction} (h : i.entry ∈ v.opcodes) :
    i.text.length ≤ 100 := by
  have filled := length_fill_le (by decide) (i.dst.length_text_le i.variant)
    (i.src.length_text_le i.variant) i.entry.name
  have name := Opcode.length_name_le v i.entry h
  exact Nat.le_trans filled (Nat.mul_le_mul_left 10 name)

end Instruction

end Micro80
