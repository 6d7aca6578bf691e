import Micro80.Proofs.Instruction.Decoding
import Micro80.Proofs.Text.Fields

/-!
# Texts of operands

The text of an operand can be read back by whoever knows its encoding: names of registers and
conditions differ, numbers are written with a fixed number of digits, and the distance from an
index register has its sign in front.

An encoding stands for finitely many shapes of operands. Their outlines, in which numbers are left
open, say by what else texts of operands may differ.

## Main definitions

* `Operand.outline`: the outline of the text of an operand.
* `Encoding.shapes`: the shapes of the operands of an encoding.

## Main statements

* `Encoding.operand_eq_of_text_eq`: operands of an encoding with the same text are equal.
* `Encoding.outline_text_mem`: the outlines of the texts of an encoding's operands.
-/

namespace Micro80

/-! ### Names -/

theorem Pair.name_inj {v : Variant} {p q : Pair} (h : p.name v = q.name v) : p = q := by
  cases v <;> cases p <;> cases q <;> revert h <;> decide

theorem Reg16.name_inj {v : Variant} {r s : Reg16} (h : r.name v = s.name v) : r = s := by
  have apart : ∀ p : Pair, ∀ t ∈ [Reg16.sp, .ix, .iy, .pc], p.name v ≠ t.name v := by
    intro p
    cases v <;> cases p <;> decide
  cases r with
  | pair p =>
    cases s with
    | pair q => exact congrArg Reg16.pair (Pair.name_inj h)
    | _ => exact absurd h (apart p _ (by decide))
  | _ =>
    cases s with
    | pair q => exact absurd h.symm (apart q _ (by decide))
    | _ => cases v <;> revert h <;> decide

theorem Reg16.isField_name (v : Variant) (r : Reg16) : (r.name v).IsField := by
  obtain p | _ | _ | _ | _ := r
  · cases v <;> cases p <;> decide
  all_goals cases v <;> decide

theorem Condition.name_inj {k l : Condition} (h : k.name = l.name) : k = l := by
  cases k <;> cases l <;> revert h <;> decide

namespace Text

theorem parenthesized_inj {s t : Text} (h : parenthesized s = parenthesized t) : s = t :=
  List.append_cancel_left (List.append_cancel_right h)

end Text

namespace Operand

/-- A distance is determined by its sign and its amount. -/
theorem distance_inj {d d' : Int8} (h : distance d = distance d') : d = d' := by
  unfold distance at h
  obtain ⟨sign, amount⟩ := List.append_inj h (by split <;> split <;> rfl)
  have amount := congrArg UInt8.toNat (Text.hexByte_inj amount)
  rw [UInt8.toNat_ofNat', UInt8.toNat_ofNat'] at amount
  have negative : d < 0 ↔ d' < 0 := by
    by_cases hd : d < 0 <;> by_cases hd' : d' < 0
    · exact iff_of_true hd hd'
    · rw [if_pos hd, if_neg hd'] at sign
      exact absurd sign (by decide)
    · rw [if_neg hd, if_pos hd'] at sign
      exact absurd sign (by decide)
    · exact iff_of_false hd hd'
  rw [Int8.lt_iff_toInt_lt, Int8.lt_iff_toInt_lt, Int8.toInt_zero] at negative
  have := d.le_toInt
  have := d.toInt_lt
  have := d'.le_toInt
  have := d'.toInt_lt
  exact Int8.toInt_inj.1 (by omega)

/-! ### Outlines -/

/-- **The outline of an operand.** Its text, with a zero for a number and whatever follows it. -/
def outline (v : Variant) : Operand → Text
  | absent => []
  | reg8 r => r.name
  | reg16 r => r.name v
  | imm8 _ | imm16 _ | address _ | relative .. | restart _ | bit _ => .ascii "0"
  | indirect p =>
    match v, p with
    | .z80, p => .parenthesized (p.name v)
    | .i8085, .hl => .ascii "M"
    | .i8085, p => p.name v
  | indexed x _ => .ascii "(" ++ x.register.name v ++ .ascii "0"
  | direct _ | direct16 _ | port _ =>
    match v with
    | .z80 => .ascii "(0"
    | .i8085 => .ascii "0"
  | stackTop => .ascii "(SP)"
  | condition k => k.name
  | portC => .ascii "(C)"

@[simp] theorem outline_shape (v : Variant) (o : Operand) : o.shape.outline v = o.outline v := by
  cases o <;> rfl

/-- The outline of the text of an operand. -/
theorem outline_text (v : Variant) (o : Operand) : (o.text v).outline = o.outline v := by
  cases o with
  | absent | stackTop | portC => rfl
  | reg8 r => cases r <;> rfl
  | reg16 r =>
    cases v <;> obtain p | _ | _ | _ | _ := r
    all_goals first | rfl | (cases p <;> rfl)
  | imm8 b => exact (Text.IsNumber.hexByte b).outline
  | imm16 w | address w | relative w => exact (Text.IsNumber.hexWord w).outline
  | indirect p => cases v <;> cases p <;> rfl
  | indexed x d =>
    -- Already the sign ends the outline.
    show (Text.parenthesized (x.register.name v ++ distance d)).outline = _
    unfold distance
    by_cases negative : d < 0
    · rw [if_pos negative]
      cases x <;> rfl
    · rw [if_neg negative]
      cases x <;> rfl
  | direct a | direct16 a =>
    cases v with
    | z80 => exact (Text.IsNumber.hexWord a).outline_parenthesized
    | i8085 => exact (Text.IsNumber.hexWord a).outline
  | condition k => cases k <;> rfl
  | restart a =>
    cases v with
    | z80 => exact (Text.IsNumber.hexByte _).outline
    | i8085 => exact (Text.IsNumber.decimal _).outline
  | bit n => exact (Text.IsNumber.decimal _).outline
  | port p =>
    cases v with
    | z80 => exact (Text.IsNumber.hexByte p).outline_parenthesized
    | i8085 => exact (Text.IsNumber.hexByte p).outline

/-! ### Fields -/

/-- The text of an operand is a single field. -/
theorem isField_text (v : Variant) (o : Operand) : (o.text v).IsField := by
  cases o with
  | absent | stackTop | portC => exact of_decide_eq_true rfl
  | reg8 r => cases r <;> exact of_decide_eq_true rfl
  | reg16 r => exact r.isField_name v
  | imm8 b => exact (Text.IsNumber.hexByte b).isField
  | imm16 w | address w | relative w => exact (Text.IsNumber.hexWord w).isField
  | indirect p => cases v <;> cases p <;> exact of_decide_eq_true rfl
  | indexed x d =>
    have sign : Text.IsField (.ascii (if d < 0 then "-" else "+")) := by
      split <;> exact of_decide_eq_true rfl
    have amount := (Text.IsNumber.hexByte (UInt8.ofNat d.toInt.natAbs)).isField
    exact ((x.register.isField_name v).append (sign.append amount)).parenthesized
  | direct a | direct16 a =>
    cases v with
    | z80 => exact (Text.IsNumber.hexWord a).isField.parenthesized
    | i8085 => exact (Text.IsNumber.hexWord a).isField
  | condition k => cases k <;> exact of_decide_eq_true rfl
  | restart a =>
    cases v with
    | z80 => exact (Text.IsNumber.hexByte _).isField
    | i8085 => exact (Text.IsNumber.decimal _).isField
  | bit n => exact (Text.IsNumber.decimal _).isField
  | port p =>
    cases v with
    | z80 => exact (Text.IsNumber.hexByte p).isField.parenthesized
    | i8085 => exact (Text.IsNumber.hexByte p).isField

end Operand

/-! ### Shapes of the operands of an encoding -/

namespace Encoding

/-- The shapes of byte operands: memory to which HL or an index register points, and the
registers. -/
def byteShapes : List Operand :=
  .indirect .hl :: .indexed .ix 0 :: .indexed .iy 0 :: [.b, .c, .d, .e, .h, .l, .a].map .reg8

/-- HL and what may take its place. -/
def indexable : List Reg16 := [.pair .hl, .ix, .iy]

/-- The word registers that a code of a pair may stand for. -/
def pairShapes (last : Reg16) : List Reg16 := .pair .bc :: .pair .de :: last :: indexable

/-- **Shapes of operands.** What an encoding may stand for, up to numbers that follow the opcode. -/
def shapes : Encoding → List Operand
  | absent => [.absent]
  | accumulator => [.reg8 .a]
  | high | low => byteShapes
  | pair => (pairShapes .sp).map .reg16
  | pairAF => (pairShapes (.pair .af)).map .reg16
  | hl => indexable.map .reg16
  | de => [.reg16 (.pair .de)]
  | sp => [.reg16 .sp]
  | atBC => [.indirect .bc]
  | atDE => [.indirect .de]
  | atSP => [.stackTop]
  | imm8 => [.imm8 0]
  | imm16 => [.imm16 0]
  | direct8 => [.direct 0]
  | direct16 => [.direct16 0]
  | address => [.address 0]
  | relative => [.relative 0 0]
  | condition | shortCondition => [.nz, .z, .nc, .c, .po, .pe, .p, .m].map .condition
  | restart => [0x00, 0x08, 0x10, 0x18, 0x20, 0x28, 0x30, 0x38].map .restart
  | bit => (List.finRange 8).map .bit
  | port => [.port 0]
  | portC => [.portC]

theorem shape_byCode_mem (c : Context) (code : Fin 8) : (c.byCode code).shape ∈ byteShapes := by
  have registers : ∀ code, ∀ r ∈ Reg8.ofCode? code, Operand.reg8 r ∈ byteShapes := by decide
  unfold Context.byCode
  cases h : Reg8.ofCode? code with
  | some r => exact registers code r h
  | none =>
    cases c.index with
    | none => exact List.mem_cons_self
    | some x =>
      show Operand.indexed x 0 ∈ byteShapes
      cases x <;> decide

theorem orHL_mem (x : Option Index) : Index.orHL x ∈ indexable := by
  obtain _ | _ | _ := x <;> decide

theorem pairByCode_mem (c : Context) (last : Reg16) (code : Fin 4) :
    c.pairByCode last code ∈ pairShapes last := by
  unfold Context.pairByCode pairShapes
  match code with
  | 0 => exact .head _
  | 1 => exact .tail _ (.head _)
  | 2 => exact .tail _ (.tail _ (.tail _ (orHL_mem c.index)))
  | 3 => exact .tail _ (.tail _ (.head _))

theorem condition_mem (k : Condition) : k ∈ [Condition.nz, .z, .nc, .c, .po, .pe, .p, .m] := by
  cases k <;> decide

theorem restart_mem (opcode : UInt8) :
    (opcode &&& 0x38).toUInt16 ∈ [(0x00 : UInt16), 0x08, 0x10, 0x18, 0x20, 0x28, 0x30, 0x38] := by
  revert opcode
  exact forall_byte (by decide +kernel)

/-- **Every operand has one of the shapes** of its encoding. -/
theorem shape_operand_mem (e : Encoding) (c : Context) (i : Nat) :
    (e.operand c i).shape ∈ e.shapes := by
  cases e with
  | high => exact shape_byCode_mem c _
  | low => exact shape_byCode_mem c _
  | pair => exact List.mem_map_of_mem (pairByCode_mem c .sp _)
  | pairAF => exact List.mem_map_of_mem (pairByCode_mem c (.pair .af) _)
  | hl => exact List.mem_map_of_mem (orHL_mem c.index)
  | condition => exact List.mem_map_of_mem (condition_mem _)
  | shortCondition => exact List.mem_map_of_mem (condition_mem _)
  | restart => exact List.mem_map_of_mem (restart_mem c.opcode)
  | bit => exact List.mem_map_of_mem (List.mem_finRange _)
  | _ => exact List.mem_singleton_self _

/-- The outline of the text of an operand is that of one of the shapes of its encoding. -/
theorem outline_text_mem (v : Variant) (e : Encoding) (c : Context) (i : Nat) :
    ((e.operand c i).text v).outline ∈ e.shapes.map (Operand.outline v) := by
  rw [Operand.outline_text, ← Operand.outline_shape]
  exact List.mem_map_of_mem (e.shape_operand_mem c i)

/-! ### Reading operands back -/

variable {v : Variant} {c c' : Context} {i i' : Nat}

/-- A code of a byte register stands for a register, for the byte to which HL points, or for one at
a distance from an index register. -/
theorem byCode_cases (c : Context) (code : Fin 8) :
    (∃ r, c.byCode code = .reg8 r) ∨ c.byCode code = .indirect .hl
      ∨ ∃ x, c.byCode code = .indexed x c.displacement := by
  unfold Context.byCode
  cases Reg8.ofCode? code with
  | some r => exact .inl ⟨r, rfl⟩
  | none =>
    cases c.index with
    | none => exact .inr (.inl rfl)
    | some x => exact .inr (.inr ⟨x, rfl⟩)

/-- Byte operands of different shapes have texts with different outlines. -/
theorem shape_byCode_eq_of_text_eq {code code' : Fin 8}
    (h : (c.byCode code).text v = (c'.byCode code').text v) :
    (c.byCode code).shape = (c'.byCode code').shape := by
  have apart : ∀ o ∈ byteShapes, ∀ o' ∈ byteShapes, o.outline v = o'.outline v → o = o' := by
    cases v <;> decide
  refine apart _ (shape_byCode_mem c code) _ (shape_byCode_mem c' code') ?_
  rw [Operand.outline_shape, Operand.outline_shape, ← Operand.outline_text, h,
    Operand.outline_text]

theorem byCode_eq_of_text_eq {code code' : Fin 8}
    (h : (c.byCode code).text v = (c'.byCode code').text v) :
    c.byCode code = c'.byCode code' := by
  have shape := shape_byCode_eq_of_text_eq h
  obtain ⟨r, here⟩ | here | ⟨x, here⟩ := byCode_cases c code
  · rw [here] at shape ⊢
    obtain ⟨s, there⟩ | there | ⟨y, there⟩ := byCode_cases c' code'
    all_goals rw [there] at shape ⊢
    · exact shape
    · cases shape
    · cases shape
  · rw [here] at shape ⊢
    obtain ⟨s, there⟩ | there | ⟨y, there⟩ := byCode_cases c' code'
    all_goals rw [there] at shape ⊢
    · cases shape
    · cases shape
  · rw [here] at shape h ⊢
    obtain ⟨s, there⟩ | there | ⟨y, there⟩ := byCode_cases c' code'
    all_goals rw [there] at shape h ⊢
    · cases shape
    · cases shape
    · -- The same index register: what is left is the distance.
      obtain ⟨rfl, -⟩ := Operand.indexed.inj shape
      have distance := List.append_cancel_left (Text.parenthesized_inj h)
      rw [Operand.distance_inj distance]

/-- The address of a restart routine has its low byte only. -/
theorem lowByte_toUInt16 (b : UInt8) : lowByte b.toUInt16 = b := by
  simp [lowByte]

theorem restart_eq_of_text_eq {b b' : UInt8}
    (h : (Operand.restart (b &&& 0x38).toUInt16).text v =
      (Operand.restart (b' &&& 0x38).toUInt16).text v) :
    (b &&& 0x38).toUInt16 = (b' &&& 0x38).toUInt16 := by
  cases v with
  | z80 =>
    have same := Text.hexByte_inj h
    rw [lowByte_toUInt16, lowByte_toUInt16] at same
    rw [same]
  | i8085 =>
    have eighth : ∀ b : UInt8, (b &&& 0x38).toUInt16.toNat / 8 < 10 ∧
        UInt16.ofNat ((b &&& 0x38).toUInt16.toNat / 8) * 8 = (b &&& 0x38).toUInt16 :=
      forall_byte (by decide +kernel)
    obtain ⟨small, back⟩ := eighth b
    obtain ⟨small', back'⟩ := eighth b'
    rw [← back, Text.decimal_inj small small' h, back']

/-- A distance to go is determined by where it leads. -/
theorem toInt8_toUInt16_inj {b b' : UInt8}
    (h : b.toInt8.toInt16.toUInt16 = b'.toInt8.toInt16.toUInt16) : b = b' := by
  have back : ∀ b : UInt8, b.toInt8.toInt16.toUInt16.toUInt8 = b := forall_byte (by decide +kernel)
  rw [← back b, h, back]

/-- **Reading an operand back.** Two operands of an encoding with the same text are equal; for
distances to go it matters where they are counted from. -/
theorem operand_eq_of_text_eq {e : Encoding}
    (anchor : e = .relative → c.start = c'.start ∧ i = i')
    (h : (e.operand c i).text v = (e.operand c' i').text v) :
    e.operand c i = e.operand c' i' := by
  cases e with
  | high => exact byCode_eq_of_text_eq h
  | low => exact byCode_eq_of_text_eq h
  | pair | pairAF | hl => exact congrArg Operand.reg16 (Reg16.name_inj h)
  | imm8 => exact congrArg Operand.imm8 (Text.hexByte_inj h)
  | imm16 => exact congrArg Operand.imm16 (Text.hexWord_inj h)
  | address => exact congrArg Operand.address (Text.hexWord_inj h)
  | direct8 =>
    cases v with
    | z80 => exact congrArg Operand.direct (Text.hexWord_inj (Text.parenthesized_inj h))
    | i8085 => exact congrArg Operand.direct (Text.hexWord_inj h)
  | direct16 =>
    cases v with
    | z80 => exact congrArg Operand.direct16 (Text.hexWord_inj (Text.parenthesized_inj h))
    | i8085 => exact congrArg Operand.direct16 (Text.hexWord_inj h)
  | port =>
    cases v with
    | z80 => exact congrArg Operand.port (Text.hexByte_inj (Text.parenthesized_inj h))
    | i8085 => exact congrArg Operand.port (Text.hexByte_inj h)
  | condition | shortCondition => exact congrArg Operand.condition (Condition.name_inj h)
  | restart => exact congrArg Operand.restart (restart_eq_of_text_eq h)
  | bit =>
    exact congrArg Operand.bit (Fin.ext (Text.decimal_inj (by omega) (by omega) h))
  | relative =>
    obtain ⟨start, rfl⟩ := anchor rfl
    have target := Text.hexWord_inj h
    rw [start] at target
    have byte : c.byte i = c'.byte i :=
      toInt8_toUInt16_inj ((UInt16.add_right_inj _).1 target)
    show Operand.relative (c.start + _ + _) _ = Operand.relative (c'.start + _ + _) _
    rw [start, byte]
  | _ => rfl

/-- The same goes for a word register that is implied here and has a number there. -/
theorem operand_hl_eq_of_text_eq
    (h : (Encoding.hl.operand c i).text v = (Encoding.pair.operand c' i').text v) :
    Encoding.hl.operand c i = Encoding.pair.operand c' i' :=
  congrArg Operand.reg16 (Reg16.name_inj h)

end Encoding

end Micro80
