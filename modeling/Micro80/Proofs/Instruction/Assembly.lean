import Micro80.Proofs.Instruction.Locality

/-!
# Assembling instructions

No byte of an instruction goes unused: from the entry of the table that decided and the operands,
the bytes can be assembled again. The bits of the opcode that an entry leaves open are the numbers
of its operands, and the index register, which stands in front of the opcode, is among the operands
as well.

## Main definitions

* `Operand.index?`: the index register that an operand is or uses.
* `Operand.code`, `Operand.displacement`, `Operand.trailer`: what an operand puts into an opcode,
  behind it, and at the end of an instruction.
* `Opcode.assemble`: the bytes of an instruction.

## Main statements

* `Instruction.index_eq_of_decode`: the index register of an instruction is that of its operands.
* `Instruction.bytes_eq_assemble`: an instruction consists of the bytes that are assembled for it.
-/

namespace Micro80

/-! ### Index registers of operands -/

namespace Operand

/-- The index register that an operand is or uses. -/
def index? : Operand → Option Index
  | indexed x _ => some x
  | reg16 .ix => some .ix
  | reg16 .iy => some .iy
  | _ => none

theorem usesIndex_eq (o : Operand) : o.usesIndex = o.index?.isSome := by
  cases o with
  | reg16 r => cases r <;> rfl
  | _ => rfl

end Operand

namespace Encoding

theorem index?_byCode (c : Context) (code : Fin 8) :
    (c.byCode code).index? = none ∨ (c.byCode code).index? = c.index := by
  unfold Context.byCode
  cases Reg8.ofCode? code with
  | some r => exact .inl rfl
  | none => cases c.index <;> exact .inr rfl

theorem index?_orHL (x : Option Index) : (Operand.reg16 (Index.orHL x)).index? = x := by
  obtain _ | _ | _ := x <;> rfl

theorem index?_pairByCode (c : Context) {last : Reg16} (h : (Operand.reg16 last).index? = none)
    (code : Fin 4) : (Operand.reg16 (c.pairByCode last code)).index? = none ∨
      (Operand.reg16 (c.pairByCode last code)).index? = c.index := by
  unfold Context.pairByCode
  match code with
  | 0 | 1 => exact .inl rfl
  | 2 => exact .inr (index?_orHL c.index)
  | 3 => exact .inl h

/-- An operand has the index register of the instruction or none. -/
theorem index?_operand (e : Encoding) (c : Context) (i : Nat) :
    (e.operand c i).index? = none ∨ (e.operand c i).index? = c.index := by
  cases e with
  | high => exact index?_byCode c _
  | low => exact index?_byCode c _
  | pair => exact index?_pairByCode c rfl _
  | pairAF => exact index?_pairByCode c rfl _
  | hl => exact .inr (index?_orHL c.index)
  | _ => exact .inl rfl

end Encoding

namespace Instruction

/-- An index register without use would be a defect. -/
theorem usesIndexWell_of_defect? {i : Instruction} (sound : i.defect? = none)
    (index : i.index.isSome = true) : i.usesIndexWell = true := by
  unfold defect? at sound
  split at sound
  · cases sound
  · split at sound
    · cases sound
    · split at sound
      · cases sound
      · rename_i well
        rw [index] at well
        simpa using well

/-- **The index register** of an instruction is that of its operands. -/
theorem index_eq_of_decode {v : Variant} {m : Memory} {a : UInt16} {i : Instruction}
    (h : decode v m a = .ok i) : i.index = i.dst.index?.or i.src.index? := by
  obtain ⟨lead, e, -, -, -, rfl, sound⟩ := decodeWith_eq_ok_iff.1 (decode_eq_ok_iff.1 h)
  have hd := e.dst.index?_operand (e.context lead a (m.ahead a)) (e.dstAt lead (m.ahead a))
  have hs := e.src.index?_operand (e.context lead a (m.ahead a))
    (e.dstAt lead (m.ahead a) + e.dst.size)
  rw [← Opcode.dst_ofEntry e v] at hd
  rw [← Opcode.src_ofEntry e v] at hs
  have found : (e.context lead a (m.ahead a)).index = lead.index := rfl
  show lead.index = _
  rw [found] at hd hs
  cases index : lead.index with
  | none =>
    rw [index, or_self] at hd hs
    rw [hd, hs]
    rfl
  | some x =>
    rw [index] at hd hs
    obtain hd | hd := hd
    · obtain hs | hs := hs
      · have well := usesIndexWell_of_defect? sound (congrArg Option.isSome index)
        have used := (Bool.and_eq_true_iff.1 well).1
        rw [Operand.usesIndex_eq, Operand.usesIndex_eq, hd, hs] at used
        cases used
      · rw [hd, hs]
        rfl
    · rw [hd]
      rfl

end Instruction

/-! ### Numbers of operands -/

/-- The number by which an opcode names a byte register. -/
def Reg8.code : Reg8 → UInt8
  | b => 0
  | c => 1
  | d => 2
  | e => 3
  | h => 4
  | l => 5
  | f => 6
  | a => 7

/-- The number by which an opcode names a word register. -/
def Reg16.code : Reg16 → UInt8
  | pair .bc => 0
  | pair .de => 1
  | pair .hl | ix | iy => 2
  | _ => 3

namespace Operand

/-- **The number of an operand** in an opcode. -/
def code : Operand → UInt8
  | reg8 r => r.code
  | indirect _ | indexed .. => 6
  | reg16 r => r.code
  | condition k => UInt8.ofNat k.code.val
  | restart a => lowByte a / 8
  | bit n => UInt8.ofNat n.val
  | _ => 0

/-- The distance from an index register, as it stands behind the opcode. -/
def displacement : Operand → List UInt8
  | indexed _ d => [d.toUInt8]
  | _ => []

/-- What stands for an operand at the end of an instruction. -/
def trailer : Operand → List UInt8
  | imm8 b => [b]
  | imm16 w | direct w | direct16 w | address w => [lowByte w, highByte w]
  | relative _ d => [d.toUInt8]
  | port p => [p]
  | _ => []

end Operand

namespace Encoding

/-- What the number of an operand counts for in the opcode. -/
def weight : Encoding → UInt8
  | high | condition | shortCondition | restart | bit => 8
  | low => 1
  | pair | pairAF => 16
  | _ => 0

/-- The bits of the opcode that name an operand. -/
def fieldMask : Encoding → UInt8
  | high | condition | restart | bit => 0x38
  | shortCondition => 0x18
  | low => 0x07
  | pair | pairAF => 0x30
  | _ => 0x00

theorem code_byCode (c : Context) (code : Fin 8) :
    (c.byCode code).code = UInt8.ofNat code.val := by
  have registers : ∀ code : Fin 8, ∀ r ∈ Reg8.ofCode? code, r.code = UInt8.ofNat code.val := by
    decide
  have memory : ∀ code : Fin 8, Reg8.ofCode? code = none → 6 = UInt8.ofNat code.val := by decide
  unfold Context.byCode
  cases h : Reg8.ofCode? code with
  | some r => exact registers code r h
  | none => cases c.index <;> exact memory code h

theorem code_orHL (x : Option Index) : (Index.orHL x).code = 2 := by
  obtain _ | _ | _ := x <;> rfl

theorem code_pairByCode (c : Context) {last : Reg16} (h : last.code = 3) (code : Fin 4) :
    (c.pairByCode last code).code = UInt8.ofNat code.val := by
  unfold Context.pairByCode
  match code with
  | 0 | 1 => rfl
  | 2 => exact code_orHL c.index
  | 3 => exact h

/-- **The number of an operand** fills the bits of the opcode that name it. -/
theorem weight_mul_code (e : Encoding) (c : Context) (i : Nat) :
    e.weight * (e.operand c i).code = c.opcode &&& e.fieldMask := by
  have highField : ∀ b : UInt8, 8 * UInt8.ofNat (Field.high b).val = b &&& 0x38 :=
    forall_byte (by decide +kernel)
  have lowField : ∀ b : UInt8, 1 * UInt8.ofNat (Field.low b).val = b &&& 0x07 :=
    forall_byte (by decide +kernel)
  have pairField : ∀ b : UInt8, 16 * UInt8.ofNat (Field.pair b).val = b &&& 0x30 :=
    forall_byte (by decide +kernel)
  have shortField : ∀ b : UInt8, 8 * UInt8.ofNat (Field.short b).val = b &&& 0x18 :=
    forall_byte (by decide +kernel)
  have restartField : ∀ b : UInt8, 8 * (lowByte (b &&& 0x38).toUInt16 / 8) = b &&& 0x38 :=
    forall_byte (by decide +kernel)
  have condition : ∀ k : Fin 8, (Condition.ofCode k).code = k := by decide
  cases e with
  | high => exact (congrArg (8 * ·) (code_byCode c _)).trans (highField c.opcode)
  | low => exact (congrArg (1 * ·) (code_byCode c _)).trans (lowField c.opcode)
  | pair => exact (congrArg (16 * ·) (code_pairByCode c rfl _)).trans (pairField c.opcode)
  | pairAF => exact (congrArg (16 * ·) (code_pairByCode c rfl _)).trans (pairField c.opcode)
  | condition =>
    exact (congrArg (8 * UInt8.ofNat ·.val) (condition _)).trans (highField c.opcode)
  | shortCondition =>
    exact (congrArg (8 * UInt8.ofNat ·.val) (condition _)).trans (shortField c.opcode)
  | restart => exact restartField c.opcode
  | bit => exact highField c.opcode
  | _ => exact UInt8.zero_mul.trans UInt8.and_zero.symm

/-! ### Bytes of operands -/

theorem trailer_byCode (c : Context) (code : Fin 8) : (c.byCode code).trailer = [] := by
  unfold Context.byCode
  cases Reg8.ofCode? code with
  | some r => rfl
  | none => cases c.index <;> rfl

/-- At its end an instruction has the bytes that its operands take. -/
theorem trailer_operand (e : Encoding) (c : Context) (i : Nat) :
    (e.operand c i).trailer = (List.range e.size).map fun k => c.byte (i + k) := by
  have word : [lowByte (c.word i), highByte (c.word i)] = [c.byte i, c.byte (i + 1)] := by
    unfold Context.word
    rw [lowByte_word, highByte_word]
  cases e with
  | high => exact trailer_byCode c _
  | low => exact trailer_byCode c _
  | imm16 | direct8 | direct16 | address => exact word
  | _ => rfl

theorem displacement_byCode (c : Context) (code : Fin 8) :
    (c.byCode code).displacement =
      if c.index.isSome && code.val == 6 then [c.displacement.toUInt8] else [] := by
  have registers : ∀ code : Fin 8, ∀ r ∈ Reg8.ofCode? code, (code.val == 6) = false := by decide
  have memory : ∀ code : Fin 8, Reg8.ofCode? code = none → (code.val == 6) = true := by decide
  unfold Context.byCode
  cases h : Reg8.ofCode? code with
  | some r =>
    rw [registers code r h, Bool.and_false]
    rfl
  | none =>
    rw [memory code h, Bool.and_true]
    cases c.index <;> rfl

/-- An operand to which an index register points has the distance. -/
theorem displacement_operand (e : Encoding) (c : Context) (i : Nat) :
    (e.operand c i).displacement =
      if c.index.isSome && e.selectsMemory c.opcode then [c.displacement.toUInt8] else [] := by
  cases e with
  | high => exact displacement_byCode c _
  | low => exact displacement_byCode c _
  | _ =>
    simp only [selectsMemory, Bool.and_false]
    rfl

end Encoding

/-! ### Assembling -/

/-- Whoever knows the mask of an entry and the numbers of the operands knows the opcode. -/
theorem Variant.masks_of_mem (v : Variant) :
    ∀ e ∈ v.opcodes, e.mask ||| e.dst.fieldMask ||| e.src.fieldMask = 0xFF := by
  cases v <;> decide +kernel

namespace Opcode

/-- **Assembling.** The bytes of an instruction of an entry. -/
def assemble (e : Opcode) (index : Option Index) (dst src : Operand) : List UInt8 :=
  (index.map Index.lead).toList ++ e.lead.toList
    ++ [e.code ||| e.dst.weight * dst.code ||| e.src.weight * src.code]
    ++ (dst.displacement ++ src.displacement).take 1 ++ dst.trailer ++ src.trailer

/-- What is found in a table stands for the opcode after the byte in front of it. -/
theorem matching_of_find? {table : List Opcode} {page : Option UInt8} {isIndexed : Bool}
    {opcode : UInt8} {e : Opcode} (h : find? table page isIndexed opcode = some e) :
    e.lead = page ∧ opcode &&& e.mask = e.code := by
  have found := List.find?_some h
  simp only [matching, Bool.and_eq_true, beq_iff_eq] at found
  exact found.1

end Opcode

/-- The bytes in front of an opcode. -/
theorem Lead.map_range_size {v : Variant} {byte : Nat → UInt8} {lead : Lead}
    (h : read? v byte = some lead) :
    (List.range lead.size).map byte = (lead.index.map Index.lead).toList ++ lead.page.toList := by
  obtain ⟨rfl, -⟩ | ⟨rfl, -⟩ | ⟨x, rfl, selected⟩ := read?_cases h
  · rfl
  · rfl
  · show [byte 0] = [x.lead]
    rw [Index.eq_lead_of_ofLead? selected]

namespace Instruction

theorem and_or_distrib (b x y : UInt8) : b &&& (x ||| y) = b &&& x ||| b &&& y :=
  UInt8.toBitVec_inj.1 BitVec.and_or_distrib_left

theorem map_range_add (byte : Nat → UInt8) (m n : Nat) :
    (List.range (m + n)).map byte =
      (List.range m).map byte ++ (List.range n).map fun k => byte (m + k) := by
  rw [List.range_add, List.map_append, List.map_map]
  rfl

/-- A distance stands behind the opcode if one of the operands has it. -/
theorem displacement_ofEntry (e : Opcode) (v : Variant) (lead : Lead) (a : UInt16)
    (byte : Nat → UInt8) :
    ((ofEntry e v lead a byte).dst.displacement
        ++ (ofEntry e v lead a byte).src.displacement).take 1 =
      (List.range (e.isSpaced lead byte).toNat).map fun k => byte (lead.size + 1 + k) := by
  have value (h : e.isSpaced lead byte = true) :
      (e.context lead a byte).displacement.toUInt8 = byte (lead.size + 1) := by
    unfold Opcode.context
    exact congrArg Int8.toUInt8 (if_pos h)
  have dst : (ofEntry e v lead a byte).dst.displacement =
      if lead.index.isSome && e.dst.selectsMemory (byte lead.size) then
        [(e.context lead a byte).displacement.toUInt8] else [] :=
    e.dst.displacement_operand ..
  have src : (ofEntry e v lead a byte).src.displacement =
      if lead.index.isSome && e.src.selectsMemory (byte lead.size) then
        [(e.context lead a byte).displacement.toUInt8] else [] :=
    e.src.displacement_operand ..
  have spaced : e.isSpaced lead byte = (lead.index.isSome && e.dst.selectsMemory (byte lead.size)
      || lead.index.isSome && e.src.selectsMemory (byte lead.size)) :=
    Bool.and_or_distrib_left ..
  rw [dst, src]
  cases hd : lead.index.isSome && e.dst.selectsMemory (byte lead.size) with
  | true =>
    rw [hd, Bool.true_or] at spaced
    rw [value spaced, spaced]
    rfl
  | false =>
    cases hs : lead.index.isSome && e.src.selectsMemory (byte lead.size) with
    | true =>
      rw [hs, Bool.or_true] at spaced
      rw [value spaced, spaced]
      rfl
    | false =>
      rw [hd, hs, Bool.or_false] at spaced
      rw [spaced]
      rfl

/-- **An instruction consists of the bytes** that are assembled for its operands. -/
theorem bytes_eq_assemble {v : Variant} {m : Memory} {a : UInt16} {i : Instruction}
    (h : decode v m a = .ok i) : i.bytes = i.entry.assemble i.index i.dst i.src := by
  obtain ⟨lead, e, hl, he, -, rfl, -⟩ := decodeWith_eq_ok_iff.1 (decode_eq_ok_iff.1 h)
  obtain ⟨page, code⟩ := Opcode.matching_of_find? he
  have masks := v.masks_of_mem e (List.mem_of_find?_eq_some he)
  have opcode : e.code ||| e.dst.weight * (ofEntry e v lead a (m.ahead a)).dst.code
      ||| e.src.weight * (ofEntry e v lead a (m.ahead a)).src.code = m.ahead a lead.size := by
    rw [Opcode.dst_ofEntry, Opcode.src_ofEntry, Encoding.weight_mul_code,
      Encoding.weight_mul_code, ← code]
    show m.ahead a lead.size &&& e.mask ||| m.ahead a lead.size &&& e.dst.fieldMask
      ||| m.ahead a lead.size &&& e.src.fieldMask = _
    rw [← and_or_distrib, ← and_or_distrib, masks]
    exact UInt8.and_neg_one
  have distance := displacement_ofEntry e v lead a (m.ahead a)
  show (ofEntry e v lead a (m.ahead a)).bytes = e.assemble lead.index
    (ofEntry e v lead a (m.ahead a)).dst (ofEntry e v lead a (m.ahead a)).src
  unfold Opcode.assemble
  rw [Opcode.bytes_ofEntry, map_range_add, map_range_add, Opcode.dstAt, map_range_add,
    map_range_add, Lead.map_range_size hl, ← page, opcode, distance]
  rw [Opcode.dst_ofEntry, Opcode.src_ofEntry, Encoding.trailer_operand, Encoding.trailer_operand]
  rfl

end Instruction

end Micro80
