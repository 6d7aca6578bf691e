import Micro80.Proofs.Instruction.Form
import Micro80.Proofs.Machine.Agreement

/-!
# Instructions of the 8085 on the Z80

The Z80 has every instruction of the 8085, under the same opcode and with the same bytes. It calls
it by another name, but operation and operands are the same.

Most instructions of the 8085 do not look at anything in which agreeing cores may differ. The
exceptions are decimal adjustment, which looks at the half carry, the push of the accumulator and
the flags, and whatever depends on the parity flag. Without them an instruction is portable.

## Main definitions

* `Instruction.IsLike`: two instructions with the same operation, operands and bytes.
* `Instruction.IsPortable`: an instruction that is none of the exceptions.

## Main statements

* `Instruction.exists_decode_z80`: the Z80 has the instructions of the 8085.
* `Instruction.decode_extension`: it decodes them to the same, and without an index register.
* `Instruction.isShared_of_decode`: portable instructions of the 8085 are shared.
-/

namespace Micro80

namespace Instruction

/-! ### Likeness -/

/-- **Likeness.** Two instructions that differ in names and processors only. -/
structure IsLike (i j : Instruction) : Prop where
  operation : i.operation = j.operation
  address : i.address = j.address
  bytes : i.bytes = j.bytes
  dst : i.dst = j.dst
  src : i.src = j.src

theorem IsLike.next {i j : Instruction} (h : i.IsLike j) : i.next = j.next := by
  rw [Instruction.next, Instruction.next, length, length, h.address, h.bytes]

/-- Like instructions have the same effect. -/
theorem IsLike.effect? {i j : Instruction} (h : i.IsLike j) (L : FlagLayout) (c : Core) :
    i.effect? L c = j.effect? L c := by
  unfold Instruction.effect? onDst onDst16 onBit
  rw [h.operation, h.dst, h.src]

/-- Entries with the same operation and encodings make like instructions. -/
theorem isLike_ofEntry {e e' : Opcode} (operation : e.operation = e'.operation)
    (dst : e.dst = e'.dst) (src : e.src = e'.src) (v w : Variant) (lead : Lead) (a : UInt16)
    (byte : Nat → UInt8) : (ofEntry e v lead a byte).IsLike (ofEntry e' w lead a byte) := by
  obtain ⟨_, _, _, _, _, _, _, _, _⟩ := e
  obtain ⟨_, _, _, _, _, _, _, _, _⟩ := e'
  cases operation
  cases dst
  cases src
  exact ⟨rfl, rfl, rfl, rfl, rfl⟩

/-- Like instructions with the same index register have the same defect. -/
theorem IsLike.defect? {i j : Instruction} (h : i.IsLike j) (index : i.index = j.index) :
    i.defect? = j.defect? :=
  defect?_congr h.operation (congrArg List.length h.bytes) index (congrArg _ h.dst)
    (congrArg _ h.src)

/-! ### The Z80 -/

/-- The Z80 has an entry for each opcode of the 8085, and this opcode has no other meaning. -/
theorem exists_find?_z80 (b : UInt8) : ∀ e ∈ Opcode.find? I8085.opcodes none false b,
    Index.ofLead? b = none ∧ Lead.isPage b = false ∧
      ∃ e' ∈ Opcode.find? Z80.opcodes none false b, e.operation = e'.operation ∧
        e.dst = e'.dst ∧ e.src = e'.src ∧ e'.registersOnly = false := by
  revert b
  exact forall_byte (by decide +kernel)

/-- **The Z80 has the instructions of the 8085.** -/
theorem exists_decode_z80 {m : Memory} {a : UInt16} {i : Instruction}
    (h : decode .i8085 m a = .ok i) : ∃ j, decode .z80 m a = .ok j ∧ i.IsLike j := by
  obtain ⟨lead, e, hl, he, -, rfl, sound⟩ := decodeWith_eq_ok_iff.1 (decode_eq_ok_iff.1 h)
  cases hl
  -- The Z80 reads no lead from this opcode either, and finds an entry that makes a like instruction.
  obtain ⟨noIndex, noPage, e', he', operation, dst, src, anything⟩ := exists_find?_z80 _ e he
  have like := isLike_ofEntry operation dst src .i8085 .z80 .empty a (m.ahead a)
  refine ⟨_, decode_eq_ok_iff.2 (decodeWith_eq_ok_iff.2 ?_), like⟩
  refine ⟨.empty, e', Lead.read?_of_plain noIndex noPage, he', ?_, rfl, ?_⟩
  · rw [anything, Bool.false_and]
  · rw [← like.defect? rfl]
    exact sound

/-- The index register of an instruction of the Z80 is the one that its first byte selects. -/
theorem index_of_decode_z80 {m : Memory} {a : UInt16} {i : Instruction}
    (h : decode .z80 m a = .ok i) : i.index = Index.ofLead? (m.read a) := by
  obtain ⟨lead, e, hl, -, -, rfl, -⟩ := decodeWith_eq_ok_iff.1 (decode_eq_ok_iff.1 h)
  show lead.index = _
  rw [← Memory.ahead_zero]
  obtain ⟨rfl, noIndex⟩ | ⟨rfl, noIndex⟩ | ⟨x, rfl, selected⟩ := Lead.read?_cases hl
  · exact (noIndex rfl).symm
  · exact noIndex.symm
  · exact selected.symm

/-- No byte that begins an instruction of the 8085 selects an index register. -/
theorem ofLead?_of_decode_i8085 {m : Memory} {a : UInt16} {i : Instruction}
    (h : decode .i8085 m a = .ok i) : Index.ofLead? (m.read a) = none := by
  obtain ⟨lead, e, hl, he, -⟩ := decodeWith_eq_ok_iff.1 (decode_eq_ok_iff.1 h)
  cases hl
  rw [← Memory.ahead_zero]
  exact (exists_find?_z80 _ e he).1

/-- **The decoder of the Z80 extends the decoder of the 8085.** Wherever the 8085 has an
instruction, the Z80 has one of the same bytes, without an index register, and with the same
operation on the same operands. -/
theorem decode_extension (m : Memory) (a : UInt16) (i : Instruction)
    (h : decode .i8085 m a = .ok i) :
    ∃ j, decode .z80 m a = .ok j ∧ j.operation = i.operation ∧ j.length = i.length
      ∧ j.bytes = i.bytes ∧ j.index = none ∧ j.dst = i.dst ∧ j.src = i.src := by
  obtain ⟨j, hj, like⟩ := exists_decode_z80 h
  have noIndex : j.index = none := by
    rw [index_of_decode_z80 hj]
    exact ofLead?_of_decode_i8085 h
  exact ⟨j, hj, like.operation.symm, congrArg List.length like.bytes.symm, like.bytes.symm,
    noIndex, like.dst.symm, like.src.symm⟩

/-- The Z80 has the store of an immediate byte, `36 2A`, as well. -/
theorem decode_extension_store :
    ∃ i, decode .i8085 ((Memory.blank.write 0 0x36).write 1 0x2A) 0 = .ok i
      ∧ ∃ j, decode .z80 ((Memory.blank.write 0 0x36).write 1 0x2A) 0 = .ok j
        ∧ j.operation = i.operation ∧ j.length = i.length ∧ j.bytes = i.bytes ∧ j.index = none
        ∧ j.dst = i.dst ∧ j.src = i.src := by
  have accepted :
      verdict (decode .i8085 ((Memory.blank.write 0 0x36).write 1 0x2A) 0) = none := by
    decide +kernel
  obtain ⟨i, hi⟩ := verdict_eq_none_iff.1 accepted
  exact ⟨i, hi, decode_extension _ _ i hi⟩

end Instruction

/-! ### Portable instructions -/

namespace Encoding

theorem Context.isShared_byCode {c : Context} (noIndex : c.index = none) (code : Fin 8) :
    (c.byCode code).isShared = true := by
  unfold Context.byCode
  rw [noIndex]
  cases h : Reg8.ofCode? code with
  | none => rfl
  | some r => exact bne_iff_ne.2 (by rintro rfl; exact ofCode?_ne_flags code h)

theorem Context.isShared_pairByCode {c : Context} (noIndex : c.index = none) (last : Reg16)
    (code : Fin 4) :
    c.pairByCode last code = last ∨ (c.pairByCode last code).isShared = true := by
  unfold Context.pairByCode
  rw [noIndex]
  match code with
  | 0 | 1 | 2 => exact .inr rfl
  | 3 => exact .inl rfl

theorem isShared_condition (k : Condition) :
    (Operand.condition k).isShared = true ∨
      Operand.condition k = .condition .po ∨ Operand.condition k = .condition .pe := by
  cases k <;> decide

/-- Without an index register an operand is shared, unless it is AF or a condition on parity. -/
theorem isShared_operand (e : Encoding) {c : Context} (noIndex : c.index = none) (i : Nat) :
    (e.operand c i).isShared = true ∨ (e = .pairAF ∧ e.operand c i = .reg16 (.pair .af)) ∨
      ((e = .condition ∨ e = .shortCondition) ∧
        (e.operand c i = .condition .po ∨ e.operand c i = .condition .pe)) := by
  unfold operand
  cases e with
  | high => exact .inl (Context.isShared_byCode noIndex _)
  | low => exact .inl (Context.isShared_byCode noIndex _)
  | pair =>
    obtain sp | shared := Context.isShared_pairByCode noIndex .sp (Field.pair c.opcode)
    · exact .inl (congrArg Reg16.isShared sp)
    · exact .inl shared
  | pairAF =>
    obtain af | shared := Context.isShared_pairByCode noIndex (.pair .af) (Field.pair c.opcode)
    · exact .inr (.inl ⟨rfl, congrArg Operand.reg16 af⟩)
    · exact .inl shared
  | hl => exact .inl (by rw [noIndex]; rfl)
  | condition => exact (isShared_condition _).imp id fun parity => .inr ⟨.inl rfl, parity⟩
  | shortCondition => exact (isShared_condition _).imp id fun parity => .inr ⟨.inr rfl, parity⟩
  | _ => exact .inl rfl

end Encoding

/-- Apart from decimal adjustment the 8085 has shared operations only, and conditions are
destinations. -/
theorem I8085.isShared_of_mem : ∀ e ∈ opcodes,
    (e.operation = .daa ∨ e.operation.isShared = true) ∧
      e.src ≠ .condition ∧ e.src ≠ .shortCondition := by
  decide

namespace Instruction

/-- **Portable instructions.** Neither decimal adjustment, nor a push of the accumulator and the
flags, nor a jump, call or return that depends on the parity flag. -/
structure IsPortable (i : Instruction) : Prop where
  ne_daa : i.operation ≠ .daa
  not_pushAF : ¬(i.operation = .push ∧ i.src = .reg16 (.pair .af))
  ne_odd : i.dst ≠ .condition .po
  ne_even : i.dst ≠ .condition .pe

instance decidableIsPortable (i : Instruction) : Decidable i.IsPortable :=
  decidable_of_iff
    (i.operation ≠ .daa ∧ ¬(i.operation = .push ∧ i.src = .reg16 (.pair .af)) ∧
      i.dst ≠ .condition .po ∧ i.dst ≠ .condition .pe)
    ⟨fun h => ⟨h.1, h.2.1, h.2.2.1, h.2.2.2⟩,
      fun h => ⟨h.ne_daa, h.not_pushAF, h.ne_odd, h.ne_even⟩⟩

/-- The operands of an instruction are those of its entry in one context. -/
theorem exists_context (e : Opcode) (v : Variant) (lead : Lead) (a : UInt16)
    (byte : Nat → UInt8) :
    ∃ c : Encoding.Context, c.index = lead.index ∧
      (∃ k, (ofEntry e v lead a byte).dst = e.dst.operand c k) ∧
        ∃ k, (ofEntry e v lead a byte).src = e.src.operand c k :=
  ⟨_, rfl, ⟨_, rfl⟩, ⟨_, rfl⟩⟩

/-- **Portable instructions of the 8085 are shared.** -/
theorem isShared_of_decode {m : Memory} {a : UInt16} {i : Instruction}
    (h : decode .i8085 m a = .ok i) (portable : i.IsPortable) : i.IsShared := by
  obtain ⟨lead, e, hl, he, -, rfl, -⟩ := decodeWith_eq_ok_iff.1 (decode_eq_ok_iff.1 h)
  cases hl
  have mem : e ∈ I8085.opcodes := List.mem_of_find?_eq_some he
  obtain ⟨operation, noCondition, noShort⟩ := I8085.isShared_of_mem e mem
  obtain ⟨popped, pushed⟩ := Variant.pairAF_of_mem .i8085 e mem
  obtain ⟨notDaa, notPushAF, notOdd, notEven⟩ := portable
  obtain ⟨c, noIndex, ⟨k, dst⟩, ⟨n, src⟩⟩ := exists_context e .i8085 .empty a (m.ahead a)
  rw [dst] at notOdd notEven
  rw [src] at notPushAF
  refine ⟨operation.resolve_left notDaa, ?_, ?_⟩
  · rw [dst]
    obtain shared | ⟨af, -⟩ | ⟨-, odd | even⟩ := e.dst.isShared_operand noIndex k
    · exact .inr shared
    · exact .inl (popped af)
    · exact absurd odd notOdd
    · exact absurd even notEven
  · rw [src]
    obtain shared | ⟨af, same⟩ | ⟨condition | short, -⟩ := e.src.isShared_operand noIndex n
    · exact shared
    · exact absurd ⟨pushed af, same⟩ notPushAF
    · exact absurd condition noCondition
    · exact absurd short noShort

end Instruction

end Micro80
