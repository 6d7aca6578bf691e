import Micro80.Machine.Core
import Micro80.Proofs.Instruction.Locality
import Micro80.Proofs.Instruction.Soundness

/-!
# Forms of instructions

The roles of operands tell whether an operation works with them. Which places they may be is a
narrower matter, and it is one of the tables as well: a word is popped into a register and never
into memory, a call goes to the word behind its opcode, an input goes to a register, and so on.

Here this is read off the tables once and then told of decoded instructions, in terms of the bytes
in memory from which they have been decoded.

## Main definitions

* `Opcode.isDirect`: entries whose bytes follow the opcode at once, with nothing in front of it.
* `Opcode.hasForm`: entries whose operands are of the kinds that go with their operations.

## Main statements

* `Variant.hasForm_of_mem`: the entries of both tables have these forms.
* `Instruction.src_of_jp`, `Instruction.src_of_jr`, `Instruction.src_of_call`,
  `Instruction.src_of_rst`: where jumps and calls go.
* `Instruction.exists_dst_of_word`, `Instruction.exists_dst_of_input`: where words and input go.
-/

namespace Micro80

/-! ### Entries -/

namespace Opcode

/-- Whether nothing stands in front of the opcode, and the bytes of the source behind it. -/
def isDirect (e : Opcode) : Bool := e.lead == none && !e.indexable && e.dst.size == 0

/-- **Forms.** Whether the operands are of the kinds that go with the operation. -/
def hasForm (e : Opcode) : Bool :=
  match e.operation with
  | .jp => e.src == .hl || e.isDirect && e.src == .address
  | .jr | .djnz => e.isDirect && e.src == .relative
  | .call => e.isDirect && e.src == .address
  | .rst => e.isDirect && e.src == .restart
  | .push => e.src == .pairAF
  | .pop => e.dst == .pairAF
  | .exchangeTop => e.dst == .atSP && e.src == .hl
  | .inc16 | .dec16 => e.dst == .pair
  | .arithmetic16 _ => e.dst == .hl
  | .move16 => [.direct16, .pair, .hl, .sp].contains e.dst
  | .input => e.dst == .accumulator || e.dst == .high && e.registersOnly
  | _ => true

end Opcode

/-- **The entries of both tables have these forms.** -/
theorem Variant.hasForm_of_mem (v : Variant) : ∀ e ∈ v.opcodes, e.hasForm = true := by
  cases v <;> decide

/-- Only relative jumps have relative operands. -/
theorem Variant.relative_of_mem (v : Variant) : ∀ e ∈ v.opcodes, e.dst ≠ .relative ∧
    (e.src = .relative → e.operation = .jr ∨ e.operation = .djnz) := by
  cases v <;> decide

/-- AF is only pushed and popped. -/
theorem Variant.pairAF_of_mem (v : Variant) : ∀ e ∈ v.opcodes,
    (e.dst = .pairAF → e.operation = .pop) ∧ (e.src = .pairAF → e.operation = .push) := by
  cases v <;> decide

/-! ### Operands -/

namespace Encoding

/-- Neither the stack pointer nor the program counter stands in the place of HL. -/
theorem orHL_ne {r : Reg16} (hr : r = .sp ∨ r = .pc) (x : Option Index) : Index.orHL x ≠ r := by
  rintro rfl
  obtain _ | _ | _ := x <;> simp [Index.orHL, Index.register] at hr

/-- They have a code among the pairs only if it is the last one. -/
theorem pairByCode_ne {c : Context} {last r : Reg16} (hr : r = .sp ∨ r = .pc) (h : last ≠ r)
    (code : Fin 4) : c.pairByCode last code ≠ r := by
  unfold Context.pairByCode
  match code with
  | 0 | 1 =>
    rintro rfl
    simp at hr
  | 2 => exact orHL_ne hr _
  | 3 => exact h

/-- No operand is the program counter. -/
theorem operand_ne_pc (e : Encoding) (c : Context) (i : Nat) : e.operand c i ≠ .reg16 .pc := by
  have byCode (code : Fin 8) : c.byCode code ≠ .reg16 .pc := by
    unfold Context.byCode
    split <;> simp
  cases e with
  | high => exact byCode _
  | low => exact byCode _
  | pair => exact fun h => pairByCode_ne (.inr rfl) (by simp) _ (Operand.reg16.inj h)
  | pairAF => exact fun h => pairByCode_ne (.inr rfl) (by simp) _ (Operand.reg16.inj h)
  | hl => exact fun h => orHL_ne (.inr rfl) _ (Operand.reg16.inj h)
  | _ => simp [operand]

/-- Codes other than that of memory are those of registers. -/
theorem exists_byCode_eq (c : Context) {code : Fin 8} (h : (code.val == 6) = false) :
    ∃ r, c.byCode code = .reg8 r := by
  have register : ∀ code : Fin 8, (code.val == 6) = false →
      (Reg8.ofCode? code).isSome = true := by decide
  obtain ⟨r, found⟩ := Option.isSome_iff_exists.1 (register code h)
  refine ⟨r, ?_⟩
  unfold Context.byCode
  rw [found]

end Encoding

/-- An entry without a byte in front of it that takes no index register is found where nothing
stands in front of the opcode. -/
theorem Lead.eq_empty_of_find? {v : Variant} {byte : Nat → UInt8} {lead : Lead}
    (hl : Lead.read? v byte = some lead) {table : List Opcode} {b : UInt8} {e : Opcode}
    (he : Opcode.find? table lead.page lead.index.isSome b = some e) (alone : e.lead = none)
    (unindexed : e.indexable = false) : lead = .empty := by
  have matching := List.find?_some he
  simp only [Opcode.matching, alone, Bool.and_eq_true, beq_iff_eq] at matching
  have noPage : lead.page = none := matching.1.1.symm
  have noIndex : lead.index.isSome = false := by
    cases index : lead.index.isSome with
    | false => rfl
    | true =>
      rw [Instruction.indexable_of_find? he index] at unindexed
      cases unindexed
  obtain ⟨rfl, -⟩ | ⟨rfl, -⟩ | ⟨x, rfl, -⟩ := Lead.read?_cases hl
  · rfl
  · cases noPage
  · cases noIndex

namespace Instruction

/-! ### Decoded instructions -/

section

variable {v : Variant} {m : Memory} {a : UInt16} {i : Instruction} (h : decode v m a = .ok i)

include h

/-- **The entry behind an instruction** and what stands in front of its opcode. -/
theorem exists_entry_of_decode : ∃ lead e, Lead.read? v (m.ahead a) = some lead ∧
    Opcode.find? v.opcodes lead.page lead.index.isSome (m.ahead a lead.size) = some e ∧
    (e.registersOnly && e.selectsMemory (m.ahead a lead.size)) = false ∧ e ∈ v.opcodes ∧
    e.hasForm = true ∧ i = ofEntry e v lead a (m.ahead a) := by
  obtain ⟨lead, e, hl, he, allowed, rfl, -⟩ := decodeWith_eq_ok_iff.1 (decode_eq_ok_iff.1 h)
  have mem : e ∈ v.opcodes := List.mem_of_find?_eq_some he
  exact ⟨lead, e, hl, he, allowed, mem, v.hasForm_of_mem e mem, rfl⟩

/-- No operand is the program counter. -/
theorem ne_pc_of_decode : i.dst ≠ .reg16 .pc ∧ i.src ≠ .reg16 .pc := by
  obtain ⟨lead, e, -, -, -, -, -, rfl⟩ := exists_entry_of_decode h
  exact ⟨e.dst.operand_ne_pc _ _, e.src.operand_ne_pc _ _⟩

/-- **Direct instructions** are decoded from their opcode and the bytes behind it. -/
theorem operands_of_isDirect (direct : i.entry.isDirect = true) :
    ∃ c : Encoding.Context, c.opcode = m.read a ∧ c.start = a ∧ c.byte = m.ahead a ∧
      i.length = 1 + i.entry.src.size ∧ i.src = i.entry.src.operand c 1 := by
  obtain ⟨lead, e, hl, he, -, -, -, rfl⟩ := exists_entry_of_decode h
  replace direct : e.isDirect = true := direct
  simp only [Opcode.isDirect, Bool.and_eq_true, beq_iff_eq, Bool.not_eq_true'] at direct
  obtain ⟨⟨alone, unindexed⟩, flat⟩ := direct
  obtain rfl := Lead.eq_empty_of_find? hl he alone unindexed
  refine ⟨e.context .empty a (m.ahead a), m.ahead_zero a, rfl, rfl, ?_, ?_⟩
  · rw [length_ofEntry, flat]
    rfl
  · rw [e.src_ofEntry, flat]
    rfl

/-- The word behind the opcode of a direct instruction. -/
theorem src_of_isDirect_address (direct : i.entry.isDirect = true)
    (address : i.entry.src = .address) : i.src = .address (m.readWord (a + 1)) := by
  obtain ⟨c, -, -, bytes, -, src⟩ := operands_of_isDirect h direct
  rw [src, address]
  show Operand.address (word (c.byte 2) (c.byte 1)) = _
  have second : m.ahead a 2 = m.read (a + 1 + 1) := congrArg m.read (UInt16.add_assoc a 1 1).symm
  rw [bytes, second]
  rfl

/-- **Jumps** go to where HL or an index register points, or to the word behind the opcode. -/
theorem src_of_jp (operation : i.operation = .jp) :
    i.src = .reg16 (Index.orHL i.index) ∨ i.src = .address (m.readWord (a + 1)) := by
  obtain ⟨lead, e, -, -, -, -, form, rfl⟩ := exists_entry_of_decode h
  replace operation : e.operation = .jp := operation
  simp only [Opcode.hasForm, operation, Bool.or_eq_true, Bool.and_eq_true, beq_iff_eq] at form
  obtain hl | ⟨direct, address⟩ := form
  · left
    rw [e.src_ofEntry, hl]
    rfl
  · exact .inr (src_of_isDirect_address h direct address)

/-- **Relative jumps** go by the distance behind the opcode, counted from the byte after it. -/
theorem src_of_jr (operation : i.operation = .jr ∨ i.operation = .djnz) :
    i.length = 2 ∧ i.src = .relative (displaced (a + 2) (m.read (a + 1)).toInt8)
      (m.read (a + 1)).toInt8 := by
  have form : i.entry.isDirect = true ∧ i.entry.src = .relative := by
    obtain ⟨lead, e, -, -, -, -, form, rfl⟩ := exists_entry_of_decode h
    show e.isDirect = true ∧ e.src = .relative
    replace operation : e.operation = .jr ∨ e.operation = .djnz := operation
    obtain operation | operation := operation
    · simpa [Opcode.hasForm, operation] using form
    · simpa [Opcode.hasForm, operation] using form
  obtain ⟨c, -, start, bytes, length, src⟩ := operands_of_isDirect h form.1
  rw [form.2] at length src
  refine ⟨length, src.trans ?_⟩
  simp only [Encoding.operand, bytes, start]
  rfl

/-- **Calls** go to the word behind the opcode. -/
theorem src_of_call (operation : i.operation = .call) :
    i.src = .address (m.readWord (a + 1)) := by
  have form : i.entry.isDirect = true ∧ i.entry.src = .address := by
    obtain ⟨lead, e, -, -, -, -, form, rfl⟩ := exists_entry_of_decode h
    show e.isDirect = true ∧ e.src = .address
    replace operation : e.operation = .call := operation
    simpa [Opcode.hasForm, operation] using form
  exact src_of_isDirect_address h form.1 form.2

/-- **Restarts** go to an address that is in the opcode. -/
theorem src_of_rst (operation : i.operation = .rst) :
    i.src = .restart (m.read a &&& 0x38).toUInt16 := by
  have form : i.entry.isDirect = true ∧ i.entry.src = .restart := by
    obtain ⟨lead, e, -, -, -, -, form, rfl⟩ := exists_entry_of_decode h
    show e.isDirect = true ∧ e.src = .restart
    replace operation : e.operation = .rst := operation
    simpa [Opcode.hasForm, operation] using form
  obtain ⟨c, opcode, -, -, -, src⟩ := operands_of_isDirect h form.1
  rw [src, form.2, ← opcode]
  rfl

/-- **What is pushed** is in a register. -/
theorem exists_src_of_push (operation : i.operation = .push) : ∃ r, i.src = .reg16 r := by
  obtain ⟨lead, e, -, -, -, -, form, rfl⟩ := exists_entry_of_decode h
  replace operation : e.operation = .push := operation
  simp only [Opcode.hasForm, operation, beq_iff_eq] at form
  rw [e.src_ofEntry, form]
  exact ⟨_, rfl⟩

/-- **What is popped** comes into a register, which is not the stack pointer. -/
theorem exists_dst_of_pop (operation : i.operation = .pop) :
    ∃ r, i.dst = .reg16 r ∧ r ≠ .sp := by
  obtain ⟨lead, e, -, -, -, -, form, rfl⟩ := exists_entry_of_decode h
  replace operation : e.operation = .pop := operation
  simp only [Opcode.hasForm, operation, beq_iff_eq] at form
  rw [e.dst_ofEntry, form]
  exact ⟨_, rfl, Encoding.pairByCode_ne (.inl rfl) (by simp) _⟩

/-- **The top of the stack** is exchanged with HL or with an index register. -/
theorem operands_of_exchangeTop (operation : i.operation = .exchangeTop) :
    i.dst = .stackTop ∧ i.src = .reg16 (Index.orHL i.index) := by
  obtain ⟨lead, e, -, -, -, -, form, rfl⟩ := exists_entry_of_decode h
  replace operation : e.operation = .exchangeTop := operation
  simp only [Opcode.hasForm, operation, Bool.and_eq_true, beq_iff_eq] at form
  rw [e.dst_ofEntry, e.src_ofEntry, form.1, form.2]
  exact ⟨rfl, rfl⟩

/-- **Words that are computed** come into a register. -/
theorem exists_dst_of_word
    (operation : i.operation = .inc16 ∨ i.operation = .dec16 ∨ ∃ k, i.operation = .arithmetic16 k) :
    ∃ r, i.dst = .reg16 r := by
  obtain ⟨lead, e, -, -, -, -, form, rfl⟩ := exists_entry_of_decode h
  replace operation : e.operation = .inc16 ∨ e.operation = .dec16 ∨
    ∃ k, e.operation = .arithmetic16 k := operation
  obtain operation | operation | ⟨k, operation⟩ := operation
  all_goals
    simp only [Opcode.hasForm, operation, beq_iff_eq] at form
    rw [e.dst_ofEntry, form]
    exact ⟨_, rfl⟩

/-- **Words that are moved** come into a register or to an address that is in the instruction. -/
theorem exists_dst_of_move16 (operation : i.operation = .move16) :
    (∃ r, i.dst = .reg16 r) ∨ ∃ n, i.dst = .direct16 n := by
  obtain ⟨lead, e, -, -, -, -, form, rfl⟩ := exists_entry_of_decode h
  replace operation : e.operation = .move16 := operation
  simp only [Opcode.hasForm, operation, List.contains_iff_mem, List.mem_cons, List.not_mem_nil,
    or_false] at form
  rw [e.dst_ofEntry]
  obtain form | form | form | form := form
  · exact .inr ⟨_, congrArg (Encoding.operand · _ _) form⟩
  all_goals exact .inl ⟨_, congrArg (Encoding.operand · _ _) form⟩

/-- **Input** comes into a register. -/
theorem exists_dst_of_input (operation : i.operation = .input) : ∃ r, i.dst = .reg8 r := by
  obtain ⟨lead, e, -, -, allowed, -, form, rfl⟩ := exists_entry_of_decode h
  replace operation : e.operation = .input := operation
  simp only [Opcode.hasForm, operation, Bool.or_eq_true, Bool.and_eq_true, beq_iff_eq] at form
  rw [e.dst_ofEntry]
  obtain implied | ⟨high, registersOnly⟩ := form
  · rw [implied]
    exact ⟨_, rfl⟩
  · -- The code of memory is what the entry excludes.
    rw [registersOnly, Bool.true_and, Opcode.selectsMemory, Bool.or_eq_false_iff, high] at allowed
    rw [high]
    exact Encoding.exists_byCode_eq _ allowed.1

end

end Instruction

end Micro80
