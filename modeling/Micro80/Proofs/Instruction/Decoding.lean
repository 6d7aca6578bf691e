import Micro80.Instruction.Decode

/-!
# What decoding depends on

Decoding takes its decisions from the lead and the opcode byte. The bytes after the opcode fill in
operands, but they never decide whether there is an instruction. So the verdict on the bytes at an
address is a function of the lead and the opcode, and a finite table of verdicts says everything.

## Main definitions

* `Operand.shape`: an operand without what the bytes after the opcode say.
* `Instruction.verdict`: what is wrong with an outcome of decoding.
* `Instruction.judge`: the verdict on a lead and an opcode.

## Main statements

* `Instruction.decodeWith_eq_ok_iff`: what it means that decoding succeeds.
* `Instruction.verdict_decodeWith`: the verdict depends on the lead and the opcode only.
-/

namespace Micro80

namespace Memory

@[simp] theorem ahead_zero (m : Memory) (a : UInt16) : m.ahead a 0 = m.read a := by
  simp [ahead]

@[simp] theorem ahead_one (m : Memory) (a : UInt16) : m.ahead a 1 = m.read (a + 1) := rfl

end Memory

/-! ### Leads -/

/-- The byte that selects an index register is its lead. -/
theorem Index.eq_lead_of_ofLead? {b : UInt8} {x : Index} (h : ofLead? b = some x) :
    b = x.lead := by
  unfold ofLead? at h
  split at h
  · cases h
    assumption
  · split at h
    · cases h
      assumption
    · cases h

namespace Lead

@[simp] theorem read?_i8085 (byte : Nat → UInt8) : read? .i8085 byte = some empty := rfl

/-- **What stands in front of an opcode**: nothing, a byte that selects other entries, or one that
selects an index register. -/
theorem read?_cases {v : Variant} {byte : Nat → UInt8} {lead : Lead}
    (h : read? v byte = some lead) :
    (lead = empty ∧ (v = .z80 → Index.ofLead? (byte 0) = none))
      ∨ (lead = ⟨none, some (byte 0), 1⟩ ∧ Index.ofLead? (byte 0) = none)
      ∨ ∃ x, lead = ⟨some x, none, 1⟩ ∧ Index.ofLead? (byte 0) = some x := by
  cases v with
  | i8085 => exact .inl ⟨(Option.some.inj h).symm, nofun⟩
  | z80 =>
    simp only [read?] at h
    split at h
    · rename_i noIndex
      split at h
      · exact .inr (.inl ⟨(Option.some.inj h).symm, noIndex⟩)
      · exact .inl ⟨(Option.some.inj h).symm, fun _ => noIndex⟩
    · rename_i x selected
      split at h
      · cases h
      · exact .inr (.inr ⟨x, (Option.some.inj h).symm, selected⟩)

/-- At most one byte stands in front of an opcode. -/
theorem size_le_one {v : Variant} {byte : Nat → UInt8} {lead : Lead}
    (h : read? v byte = some lead) : lead.size ≤ 1 := by
  obtain ⟨rfl, -⟩ | ⟨rfl, -⟩ | ⟨x, rfl, -⟩ := read?_cases h
  · exact Nat.zero_le 1
  · exact Nat.le_refl 1
  · exact Nat.le_refl 1

/-- Without a byte that has a meaning of its own in front, an instruction begins with its opcode. -/
theorem read?_of_plain {v : Variant} {byte : Nat → UInt8} (noIndex : Index.ofLead? (byte 0) = none)
    (noPage : isPage (byte 0) = false) : read? v byte = some empty := by
  cases v with
  | i8085 => rfl
  | z80 => simp [read?, noIndex, noPage]

end Lead

/-! ### Shapes of operands -/

namespace Operand

/-- **Shapes.** An operand without the numbers that come from bytes after the opcode. -/
def shape : Operand → Operand
  | imm8 _ => imm8 0
  | imm16 _ => imm16 0
  | indexed x _ => indexed x 0
  | direct _ => direct 0
  | direct16 _ => direct16 0
  | address _ => address 0
  | relative .. => relative 0 0
  | port _ => port 0
  | o => o

@[simp] theorem isMemory_shape (o : Operand) : o.shape.isMemory = o.isMemory := by
  cases o <;> rfl

@[simp] theorem isIndexed_shape (o : Operand) : o.shape.isIndexed = o.isIndexed := by
  cases o <;> rfl

@[simp] theorem usesIndex_shape (o : Operand) : o.shape.usesIndex = o.usesIndex := by
  cases o <;> rfl

@[simp] theorem isHalfOfHL_shape (o : Operand) : o.shape.isHalfOfHL = o.isHalfOfHL := by
  cases o <;> rfl

end Operand

namespace Encoding

theorem shape_byCode {c d : Context} (index : c.index = d.index) (code : Fin 8) :
    (c.byCode code).shape = (d.byCode code).shape := by
  unfold Context.byCode
  rw [index]
  cases Reg8.ofCode? code with
  | some r => rfl
  | none => cases d.index <;> rfl

theorem pairByCode_congr {c d : Context} (index : c.index = d.index) (last : Reg16)
    (code : Fin 4) : c.pairByCode last code = d.pairByCode last code := by
  unfold Context.pairByCode
  rw [index]

/-- The opcode and the index register settle the shape of an operand. -/
theorem shape_operand (e : Encoding) {c d : Context} (opcode : c.opcode = d.opcode)
    (index : c.index = d.index) (i j : Nat) :
    (e.operand c i).shape = (e.operand d j).shape := by
  unfold operand
  cases e with
  | high =>
    rw [opcode]
    exact shape_byCode index _
  | low =>
    rw [opcode]
    exact shape_byCode index _
  | pair => rw [opcode, pairByCode_congr index]
  | pairAF => rw [opcode, pairByCode_congr index (.pair .af)]
  | hl => rw [index]
  | condition | shortCondition | restart | bit => rw [opcode]
  | imm16 | direct8 | direct16 | address | relative => simp only [Operand.shape]
  | _ => rfl

end Encoding

namespace Instruction

/-! ### Decoding that succeeds -/

/-- **Decoding by a table succeeds** with the instruction of the entry that decides, if the entry
allows the operands and the instruction has no defect. -/
theorem decodeWith_eq_ok_iff {table : List Opcode} {v : Variant} {a : UInt16} {byte : Nat → UInt8}
    {i : Instruction} :
    decodeWith table v a byte = .ok i ↔
      ∃ lead entry, Lead.read? v byte = some lead
        ∧ Opcode.find? table lead.page lead.index.isSome (byte lead.size) = some entry
        ∧ (entry.registersOnly && entry.selectsMemory (byte lead.size)) = false
        ∧ i = ofEntry entry v lead a byte ∧ i.defect? = none := by
  unfold decodeWith
  constructor
  · intro h
    -- Each test on the way has gone the one way that does not end in an error.
    split at h
    · cases h
    · rename_i lead hlead
      split at h
      · cases h
      · rename_i entry hentry
        split at h
        · cases h
        · rename_i allowed
          simp only at h
          split at h
          · cases h
          · rename_i sound
            cases h
            exact ⟨lead, entry, hlead, hentry, Bool.eq_false_iff.2 allowed, rfl, sound⟩
  · rintro ⟨lead, entry, hlead, hentry, allowed, rfl, sound⟩
    simp [hlead, hentry, allowed, sound]

/-- A processor decodes an instruction by its own table. -/
theorem decode_eq_ok_iff {v : Variant} {m : Memory} {a : UInt16} {i : Instruction} :
    decode v m a = .ok i ↔ decodeOwn v m a = .ok i := by
  unfold decode
  split
  · rename_i h
    rw [h]
    split <;> simp
  · rfl

/-- An instruction that is decoded can be told by what is known of it. -/
theorem exists_decode_of_map {α : Type} {v : Variant} {m : Memory} {a : UInt16}
    {f : Instruction → α} {y : α} (h : (decode v m a).toOption.map f = some y) :
    ∃ i, decode v m a = .ok i ∧ f i = y := by
  cases decoded : decode v m a with
  | error e =>
    rw [decoded] at h
    cases h
  | ok i =>
    rw [decoded] at h
    exact ⟨i, rfl, Option.some.inj h⟩

/-! ### Verdicts -/

/-- **Verdicts.** What is wrong with an outcome of decoding, if anything is. -/
def verdict : Except DecodeError Instruction → Option DecodeError
  | .ok _ => none
  | .error e => some e

theorem verdict_eq_none_iff {r : Except DecodeError Instruction} :
    verdict r = none ↔ ∃ i, r = .ok i := by
  cases r <;> simp [verdict]

theorem verdict_eq_some_iff {r : Except DecodeError Instruction} {e : DecodeError} :
    verdict r = some e ↔ r = .error e := by
  cases r <;> simp [verdict]

/-- **Judging** a lead and an opcode. The bytes after the opcode do not matter, so all of them may
as well be the opcode itself. -/
def judge (table : List Opcode) (v : Variant) (lead : Lead) (opcode : UInt8) :
    Option DecodeError :=
  match Opcode.find? table lead.page lead.index.isSome opcode with
  | none => some .illegalOpcode
  | some entry =>
    if entry.registersOnly && entry.selectsMemory opcode then some .illegalOpcode
    else (ofEntry entry v lead 0 fun _ => opcode).defect?

/-- A defect shows in the operation, the length, the index register and the shapes of the
operands. -/
theorem defect?_congr {i j : Instruction} (operation : i.operation = j.operation)
    (length : i.length = j.length) (index : i.index = j.index) (dst : i.dst.shape = j.dst.shape)
    (src : i.src.shape = j.src.shape) : i.defect? = j.defect? := by
  unfold defect? usesIndexWell
  rw [operation, length, index, ← i.dst.isMemory_shape, ← i.src.isMemory_shape,
    ← i.dst.usesIndex_shape, ← i.src.usesIndex_shape, ← i.dst.isHalfOfHL_shape,
    ← i.src.isHalfOfHL_shape, ← i.dst.isIndexed_shape, ← i.src.isIndexed_shape, dst, src]
  simp only [Operand.isMemory_shape, Operand.usesIndex_shape, Operand.isHalfOfHL_shape,
    Operand.isIndexed_shape]

/-- The length of an instruction: the bytes in front of the opcode, the opcode, a distance from an
index register if there is one, and the bytes of the operands. -/
theorem length_ofEntry (entry : Opcode) (v : Variant) (lead : Lead) (a : UInt16)
    (byte : Nat → UInt8) :
    (ofEntry entry v lead a byte).length
      = lead.size + 1 + (lead.index.isSome && entry.selectsMemory (byte lead.size)).toNat
        + entry.dst.size + entry.src.size := by
  simp only [length, ofEntry, List.length_map, List.length_range]

/-- The opcode settles whether an instruction of an entry has a defect. -/
theorem defect?_ofEntry (entry : Opcode) (v : Variant) (lead : Lead) (a a' : UInt16)
    (byte byte' : Nat → UInt8) (h : byte lead.size = byte' lead.size) :
    (ofEntry entry v lead a byte).defect? = (ofEntry entry v lead a' byte').defect? := by
  apply defect?_congr
  · rfl
  · rw [length_ofEntry, length_ofEntry, h]
  · rfl
  · unfold ofEntry
    exact entry.dst.shape_operand (by exact h) (by rfl) _ _
  · unfold ofEntry
    exact entry.src.shape_operand (by exact h) (by rfl) _ _

/-- **The verdict on bytes** is that on their lead and their opcode. -/
theorem verdict_decodeWith (table : List Opcode) (v : Variant) (a : UInt16) (byte : Nat → UInt8) :
    verdict (decodeWith table v a byte)
      = match Lead.read? v byte with
        | none => some .illegalOpcode
        | some lead => judge table v lead (byte lead.size) := by
  unfold decodeWith judge
  cases Lead.read? v byte with
  | none => rfl
  | some lead =>
    simp only
    cases Opcode.find? table lead.page lead.index.isSome (byte lead.size) with
    | none => rfl
    | some entry =>
      -- The bytes after the opcode, and the address, may be replaced by any others.
      have same := defect?_ofEntry entry v lead a 0 byte (fun _ => byte lead.size) rfl
      simp only
      rw [← same]
      split
      · rfl
      · cases (ofEntry entry v lead a byte).defect? <;> rfl

/-- Decoding for a processor fails as its own table does, but where its table has no entry the
verdict tells whether the other processor has one. -/
theorem verdict_decode (v : Variant) (m : Memory) (a : UInt16) :
    verdict (decode v m a)
      = if verdict (decodeOwn v m a) = some .illegalOpcode then
          if verdict (decodeOwn v.other m a) = none then some .wrongVariant
          else some .illegalOpcode
        else verdict (decodeOwn v m a) := by
  unfold decode
  split
  · rename_i h
    rw [h]
    cases decodeOwn v.other m a <;> rfl
  · rename_i h
    rw [if_neg fun e => h (verdict_eq_some_iff.1 e)]

end Instruction

end Micro80
