import Micro80.Proofs.Instruction.Acceptance
import Micro80.Proofs.Instruction.Assembly
import Micro80.Proofs.Instruction.Soundness

/-!
# Decoding by any table

Whatever the entries of a table are, the first one that stands for the bytes decides, and the
entries after it do not matter. What is decoded by a table is sound even if the table is not: the
tests after the entry has been found see to it.

A byte for an index register is followed by the opcode. If a byte follows that is itself read in
front of an opcode, no entry is looked for, and so none is found.

## Main definitions

* `Lead.IsAt`: what stands in front of an opcode.
* `Opcode.Stands`, `Opcode.IsFirst`: the entries that stand for an opcode, and the first of them.
* `Opcode.HasEntry`: whether a table has an entry for the bytes at an address.
* `Opcode.outcome`: decoding by a single entry.
* `Instruction.IsSoundFor`: what is guaranteed of the instruction of an entry.

## Main statements

* `Instruction.decodeWith_eq_outcome`: the first entry decides.
* `Instruction.decodeWith_append_of_hasEntry`, `Instruction.decodeWith_append_of_not_hasEntry`:
  decoding by two tables, one after the other.
* `Instruction.isSoundFor_of_decodeWith`: what is decoded is sound.
-/

namespace Micro80

/-! ### Leads -/

namespace Lead

/-- **What stands in front of an opcode.** On the 8085 nothing. On the Z80 nothing, a byte that
selects other entries, or a byte that selects an index register, if the byte after it is an
opcode. -/
inductive IsAt (byte : Nat → UInt8) : Variant → Lead → Prop where
  /-- The 8085 begins with the opcode. -/
  | missing : IsAt byte .i8085 empty
  /-- The first byte is the opcode. -/
  | plain (h : byte 0 ∉ Z80.leads) : IsAt byte .z80 empty
  /-- The first byte selects other entries. -/
  | page (h : byte 0 = 0xCB ∨ byte 0 = 0xED) : IsAt byte .z80 ⟨none, some (byte 0), 1⟩
  /-- The first byte selects an index register. -/
  | index (x : Index) (h : byte 0 = x.lead) (opcode : byte 1 ∉ Z80.leads) :
    IsAt byte .z80 ⟨some x, none, 1⟩

theorem mem_leads_iff {b : UInt8} :
    b ∈ Z80.leads ↔ isPage b = true ∨ (Index.ofLead? b).isSome = true := by
  have all : ∀ b : UInt8, b ∈ Z80.leads ↔ isPage b = true ∨ (Index.ofLead? b).isSome = true :=
    forall_byte (by decide +kernel)
  exact all b

/-- **Leads are read** as they stand. -/
theorem read?_eq_some_iff {v : Variant} {byte : Nat → UInt8} {lead : Lead} :
    read? v byte = some lead ↔ IsAt byte v lead := by
  constructor
  · intro h
    cases v with
    | i8085 =>
      cases h
      exact .missing
    | z80 =>
      rw [read?] at h
      split at h
      · rename_i noIndex
        split at h
        · rename_i page
          cases h
          exact .page (eq_of_isPage page)
        · rename_i noPage
          cases h
          exact .plain (Z80.notMem_leads noIndex (Bool.eq_false_iff.2 noPage))
      · rename_i x selected
        split at h
        · cases h
        · rename_i opcode
          cases h
          rw [Bool.or_eq_true, ← mem_leads_iff] at opcode
          exact .index x (Index.eq_lead_of_ofLead? selected) opcode
  · intro h
    cases h with
    | missing => rfl
    | plain h =>
      rw [mem_leads_iff, not_or, Bool.not_eq_true, Bool.not_eq_true, Option.isSome_eq_false_iff,
        Option.isNone_iff_eq_none] at h
      exact read?_of_plain h.2 h.1
    | page h =>
      rcases h with bits | extended
      · rw [read?, bits]
        rfl
      · rw [read?, extended]
        rfl
    | index x h opcode =>
      rw [mem_leads_iff, ← Bool.or_eq_true] at opcode
      rw [read?, h, Index.ofLead?_lead]
      exact if_neg opcode

/-- **Where nothing is read.** After a byte for an index register another byte that stands in front
of opcodes has no meaning. -/
theorem not_isAt_of_mem_leads {v : Variant} {byte : Nat → UInt8} {x : Index} (z80 : v = .z80)
    (first : byte 0 = x.lead) (second : byte 1 ∈ Z80.leads) (lead : Lead) : ¬IsAt byte v lead := by
  subst z80
  rintro (_ | h | h | ⟨y, _, opcode⟩)
  · exact h (first ▸ by cases x <;> decide)
  · rw [first] at h
    revert h
    cases x <;> decide
  · exact opcode second

end Lead

/-! ### Entries -/

namespace Opcode

/-- **Standing for an opcode.** An entry stands for an opcode after a lead if it wants the byte that
selects other entries, agrees with the opcode in the bits of its mask, and lets an index register
take the place of HL if the lead asks for it. -/
structure Stands (e : Opcode) (lead : Lead) (opcode : UInt8) : Prop where
  page : e.lead = lead.page
  code : opcode &&& e.mask = e.code
  indexable : lead.index.isSome = true → e.indexable = true

theorem matching_iff {e : Opcode} {lead : Lead} {opcode : UInt8} :
    e.matching lead.page lead.index.isSome opcode = true ↔ e.Stands lead opcode := by
  simp only [matching, Bool.and_eq_true, beq_iff_eq, Bool.or_eq_true, Bool.not_eq_true',
    ← Bool.not_eq_true, ← Decidable.imp_iff_not_or]
  constructor
  · rintro ⟨⟨page, code⟩, indexable⟩
    exact ⟨page, code, indexable⟩
  · rintro ⟨page, code, indexable⟩
    exact ⟨⟨page, code⟩, indexable⟩

/-- **The first entry** of a table that stands for an opcode. -/
structure IsFirst (table : List Opcode) (lead : Lead) (opcode : UInt8) (e : Opcode) : Prop where
  stands : e.Stands lead opcode
  split : ∃ before after, table = before ++ e :: after ∧ ∀ e' ∈ before, ¬e'.Stands lead opcode

theorem IsFirst.mem {table : List Opcode} {lead : Lead} {opcode : UInt8} {e : Opcode}
    (h : IsFirst table lead opcode e) : e ∈ table := by
  obtain ⟨before, after, rfl, -⟩ := h.split
  exact List.mem_append_right before List.mem_cons_self

/-- Looking for an entry finds the first one. -/
theorem find?_eq_some_iff {table : List Opcode} {lead : Lead} {opcode : UInt8} {e : Opcode} :
    find? table lead.page lead.index.isSome opcode = some e ↔ IsFirst table lead opcode e := by
  rw [find?, List.find?_eq_some_iff_append]
  simp only [Bool.not_eq_true', ← Bool.not_eq_true, matching_iff]
  constructor
  · rintro ⟨stands, split⟩
    exact ⟨stands, split⟩
  · rintro ⟨stands, split⟩
    exact ⟨stands, split⟩

theorem find?_eq_none_iff {table : List Opcode} {lead : Lead} {opcode : UInt8} :
    find? table lead.page lead.index.isSome opcode = none ↔
      ∀ e ∈ table, ¬e.Stands lead opcode := by
  rw [find?, List.find?_eq_none]
  simp only [matching_iff]

/-- **Having an entry.** A table has an entry for some bytes if one of its entries stands for the
opcode after what stands in front of it. -/
def HasEntry (table : List Opcode) (v : Variant) (byte : Nat → UInt8) : Prop :=
  ∃ lead, Lead.IsAt byte v lead ∧ ∃ e ∈ table, e.Stands lead (byte lead.size)

/-- **Fitting.** Whatever opcode an entry stands for, the instruction is short enough. Where the
entry wants registers and is given memory, there is no instruction. -/
def Fits (e : Opcode) (v : Variant) : Prop :=
  ∀ (a : UInt16) (byte : Nat → UInt8) (lead : Lead), Lead.IsAt byte v lead →
    e.Stands lead (byte lead.size) →
      (e.registersOnly && e.selectsMemory (byte lead.size)) = false →
        (Instruction.ofEntry e v lead a byte).length ≤ Instruction.maxLength

/-- Sound entries fit. -/
theorem IsSound.fits {e : Opcode} (sound : e.IsSound) (v : Variant) : e.Fits v :=
  fun a byte _ before stands _ =>
    Instruction.length_ofEntry_le sound (Lead.size_le_one (Lead.read?_eq_some_iff.2 before))
      stands.indexable v a byte

/-- **Decoding by a single entry,** when it is known what stands in front of the opcode. Where the
entry wants registers, memory is excluded; nothing is moved from memory to memory; and an index
register has to be used. -/
def outcome (e : Opcode) (v : Variant) (lead : Lead) (a : UInt16) (byte : Nat → UInt8) :
    Except DecodeError Instruction :=
  let i := Instruction.ofEntry e v lead a byte
  if e.registersOnly && e.selectsMemory (byte lead.size) then .error .illegalOpcode
  else if i.operation = .move ∧ i.dst.isMemory ∧ i.src.isMemory then .error .memoryToMemory
  else if i.index.isSome ∧ !i.usesIndexWell then .error .illegalOpcode
  else .ok i

end Opcode

namespace Instruction

variable {table others : List Opcode} {v : Variant} {a : UInt16} {byte : Nat → UInt8}

/-! ### The first entry decides -/

/-- Without an entry none is found. -/
theorem find?_of_not_hasEntry (h : ¬Opcode.HasEntry table v byte) {lead : Lead}
    (hl : Lead.read? v byte = some lead) :
    Opcode.find? table lead.page lead.index.isSome (byte lead.size) = none :=
  Opcode.find?_eq_none_iff.2 fun e mem stands =>
    h ⟨lead, Lead.read?_eq_some_iff.1 hl, e, mem, stands⟩

theorem decodeWith_of_not_hasEntry (h : ¬Opcode.HasEntry table v byte) :
    decodeWith table v a byte = .error .illegalOpcode := by
  unfold decodeWith
  cases hl : Lead.read? v byte with
  | none => rfl
  | some lead => simp only [find?_of_not_hasEntry h hl]

/-- A table that has an entry has a first one. -/
theorem exists_isFirst (h : Opcode.HasEntry table v byte) :
    ∃ lead e, Lead.IsAt byte v lead ∧ Opcode.IsFirst table lead (byte lead.size) e := by
  obtain ⟨lead, before, e, mem, stands⟩ := h
  cases found : Opcode.find? table lead.page lead.index.isSome (byte lead.size) with
  | none => exact absurd stands (Opcode.find?_eq_none_iff.1 found e mem)
  | some e' => exact ⟨lead, e', before, Opcode.find?_eq_some_iff.1 found⟩

/-- **The first entry decides.** -/
theorem decodeWith_eq_outcome {lead : Lead} {e : Opcode} (fits : e.Fits v)
    (before : Lead.IsAt byte v lead) (first : Opcode.IsFirst table lead (byte lead.size) e) :
    decodeWith table v a byte = e.outcome v lead a byte := by
  unfold decodeWith Opcode.outcome
  simp only [Lead.read?_eq_some_iff.2 before, Opcode.find?_eq_some_iff.2 first]
  split
  · rfl
  · rename_i allowed
    have short := fits a byte lead before first.stands (Bool.eq_false_iff.2 allowed)
    generalize ofEntry e v lead a byte = i at short ⊢
    rw [defect?, if_neg (Nat.not_lt.2 short)]
    by_cases moves : i.operation = .move ∧ i.dst.isMemory ∧ i.src.isMemory
    · rw [if_pos moves, if_pos moves]
    · rw [if_neg moves, if_neg moves]
      by_cases unused : i.index.isSome ∧ !i.usesIndexWell
      · rw [if_pos unused, if_pos unused]
      · rw [if_neg unused, if_neg unused]

/-! ### Two tables -/

/-- **Entries of a second table** do not matter where the first one has an entry. -/
theorem decodeWith_append_of_hasEntry (h : Opcode.HasEntry table v byte) :
    decodeWith (table ++ others) v a byte = decodeWith table v a byte := by
  obtain ⟨lead, e, before, first⟩ := exists_isFirst h
  have found := Opcode.find?_eq_some_iff.2 first
  unfold decodeWith
  simp only [Lead.read?_eq_some_iff.2 before, Opcode.find?_append, found, Option.some_or]

/-- **Entries of a first table** do not matter where it has none. -/
theorem decodeWith_append_of_not_hasEntry (h : ¬Opcode.HasEntry table v byte) :
    decodeWith (table ++ others) v a byte = decodeWith others v a byte := by
  unfold decodeWith
  cases hl : Lead.read? v byte with
  | none => rfl
  | some lead => simp only [Opcode.find?_append, find?_of_not_hasEntry h hl, Option.none_or]

/-! ### Soundness -/

/-- **What is guaranteed** of an instruction that an entry makes of an opcode after a lead. It does
what the entry says and moves nothing from memory to memory. If the entry wants registers, no field
of the opcode that names an operand has the code of memory. If there is an index register, an
operand is or uses it, and beside a half of HL the other operand is a byte to which it points. -/
structure IsSoundFor (i : Instruction) (e : Opcode) (lead : Lead) (opcode : UInt8) : Prop where
  entry : i.entry = e
  operation : i.operation = e.operation
  not_memoryMove : ¬(i.operation = .move ∧ i.dst.isMemory = true ∧ i.src.isMemory = true)
  high_ne : e.registersOnly = true → e.dst = .high ∨ e.src = .high → (Field.high opcode).val ≠ 6
  low_ne : e.registersOnly = true → e.dst = .low ∨ e.src = .low → (Field.low opcode).val ≠ 6
  index : i.index = lead.index
  usesIndex : ∀ x, lead.index = some x → i.dst.index? = some x ∨ i.src.index? = some x
  dst_half : lead.index.isSome = true → i.dst.isHalfOfHL = true → i.src.isIndexed = true
  src_half : lead.index.isSome = true → i.src.isHalfOfHL = true → i.dst.isIndexed = true

/-- A move from memory to memory would be a defect. -/
theorem not_memoryMove_of_defect? {i : Instruction} (sound : i.defect? = none) :
    ¬(i.operation = .move ∧ i.dst.isMemory = true ∧ i.src.isMemory = true) := by
  intro moves
  rw [defect?, if_pos moves] at sound
  split at sound
  · cases sound
  · cases sound

/-- A field that does not select memory has another code. -/
theorem field_ne_of_selectsMemory {n : Encoding} {opcode : UInt8}
    (h : n.selectsMemory opcode = false) :
    (n = .high → (Field.high opcode).val ≠ 6) ∧ (n = .low → (Field.low opcode).val ≠ 6) := by
  constructor
  · rintro rfl
    exact beq_eq_false_iff_ne.1 h
  · rintro rfl
    exact beq_eq_false_iff_ne.1 h

/-- A half of HL is no byte in memory. -/
theorem isIndexed_of_isHalfOfHL {o : Operand} (h : o.isHalfOfHL = true) : o.isIndexed = false := by
  cases o with
  | reg8 r => rfl
  | _ => cases h

/-- Beside a half of HL the other operand is a byte to which the index register points. -/
theorem isIndexed_of_usesIndexWell {i : Instruction} (well : i.usesIndexWell = true) :
    (i.dst.isHalfOfHL = true → i.src.isIndexed = true) ∧
      (i.src.isHalfOfHL = true → i.dst.isIndexed = true) := by
  simp only [usesIndexWell, Bool.and_eq_true, Bool.or_eq_true, Bool.not_eq_true',
    Bool.or_eq_false_iff] at well
  obtain ⟨-, (⟨noDst, noSrc⟩ | dst) | src⟩ := well
  · exact ⟨fun half => absurd (noDst.symm.trans half) Bool.false_ne_true,
      fun half => absurd (noSrc.symm.trans half) Bool.false_ne_true⟩
  · exact ⟨fun half => absurd ((isIndexed_of_isHalfOfHL half).symm.trans dst) Bool.false_ne_true,
      fun _ => dst⟩
  · exact ⟨fun _ => src,
      fun half => absurd ((isIndexed_of_isHalfOfHL half).symm.trans src) Bool.false_ne_true⟩

/-- An operand that is or uses an index register is or uses that of the instruction. -/
theorem index?_of_usesIndexWell {e : Opcode} {lead : Lead} {x : Index} (index : lead.index = some x)
    (well : (ofEntry e v lead a byte).usesIndexWell = true) :
    (ofEntry e v lead a byte).dst.index? = some x ∨
      (ofEntry e v lead a byte).src.index? = some x := by
  have own (o : Operand) (h : o.index? = none ∨ o.index? = lead.index) (uses : o.usesIndex = true) :
      o.index? = some x := by
    rw [Operand.usesIndex_eq] at uses
    rcases h with none | same
    · rw [none] at uses
      cases uses
    · rw [same, index]
  have used := (Bool.and_eq_true_iff.1 well).1
  rw [Bool.or_eq_true] at used
  exact used.imp (own _ (e.dst.index?_operand _ _)) (own _ (e.src.index?_operand _ _))

/-- **What is decoded by a table is sound,** and the first entry that stands for it made it. -/
theorem isSoundFor_of_decodeWith {i : Instruction} (h : decodeWith table v a byte = .ok i) :
    ∃ lead e, Lead.IsAt byte v lead ∧ Opcode.IsFirst table lead (byte lead.size) e ∧
      i.IsSoundFor e lead (byte lead.size) := by
  obtain ⟨lead, e, hl, he, allowed, rfl, sound⟩ := decodeWith_eq_ok_iff.1 h
  refine ⟨lead, e, Lead.read?_eq_some_iff.1 hl, Opcode.find?_eq_some_iff.1 he, ?_⟩
  have registers (only : e.registersOnly = true) :
      e.dst.selectsMemory (byte lead.size) = false ∧
        e.src.selectsMemory (byte lead.size) = false := by
    rw [only, Bool.true_and] at allowed
    exact Bool.or_eq_false_iff.1 allowed
  have well (indexed : lead.index.isSome = true) := usesIndexWell_of_defect? sound indexed
  exact
    { entry := rfl
      operation := rfl
      not_memoryMove := not_memoryMove_of_defect? sound
      high_ne := fun only either => either.elim (field_ne_of_selectsMemory (registers only).1).1
        (field_ne_of_selectsMemory (registers only).2).1
      low_ne := fun only either => either.elim (field_ne_of_selectsMemory (registers only).1).2
        (field_ne_of_selectsMemory (registers only).2).2
      index := rfl
      usesIndex := fun x index => index?_of_usesIndexWell index (well (index ▸ rfl))
      dst_half := fun indexed => (isIndexed_of_usesIndexWell (well indexed)).1
      src_half := fun indexed => (isIndexed_of_usesIndexWell (well indexed)).2 }

/-- **The first entry decides, for every table.** Let the instructions of a table be short enough.
Where the table has an entry for the bytes at an address, decoding is left to the first one that
stands for them, and further tables do not matter. Where it has none, there is no such instruction,
and a further table decides alone. There is none in particular where a byte for an index register is
followed by another byte that stands in front of opcodes. What is decoded is sound. -/
theorem decode_by_first_match (table others : List Opcode) (v : Variant) (m : Memory) (a : UInt16)
    (fits : ∀ e ∈ table, e.Fits v) :
    (Opcode.HasEntry table v (m.ahead a) →
      (∃ lead e, Lead.IsAt (m.ahead a) v lead ∧
        Opcode.IsFirst table lead (m.ahead a lead.size) e ∧
          decodeWith table v a (m.ahead a) = e.outcome v lead a (m.ahead a)) ∧
      decodeWith (table ++ others) v a (m.ahead a) = decodeWith table v a (m.ahead a)) ∧
    (¬Opcode.HasEntry table v (m.ahead a) →
      decodeWith table v a (m.ahead a) = .error .illegalOpcode ∧
      decodeWith (table ++ others) v a (m.ahead a) = decodeWith others v a (m.ahead a)) ∧
    (v = .z80 → ∀ x : Index, m.read a = x.lead → m.read (a + 1) ∈ Z80.leads →
      ¬Opcode.HasEntry table v (m.ahead a)) ∧
    ∀ i, decodeWith table v a (m.ahead a) = .ok i →
      ∃ lead e, Lead.IsAt (m.ahead a) v lead ∧
        Opcode.IsFirst table lead (m.ahead a lead.size) e ∧
          i.IsSoundFor e lead (m.ahead a lead.size) := by
  refine ⟨fun has => ⟨?_, decodeWith_append_of_hasEntry has⟩, fun has => ⟨?_, ?_⟩, ?_, fun i => ?_⟩
  · obtain ⟨lead, e, before, first⟩ := exists_isFirst has
    exact ⟨lead, e, before, first, decodeWith_eq_outcome (fits e first.mem) before first⟩
  · exact decodeWith_of_not_hasEntry has
  · exact decodeWith_append_of_not_hasEntry has
  · rintro z80 x first second ⟨lead, before, -⟩
    rw [← m.ahead_zero] at first
    rw [← m.ahead_one] at second
    exact Lead.not_isAt_of_mem_leads z80 first second lead before
  · exact isSoundFor_of_decodeWith

/-- The load of half of HL from a distance of five, `DD 66 05`. -/
def halfLoad : Memory := ((Memory.blank.write 0 0xDD).write 1 0x66).write 2 0x05

/-- By the table of the Z80 a half of HL is loaded from a byte to which IX points, and the table of
the 8085 after it does not matter. -/
theorem decode_by_first_match_halfLoad :
    (∀ e ∈ Z80.opcodes, e.Fits .z80) ∧
      decodeWith (Z80.opcodes ++ I8085.opcodes) .z80 0 (halfLoad.ahead 0) =
        decodeWith Z80.opcodes .z80 0 (halfLoad.ahead 0) ∧
      ∃ i, decodeWith Z80.opcodes .z80 0 (halfLoad.ahead 0) = .ok i ∧
        i.dst.isHalfOfHL = true ∧ i.src.isIndexed = true := by
  have fits : ∀ e ∈ Z80.opcodes, e.Fits .z80 :=
    fun e mem => (Variant.isSound_of_mem .z80 e mem).fits .z80
  obtain ⟨decides, -, -, sound⟩ :=
    decode_by_first_match Z80.opcodes I8085.opcodes .z80 halfLoad 0 fits
  have known : (decodeWith Z80.opcodes .z80 0 (halfLoad.ahead 0)).toOption.map
      (fun i => (i.index.isSome, i.dst.isHalfOfHL)) = some (true, true) := by
    decide +kernel
  cases decoded : decodeWith Z80.opcodes .z80 0 (halfLoad.ahead 0) with
  | error e =>
    rw [decoded] at known
    cases known
  | ok i =>
    rw [decoded] at known
    obtain ⟨indexed, half⟩ := Prod.mk.inj (Option.some.inj known)
    obtain ⟨lead, e, before, first, guaranteed⟩ := sound i decoded
    have same := (decides ⟨lead, before, e, first.mem, first.stands⟩).2
    rw [guaranteed.index] at indexed
    exact ⟨fits, same.trans decoded, i, rfl, half, guaranteed.dst_half indexed half⟩

/-- An entry that wants a byte which selects other entries and lets an index register take the place
of HL. -/
def ledIncrement : Opcode where
  name := .ascii "INC\t%D"
  lead := some 0xCB
  code := 0x23
  mask := 0xFF
  operation := .inc16
  dst := .hl
  src := .absent
  indexable := true
  registersOnly := false

/-- The bytes `DD CB 23`. -/
def twoLeads : Memory := ((Memory.blank.write 0 0xDD).write 1 0xCB).write 2 0x23

/-- **Two bytes in front of an opcode.** The entry agrees with all three bytes, and by itself it
would make an increment of IX of them. But it does not decide: there is no such instruction. -/
theorem not_first_match_twoLeads :
    ledIncrement.Fits .z80 ∧ twoLeads.ahead 0 0 = Index.ix.lead ∧ twoLeads.ahead 0 1 = 0xCB ∧
      ledIncrement.Stands ⟨some .ix, some 0xCB, 2⟩ (twoLeads.ahead 0 2) ∧
      (∃ i, ledIncrement.outcome .z80 ⟨some .ix, some 0xCB, 2⟩ 0 (twoLeads.ahead 0) = .ok i) ∧
      decodeWith [ledIncrement] .z80 0 (twoLeads.ahead 0) = .error .illegalOpcode := by
  have first : twoLeads.ahead 0 0 = Index.ix.lead := by decide +kernel
  have second : twoLeads.ahead 0 1 = 0xCB := by decide +kernel
  have opcode : twoLeads.ahead 0 2 = 0x23 := by decide +kernel
  refine ⟨Opcode.IsSound.fits (by decide) .z80, first, second, ?_, ⟨_, rfl⟩, ?_⟩
  · rw [opcode]
    exact ⟨rfl, rfl, fun _ => rfl⟩
  · refine decodeWith_of_not_hasEntry fun ⟨lead, before, _⟩ => ?_
    exact Lead.not_isAt_of_mem_leads rfl first (by rw [second]; decide) lead before

end Instruction

end Micro80
