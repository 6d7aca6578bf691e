import Micro80.Memory.Image
import Micro80.Proofs.Instruction.Apart
import Micro80.Proofs.Instruction.Assembly
import Micro80.Proofs.Instruction.Soundness

/-!
# What a disassembly tells

The text of an instruction tells what the instruction does and where its operands are. Nearly
always it even tells its bytes. The exception are the moves of the Z80 between memory and HL, whose
short and long forms share their texts.

The text settles the entry of the table, up to twins. The operands can be read off the fields in
which they stand alone, or are implied by the entry; and the bytes can be assembled from the
operands.

## Main definitions

* `Opcode.IsReadable`: an entry whose operands are shown or implied.
* `Z80.TwinBytes`: the bytes of two instructions that share their text.

## Main statements

* `Instruction.operand_eq_of_text_eq`: operands of instructions of an entry with the same text.
* `Memory.disassemble_faithful`: what two instructions with the same text have in common.
-/

namespace Micro80

/-! ### Shown and implied operands -/

namespace Encoding

/-- Whether an encoding stands for a single operand, given whether an index register may take the
place of HL. -/
def isImplied (indexable : Bool) : Encoding → Bool
  | absent | accumulator | de | sp | atBC | atDE | atSP | portC => true
  | hl => !indexable
  | _ => false

theorem operand_eq_of_isImplied {e : Encoding} {indexable : Bool} (h : e.isImplied indexable = true)
    {c c' : Context} (hc : c.index.isSome = true → indexable = true)
    (hc' : c'.index.isSome = true → indexable = true) (i i' : Nat) :
    e.operand c i = e.operand c' i' := by
  cases e with
  | hl =>
    rw [isImplied, Bool.not_eq_true'] at h
    have none {x : Option Index} (hx : x.isSome = true → indexable = true) : x = none := by
      rw [h] at hx
      exact Option.not_isSome_iff_eq_none.1 fun some => Bool.false_ne_true (hx some)
    simp only [operand, none hc, none hc']
  | absent | accumulator | de | sp | atBC | atDE | atSP | portC => rfl
  | _ => cases h

end Encoding

namespace Instruction

instance decidableForallHole (P : Hole → Prop) [DecidablePred P] : Decidable (∀ p, P p) :=
  decidable_of_iff (P .dst ∧ P .src)
    ⟨fun h p => Hole.casesOn p h.1 h.2, fun h => ⟨h .dst, h .src⟩⟩

end Instruction

open Instruction

namespace Opcode

/-- **Readable entries.** Each operand stands alone in a field of the name or is implied, and
where a distance to go is counted from does not depend on an index register. -/
def IsReadable (e : Opcode) : Prop :=
  ∀ p : Hole,
    ((∃ f ∈ e.name.fields, holes f = [p])
      ∨ (p.pick e.dst e.src).isImplied e.indexable = true)
    ∧ (p.pick e.dst e.src = .relative → e.indexable = false)

instance decidableIsReadable (e : Opcode) : Decidable e.IsReadable :=
  inferInstanceAs (Decidable (∀ _ : Hole, _))

end Opcode

/-- All entries of the tables are readable. -/
theorem Variant.isReadable_of_mem (v : Variant) : ∀ e ∈ v.opcodes, e.IsReadable := by
  cases v <;> decide +kernel

/-! ### Reading operands -/

/-- What it means that an entry has decided about bytes. -/
structure Opcode.Decides (e : Opcode) (v : Variant) (lead : Lead) (byte : Nat → UInt8) : Prop where
  mem : e ∈ v.opcodes
  read : Lead.read? v byte = some lead
  page : e.lead = lead.page
  indexable : lead.index.isSome = true → e.indexable = true

namespace Instruction

/-- An instruction comes from an entry that has decided. -/
theorem exists_decides {v : Variant} {m : Memory} {a : UInt16} {i : Instruction}
    (h : decode v m a = .ok i) :
    ∃ lead e, e.Decides v lead (m.ahead a) ∧ i = ofEntry e v lead a (m.ahead a) := by
  obtain ⟨lead, e, hl, he, -, rfl, -⟩ := decodeWith_eq_ok_iff.1 (decode_eq_ok_iff.1 h)
  have page := (Opcode.matching_of_find? he).1
  exact ⟨lead, e, ⟨List.mem_of_find?_eq_some he, hl, page, indexable_of_find? he⟩, rfl⟩

section Reading

variable {e e' : Opcode} {v : Variant} {lead lead' : Lead} {a : UInt16} {byte byte' : Nat → UInt8}

theorem pick_ofEntry (e : Opcode) (v : Variant) (lead : Lead) (a : UInt16) (byte : Nat → UInt8)
    (p : Hole) :
    p.pick (ofEntry e v lead a byte).dst (ofEntry e v lead a byte).src =
      (p.pick e.dst e.src).operand (e.context lead a byte)
        (p.pick (e.dstAt lead byte) (e.dstAt lead byte + e.dst.size)) := by
  cases p <;> rfl

/-- An operand that stands alone in a field of the name has the same text wherever the whole text is
the same. -/
theorem text_pick_eq_of_text_eq (name : e.name = e'.name)
    (text : (ofEntry e v lead a byte).text = (ofEntry e' v lead' a byte').text) {p : Hole}
    (shown : ∃ f ∈ e.name.fields, holes f = [p]) :
    (p.pick (ofEntry e v lead a byte).dst (ofEntry e v lead a byte).src).text v =
      (p.pick (ofEntry e' v lead' a byte').dst (ofEntry e' v lead' a byte').src).text v := by
  obtain ⟨f, hf, single⟩ := shown
  have fields := congrArg Text.fields text
  rw [Opcode.text_ofEntry, Opcode.text_ofEntry, ← name,
    fields_fill (Operand.isField_text _ _) (Operand.isField_text _ _),
    fields_fill (Operand.isField_text _ _) (Operand.isField_text _ _)] at fields
  have same := pick_eq_of_fill_eq single (List.map_inj_left.1 fields f hf)
  cases p <;> exact same

/-- Without an index register the place of the operands is settled by the entry. -/
theorem dstAt_of_index_eq_none (h : e.Decides v lead byte) (noIndex : lead.index = none) :
    e.dstAt lead byte = e.lead.toList.length + 1 := by
  have size := congrArg List.length (Lead.map_range_size h.read)
  rw [noIndex, ← h.page, List.length_map, List.length_range] at size
  unfold Opcode.dstAt Opcode.isSpaced
  rw [noIndex, size]
  rfl

/-- **Reading operands.** Instructions of an entry at the same address with the same text have the
same operands. -/
theorem operand_eq_of_text_eq (h : e.Decides v lead byte) (h' : e.Decides v lead' byte')
    (text : (ofEntry e v lead a byte).text = (ofEntry e v lead' a byte').text) (p : Hole) :
    p.pick (ofEntry e v lead a byte).dst (ofEntry e v lead a byte).src =
      p.pick (ofEntry e v lead' a byte').dst (ofEntry e v lead' a byte').src := by
  obtain ⟨readable, anchored⟩ := v.isReadable_of_mem e h.mem p
  obtain shown | implied := readable
  · have same := text_pick_eq_of_text_eq rfl text shown
    rw [pick_ofEntry, pick_ofEntry] at same ⊢
    refine Encoding.operand_eq_of_text_eq (fun relative => ⟨rfl, ?_⟩) same
    -- A distance to go is counted from the same address on both sides.
    have none {l : Lead} {b : Nat → UInt8} (hb : e.Decides v l b) : l.index = none := by
      have indexable := hb.indexable
      rw [anchored relative] at indexable
      exact Option.not_isSome_iff_eq_none.1 fun some => Bool.false_ne_true (indexable some)
    rw [dstAt_of_index_eq_none h (none h), dstAt_of_index_eq_none h' (none h')]
  · rw [pick_ofEntry, pick_ofEntry]
    exact Encoding.operand_eq_of_isImplied implied h.indexable h'.indexable _ _

end Reading

/-! ### Bytes -/

/-- Instructions with the same operands have the same index register. -/
theorem index_eq_of_operands_eq {v : Variant} {m m' : Memory} {a : UInt16} {i j : Instruction}
    (hi : decode v m a = .ok i) (hj : decode v m' a = .ok j) (dst : i.dst = j.dst)
    (src : i.src = j.src) : i.index = j.index := by
  rw [index_eq_of_decode hi, index_eq_of_decode hj, dst, src]

/-- Instructions of an entry with the same operands have the same bytes. -/
theorem bytes_eq_of_operands_eq {v : Variant} {m m' : Memory} {a : UInt16} {i j : Instruction}
    (hi : decode v m a = .ok i) (hj : decode v m' a = .ok j) (entry : i.entry = j.entry)
    (dst : i.dst = j.dst) (src : i.src = j.src) : i.bytes = j.bytes := by
  rw [bytes_eq_assemble hi, bytes_eq_assemble hj, entry, index_eq_of_operands_eq hi hj dst src, dst,
    src]

end Instruction

/-- Further entries of the table have no index register. -/
theorem Lead.index_eq_none_of_page {v : Variant} {byte : Nat → UInt8} {lead : Lead}
    (h : read? v byte = some lead) (page : lead.page.isSome = true) : lead.index = none := by
  obtain ⟨rfl, -⟩ | ⟨rfl, -⟩ | ⟨x, rfl, -⟩ := read?_cases h
  · rfl
  · rfl
  · cases page

namespace Z80

/-- **Twins.** The short and the long form of a move between memory and HL, byte by byte. -/
inductive TwinBytes : List UInt8 → List UInt8 → Prop where
  /-- The store of HL. -/
  | store (low high : UInt8) : TwinBytes [0x22, low, high] [0xED, 0x63, low, high]
  /-- The load of HL. -/
  | load (low high : UInt8) : TwinBytes [0x2A, low, high] [0xED, 0x6B, low, high]

section Twins

variable {e e' : Opcode} {m m' : Memory} {a : UInt16} {lead lead' : Lead}

/-- Twins with the same text have the same operands. -/
theorem TwinEntries.operands_eq (twins : TwinEntries e e') {byte byte' : Nat → UInt8}
    (text : (ofEntry e .z80 lead a byte).text = (ofEntry e' .z80 lead' a byte').text) :
    (ofEntry e .z80 lead a byte).dst = (ofEntry e' .z80 lead' a byte').dst ∧
      (ofEntry e .z80 lead a byte).src = (ofEntry e' .z80 lead' a byte').src := by
  obtain ⟨name, name', -, -, -, forms⟩ := twins
  have shown : ∀ p : Hole, ∃ f ∈ e.name.fields, holes f = [p] := by
    rw [name]
    decide
  have dst := text_pick_eq_of_text_eq (name.trans name'.symm) text (shown .dst)
  have src := text_pick_eq_of_text_eq (name.trans name'.symm) text (shown .src)
  simp only [Hole.pick] at dst src
  rw [Opcode.dst_ofEntry, Opcode.dst_ofEntry] at dst ⊢
  rw [Opcode.src_ofEntry, Opcode.src_ofEntry] at src ⊢
  obtain ⟨-, hd, hs, -, hd', hs'⟩ | ⟨-, hd, hs, -, hd', hs'⟩ := forms
  · rw [hd, hd'] at dst src ⊢
    rw [hs, hs'] at src ⊢
    exact ⟨Encoding.operand_eq_of_text_eq nofun dst, Encoding.operand_hl_eq_of_text_eq src⟩
  · rw [hd, hd'] at dst src ⊢
    rw [hs, hs'] at src ⊢
    exact ⟨Encoding.operand_hl_eq_of_text_eq dst, Encoding.operand_eq_of_text_eq nofun src⟩

/-- The bytes of twins with the same operands. -/
theorem TwinEntries.twinBytes (twins : TwinEntries e e') (h' : e'.Decides .z80 lead' (m'.ahead a))
    (hi : decode .z80 m a = .ok (ofEntry e .z80 lead a (m.ahead a)))
    (hj : decode .z80 m' a = .ok (ofEntry e' .z80 lead' a (m'.ahead a)))
    (dst : (ofEntry e .z80 lead a (m.ahead a)).dst = (ofEntry e' .z80 lead' a (m'.ahead a)).dst)
    (src : (ofEntry e .z80 lead a (m.ahead a)).src = (ofEntry e' .z80 lead' a (m'.ahead a)).src) :
    TwinBytes (ofEntry e .z80 lead a (m.ahead a)).bytes
      (ofEntry e' .z80 lead' a (m'.ahead a)).bytes := by
  obtain ⟨-, -, -, plain, extended, forms⟩ := twins
  have noIndex' : lead'.index = none :=
    Lead.index_eq_none_of_page h'.read (by rw [← h'.page, extended]; rfl)
  have noIndex : lead.index = none := (index_eq_of_operands_eq hi hj dst src).trans noIndex'
  have bytes : _ = e.assemble lead.index _ _ := bytes_eq_assemble hi
  have bytes' : _ = e'.assemble lead'.index _ _ := bytes_eq_assemble hj
  rw [bytes, bytes', ← dst, ← src, noIndex, noIndex']
  have implied (k : Nat) : Encoding.hl.operand (e.context lead a (m.ahead a)) k =
      .reg16 (.pair .hl) := by
    show Operand.reg16 (Index.orHL lead.index) = _
    rw [noIndex]
    rfl
  rw [Opcode.dst_ofEntry, Opcode.src_ofEntry]
  unfold Opcode.assemble
  obtain ⟨code, hd, hs, code', hd', hs'⟩ | ⟨code, hd, hs, code', hd', hs'⟩ := forms
  · rw [hd, hs, hd', hs', plain, extended, code, code', implied]
    have short : (0x22 ||| 0 * 0 ||| 0 * 2 : UInt8) = 0x22 := by decide
    have long : (0x43 ||| 0 * 0 ||| 16 * 2 : UInt8) = 0x63 := by decide
    show TwinBytes [0x22 ||| 0 * 0 ||| 0 * 2, _, _] [0xED, 0x43 ||| 0 * 0 ||| 16 * 2, _, _]
    rw [short, long]
    exact .store _ _
  · rw [hd, hs, hd', hs', plain, extended, code, code', implied]
    have short : (0x2A ||| 0 * 2 ||| 0 * 0 : UInt8) = 0x2A := by decide
    have long : (0x4B ||| 16 * 2 ||| 0 * 0 : UInt8) = 0x6B := by decide
    show TwinBytes [0x2A ||| 0 * 2 ||| 0 * 0, _, _] [0xED, 0x4B ||| 16 * 2 ||| 0 * 0, _, _]
    rw [short, long]
    exact .load _ _

/-- What the opcodes of twins stand for. -/
theorem find?_twins :
    (∀ e ∈ Opcode.find? opcodes none false 0x22,
      e.name = .ascii "LD\t%D,%S" ∧ e.dst = .direct16 ∧ e.src = .hl)
    ∧ (∀ e ∈ Opcode.find? opcodes (some 0xED) false 0x63,
      e.name = .ascii "LD\t%D,%S" ∧ e.dst = .direct16 ∧ e.src = .pair)
    ∧ (∀ e ∈ Opcode.find? opcodes none false 0x2A,
      e.name = .ascii "LD\t%D,%S" ∧ e.dst = .hl ∧ e.src = .direct16)
    ∧ ∀ e ∈ Opcode.find? opcodes (some 0xED) false 0x6B,
      e.name = .ascii "LD\t%D,%S" ∧ e.dst = .pair ∧ e.src = .direct16 := by
  decide +kernel

/-- An instruction is that of the entry for its own bytes. -/
theorem exists_entry_of_bytes (lead : Lead) {i : Instruction} (h : decode .z80 m a = .ok i)
    {bytes : List UInt8} (own : i.bytes = bytes)
    (read : Lead.read? .z80 (bytes.getD · 0) = some lead) :
    ∃ e ∈ Opcode.find? opcodes lead.page lead.index.isSome (bytes.getD lead.size 0),
      i = ofEntry e .z80 lead a (bytes.getD · 0) := by
  have again := decodeWith_bytes h
  rw [own] at again
  obtain ⟨lead', e, hl, he, -, same, -⟩ := decodeWith_eq_ok_iff.1 again
  rw [read] at hl
  cases hl
  exact ⟨e, he, same⟩

/-- The number of HL among the pairs. -/
theorem operand_pair_eq_hl {c : Encoding.Context} (noIndex : c.index = none)
    (code : Field.pair c.opcode = 2) (k : Nat) :
    Encoding.pair.operand c k = .reg16 (.pair .hl) := by
  show Operand.reg16 (c.pairByCode .sp (Field.pair c.opcode)) = _
  rw [code, Encoding.Context.pairByCode, noIndex]
  rfl

/-- **Twins share their text.** -/
theorem TwinBytes.text_eq {i j : Instruction} (hi : decode .z80 m a = .ok i)
    (hj : decode .z80 m' a = .ok j) (twins : TwinBytes i.bytes j.bytes) : i.text = j.text := by
  obtain ⟨storeShort, storeLong, loadShort, loadLong⟩ := find?_twins
  generalize own : i.bytes = bs at twins
  generalize own' : j.bytes = bs' at twins
  cases twins with
  | store low high =>
    obtain ⟨e, he, rfl⟩ := exists_entry_of_bytes .empty hi own rfl
    obtain ⟨e', he', rfl⟩ := exists_entry_of_bytes ⟨none, some 0xED, 1⟩ hj own' rfl
    obtain ⟨name, hd, hs⟩ := storeShort e he
    obtain ⟨name', hd', hs'⟩ := storeLong e' he'
    rw [Opcode.text_ofEntry, Opcode.text_ofEntry, Opcode.dst_ofEntry, Opcode.dst_ofEntry,
      Opcode.src_ofEntry, Opcode.src_ofEntry, name, name', hd, hd', hs, hs',
      operand_pair_eq_hl rfl (by show Field.pair 0x63 = 2; decide)]
    rfl
  | load low high =>
    obtain ⟨e, he, rfl⟩ := exists_entry_of_bytes .empty hi own rfl
    obtain ⟨e', he', rfl⟩ := exists_entry_of_bytes ⟨none, some 0xED, 1⟩ hj own' rfl
    obtain ⟨name, hd, hs⟩ := loadShort e he
    obtain ⟨name', hd', hs'⟩ := loadLong e' he'
    rw [Opcode.text_ofEntry, Opcode.text_ofEntry, Opcode.dst_ofEntry, Opcode.dst_ofEntry,
      Opcode.src_ofEntry, Opcode.src_ofEntry, name, name', hd, hd', hs, hs',
      operand_pair_eq_hl rfl (by show Field.pair 0x6B = 2; decide)]
    rfl

end Twins

end Z80

/-! ### Disassembly -/

namespace Memory

variable {v : Variant} {m m' : Memory} {a : UInt16} {i j : Instruction}

theorem disassemble_of_decode (h : decode v m a = .ok i) : (m.disassemble v a).2 = i.text := by
  unfold disassemble
  rw [h]

/-- What the same text says of two instructions. -/
theorem eq_of_text_eq (hi : decode v m a = .ok i) (hj : decode v m' a = .ok j)
    (text : i.text = j.text) :
    (i.operation = j.operation ∧ i.dst = j.dst ∧ i.src = j.src) ∧
      (i.bytes = j.bytes ∨
        v = .z80 ∧ (Z80.TwinBytes i.bytes j.bytes ∨ Z80.TwinBytes j.bytes i.bytes)) := by
  obtain ⟨lead, e, h, rfl⟩ := exists_decides hi
  obtain ⟨lead', e', h', rfl⟩ := exists_decides hj
  have fits := e.forall₂_outlines v lead a (m.ahead a)
  have fits' := e'.forall₂_outlines v lead' a (m'.ahead a)
  rw [← text] at fits'
  obtain rfl | ⟨rfl, twins | twins⟩ := Variant.apart_of_mem h.mem h'.mem
    (Opcode.areApart_eq_false fits fits') (Opcode.areApart_eq_false fits' fits)
  · have dst := operand_eq_of_text_eq h h' text .dst
    have src := operand_eq_of_text_eq h h' text .src
    exact ⟨⟨rfl, dst, src⟩, .inl (bytes_eq_of_operands_eq hi hj rfl dst src)⟩
  · obtain ⟨dst, src⟩ := twins.operands_eq text
    exact ⟨⟨twins.2.2.1, dst, src⟩, .inr ⟨rfl, .inl (twins.twinBytes h' hi hj dst src)⟩⟩
  · obtain ⟨dst, src⟩ := twins.operands_eq text.symm
    exact ⟨⟨twins.2.2.1.symm, dst.symm, src.symm⟩,
      .inr ⟨rfl, .inr (twins.twinBytes h hj hi dst src)⟩⟩

/-- **Disassembly is faithful.** If two instructions at the same address have the same text, they do
the same with the same operands. They even have the same bytes, except for twins of the Z80, and
twins do share their text. -/
theorem disassemble_faithful (v : Variant) (a : UInt16) (m m' : Memory) (i j : Instruction)
    (hi : decode v m a = .ok i) (hj : decode v m' a = .ok j) :
    ((m.disassemble v a).2 = (m'.disassemble v a).2 →
      i.operation = j.operation ∧ i.dst = j.dst ∧ i.src = j.src) ∧
    ((m.disassemble v a).2 = (m'.disassemble v a).2 ↔
      i.bytes = j.bytes ∨
        v = .z80 ∧ (Z80.TwinBytes i.bytes j.bytes ∨ Z80.TwinBytes j.bytes i.bytes)) := by
  rw [disassemble_of_decode hi, disassemble_of_decode hj]
  refine ⟨fun text => (eq_of_text_eq hi hj text).1, fun text => (eq_of_text_eq hi hj text).2, ?_⟩
  rintro (bytes | ⟨rfl, twins | twins⟩)
  · rw [eq_of_bytes_eq hi hj bytes]
  · exact twins.text_eq hi hj
  · exact (twins.text_eq hj hi).symm

/-- The short and the long form of `LD (1234H),HL`. -/
theorem disassemble_faithful_store :
    ∃ i j, decode .z80 (blank.load 0 [0x22, 0x34, 0x12]) 0 = .ok i ∧
      decode .z80 (blank.load 0 [0xED, 0x63, 0x34, 0x12]) 0 = .ok j ∧
      i.bytes ≠ j.bytes ∧ i.operation = j.operation ∧ i.dst = j.dst ∧ i.src = j.src := by
  have ok {r : Except DecodeError Instruction} {i : Instruction} (h : r.toOption = some i) :
      r = .ok i := by
    cases r with
    | ok x => exact congrArg Except.ok (Option.some.inj h)
    | error => cases h
  have short : (decode .z80 (blank.load 0 [0x22, 0x34, 0x12]) 0).toOption.map bytes =
      some [0x22, 0x34, 0x12] := by
    decide +kernel
  have long : (decode .z80 (blank.load 0 [0xED, 0x63, 0x34, 0x12]) 0).toOption.map bytes =
      some [0xED, 0x63, 0x34, 0x12] := by
    decide +kernel
  obtain ⟨i, hi, bytes⟩ := Option.map_eq_some_iff.1 short
  obtain ⟨j, hj, bytes'⟩ := Option.map_eq_some_iff.1 long
  have twins : Z80.TwinBytes i.bytes j.bytes := by
    rw [bytes, bytes']
    exact .store 0x34 0x12
  obtain ⟨same, shared⟩ := disassemble_faithful .z80 0 _ _ i j (ok hi) (ok hj)
  refine ⟨i, j, ok hi, ok hj, ?_, same (shared.2 (.inr ⟨rfl, .inl twins⟩))⟩
  rw [bytes, bytes']
  decide

end Memory

end Micro80
