import Micro80.Instruction.Disassembly
import Micro80.Proofs.Instruction.Decoding
import Micro80.Proofs.Instruction.Role

/-!
# Soundness of the opcode tables

An opcode table is data, and nothing in its type keeps an entry from pairing an operation with
operands that it cannot work with, or from asking for more bytes than an instruction may have. An
entry is sound if it does neither, in whatever way the opcode byte and an index register fill it in.
Both tables have sound entries only, so what they decode always has an effect.

## Main definitions

* `Opcode.IsSound`: what is asked of an entry.
* `Instruction.IsSound`: what is known of a decoded instruction.

## Main statements

* `Variant.isSound_of_mem`: the entries of both tables are sound.
* `Instruction.decodeWith_ne_tooLong`: decoding by a sound table never runs out of bytes.
* `Instruction.isSound_of_decode`: a decoded instruction is sound.
-/

namespace Micro80

/-! ### Entries -/

namespace Encoding

/-- Whether an encoding is a field of the opcode in which memory has a code. -/
def isField : Encoding → Bool
  | high | low => true
  | _ => false

theorem isField_of_selectsMemory {e : Encoding} {opcode : UInt8}
    (h : e.selectsMemory opcode = true) : e.isField = true := by
  cases e <;> first | rfl | cases h

end Encoding

namespace Opcode

/-- The greatest number of bytes that can follow the opcode of an entry. -/
def maxTail (e : Opcode) : Nat :=
  (e.indexable && (e.dst.isField || e.src.isField)).toNat + e.dst.size + e.src.size

/-- **Sound entries.** The operation accepts the roles of the operands, and the bytes after the
opcode leave room for the opcode and one byte in front of it. -/
structure IsSound (e : Opcode) : Prop where
  accepts : e.operation.accepts e.dst.role e.src.role = true
  maxTail_le : e.maxTail ≤ 2

instance decidableIsSound (e : Opcode) : Decidable e.IsSound :=
  decidable_of_iff (e.operation.accepts e.dst.role e.src.role = true ∧ e.maxTail ≤ 2)
    ⟨fun h => ⟨h.1, h.2⟩, fun h => ⟨h.accepts, h.maxTail_le⟩⟩

theorem isField_of_selectsMemory {e : Opcode} {opcode : UInt8}
    (h : e.selectsMemory opcode = true) : (e.dst.isField || e.src.isField) = true := by
  rw [selectsMemory, Bool.or_eq_true] at h
  rw [Bool.or_eq_true]
  exact h.imp Encoding.isField_of_selectsMemory Encoding.isField_of_selectsMemory

end Opcode

/-- **The tables are sound.** -/
theorem Variant.isSound_of_mem (v : Variant) : ∀ e ∈ v.opcodes, e.IsSound := by
  cases v <;> decide

namespace Instruction

/-! ### Lengths -/

/-- An instruction of a sound entry that may have the index register it has is short enough. -/
theorem length_ofEntry_le {entry : Opcode} (sound : entry.IsSound) {lead : Lead}
    (size : lead.size ≤ 1) (indexable : lead.index.isSome = true → entry.indexable = true)
    (v : Variant) (a : UInt16) (byte : Nat → UInt8) :
    (ofEntry entry v lead a byte).length ≤ maxLength := by
  have tail := sound.maxTail_le
  unfold Opcode.maxTail at tail
  rw [length_ofEntry, maxLength]
  by_cases spaced : (lead.index.isSome && entry.selectsMemory (byte lead.size)) = true
  · -- The distance from the index register is among the bytes that `maxTail` counts.
    obtain ⟨index, memory⟩ := Bool.and_eq_true_iff.1 spaced
    have field := Opcode.isField_of_selectsMemory memory
    rw [indexable index, field] at tail
    rw [spaced]
    simp only [Bool.and_self, Bool.toNat_true] at tail ⊢
    omega
  · rw [Bool.eq_false_iff.2 spaced]
    simp only [Bool.toNat_false]
    omega

/-- An entry that is found with an index register may have one. -/
theorem indexable_of_find? {table : List Opcode} {lead : Option UInt8} {isIndexed : Bool}
    {opcode : UInt8} {entry : Opcode}
    (h : Opcode.find? table lead isIndexed opcode = some entry) (hi : isIndexed = true) :
    entry.indexable = true := by
  unfold Opcode.find? at h
  have matching := List.find?_some h
  subst hi
  simp only [Opcode.matching, Bool.not_true, Bool.false_or, Bool.and_eq_true] at matching
  exact matching.2

/-- The instruction that decoding takes up is short enough, whether or not it has a defect. -/
theorem length_le_of_find? {table : List Opcode} (sound : ∀ e ∈ table, e.IsSound) {v : Variant}
    {byte : Nat → UInt8} {lead : Lead} {entry : Opcode} (hl : Lead.read? v byte = some lead)
    (he : Opcode.find? table lead.page lead.index.isSome (byte lead.size) = some entry)
    (a : UInt16) : (ofEntry entry v lead a byte).length ≤ maxLength :=
  length_ofEntry_le (sound entry (List.mem_of_find?_eq_some he)) (Lead.size_le_one hl)
    (indexable_of_find? he) v a byte

/-- **Decoding by a sound table never runs out of bytes.** -/
theorem decodeWith_ne_tooLong {table : List Opcode} (sound : ∀ e ∈ table, e.IsSound) (v : Variant)
    (a : UInt16) (byte : Nat → UInt8) : decodeWith table v a byte ≠ .error .tooLong := by
  unfold decodeWith
  cases hl : Lead.read? v byte with
  | none => simp
  | some lead =>
    simp only
    cases he : Opcode.find? table lead.page lead.index.isSome (byte lead.size) with
    | none => simp
    | some entry =>
      have short := length_le_of_find? sound hl he a
      have fits : (ofEntry entry v lead a byte).defect? ≠ some .tooLong := by
        rw [defect?, if_neg (Nat.not_lt.2 short)]
        split
        · simp
        · split <;> simp
      simp only
      split
      · simp
      · split
        · rename_i e he
          rw [he] at fits
          intro h
          cases h
          exact fits rfl
        · simp

theorem decodeOwn_ne_tooLong (v : Variant) (m : Memory) (a : UInt16) :
    decodeOwn v m a ≠ .error .tooLong :=
  decodeWith_ne_tooLong v.isSound_of_mem v a (m.ahead a)

theorem decode_ne_tooLong (v : Variant) (m : Memory) (a : UInt16) :
    decode v m a ≠ .error .tooLong := by
  unfold decode
  split
  · split <;> simp
  · exact decodeOwn_ne_tooLong v m a

/-! ### Decoded instructions -/

/-- **Sound instructions.** What executing and showing an instruction of a processor rely on. That
conditions, numbers of bits and pairs are among those that exist is a matter of the types. -/
structure IsSound (v : Variant) (i : Instruction) : Prop where
  /-- There is an entry behind it. -/
  entry_mem : i.entry ∈ v.opcodes
  /-- It has an opcode. -/
  length_pos : 0 < i.length
  /-- It has no more bytes than an instruction may have. -/
  length_le : i.length ≤ maxLength
  /-- The flags are not its destination, -/
  dst_ne_flags : i.dst ≠ .reg8 .f
  /-- nor its source. -/
  src_ne_flags : i.src ≠ .reg8 .f
  /-- Its operation works with its operands, whatever the core and the layout of the flags. -/
  isSome_effect? : ∀ (L : FlagLayout) (c : Core), (i.effect? L c).isSome = true

/-- A decoded instruction is at the address at which it was looked for. -/
theorem address_of_decode {v : Variant} {m : Memory} {a : UInt16} {i : Instruction}
    (h : decode v m a = .ok i) : i.address = a := by
  obtain ⟨lead, entry, -, -, -, rfl, -⟩ := decodeWith_eq_ok_iff.1 (decode_eq_ok_iff.1 h)
  rfl

/-- It is one for the processor for which it has been decoded. -/
theorem variant_of_decode {v : Variant} {m : Memory} {a : UInt16} {i : Instruction}
    (h : decode v m a = .ok i) : i.variant = v := by
  obtain ⟨lead, entry, -, -, -, rfl, -⟩ := decodeWith_eq_ok_iff.1 (decode_eq_ok_iff.1 h)
  rfl

/-- **A decoded instruction is sound.** -/
theorem isSound_of_decode {v : Variant} {m : Memory} {a : UInt16} {i : Instruction}
    (h : decode v m a = .ok i) : i.IsSound v := by
  have own := decode_eq_ok_iff.1 h
  obtain ⟨lead, entry, hl, he, -, rfl, -⟩ := decodeWith_eq_ok_iff.1 own
  have mem : entry ∈ v.opcodes := List.mem_of_find?_eq_some he
  refine ⟨mem, ?_, length_le_of_find? v.isSound_of_mem hl he a, ?_, ?_, fun L c => ?_⟩
  · rw [length_ofEntry]
    omega
  · exact entry.dst.operand_ne_flags _ _
  · exact entry.src.operand_ne_flags _ _
  · rw [Instruction.isSome_effect?, ofEntry, operation, Encoding.role_operand,
      Encoding.role_operand]
    exact (v.isSound_of_mem entry mem).accepts

end Instruction

/-- Disassembly accounts for one to four bytes. -/
theorem Memory.disassemble_bounds (m : Memory) (v : Variant) (a : UInt16) :
    0 < (m.disassemble v a).1 ∧ (m.disassemble v a).1 ≤ Instruction.maxLength := by
  unfold disassemble
  cases h : Instruction.decode v m a with
  | ok i =>
    have sound := Instruction.isSound_of_decode h
    exact ⟨sound.length_pos, sound.length_le⟩
  | error e => simp [Instruction.maxLength]

end Micro80
