import Mathlib.Data.List.Forall2
import Micro80.Proofs.Instruction.Filling
import Micro80.Proofs.Instruction.Locality
import Micro80.Proofs.Instruction.OperandText

/-!
# Entries with different texts

Instructions of two entries have different texts if the names of the entries differ in the number of
their fields, or have a field that differs whatever operands are filled in. That this is so can be
seen from outlines, of which there are finitely many for each field.

In the tables, all entries are apart in this way but for two pairs of twins. These are the moves of
the Z80 between memory and HL, which have a short opcode, and the same moves for any pair, which
have a long one.

## Main definitions

* `Opcode.outlines`: what the fields of a text of an entry may look like.
* `Z80.TwinEntries`: two entries that can have the same text.

## Main statements

* `Opcode.areApart_eq_false`: entries with a text in common are not apart.
* `Variant.apart_of_mem`: entries of a table are apart, or equal, or twins.
-/

namespace Micro80

open Instruction

/-! ### Outlines of entries -/

namespace Opcode

/-- **The outlines of an entry**, field by field. -/
def outlines (v : Variant) (e : Opcode) : List (List Text) :=
  e.name.fields.map fun f =>
    (fillings (e.dst.shapes.map (Operand.outline v)) (e.src.shapes.map (Operand.outline v)) f).map
      Text.outline

/-- Whether two sequences of fields differ in length or in a field that has no outline in common. -/
def areApart : List (List Text) → List (List Text) → Bool
  | [], [] => false
  | ts :: rest, us :: others => (ts.all fun t => !us.contains t) || areApart rest others
  | _, _ => true

theorem text_ofEntry (e : Opcode) (v : Variant) (lead : Lead) (a : UInt16) (byte : Nat → UInt8) :
    (ofEntry e v lead a byte).text =
      fill ((ofEntry e v lead a byte).dst.text v) ((ofEntry e v lead a byte).src.text v) e.name :=
  rfl

/-- The fields of an instruction have outlines of its entry. -/
theorem forall₂_outlines (e : Opcode) (v : Variant) (lead : Lead) (a : UInt16)
    (byte : Nat → UInt8) :
    List.Forall₂ (fun f ts => Text.outline f ∈ ts) (ofEntry e v lead a byte).text.fields
      (e.outlines v) := by
  have dst := e.dst.outline_text_mem v (e.context lead a byte) (e.dstAt lead byte)
  have src := e.src.outline_text_mem v (e.context lead a byte) (e.dstAt lead byte + e.dst.size)
  rw [text_ofEntry, outlines, fields_fill (Operand.isField_text _ _) (Operand.isField_text _ _),
    List.forall₂_map_left_iff, List.forall₂_map_right_iff, List.forall₂_same]
  intro f _
  rw [outline_fill]
  exact List.mem_map_of_mem (fill_mem_fillings dst src f)

/-- No fields fit outlines that are apart. -/
theorem areApart_eq_false {fs : List Text} {os us : List (List Text)}
    (ho : List.Forall₂ (fun f ts => Text.outline f ∈ ts) fs os)
    (hu : List.Forall₂ (fun f ts => Text.outline f ∈ ts) fs us) : areApart os us = false := by
  induction ho generalizing us with
  | nil =>
    cases hu
    rfl
  | cons first _ ih =>
    obtain _ | ⟨second, rest⟩ := hu
    rw [areApart, ih rest, Bool.or_false, List.all_eq_false]
    refine ⟨_, first, ?_⟩
    rw [Bool.not_eq_true, Bool.not_eq_false', List.contains_iff_mem]
    exact second

end Opcode

/-! ### The tables -/

namespace Z80

/-- **Twins.** The short and the long form of a move between memory and HL. -/
def TwinEntries (e e' : Opcode) : Prop :=
  e.name = .ascii "LD\t%D,%S" ∧ e'.name = .ascii "LD\t%D,%S" ∧ e.operation = e'.operation
    ∧ e.lead = none ∧ e'.lead = some 0xED
    ∧ ((e.code = 0x22 ∧ e.dst = .direct16 ∧ e.src = .hl
          ∧ e'.code = 0x43 ∧ e'.dst = .direct16 ∧ e'.src = .pair)
        ∨ (e.code = 0x2A ∧ e.dst = .hl ∧ e.src = .direct16
          ∧ e'.code = 0x4B ∧ e'.dst = .pair ∧ e'.src = .direct16))

instance decidableTwinEntries (e e' : Opcode) : Decidable (TwinEntries e e') :=
  inferInstanceAs (Decidable (_ ∧ _))

end Z80

namespace Variant

/-- Earlier and later entries of a table are apart or twins. -/
theorem pairwise_apart (v : Variant) : v.opcodes.Pairwise fun e e' =>
    Opcode.areApart (e.outlines v) (e'.outlines v) = true ∨ (v = .z80 ∧ Z80.TwinEntries e e') := by
  cases v <;> decide +kernel

/-- **The entries of a table** have different texts, unless they are twins. -/
theorem apart_of_mem {v : Variant} {e e' : Opcode} (he : e ∈ v.opcodes) (he' : e' ∈ v.opcodes)
    (together : Opcode.areApart (e.outlines v) (e'.outlines v) = false)
    (together' : Opcode.areApart (e'.outlines v) (e.outlines v) = false) :
    e = e' ∨ (v = .z80 ∧ (Z80.TwinEntries e e' ∨ Z80.TwinEntries e' e)) := by
  have apart := v.pairwise_apart
  rw [List.pairwise_iff_getElem] at apart
  obtain ⟨k, hk, rfl⟩ := List.getElem_of_mem he
  obtain ⟨n, hn, rfl⟩ := List.getElem_of_mem he'
  obtain less | rfl | greater := Nat.lt_trichotomy k n
  · obtain differ | ⟨z80, twins⟩ := apart k n hk hn less
    · exact absurd differ (Bool.eq_false_iff.1 together)
    · exact .inr ⟨z80, .inl twins⟩
  · exact .inl rfl
  · obtain differ | ⟨z80, twins⟩ := apart n k hn hk greater
    · exact absurd differ (Bool.eq_false_iff.1 together')
    · exact .inr ⟨z80, .inr twins⟩

end Variant

end Micro80
