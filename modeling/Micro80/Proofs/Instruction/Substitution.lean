import Micro80.Proofs.Instruction.Hidden
import Micro80.Proofs.Instruction.Reshaping

/-!
# Effects of substituted instructions

An instruction with an index register has the effect of the one without it on a core with other
contents of HL. If no operand is a byte to which the index register points, these are exchanged with
the index register. If one is, HL points to the same byte, unless a half of HL is the other operand,
which is then a matter of the registers H and L themselves.

## Main definitions

* `Instruction.IsIndexedForm`: a decoded instruction and the one that has its other bytes.

## Main statements

* `Instruction.isIndexedForm_of_decode`: decoded instructions are in this relation.
* `Instruction.IsIndexedForm.effect?_exchangeHL`: effects without an indexed operand.
* `Instruction.IsIndexedForm.effect?_withHL`: effects with one.
* `Instruction.IsIndexedForm.effect?_self`: HL itself does not matter.
* `Instruction.IsIndexedForm.effect?_load`, `Instruction.IsIndexedForm.effect?_store`: halves of HL.
-/

namespace Micro80

open Micro80.Core

/-! ### Substituted instructions -/

/-- Without an index register the operands have none. -/
theorem Encoding.isBare_operand (e : Encoding) {c : Context} (index : c.index = none) (k : Nat) :
    (e.operand c k).isBare = true := by
  have byCode (code : Fin 8) : (c.byCode code).isBare = true := by
    unfold Context.byCode
    rw [index]
    cases Reg8.ofCode? code <;> rfl
  have pairByCode {last : Reg16} (other : (Operand.reg16 last).isBare = true) (code : Fin 4) :
      (Operand.reg16 (c.pairByCode last code)).isBare = true := by
    unfold Context.pairByCode
    rw [index]
    match code with
    | 0 | 1 | 2 => rfl
    | 3 => exact other
  cases e with
  | high => exact byCode _
  | low => exact byCode _
  | pair => exact pairByCode rfl _
  | pairAF => exact pairByCode rfl _
  | hl =>
    unfold operand
    rw [index]
    rfl
  | _ => rfl

/-- What may take an index register is an operation that gets to HL by way of its operands only. -/
theorem Z80.takesIndex_of_mem : ∀ e ∈ opcodes, e.indexable = true →
    e.operation.takesIndex = true := by
  decide

/-- Operations on bytes have no words among their operands. -/
theorem Z80.role_of_mem : ∀ e ∈ opcodes, (e.dst.isField || e.src.isField) = true →
    e.dst.role ≠ .place16 ∧ e.src.role ≠ .place16 := by
  decide

/-- Two operands that may both be a byte in memory are those of a move. -/
theorem Z80.operation_of_mem : ∀ e ∈ opcodes, (e.dst.isField && e.src.isField) = true →
    e.operation = .move := by
  decide

/-- An operand that may be a half of HL may be a byte in memory. -/
theorem Encoding.isField_of_isHalfOfHL {e : Encoding} {c : Context} {k : Nat}
    (h : (e.operand c k).isHalfOfHL = true) : e.isField = true := by
  cases e <;> first | rfl | cases h

/-- So may one that is indexed. -/
theorem Encoding.isField_of_isIndexed {e : Encoding} {c : Context} {k : Nat}
    (h : (e.operand c k).isIndexed = true) : e.isField = true := by
  rw [isIndexed_operand, Bool.and_eq_true] at h
  exact isField_of_selectsMemory h.2

/-- H and L are the halves of HL. -/
theorem Operand.isHalfOfHL_reg8 {r : Reg8} (half : r = .h ∨ r = .l) :
    (Operand.reg8 r).isHalfOfHL = true := by
  obtain rfl | rfl := half
  · rfl
  · rfl

namespace Instruction

/-- **Indexed forms.** What is known of a substituted instruction and of the one in which it is a
substitution if both have been decoded. -/
structure IsIndexedForm (x : Index) (d : Int8) (i j : Instruction) : Prop extends
    IsSubstituted x d i j where
  takesIndex : j.operation.takesIndex = true
  dst_isBare : j.dst.isBare = true
  src_isBare : j.src.isBare = true
  /-- Halves of HL occur beside an indexed operand only, -/
  halves : i.pointsByIndex = false → j.dst.isHalfOfHL = false ∧ j.src.isHalfOfHL = false
  /-- and HL does not. -/
  bytes : i.pointsByIndex = true → j.dst ≠ .reg16 (.pair .hl) ∧ j.src ≠ .reg16 (.pair .hl)
  /-- A half of HL and an indexed operand are those of a move. -/
  moves : (i.dst.isHalfOfHL = true ∧ i.src.isIndexed = true) ∨
    (i.dst.isIndexed = true ∧ i.src.isHalfOfHL = true) → i.operation = .move
  isSome_effect? : ∀ (L : FlagLayout) (c : Core), (i.effect? L c).isSome = true

section

variable {m m' : Memory} {a a' : UInt16} {x : Index} {i j : Instruction}

/-- An instruction with an index register begins with the byte that selects it. -/
theorem read_of_index (h : decode .z80 m a = .ok i) (index : i.index = some x) :
    m.read a = x.lead := by
  obtain ⟨lead, e, hl, -, -, rfl, -⟩ := decodeWith_eq_ok_iff.1 (decode_eq_ok_iff.1 h)
  obtain ⟨rfl, -⟩ | ⟨rfl, -⟩ | ⟨y, rfl, selected⟩ := Lead.read?_cases hl
  · cases index
  · cases index
  · cases index
    rw [← m.ahead_zero]
    exact Index.eq_lead_of_ofLead? selected

/-- An instruction with an index register and **the instruction that has its other bytes.** -/
theorem isIndexedForm_of_decode (hi : decode .z80 m a = .ok i) (index : i.index = some x)
    (hj : decode .z80 m' a' = .ok j) (bytes : j.bytes = i.bareBytes) :
    IsIndexedForm x (m.read (a + 2)).toInt8 i j := by
  have first := read_of_index hi index
  have holds : m'.bytesFrom a' i.bareBytes.length = i.bareBytes := by
    rw [← bytes]
    exact (bytes_of_decodeWith (decode_eq_ok_iff.1 hj)).symm
  obtain ⟨j', hj', -, substituted⟩ := exists_isSubstituted first hi holds
  obtain rfl := Except.ok.inj (hj'.symm.trans hj)
  have works := (isSound_of_decode hi).isSome_effect?
  obtain ⟨e, -, he, rfl, sound⟩ := exists_ofEntry_of_decode first hi
  obtain ⟨lead, e', -, -, -, rfl, -⟩ := decodeWith_eq_ok_iff.1 (decode_eq_ok_iff.1 hj)
  have entry : e = e' := substituted.entry_eq
  subst entry
  have mem := List.mem_of_find?_eq_some he
  have noIndex : lead.index = none := substituted.index_eq_none
  refine ⟨substituted, Z80.takesIndex_of_mem e mem (indexable_of_find? he rfl),
    e.dst.isBare_operand noIndex _, e.src.isBare_operand noIndex _, fun unpointed => ?_,
    fun pointed => ?_, fun both => ?_, works⟩
  · have well := (Bool.and_eq_true_iff.1 (usesIndexWell_of_defect? sound rfl)).2
    rw [Bool.or_assoc, show (_ || _) = false from unpointed, Bool.or_false, Bool.not_eq_true',
      Bool.or_eq_false_iff, substituted.dst_eq, substituted.src_eq] at well
    rwa [Operand.isHalfOfHL_substitute, Operand.isHalfOfHL_substitute] at well
  · rw [pointsByIndex_ofEntry] at pointed
    obtain ⟨dst, src⟩ := Z80.role_of_mem e mem (Opcode.isField_of_selectsMemory pointed)
    constructor
    · intro word
      exact dst ((e.dst.role_operand _ _).symm.trans (congrArg Operand.role word))
    · intro word
      exact src ((e.src.role_operand _ _).symm.trans (congrArg Operand.role word))
  · apply Z80.operation_of_mem e mem
    rw [Bool.and_eq_true]
    obtain ⟨half, indexed⟩ | ⟨indexed, half⟩ := both
    · exact ⟨Encoding.isField_of_isHalfOfHL half, Encoding.isField_of_isIndexed indexed⟩
    · exact ⟨Encoding.isField_of_isIndexed indexed, Encoding.isField_of_isHalfOfHL half⟩

end

namespace IsIndexedForm

variable {x : Index} {d : Int8} {i j : Instruction} (s : IsIndexedForm x d i j) (L : FlagLayout)
  {a b : UInt16} {c c' : Core}

include s

theorem isPlain : j.IsPlain where
  dst := Operand.usesIndex_of_isBare s.dst_isBare
  src := Operand.usesIndex_of_isBare s.src_isBare
  ne_exchangeAF h := by
    have takes := s.takesIndex
    rw [h] at takes
    cases takes
  ne_exchangeGeneral h := by
    have takes := s.takesIndex
    rw [h] at takes
    cases takes

/-- **Without an indexed operand** an instruction has the effect of the other one on the core with
HL exchanged. -/
theorem effect?_exchangeHL (unpointed : i.pointsByIndex = false)
    (h : Reshaped (exchangeHL x) a b c c') :
    ∃ c₁ c₂, i.effect? L c = some (.done c₁) ∧ j.effect? L c' = some (.done c₂) ∧
      Reshaped (exchangeHL x) a b c₁ c₂ := by
  obtain ⟨dst, src⟩ := s.halves unpointed
  obtain ⟨dst', src'⟩ := Bool.or_eq_false_iff.1 unpointed
  rw [s.dst_eq] at dst'
  rw [s.src_eq] at src'
  have sim := (isAside_exchangeHL x).isSimilarity a b
  refine exists_done_of_rel (alike_effect? sim h L (congrArg Opcode.operation s.entry_eq)
    s.takesIndex ?_ ?_) (s.isSome_effect? L c)
  · rw [s.dst_eq]
    exact Operand.alike_exchangeHL s.dst_isBare dst dst' h
  · rw [s.src_eq]
    exact Operand.alike_exchangeHL s.src_isBare src src' h

/-- **With an indexed operand** an instruction has the effect of the other one on the core with HL
pointing to the same byte, -/
theorem effect?_withHL (pointed : i.pointsByIndex = true)
    (whole : i.dst.isHalfOfHL = false ∧ i.src.isHalfOfHL = false)
    (h : Reshaped (withHL (displaced (c.registers.get16 x.register) d)) a b c c') :
    ∃ c₁ c₂, i.effect? L c = some (.done c₁) ∧ j.effect? L c' = some (.done c₂) ∧
      Reshaped (withHL (displaced (c.registers.get16 x.register) d)) a b c₁ c₂ := by
  obtain ⟨dst, src⟩ := whole
  rw [s.dst_eq, Operand.isHalfOfHL_substitute] at dst
  rw [s.src_eq, Operand.isHalfOfHL_substitute] at src
  obtain ⟨dst', src'⟩ := s.bytes pointed
  have sim := (isAside_withHL (displaced (c.registers.get16 x.register) d)).isSimilarity a b
  refine exists_done_of_rel (alike_effect? sim h L (congrArg Opcode.operation s.entry_eq)
    s.takesIndex ?_ ?_) (s.isSome_effect? L c)
  · rw [s.dst_eq]
    exact Operand.alike_withHL s.dst_isBare dst dst' rfl h
  · rw [s.src_eq]
    exact Operand.alike_withHL s.src_isBare src src' rfl h

/-- and **in either case** it has nothing to do with HL itself. -/
theorem effect?_self (whole : i.dst.isHalfOfHL = false ∧ i.src.isHalfOfHL = false) (w : UInt16)
    (c : Core) : ∃ c₁, i.effect? L c = some (.done c₁) ∧
      i.effect? L (c.withHL w) = some (.done (c₁.withHL w)) := by
  obtain ⟨dst, src⟩ := whole
  rw [s.dst_eq, Operand.isHalfOfHL_substitute] at dst
  rw [s.src_eq, Operand.isHalfOfHL_substitute] at src
  have sim := (isAside_withHL w).isSimilarity 0 0
  have h : Reshaped (withHL w) 0 0 c (c.withHL w) := ⟨c.registers.pc, rfl, .inl rfl⟩
  have takes : i.operation.takesIndex = true := by
    rw [operation, s.entry_eq]
    exact s.takesIndex
  have alike_dst := Operand.alike_self (x := x) (d := d) s.dst_isBare dst h
  have alike_src := Operand.alike_self (x := x) (d := d) s.src_isBare src h
  rw [← s.dst_eq] at alike_dst
  rw [← s.src_eq] at alike_src
  obtain ⟨c₁, c₂, effect, effect', k, rfl, pc⟩ := exists_done_of_rel
    (alike_effect? sim h L rfl takes alike_dst alike_src) (s.isSome_effect? L c)
  have here : k = c₁.registers.pc := pc.elim id fun origin => origin.2.trans origin.1.symm
  subst here
  exact ⟨c₁, effect, effect'⟩

/-- Halves of HL are beside an indexed operand. -/
theorem pointsByIndex_of_half (half : (i.dst.isHalfOfHL || i.src.isHalfOfHL) = true) :
    i.pointsByIndex = true := by
  cases pointed : i.pointsByIndex with
  | true => rfl
  | false =>
    obtain ⟨dst, src⟩ := s.halves pointed
    rw [s.dst_eq, s.src_eq, Operand.isHalfOfHL_substitute, Operand.isHalfOfHL_substitute, dst,
      src] at half
    cases half

/-- **Loading a half of HL** from where an index register points. -/
theorem effect?_load {r : Reg8} (half : r = .h ∨ r = .l) (dst : i.dst = .reg8 r) (c : Core) :
    i.effect? L c = some (.done
      (c.set8 r (c.memory.read (displaced (c.registers.get16 x.register) d)))) := by
  have half_dst : i.dst.isHalfOfHL = true := dst ▸ Operand.isHalfOfHL_reg8 half
  have pointed := s.pointsByIndex_of_half (Bool.or_eq_true_iff.2 (.inl half_dst))
  rw [pointsByIndex, dst] at pointed
  have operation := s.moves (.inl ⟨half_dst, pointed⟩)
  have src : i.src = .indexed x d := by
    rw [s.src_eq] at pointed ⊢
    exact Operand.substitute_eq_indexed s.src_isBare pointed
  unfold effect?
  rw [operation, dst, src]
  obtain rfl | rfl := half <;> rfl

/-- **Storing a half of HL** where an index register points. -/
theorem effect?_store {r : Reg8} (half : r = .h ∨ r = .l) (src : i.src = .reg8 r) (c : Core) :
    i.effect? L c = some (.done
      { c with
        memory := c.memory.write (displaced (c.registers.get16 x.register) d)
          (c.registers.get8 r) }) := by
  have half_src : i.src.isHalfOfHL = true := src ▸ Operand.isHalfOfHL_reg8 half
  have pointed := s.pointsByIndex_of_half (Bool.or_eq_true_iff.2 (.inr half_src))
  rw [pointsByIndex, src, Bool.or_comm] at pointed
  have operation := s.moves (.inr ⟨pointed, half_src⟩)
  have dst : i.dst = .indexed x d := by
    rw [s.dst_eq] at pointed ⊢
    exact Operand.substitute_eq_indexed s.dst_isBare pointed
  unfold effect?
  rw [operation, dst, src]
  rfl

end IsIndexedForm

end Instruction

end Micro80
