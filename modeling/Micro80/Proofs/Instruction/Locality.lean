import Micro80.Proofs.Instruction.Decoding

/-!
# Instructions and their bytes

Decoding looks at the bytes of the instruction that it finds and at no others. So an instruction is
determined by its bytes and its address, whatever memory it has been found in.

## Main definitions

* `Opcode.context`: what the operands of an instruction are decoded from.

## Main statements

* `Instruction.decodeWith_congr`: decoding again where the bytes of the instruction are the same.
* `Instruction.eq_of_bytes_eq`: instructions with the same bytes at the same address are equal.
-/

namespace Micro80

/-! ### Leads -/

namespace Lead

/-- The byte after the first one matters only to an instruction with an index register. -/
theorem read?_congr {v : Variant} {byte byte' : Nat → UInt8} {lead : Lead}
    (h : read? v byte = some lead) (first : byte 0 = byte' 0)
    (second : lead.index.isSome = true → byte 1 = byte' 1) : read? v byte' = some lead := by
  cases v with
  | i8085 => exact h
  | z80 =>
    simp only [read?] at h ⊢
    rw [← first]
    split at h
    · exact h
    · split at h
      · cases h
      · rename_i allowed
        cases h
        rw [← second rfl]
        exact if_neg allowed

/-- An index register is selected by a byte of its own. -/
theorem size_eq_one_of_index {v : Variant} {byte : Nat → UInt8} {lead : Lead}
    (h : read? v byte = some lead) (index : lead.index.isSome = true) : lead.size = 1 := by
  obtain ⟨rfl, -⟩ | ⟨rfl, -⟩ | ⟨x, rfl, -⟩ := read?_cases h
  · cases index
  · cases index
  · rfl

end Lead

/-! ### Contexts -/

namespace Opcode

variable (e : Opcode) (v : Variant) (lead : Lead) (a : UInt16) (byte : Nat → UInt8)

/-- Whether a distance from an index register stands after the opcode. -/
def isSpaced : Bool := lead.index.isSome && e.selectsMemory (byte lead.size)

/-- What the operands of an instruction are decoded from. -/
def context : Encoding.Context where
  opcode := byte lead.size
  index := lead.index
  displacement := if e.isSpaced lead byte then (byte (lead.size + 1)).toInt8 else 0
  start := a
  byte := byte

/-- The number of the first byte of the destination. -/
def dstAt : Nat := lead.size + 1 + (e.isSpaced lead byte).toNat

theorem dst_ofEntry : (Instruction.ofEntry e v lead a byte).dst =
    e.dst.operand (e.context lead a byte) (e.dstAt lead byte) := rfl

theorem src_ofEntry : (Instruction.ofEntry e v lead a byte).src =
    e.src.operand (e.context lead a byte) (e.dstAt lead byte + e.dst.size) := rfl

theorem bytes_ofEntry : (Instruction.ofEntry e v lead a byte).bytes =
    (List.range (e.dstAt lead byte + e.dst.size + e.src.size)).map byte := rfl

end Opcode

/-- The operand of an encoding depends on the bytes that the encoding takes. -/
theorem Encoding.operand_congr (e : Encoding) {c d : Context} (opcode : c.opcode = d.opcode)
    (index : c.index = d.index) (displacement : c.displacement = d.displacement)
    (start : c.start = d.start) {i : Nat}
    (bytes : ∀ k, i ≤ k → k < i + e.size → c.byte k = d.byte k) :
    e.operand c i = e.operand d i := by
  obtain ⟨_, _, _, _, byte⟩ := c
  obtain ⟨_, _, _, _, byte'⟩ := d
  cases opcode
  cases index
  cases displacement
  cases start
  have word (two : e.size = 2) : Micro80.word (byte (i + 1)) (byte i) =
      Micro80.word (byte' (i + 1)) (byte' i) := by
    have low : byte i = byte' i := bytes i (by omega) (by omega)
    have high : byte (i + 1) = byte' (i + 1) := bytes (i + 1) (by omega) (by omega)
    rw [low, high]
  have single (one : e.size = 1) : byte i = byte' i := bytes i (by omega) (by omega)
  cases e with
  | imm8 => exact congrArg Operand.imm8 (single rfl)
  | port => exact congrArg Operand.port (single rfl)
  | relative => simp only [operand, single rfl]
  | imm16 => exact congrArg Operand.imm16 (word rfl)
  | direct8 => exact congrArg Operand.direct (word rfl)
  | direct16 => exact congrArg Operand.direct16 (word rfl)
  | address => exact congrArg Operand.address (word rfl)
  | _ => rfl

namespace Instruction

theorem ofEntry_congr (e : Opcode) (v : Variant) (lead : Lead) (a : UInt16)
    {byte byte' : Nat → UInt8}
    (h : ∀ k < (ofEntry e v lead a byte).length, byte k = byte' k) :
    ofEntry e v lead a byte = ofEntry e v lead a byte' := by
  have long : (ofEntry e v lead a byte).length =
      e.dstAt lead byte + e.dst.size + e.src.size := length_ofEntry e v lead a byte
  have first : lead.size < e.dstAt lead byte := by
    unfold Opcode.dstAt
    omega
  have opcode : byte lead.size = byte' lead.size := h _ (by omega)
  have spaced : e.isSpaced lead byte = e.isSpaced lead byte' := by
    unfold Opcode.isSpaced
    rw [opcode]
  have dstAt : e.dstAt lead byte = e.dstAt lead byte' := by
    unfold Opcode.dstAt
    rw [spaced]
  have displacement : (e.context lead a byte).displacement =
      (e.context lead a byte').displacement := by
    show (if e.isSpaced lead byte = true then (byte (lead.size + 1)).toInt8 else 0) =
      if e.isSpaced lead byte' = true then (byte' (lead.size + 1)).toInt8 else 0
    rw [← spaced]
    by_cases distance : e.isSpaced lead byte = true
    · have second : lead.size + 1 < e.dstAt lead byte := by
        unfold Opcode.dstAt
        rw [distance]
        exact Nat.lt_succ_self _
      rw [h (lead.size + 1) (by omega)]
    · rw [if_neg distance, if_neg distance]
  have dst : (ofEntry e v lead a byte).dst = (ofEntry e v lead a byte').dst := by
    rw [e.dst_ofEntry, e.dst_ofEntry, ← dstAt]
    refine e.dst.operand_congr ?_ ?_ displacement ?_ fun k _ hk => ?_
    · exact opcode
    · rfl
    · rfl
    · exact h k (by omega)
  have src : (ofEntry e v lead a byte).src = (ofEntry e v lead a byte').src := by
    rw [e.src_ofEntry, e.src_ofEntry, ← dstAt]
    refine e.src.operand_congr ?_ ?_ displacement ?_ fun k _ hk => ?_
    · exact opcode
    · rfl
    · rfl
    · exact h k (by omega)
  have bytes : (ofEntry e v lead a byte).bytes = (ofEntry e v lead a byte').bytes := by
    rw [e.bytes_ofEntry, e.bytes_ofEntry, ← dstAt]
    exact List.map_congr_left fun k hk => h k (long ▸ List.mem_range.1 hk)
  exact (Instruction.mk.injEq ..).mpr ⟨rfl, rfl, rfl, bytes, rfl, dst, src⟩

/-- **Decoding looks at no other bytes** than those of the instruction. -/
theorem decodeWith_congr {table : List Opcode} {v : Variant} {a : UInt16} {byte byte' : Nat → UInt8}
    {i : Instruction} (h : decodeWith table v a byte = .ok i)
    (same : ∀ k < i.length, byte k = byte' k) : decodeWith table v a byte' = .ok i := by
  obtain ⟨lead, e, hl, he, allowed, rfl, sound⟩ := decodeWith_eq_ok_iff.1 h
  have long := length_ofEntry e v lead a byte
  have opcode : byte lead.size = byte' lead.size := same _ (by omega)
  have congr := ofEntry_congr e v lead a same
  refine decodeWith_eq_ok_iff.2 ⟨lead, e, ?_, ?_, ?_, congr, sound⟩
  · refine Lead.read?_congr hl (same 0 (by omega)) fun index => same 1 ?_
    have := Lead.size_eq_one_of_index hl index
    omega
  · rw [← opcode]
    exact he
  · rw [← opcode]
    exact allowed

/-- The bytes of an instruction are those from its address on. -/
theorem bytes_of_decodeWith {table : List Opcode} {v : Variant} {a : UInt16} {byte : Nat → UInt8}
    {i : Instruction} (h : decodeWith table v a byte = .ok i) :
    i.bytes = (List.range i.length).map byte := by
  obtain ⟨lead, e, -, -, -, rfl, -⟩ := decodeWith_eq_ok_iff.1 h
  rw [length_ofEntry]
  rfl

/-- **Instructions with the same bytes** at the same address are equal. -/
theorem eq_of_bytes_eq {v : Variant} {m m' : Memory} {a : UInt16} {i j : Instruction}
    (hi : decode v m a = .ok i) (hj : decode v m' a = .ok j) (bytes : i.bytes = j.bytes) :
    i = j := by
  have hi := decode_eq_ok_iff.1 hi
  have hj := decode_eq_ok_iff.1 hj
  have same : ∀ k < i.length, m.ahead a k = m'.ahead a k := by
    have length : i.length = j.length := congrArg List.length bytes
    rw [bytes_of_decodeWith hi, bytes_of_decodeWith hj, ← length] at bytes
    exact fun k hk => List.map_inj_left.1 bytes k (List.mem_range.2 hk)
  have again := decodeWith_congr hi same
  exact Except.ok.inj (again.symm.trans hj)

/-- An instruction is decoded again from its own bytes. -/
theorem decodeWith_bytes {v : Variant} {m : Memory} {a : UInt16} {i : Instruction}
    (h : decode v m a = .ok i) :
    decodeWith v.opcodes v a (fun k => i.bytes.getD k 0) = .ok i := by
  have own := decode_eq_ok_iff.1 h
  refine decodeWith_congr own fun k hk => ?_
  rw [bytes_of_decodeWith own, List.getD_eq_getElem?_getD, List.getElem?_map,
    List.getElem?_range hk]
  rfl

end Instruction

end Micro80
