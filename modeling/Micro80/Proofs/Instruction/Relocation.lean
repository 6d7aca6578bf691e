import Micro80.Proofs.Instruction.Form

/-!
# Instructions at other addresses

An instruction may be moved: the same bytes at another address are the same instruction there, and
it does not matter what comes behind them. The operands do not change either, apart from the target
of a relative jump. This is counted from the address behind the instruction, so it moves along with
the instruction, while the distance that is in the bytes stays.

## Main definitions

* `Operand.shifted`, `Instruction.relocated`: operands and instructions at another address.

## Main statements

* `Encoding.operand_of_start`: how operands depend on the address of their instruction.
* `Instruction.decodeWith_relocated`: decoding the same bytes at another address.
* `Instruction.decode_relocated`: decoding is local, and instructions may be moved.
-/

namespace Micro80

/-! ### Operands -/

namespace Operand

/-- The operand of an instruction that has been moved by some addresses. -/
def shifted (n : UInt16) : Operand → Operand
  | relative a d => relative (a + n) d
  | o => o

/-- Whether an operand is given by its distance from the instruction. -/
def isRelative : Operand → Bool
  | relative .. => true
  | _ => false

theorem shifted_of_not_isRelative {o : Operand} (h : o.isRelative = false) (n : UInt16) :
    o.shifted n = o := by
  cases o with
  | relative => cases h
  | _ => rfl

end Operand

namespace Encoding

theorem isRelative_byCode (c : Context) (code : Fin 8) : (c.byCode code).isRelative = false := by
  unfold Context.byCode
  split <;> rfl

/-- One encoding is that of relative operands. -/
theorem isRelative_operand (e : Encoding) (c : Context) (i : Nat) :
    (e.operand c i).isRelative = (e == .relative) := by
  cases e with
  | high => exact isRelative_byCode c _
  | low => exact isRelative_byCode c _
  | _ => rfl

/-- **Operands at another address** have been shifted, whatever the encoding. -/
theorem operand_of_start (e : Encoding) (c : Context) (a : UInt16) (i : Nat) :
    e.operand { c with start := a } i = (e.operand c i).shifted (a - c.start) := by
  cases relative : e == .relative with
  | false =>
    rw [Operand.shifted_of_not_isRelative ((e.isRelative_operand c i).trans relative)]
    cases e with
    | relative => cases relative
    | _ => rfl
  | true =>
    obtain rfl := eq_of_beq relative
    simp only [operand, Operand.shifted]
    congr 1
    grind

end Encoding

namespace Instruction

/-! ### Instructions -/

/-- **Relocation.** The instruction with the same bytes at another address. -/
def relocated (a : UInt16) (i : Instruction) : Instruction :=
  { i with
    address := a
    dst := i.dst.shifted (a - i.address)
    src := i.src.shifted (a - i.address) }

theorem ofEntry_relocated (e : Opcode) (v : Variant) (lead : Lead) (a a' : UInt16)
    (byte : Nat → UInt8) :
    ofEntry e v lead a' byte = (ofEntry e v lead a byte).relocated a' := by
  have dst := e.dst.operand_of_start (e.context lead a byte) a' (e.dstAt lead byte)
  have src := e.src.operand_of_start (e.context lead a byte) a' (e.dstAt lead byte + e.dst.size)
  exact (Instruction.mk.injEq ..).mpr ⟨rfl, rfl, rfl, rfl, rfl, dst, src⟩

/-- **Decoding the same bytes at another address.** Whether there is a defect does not depend on the
address. -/
theorem decodeWith_relocated {table : List Opcode} {v : Variant} {a : UInt16} {byte : Nat → UInt8}
    {i : Instruction} (h : decodeWith table v a byte = .ok i) (a' : UInt16) :
    decodeWith table v a' byte = .ok (i.relocated a') := by
  obtain ⟨lead, e, hl, he, allowed, rfl, sound⟩ := decodeWith_eq_ok_iff.1 h
  refine decodeWith_eq_ok_iff.2 ⟨lead, e, hl, he, allowed, ?_, ?_⟩
  · exact (ofEntry_relocated e v lead a a' byte).symm
  · rw [← ofEntry_relocated, ← defect?_ofEntry e v lead a a' byte byte rfl]
    exact sound

section

variable {v : Variant} {m : Memory} {a : UInt16} {i : Instruction} (h : decode v m a = .ok i)

include h

/-- Destinations are never relative, so they are the same everywhere, -/
theorem dst_relocated (a' : UInt16) : (i.relocated a').dst = i.dst := by
  obtain ⟨lead, e, -, -, -, mem, -, rfl⟩ := exists_entry_of_decode h
  refine Operand.shifted_of_not_isRelative ?_ _
  rw [e.dst_ofEntry, Encoding.isRelative_operand, beq_eq_false_iff_ne]
  exact (v.relative_of_mem e mem).1

/-- and so are the sources of all operations but two. -/
theorem src_relocated (jr : i.operation ≠ .jr) (djnz : i.operation ≠ .djnz) (a' : UInt16) :
    (i.relocated a').src = i.src := by
  obtain ⟨lead, e, -, -, -, mem, -, rfl⟩ := exists_entry_of_decode h
  refine Operand.shifted_of_not_isRelative ?_ _
  rw [e.src_ofEntry, Encoding.isRelative_operand, beq_eq_false_iff_ne]
  intro relative
  obtain isJr | isDjnz := (v.relative_of_mem e mem).2 relative
  · exact jr isJr
  · exact djnz isDjnz

/-- The target of a relative jump moves along with it. -/
theorem src_relocated_of_jr (jumps : i.operation = .jr ∨ i.operation = .djnz) :
    ∃ target distance, i.src = .relative target distance ∧
      ∀ a', (i.relocated a').src = .relative (target + (a' - a)) distance := by
  have relative := (src_of_jr h jumps).2
  refine ⟨_, _, relative, fun a' => ?_⟩
  unfold relocated
  rw [relative, address_of_decode h]
  rfl

end

/-- **Decoding is local, and instructions may be moved.** The bytes of a decoded instruction are
those from its address on, wrapping around. Wherever the same bytes are in any memory, whatever
stands behind them, the same instruction is decoded there. Its operands are the same, but for the
target of a relative jump, which moves by as much as the instruction while the distance stays. -/
theorem decode_relocated {v : Variant} {m : Memory} {a : UInt16} {i : Instruction}
    (h : decode v m a = .ok i) :
    (∀ k < i.length, i.bytes[k]? = some (m.read (a + UInt16.ofNat k))) ∧
    (∀ (m' : Memory) (a' : UInt16),
      (∀ k < i.length, i.bytes[k]? = some (m'.read (a' + UInt16.ofNat k))) →
        decode v m' a' = .ok (i.relocated a')) ∧
    (∀ a', (i.relocated a').dst = i.dst) ∧
    (i.operation ≠ .jr → i.operation ≠ .djnz → ∀ a', (i.relocated a').src = i.src) ∧
    (i.operation = .jr ∨ i.operation = .djnz →
      ∃ target distance, i.src = .relative target distance ∧
        ∀ a', (i.relocated a').src = .relative (target + (a' - a)) distance) := by
  have own := decode_eq_ok_iff.1 h
  have bytes (k : Nat) (hk : k < i.length) : i.bytes[k]? = some (m.ahead a k) := by
    rw [bytes_of_decodeWith own, List.getElem?_map, List.getElem?_range hk]
    rfl
  refine ⟨bytes, fun m' a' same => ?_, dst_relocated h, src_relocated h, src_relocated_of_jr h⟩
  have behind : decodeWith v.opcodes v a (m'.ahead a') = .ok i :=
    decodeWith_congr own fun k hk => Option.some.inj ((bytes k hk).symm.trans (same k hk))
  exact decode_eq_ok_iff.2 (decodeWith_relocated behind a')

/-- A jump to itself, `10 FE`, is moved to the end of memory, so that it goes across it. -/
theorem decode_relocated_djnz :
    let m := ((Memory.blank.write 0x20 0x10).write 0x21 0xFE).write 0x22 0x76
    let m' := (Memory.blank.write 0xFFFF 0x10).write 0 0xFE
    ∃ i, decode .z80 m 0x20 = .ok i ∧ decode .z80 m' 0xFFFF = .ok (i.relocated 0xFFFF) ∧
      i.src = .relative 0x20 (-2) ∧ (i.relocated 0xFFFF).src = .relative 0xFFFF (-2) := by
  intro m m'
  have found : (decode .z80 m 0x20).toOption.map (fun i => (i.operation, i.bytes, i.src)) =
      some (.djnz, [0x10, 0xFE], .relative 0x20 (-2)) := by decide +kernel
  obtain ⟨i, decoded, known⟩ := exists_decode_of_map found
  simp only [Prod.mk.injEq] at known
  obtain ⟨operation, bytes, src⟩ := known
  obtain ⟨-, moved, -, -, jumps⟩ := decode_relocated decoded
  obtain ⟨target, distance, relative, along⟩ := jumps (.inr operation)
  cases src.symm.trans relative
  refine ⟨i, decoded, moved m' 0xFFFF fun k hk => ?_, src, along 0xFFFF⟩
  rw [length, bytes, List.length_cons, List.length_singleton] at hk
  rw [bytes]
  obtain rfl | rfl : k = 0 ∨ k = 1 := by omega
  · simp [m']
  · simp [m']

end Instruction

end Micro80
