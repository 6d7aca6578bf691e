import Micro80.Proofs.Instruction.Decoding

/-!
# The accepted instructions

Which bytes begin an instruction of a processor can be listed, since at most two of them decide.
The lists here are the instruction sets as a programmer knows them; that the decoders accept exactly
these bytes, and how they classify all others, is checked opcode by opcode against the tables.

## Main definitions

* `Z80.Implemented`: the pairs of bytes that begin an instruction of the Z80.
* `Z80.IsMemoryMove`: the pairs of bytes that ask for a move from memory to memory.
* `I8085.Implemented`: the bytes that begin an instruction of the 8085.

## Main statements

* `Instruction.decode_classification`: decoding succeeds on these bytes only, and the error tells
  apart what the others are.
-/

namespace Micro80

/-! ### The instruction sets -/

namespace Z80

/-- The bytes that are no instruction without the byte after them. -/
def leads : List UInt8 := [0xCB, 0xDD, 0xED, 0xFD]

/-- The opcodes after a byte `ED`. -/
def extendedOpcodes : List UInt8 :=
  [ 0x40, 0x48, 0x50, 0x58, 0x60, 0x68, 0x78, 0x41, 0x49, 0x51, 0x59, 0x61, 0x69, 0x79,
    0x42, 0x52, 0x62, 0x72, 0x4A, 0x5A, 0x6A, 0x7A, 0x43, 0x53, 0x63, 0x73,
    0x4B, 0x5B, 0x6B, 0x7B, 0x44, 0xA0, 0xA8, 0xB0, 0xB8 ]

/-- The opcodes after a byte `DD` or `FD`. -/
def indexedOpcodes : List UInt8 :=
  [ 0x09, 0x19, 0x21, 0x22, 0x23, 0x29, 0x2A, 0x2B, 0x34, 0x35, 0x36, 0x39,
    0x46, 0x4E, 0x56, 0x5E, 0x66, 0x6E, 0x7E, 0x70, 0x71, 0x72, 0x73, 0x74, 0x75, 0x77,
    0x86, 0x8E, 0x96, 0x9E, 0xA6, 0xAE, 0xB6, 0xBE, 0xE1, 0xE3, 0xE5, 0xE9, 0xF9 ]

/-- **The instruction set of the Z80**, by the first two bytes. -/
def Implemented (b₀ b₁ : UInt8) : Prop :=
  b₀ ∉ leads ∨ (b₀ = 0xCB ∧ ¬(0x30 ≤ b₁ ∧ b₁ ≤ 0x37)) ∨ (b₀ = 0xED ∧ b₁ ∈ extendedOpcodes)
    ∨ ((b₀ = 0xDD ∨ b₀ = 0xFD) ∧ b₁ ∈ indexedOpcodes)

/-- The move from memory to memory, which exists with an index register only, since the halt
instruction stands in its place otherwise. -/
def IsMemoryMove (b₀ b₁ : UInt8) : Prop := (b₀ = 0xDD ∨ b₀ = 0xFD) ∧ b₁ = 0x76

instance decidableImplemented (b₀ b₁ : UInt8) : Decidable (Implemented b₀ b₁) :=
  inferInstanceAs (Decidable (_ ∨ _ ∨ _ ∨ _))

instance decidableIsMemoryMove (b₀ b₁ : UInt8) : Decidable (IsMemoryMove b₀ b₁) :=
  inferInstanceAs (Decidable (_ ∧ _))

/-- A byte that is no lead begins an instruction whatever comes after it. -/
theorem implemented_congr {b₀ b₁ b₁' : UInt8} (h : b₀ ∈ leads → b₁ = b₁') :
    Implemented b₀ b₁ ↔ Implemented b₀ b₁' := by
  by_cases lead : b₀ ∈ leads
  · rw [h lead]
  · exact iff_of_true (.inl lead) (.inl lead)

/-- The verdict on two bytes. -/
def classify (b₀ b₁ : UInt8) : Option DecodeError :=
  if Implemented b₀ b₁ then none
  else if IsMemoryMove b₀ b₁ then some .memoryToMemory
  else some .illegalOpcode

theorem classify_congr {b₀ b₁ b₁' : UInt8} (h : b₀ ∈ leads → b₁ = b₁') :
    classify b₀ b₁ = classify b₀ b₁' := by
  by_cases lead : b₀ ∈ leads
  · rw [h lead]
  · rw [classify, classify, if_pos (.inl lead), if_pos (.inl lead)]

end Z80

namespace I8085

/-- The bytes that begin no instruction. -/
def missing : List UInt8 :=
  [0x08, 0x10, 0x18, 0x20, 0x28, 0x30, 0x38, 0xCB, 0xD9, 0xDD, 0xED, 0xFD]

/-- **The instruction set of the 8085**, by the first byte. -/
def Implemented (b₀ : UInt8) : Prop := b₀ ∉ missing

instance decidableImplemented (b₀ : UInt8) : Decidable (Implemented b₀) :=
  inferInstanceAs (Decidable (¬_))

end I8085

/-! ### Opcode by opcode -/

/-- The move from memory to memory is no instruction. -/
theorem Z80.IsMemoryMove.not_implemented {b₀ b₁ : UInt8} (h : IsMemoryMove b₀ b₁) :
    ¬Implemented b₀ b₁ := by
  obtain ⟨h | h, rfl⟩ := h <;> subst h <;> decide

theorem Lead.eq_of_isPage {b : UInt8} (h : isPage b = true) : b = 0xCB ∨ b = 0xED := by
  simpa [isPage] using h

/-- A byte that neither selects an index register nor other entries is no lead. -/
theorem Z80.notMem_leads {b : UInt8} (noIndex : Index.ofLead? b = none)
    (noPage : Lead.isPage b = false) : b ∉ leads := by
  intro h
  simp only [leads, List.mem_cons, List.not_mem_nil, or_false] at h
  obtain rfl | rfl | rfl | rfl := h
  · cases noPage
  · cases noIndex
  · cases noPage
  · cases noIndex

/-- What begins an instruction of the 8085 is no lead. -/
theorem I8085.Implemented.notMem_leads {b : UInt8} (h : I8085.Implemented b) : b ∉ Z80.leads := by
  intro hb
  apply h
  simp only [Z80.leads, List.mem_cons, List.not_mem_nil, or_false] at hb
  obtain rfl | rfl | rfl | rfl := hb <;> decide

namespace Instruction

/-- The 8085 judges an opcode by whether it has it. -/
theorem judge_i8085 (b : UInt8) :
    judge I8085.opcodes .i8085 .empty b
      = if I8085.Implemented b then none else some .illegalOpcode := by
  revert b
  apply forall_byte
  decide +kernel

/-- The Z80 has all opcodes that are not leads. -/
theorem judge_z80_plain (b : UInt8) :
    b ∉ Z80.leads → judge Z80.opcodes .z80 .empty b = none := by
  revert b
  apply forall_byte
  decide +kernel

theorem judge_z80_bits (b : UInt8) :
    judge Z80.opcodes .z80 ⟨none, some 0xCB, 1⟩ b = Z80.classify 0xCB b := by
  revert b
  apply forall_byte
  decide +kernel

theorem judge_z80_extended (b : UInt8) :
    judge Z80.opcodes .z80 ⟨none, some 0xED, 1⟩ b = Z80.classify 0xED b := by
  revert b
  apply forall_byte
  decide +kernel

/-- After a byte for an index register no byte for another one and none that selects other entries
may stand, and the Z80 judges the rest by its table. -/
theorem judge_z80_indexed (x : Index) (b : UInt8) :
    (if Lead.isPage b || (Index.ofLead? b).isSome then some .illegalOpcode
      else judge Z80.opcodes .z80 ⟨some x, none, 1⟩ b) = Z80.classify x.lead b := by
  revert b
  apply forall_byte
  cases x <;> decide +kernel

/-! ### Any bytes -/

/-- **The Z80 on any bytes**: the first two decide. -/
theorem verdict_z80 (a : UInt16) (byte : Nat → UInt8) :
    verdict (decodeWith Z80.opcodes .z80 a byte) = Z80.classify (byte 0) (byte 1) := by
  rw [verdict_decodeWith]
  cases hx : Index.ofLead? (byte 0) with
  | some x =>
    rw [Index.eq_lead_of_ofLead? hx, ← judge_z80_indexed]
    by_cases taken : (Lead.isPage (byte 1) || (Index.ofLead? (byte 1)).isSome) = true
    · simp only [Lead.read?, hx, taken, if_true]
    · simp only [Lead.read?, hx, taken, if_false, Bool.false_eq_true]
  | none =>
    by_cases page : Lead.isPage (byte 0) = true
    · simp only [Lead.read?, hx, page, if_true]
      obtain bits | extended := Lead.eq_of_isPage page
      · rw [bits, judge_z80_bits]
      · rw [extended, judge_z80_extended]
    · have noPage := Bool.eq_false_iff.2 page
      have plain := Z80.notMem_leads hx noPage
      have implemented : Z80.Implemented (byte 0) (byte 1) := Or.inl plain
      rw [Lead.read?_of_plain hx noPage, Z80.classify, if_pos implemented]
      exact judge_z80_plain (byte 0) plain

/-- **The 8085 on any bytes**: the first one decides. -/
theorem verdict_i8085 (a : UInt16) (byte : Nat → UInt8) :
    verdict (decodeWith I8085.opcodes .i8085 a byte)
      = if I8085.Implemented (byte 0) then none else some .illegalOpcode := by
  rw [verdict_decodeWith, Lead.read?_i8085]
  exact judge_i8085 (byte 0)

/-! ### Memory -/

theorem verdict_decodeOwn_z80 (m : Memory) (a : UInt16) :
    verdict (decodeOwn .z80 m a) = Z80.classify (m.read a) (m.read (a + 1)) := by
  rw [← m.ahead_zero, ← m.ahead_one]
  exact verdict_z80 a (m.ahead a)

theorem verdict_decodeOwn_i8085 (m : Memory) (a : UInt16) :
    verdict (decodeOwn .i8085 m a)
      = if I8085.Implemented (m.read a) then none else some .illegalOpcode := by
  rw [← m.ahead_zero]
  exact verdict_i8085 a (m.ahead a)

/-- The Z80 never refers to the 8085, whose instructions it has too. -/
theorem verdict_decode_z80 (m : Memory) (a : UInt16) :
    verdict (decode .z80 m a) = Z80.classify (m.read a) (m.read (a + 1)) := by
  rw [verdict_decode, verdict_decodeOwn_z80, Variant.other, verdict_decodeOwn_i8085]
  by_cases h : I8085.Implemented (m.read a)
  · have implemented : Z80.Implemented (m.read a) (m.read (a + 1)) := Or.inl h.notMem_leads
    rw [Z80.classify, if_pos implemented]
    rfl
  · rw [if_neg h]
    split
    · rename_i illegal
      rw [illegal]
      rfl
    · rfl

/-- The 8085 refers to the Z80 where that has the instruction. -/
theorem verdict_decode_i8085 (m : Memory) (a : UInt16) :
    verdict (decode .i8085 m a)
      = if I8085.Implemented (m.read a) then none
        else if Z80.Implemented (m.read a) (m.read (a + 1)) then some .wrongVariant
        else some .illegalOpcode := by
  rw [verdict_decode, verdict_decodeOwn_i8085, Variant.other, verdict_decodeOwn_z80]
  by_cases h : I8085.Implemented (m.read a)
  · rw [if_pos h, if_pos h]
    rfl
  · rw [if_neg h, if_neg h, if_pos rfl]
    by_cases z : Z80.Implemented (m.read a) (m.read (a + 1))
    · rw [Z80.classify, if_pos z, if_pos z, if_pos rfl]
    · rw [if_neg z, if_neg]
      rw [Z80.classify, if_neg z]
      split <;> simp

/-- **Where there is no instruction** the first byte decides, and behind a lead the second one. The
bytes further on, and those elsewhere, do not matter. -/
theorem decode_eq_error_congr {v : Variant} {m m' : Memory} {a : UInt16} {e : DecodeError}
    (opcode : m'.read a = m.read a)
    (second : m.read a ∈ Z80.leads → m'.read (a + 1) = m.read (a + 1))
    (h : decode v m a = .error e) : decode v m' a = .error e := by
  rw [← verdict_eq_some_iff] at h ⊢
  rw [← h]
  cases v with
  | z80 =>
    rw [verdict_decode_z80, verdict_decode_z80, opcode, Z80.classify_congr second]
  | i8085 =>
    rw [verdict_decode_i8085, verdict_decode_i8085, opcode]
    simp only [Z80.implemented_congr second]

/-- **Classification.** The Z80 has an instruction exactly where its first two bytes are listed; it
tells the move from memory to memory apart and calls everything else illegal. The 8085 has an
instruction exactly where its first byte is listed; elsewhere it tells whether the Z80 has one. -/
theorem decode_classification (m : Memory) (a : UInt16) :
    ((∃ i, decode .z80 m a = .ok i) ↔ Z80.Implemented (m.read a) (m.read (a + 1)))
    ∧ (decode .z80 m a = .error .memoryToMemory
        ↔ Z80.IsMemoryMove (m.read a) (m.read (a + 1)))
    ∧ (decode .z80 m a = .error .illegalOpcode
        ↔ ¬Z80.Implemented (m.read a) (m.read (a + 1))
          ∧ ¬Z80.IsMemoryMove (m.read a) (m.read (a + 1)))
    ∧ decode .z80 m a ≠ .error .wrongVariant
    ∧ ((∃ i, decode .i8085 m a = .ok i) ↔ I8085.Implemented (m.read a))
    ∧ (decode .i8085 m a = .error .wrongVariant
        ↔ ¬I8085.Implemented (m.read a) ∧ ∃ i, decode .z80 m a = .ok i)
    ∧ (decode .i8085 m a = .error .illegalOpcode
        ↔ ¬I8085.Implemented (m.read a) ∧ ¬∃ i, decode .z80 m a = .ok i)
    ∧ decode .i8085 m a ≠ .error .memoryToMemory := by
  simp only [ne_eq, ← verdict_eq_none_iff, ← verdict_eq_some_iff, verdict_decode_z80,
    verdict_decode_i8085]
  unfold Z80.classify
  by_cases y : Z80.IsMemoryMove (m.read a) (m.read (a + 1))
  · -- such a move begins with a lead, so the 8085 has nothing there either
    have z := y.not_implemented
    have i : ¬I8085.Implemented (m.read a) := fun i => z (Or.inl i.notMem_leads)
    simp [y, z, i]
  · by_cases z : Z80.Implemented (m.read a) (m.read (a + 1)) <;>
      by_cases i : I8085.Implemented (m.read a) <;> simp [y, z, i]

end Instruction

end Micro80
