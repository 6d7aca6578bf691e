import Micro80.Proofs.Instruction.Form
import Micro80.Proofs.Instruction.Preservation

/-!
# Instructions for ports

An instruction for a port moves a byte between the port and a register. The port has its number in
the byte behind the opcode, and the register is then the accumulator, or it has its number in
register C, and the register can be any but the flags. Only a byte that comes in through the port in
register C leaves traces in the flags.

That the instructions of both tables are of this kind is read off the tables, as with other forms.
The number of the port and what becomes of the byte are stated in terms of the core in front of the
instruction and the core behind it.

## Main definitions

* `PortSource`, with `PortSource.number` and `PortSource.take`: the two ways to select a port.
* `PortInstruction`, with `Instruction.port?`: the parts of an instruction for a port.
* `MovesByte`, `Instruction.IsForPort`: what the operands of an instruction come to, and what its
  parts say about it.

## Main statements

* `Instruction.isForPort_of_decode`: the parts of a decoded instruction say what it is.
* `Instruction.port?_eq_none_iff`: the instructions for ports are those for input and output.
* `Instruction.effect?_of_input`, `Instruction.effect?_of_output`: what they want.
* `Instruction.effect?_of_no_port`: the others want no port.
-/

namespace Micro80

/-! ### Parts of instructions -/

/-- **Selections of a port.** Where its number comes from. -/
inductive PortSource where
  /-- The byte behind the opcode. -/
  | immediate
  /-- Register C. -/
  | inC
  deriving DecidableEq

namespace PortSource

/-- The number of the port, for a core in front of the instruction. -/
def number (c : Core) : PortSource → UInt8
  | immediate => c.memory.read (c.registers.pc + 1)
  | inC => c.registers.get8 .c

/-- **Taking a byte** that has come in. The flags tell about it if register C has selected the port,
and else they stay. -/
def take (L : FlagLayout) (r : Reg8) (c : Core) (b : UInt8) : PortSource → Core
  | immediate => c.set8 r b
  | inC => (c.set8 r b).setFlags L (Alu.input L b c.flags).flags

variable (L : FlagLayout) {r : Reg8} (c : Core) (b : UInt8)

theorem get8_take (s : PortSource) (h : r ≠ .f) : (s.take L r c b).registers.get8 r = b := by
  cases s with
  | immediate => exact (RegisterSet.get_set ..).trans (if_pos rfl)
  | inC =>
    refine (RegisterSet.get_set ..).trans ((if_neg h).trans ?_)
    exact (RegisterSet.get_set ..).trans (if_pos rfl)

theorem flags_take_immediate (h : r ≠ .f) : (immediate.take L r c b).flags = c.flags :=
  (RegisterSet.get_set c.registers.main r .f b).trans (if_neg h.symm)

theorem pc_take (s : PortSource) : (s.take L r c b).registers.pc = c.registers.pc := by
  cases s <;> rfl

end PortSource

/-- **Instructions for ports.** The direction, the register and the way to select the port. -/
inductive PortInstruction where
  | input (r : Reg8) (source : PortSource)
  | output (r : Reg8) (source : PortSource)
  deriving DecidableEq

/-- The register and the way to select the port, given the operands. -/
def Operand.moved? (register other : Operand) : Option (Reg8 × PortSource) :=
  match register, other with
  | .reg8 r, .port _ => some (r, .immediate)
  | .reg8 r, .portC => some (r, .inC)
  | _, _ => none

/-- The parts of an instruction for a port, if it is one. -/
def Instruction.port? (i : Instruction) : Option PortInstruction :=
  match i.operation with
  | .input => (i.dst.moved? i.src).map fun x => .input x.1 x.2
  | .output => (i.src.moved? i.dst).map fun x => .output x.1 x.2
  | _ => none

/-! ### Operands -/

/-- **Operands for a port.** The operands of the instruction at an address, first the register and
then the port, with the parts that they stand for. -/
inductive MovesByte (m : Memory) (a : UInt16) : Operand → Operand → Reg8 → PortSource → Prop where
  | immediate : MovesByte m a (.reg8 .a) (.port (m.read (a + 1))) .a .immediate
  | inC {r : Reg8} (h : r ≠ .f) : MovesByte m a (.reg8 r) .portC r .inC

namespace MovesByte

variable {m : Memory} {a : UInt16} {register other : Operand} {r : Reg8} {s : PortSource}
  (h : MovesByte m a register other r s)

include h

theorem moved?_eq : register.moved? other = some (r, s) := by
  cases h <;> rfl

theorem ne_flags : r ≠ .f := by
  cases h with
  | immediate => exact nofun
  | inC noFlags => exact noFlags

end MovesByte

namespace Opcode

/-- Whether two encodings are those of a register and of a port that go together. -/
def movesByte (e : Opcode) (register other : Encoding) : Bool :=
  e.lead == none && !e.indexable && register == .accumulator && other == .port
    || e.registersOnly && register == .high && other == .portC

/-- **Forms of entries for ports.** -/
def isForPort (e : Opcode) : Bool :=
  match e.operation with
  | .input => e.movesByte e.dst e.src
  | .output => e.movesByte e.src e.dst
  | _ => true

theorem movesByte_iff {e : Opcode} {register other : Encoding} :
    e.movesByte register other = true ↔
      (e.lead = none ∧ e.indexable = false) ∧ register = .accumulator ∧ other = .port ∨
        e.registersOnly = true ∧ register = .high ∧ other = .portC := by
  simp only [movesByte, Bool.or_eq_true, Bool.and_eq_true, beq_iff_eq, Bool.not_eq_true', and_assoc]

end Opcode

theorem Variant.isForPort_of_mem (v : Variant) : ∀ e ∈ v.opcodes, e.isForPort = true := by
  cases v <;> decide

/-- Any register but the flags can go with the port in register C. -/
theorem Encoding.exists_movesByte_inC (c : Context) (m : Memory) (a : UInt16) {code : Fin 8}
    (h : (code.val == 6) = false) : ∃ r s, MovesByte m a (c.byCode code) .portC r s := by
  obtain ⟨r, register⟩ := exists_byCode_eq c h
  refine ⟨r, .inC, register ▸ .inC ?_⟩
  rintro rfl
  exact byCode_ne_flags c code register

namespace Instruction

section

variable {v : Variant} {m : Memory} {a : UInt16} {i : Instruction} (h : decode v m a = .ok i)

include h

/-- **Input** goes from a port to a register. -/
theorem exists_movesByte_of_input (operation : i.operation = .input) :
    ∃ r s, MovesByte m a i.dst i.src r s := by
  obtain ⟨lead, e, hl, he, allowed, mem, -, rfl⟩ := exists_entry_of_decode h
  have form := v.isForPort_of_mem e mem
  replace operation : e.operation = .input := operation
  simp only [Opcode.isForPort, operation] at form
  rw [e.dst_ofEntry, e.src_ofEntry]
  obtain ⟨⟨alone, unindexed⟩, dst, src⟩ | ⟨registersOnly, dst, src⟩ := Opcode.movesByte_iff.1 form
  · obtain rfl := Lead.eq_empty_of_find? hl he alone unindexed
    rw [dst, src]
    exact ⟨_, _, .immediate⟩
  · -- The code of memory is what the entry excludes.
    simp only [registersOnly, Opcode.selectsMemory, dst, src, Encoding.selectsMemory,
      Bool.true_and, Bool.or_false] at allowed
    rw [dst, src]
    exact Encoding.exists_movesByte_inC _ m a allowed

/-- **Output** goes from a register to a port. -/
theorem exists_movesByte_of_output (operation : i.operation = .output) :
    ∃ r s, MovesByte m a i.src i.dst r s := by
  obtain ⟨lead, e, hl, he, allowed, mem, -, rfl⟩ := exists_entry_of_decode h
  have form := v.isForPort_of_mem e mem
  replace operation : e.operation = .output := operation
  simp only [Opcode.isForPort, operation] at form
  rw [e.dst_ofEntry, e.src_ofEntry]
  obtain ⟨⟨alone, unindexed⟩, src, dst⟩ | ⟨registersOnly, src, dst⟩ := Opcode.movesByte_iff.1 form
  · obtain rfl := Lead.eq_empty_of_find? hl he alone unindexed
    rw [dst, src]
    exact ⟨_, _, .immediate⟩
  · simp only [registersOnly, Opcode.selectsMemory, dst, src, Encoding.selectsMemory,
      Bool.true_and, Bool.false_or] at allowed
    rw [dst, src]
    exact Encoding.exists_movesByte_inC _ m a allowed

end

/-- **Being for a port.** What the parts of an instruction say about its operation and operands. -/
inductive IsForPort (m : Memory) (a : UInt16) (i : Instruction) :
    Option PortInstruction → Prop where
  | input {r : Reg8} {s : PortSource} (operation : i.operation = .input)
      (moves : MovesByte m a i.dst i.src r s) : IsForPort m a i (some (.input r s))
  | output {r : Reg8} {s : PortSource} (operation : i.operation = .output)
      (moves : MovesByte m a i.src i.dst r s) : IsForPort m a i (some (.output r s))
  | none (noInput : i.operation ≠ .input) (noOutput : i.operation ≠ .output) : IsForPort m a i none

theorem isForPort_of_decode {v : Variant} {m : Memory} {a : UInt16} {i : Instruction}
    (h : decode v m a = .ok i) : i.IsForPort m a i.port? := by
  unfold port?
  split
  · rename_i operation
    obtain ⟨r, s, moves⟩ := exists_movesByte_of_input h operation
    rw [moves.moved?_eq]
    exact .input operation moves
  · rename_i operation
    obtain ⟨r, s, moves⟩ := exists_movesByte_of_output h operation
    rw [moves.moved?_eq]
    exact .output operation moves
  · rename_i noInput noOutput
    exact .none noInput noOutput

/-! ### Effects -/

section

variable {v : Variant} {c : Core} {i : Instruction}
  (h : decode v c.memory c.registers.pc = .ok i) {r : Reg8} {s : PortSource} (L : FlagLayout)

include h

/-- **Instructions for ports** are those for input and output. -/
theorem port?_eq_none_iff : i.port? = none ↔ i.operation ≠ .input ∧ i.operation ≠ .output := by
  have parts := isForPort_of_decode h
  cases parts' : i.port? with
  | none =>
    rw [parts'] at parts
    cases parts with
    | none noInput noOutput => exact iff_of_true rfl ⟨noInput, noOutput⟩
  | some x =>
    rw [parts'] at parts
    cases parts with
    | input operation => exact iff_of_false nofun fun others => others.1 operation
    | output operation => exact iff_of_false nofun fun others => others.2 operation

/-- **Input** wants a byte from the port that is selected, and takes it into its register. -/
theorem effect?_of_input (port : i.port? = some (.input r s)) :
    i.effect? L (c.jump i.next) =
      some (.input (c.jump i.next) (s.number c) fun c b => s.take L r c b) := by
  have parts := isForPort_of_decode h
  rw [port] at parts
  cases parts with
  | input operation moves =>
    unfold effect?
    rw [operation]
    dsimp only
    generalize i.dst = dst at moves ⊢
    generalize i.src = src at moves ⊢
    cases moves with
    | immediate => rfl
    | inC => cases r <;> rfl

/-- **Output** has the byte in its register go to the port that is selected. -/
theorem effect?_of_output (port : i.port? = some (.output r s)) :
    i.effect? L (c.jump i.next) =
      some (.output (c.jump i.next) (s.number c) (c.registers.get8 r)) := by
  have parts := isForPort_of_decode h
  rw [port] at parts
  cases parts with
  | output operation moves =>
    unfold effect?
    rw [operation]
    dsimp only
    generalize i.dst = dst at moves ⊢
    generalize i.src = src at moves ⊢
    cases moves <;> rfl

/-- **The other instructions** want no port. -/
theorem effect?_of_no_port (port : i.port? = none) {e : Effect}
    (effect : i.effect? L (c.jump i.next) = some e) :
    (∃ c', e = .done c') ∨ e = .halted (c.jump i.next) := by
  obtain ⟨noInput, noOutput⟩ := (port?_eq_none_iff h).1 port
  cases suits_effect? effect with
  | done c' => exact .inl ⟨c', rfl⟩
  | halted => exact .inr rfl
  | input reads => exact absurd reads noInput
  | output writes => exact absurd writes noOutput

/-- The register of an instruction for input is not the flags. -/
theorem ne_flags_of_input (port : i.port? = some (.input r s)) : r ≠ .f := by
  have parts := isForPort_of_decode h
  rw [port] at parts
  cases parts with
  | input operation moves => exact moves.ne_flags

end

end Instruction

end Micro80
