import Micro80.Machine.Effect

/-!
# Roles of operands

An operand plays one of a few roles: it is the place of a byte or of a word, a value that stands in
the instruction, an address to go to, and so on. The role is settled by the encoding in the opcode
table; the bytes of the instruction only fill it in. An operation in turn asks its operands for
certain roles, so whether an instruction has an effect can be read off its table entry.

Codes of registers, conditions and bits that lie outside of their ranges cannot be written down at
all. What is left to show of a register is that no operand is the flags.

## Main definitions

* `Role`, with `Operand.role` and `Encoding.role`.
* `Operation.accepts`: the roles that an operation works with.

## Main statements

* `Encoding.role_operand`: an operand has the role of its encoding.
* `Encoding.operand_ne_flags`: no operand is the flags register.
* `Instruction.isSome_effect?`: an instruction has an effect exactly if its operation accepts the
  roles of its operands, whatever the core.
-/

namespace Micro80

/-! ### Roles -/

/-- **Roles.** What an operand is good for. -/
inductive Role where
  /-- Nothing. -/
  | absent
  /-- A byte can be read from it and stored in it. -/
  | place8
  /-- A byte can be read from it. -/
  | literal8
  /-- A word can be read from it and stored in it. -/
  | place16
  /-- A word can be read from it. -/
  | literal16
  /-- A word can be read from it, and it is an address to go to. -/
  | target
  /-- It is the address of a restart routine. -/
  | restart
  /-- It is a condition. -/
  | condition
  /-- It is the number of a bit. -/
  | bit
  /-- It is a port. -/
  | port
  deriving DecidableEq

namespace Role

/-- Whether a byte can be read from an operand. -/
def isValue8 : Role → Bool
  | place8 | literal8 => true
  | _ => false

/-- Whether a word can be read from an operand. -/
def isValue16 : Role → Bool
  | place16 | literal16 | target => true
  | _ => false

/-- Whether a call or a counting jump can go to an operand. -/
def isDestination : Role → Bool
  | target | restart => true
  | _ => false

end Role

/-- The role of an operand. -/
def Operand.role : Operand → Role
  | absent => .absent
  | reg8 _ | indirect _ | indexed .. | direct _ => .place8
  | imm8 _ => .literal8
  | reg16 _ | direct16 _ | stackTop => .place16
  | imm16 _ => .literal16
  | address _ | relative .. => .target
  | restart _ => .restart
  | condition _ => .condition
  | bit _ => .bit
  | port _ | portC => .port

/-- The role of the operands with an encoding. -/
def Encoding.role : Encoding → Role
  | absent => .absent
  | accumulator | high | low | atBC | atDE | direct8 => .place8
  | imm8 => .literal8
  | pair | pairAF | hl | de | sp | atSP | direct16 => .place16
  | imm16 => .literal16
  | address | relative => .target
  | restart => .restart
  | condition | shortCondition => .condition
  | bit => .bit
  | port | portC => .port

namespace Encoding

/-- An operand for a register code is the place of a byte. -/
theorem role_byCode (c : Context) (code : Fin 8) : (c.byCode code).role = .place8 := by
  unfold Context.byCode
  split <;> rfl

/-- **An operand has the role of its encoding.** -/
@[simp] theorem role_operand (e : Encoding) (c : Context) (i : Nat) :
    (e.operand c i).role = e.role := by
  cases e with
  | high => exact role_byCode c _
  | low => exact role_byCode c _
  | _ => rfl

/-- A register code never stands for the flags. -/
theorem ofCode?_ne_flags (code : Fin 8) : Reg8.ofCode? code ≠ some .f := by
  revert code
  decide

/-- An operand for a register code is not the flags register. -/
theorem byCode_ne_flags (c : Context) (code : Fin 8) : c.byCode code ≠ .reg8 .f := by
  unfold Context.byCode
  split
  · rename_i r _ hr
    intro h
    cases h
    exact ofCode?_ne_flags code hr
  · simp
  · simp

/-- **No operand is the flags register.** -/
theorem operand_ne_flags (e : Encoding) (c : Context) (i : Nat) : e.operand c i ≠ .reg8 .f := by
  cases e with
  | high => exact byCode_ne_flags c _
  | low => exact byCode_ne_flags c _
  | _ => simp [operand]

end Encoding

/-! ### What operands stand for -/

namespace Operand

theorem isSome_place8? (o : Operand) (s : Registers) :
    (o.place8? s).isSome = (o.role == .place8) := by
  cases o <;> rfl

theorem isSome_place16? (o : Operand) (s : Registers) :
    (o.place16? s).isSome = (o.role == .place16) := by
  cases o <;> rfl

theorem isSome_target? (o : Operand) : o.target?.isSome = o.role.isDestination := by
  cases o <;> rfl

theorem isSome_value8? (o : Operand) (c : Core) : (c.value8? o).isSome = o.role.isValue8 := by
  cases o <;> rfl

theorem isSome_value16? (o : Operand) (c : Core) : (c.value16? o).isSome = o.role.isValue16 := by
  cases o <;> rfl

end Operand

/-! ### Operations -/

/-- **Accepted roles.** Whether an operation works with a destination and a source of given
roles. -/
def Operation.accepts (o : Operation) (dst src : Role) : Bool :=
  match o with
  | .move => dst == .place8 && src.isValue8
  | .move16 | .arithmetic16 _ => dst == .place16 && src.isValue16
  | .arithmetic _ => src.isValue8
  | .inc | .dec | .shift _ => dst == .place8
  | .inc16 | .dec16 | .pop => dst == .place16
  | .bit => dst == .bit && src.isValue8
  | .set | .res => dst == .bit && src == .place8
  | .jp | .jr | .push => src.isValue16
  | .djnz | .call | .rst => src.isDestination
  | .exchangeTop => dst == .place16 && src == .place16
  | .input => dst == .place8 && src == .port
  | .output => dst == .port && src.isValue8
  | _ => true

namespace Instruction

theorem isSome_onDst (L : FlagLayout) (i : Instruction) (c : Core)
    (f : UInt8 → UInt8 → AluResult UInt8) :
    (i.onDst L c f).isSome = (i.dst.role == .place8) := by
  rw [onDst, Option.isSome_map, Operand.isSome_place8?]

theorem isSome_onDst16 (L : FlagLayout) (i : Instruction) (c : Core) (f : UInt16 → UInt16) :
    (i.onDst16 L c f).isSome = (i.dst.role == .place16) := by
  rw [onDst16, Option.isSome_map, Operand.isSome_place16?]

theorem isSome_onBit (L : FlagLayout) (i : Instruction) (c : Core) (f : UInt8 → UInt8 → UInt8) :
    (i.onBit L c f).isSome = (i.dst.role == .bit && i.src.role == .place8) := by
  rw [onBit, ← Operand.isSome_place8? i.src c.registers]
  cases i.dst <;> cases i.src.place8? c.registers <;> rfl

/-- **Effects and roles.** An instruction has an effect exactly if its operation accepts the roles
of its operands. -/
theorem isSome_effect? (L : FlagLayout) (i : Instruction) (c : Core) :
    (i.effect? L c).isSome = i.operation.accepts i.dst.role i.src.role := by
  unfold effect? Operation.accepts
  -- Operations that ask for the same roles come together, those that look at two operands last.
  cases i.operation with
  | inc => exact isSome_onDst L i c _
  | dec => exact isSome_onDst L i c _
  | shift k => exact isSome_onDst L i c _
  | inc16 => exact isSome_onDst16 L i c _
  | dec16 => exact isSome_onDst16 L i c _
  | set => exact isSome_onBit L i c _
  | res => exact isSome_onBit L i c _
  | arithmetic k => rw [Option.isSome_map, Operand.isSome_value8?]
  | jp => rw [Option.isSome_map, Operand.isSome_value16?]
  | jr => rw [Option.isSome_map, Operand.isSome_value16?]
  | push => rw [Option.isSome_map, Operand.isSome_value16?]
  | pop => rw [Option.isSome_map, Operand.isSome_place16?]
  | djnz => rw [Option.isSome_map, Operand.isSome_target?]
  | call => rw [Option.isSome_map, Operand.isSome_target?]
  | rst => rw [Option.isSome_map, Operand.isSome_target?]
  | move =>
    rw [← Operand.isSome_place8? i.dst c.registers, ← Operand.isSome_value8? i.src c]
    cases i.dst.place8? c.registers <;> cases c.value8? i.src <;> rfl
  | move16 =>
    rw [← Operand.isSome_place16? i.dst c.registers, ← Operand.isSome_value16? i.src c]
    cases i.dst.place16? c.registers <;> cases c.value16? i.src <;> rfl
  | arithmetic16 k =>
    rw [← Operand.isSome_place16? i.dst c.registers, ← Operand.isSome_value16? i.src c]
    cases i.dst.place16? c.registers <;> cases c.value16? i.src <;> rfl
  | exchangeTop =>
    rw [← Operand.isSome_place16? i.dst c.registers, ← Operand.isSome_place16? i.src c.registers]
    cases i.dst.place16? c.registers <;> cases i.src.place16? c.registers <;> rfl
  | bit =>
    rw [← Operand.isSome_value8? i.src c]
    cases i.dst <;> cases c.value8? i.src <;> rfl
  | output =>
    rw [← Operand.isSome_value8? i.src c]
    cases i.dst <;> cases c.value8? i.src <;> rfl
  | input =>
    rw [← Operand.isSome_place8? i.dst c.registers]
    cases i.dst.place8? c.registers <;> cases i.src <;> rfl
  | block d r => cases r <;> rfl
  | _ => rfl

end Instruction

end Micro80
