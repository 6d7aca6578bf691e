import Micro80.Proofs.Instruction.Assembly
import Micro80.Proofs.Instruction.Preservation

/-!
# Hidden registers

Only the Z80 has index registers and a shadow of the main set. The registers of an 8085 have room
for them, but no instruction of an 8085 looks at what is there or changes it. Most operations work
with whatever their operands stand for, so this is a matter of the operands: without a byte in front
that selects an index register, no operand is or uses one. Apart from this there are the two
exchanges with the shadow, which the 8085 does not have.

Giving other contents to the hidden registers is a function of cores. That instructions do not look
at these registers and do not change them both follows if this function commutes with their effects.

## Main definitions

* `HiddenRegisters`, with `Core.hidden` and `Core.withHidden`.
* `Instruction.IsPlain`: instructions that have nothing to do with hidden registers.
* `Effect.withHidden`, `Effect.StoresPlainly`: effects on a core with other hidden registers.

## Main statements

* `Instruction.IsPlain.effect?_withHidden`: effects of plain instructions.
* `Instruction.isPlain_of_decode`: the instructions of the 8085 are plain.
-/

namespace Micro80

/-! ### Hidden registers -/

/-- **Hidden registers.** What only the Z80 has: the shadow set and the index registers. -/
structure HiddenRegisters where
  shadow : RegisterSet
  ix : UInt16
  iy : UInt16

namespace Core

/-- The hidden registers of a core. -/
def hidden (c : Core) : HiddenRegisters :=
  ⟨c.registers.shadow, c.registers.ix, c.registers.iy⟩

/-- The core with other contents of the hidden registers. -/
def withHidden (x : HiddenRegisters) (c : Core) : Core :=
  { c with registers := { c.registers with shadow := x.shadow, ix := x.ix, iy := x.iy } }

end Core

/-- Whether a word register is not one of the index registers. -/
def Reg16.isPlain : Reg16 → Bool
  | ix | iy => false
  | _ => true

/-- Whether the place of a word is not one of the index registers. -/
def Place16.isPlain : Place16 → Bool
  | register r => r.isPlain
  | cells _ => true

namespace Core

variable (x : HiddenRegisters) (L : FlagLayout) (c : Core)

/-! ### Storing -/

theorem jump_withHidden (a : UInt16) : (c.withHidden x).jump a = (c.jump a).withHidden x := rfl

theorem write8_withHidden (p : Place8) (b : UInt8) :
    (c.withHidden x).write8 L p b = (c.write8 L p b).withHidden x := by
  cases p with
  | cell a => rfl
  | register r => cases r <;> rfl

theorem write16_withHidden {p : Place16} (plain : p.isPlain = true) (w : UInt16) :
    (c.withHidden x).write16 L p w = (c.write16 L p w).withHidden x := by
  cases p with
  | cells a => rfl
  | register r =>
    cases r with
    | pair q => cases q <;> rfl
    | sp | pc => rfl
    | ix | iy => cases plain

theorem pop_withHidden : (c.withHidden x).pop = c.pop.withHidden x := rfl

theorem transferMany_withHidden (d : Direction) (steps : Nat) :
    (c.withHidden x).transferMany L d steps = (c.transferMany L d steps).withHidden x := by
  induction steps generalizing c with
  | zero => rfl
  | succ steps ih => exact ih (c.transfer L d)

/-! ### Reading -/

theorem read8_withHidden (p : Place8) : (c.withHidden x).read8 p = c.read8 p := by
  cases p <;> rfl

theorem read16_withHidden {p : Place16} (plain : p.isPlain = true) :
    (c.withHidden x).read16 p = c.read16 p := by
  cases p with
  | cells a => rfl
  | register r =>
    cases r with
    | pair | sp | pc => rfl
    | ix | iy => cases plain

end Core

namespace Operand

variable {o : Operand} (plain : o.usesIndex = false)

include plain

theorem place8?_withHidden (x : HiddenRegisters) (c : Core) :
    o.place8? (c.withHidden x).registers = o.place8? c.registers := by
  cases o with
  | indexed => cases plain
  | _ => rfl

theorem isPlain_of_place16? {s : Registers} {p : Place16} (h : o.place16? s = some p) :
    p.isPlain = true := by
  cases o with
  | reg16 r =>
    cases h
    cases r with
    | pair | sp | pc => rfl
    | ix | iy => cases plain
  | direct16 | stackTop =>
    cases h
    rfl
  | _ => cases h

omit plain in
theorem place16?_withHidden (o : Operand) (x : HiddenRegisters) (c : Core) :
    o.place16? (c.withHidden x).registers = o.place16? c.registers := by
  cases o <;> rfl

/-- **The byte** for which an operand stands does not depend on hidden registers, -/
theorem value8?_withHidden (x : HiddenRegisters) (c : Core) :
    (c.withHidden x).value8? o = c.value8? o := by
  -- The value is read through the place, unless it stands in the operand.
  have through : (o.place8? (c.withHidden x).registers).map (c.withHidden x).read8 =
      (o.place8? c.registers).map c.read8 := by
    rw [place8?_withHidden plain]
    exact Option.map_congr fun p _ => c.read8_withHidden x p
  cases o with
  | imm8 b => rfl
  | _ => exact through

/-- nor does **the word.** -/
theorem value16?_withHidden (x : HiddenRegisters) (c : Core) :
    (c.withHidden x).value16? o = c.value16? o := by
  have through : (o.place16? (c.withHidden x).registers).map (c.withHidden x).read16 =
      (o.place16? c.registers).map c.read16 := by
    rw [place16?_withHidden]
    exact Option.map_congr fun p hp => c.read16_withHidden x (isPlain_of_place16? plain hp)
  cases o with
  | imm16 | address | relative => rfl
  | _ => exact through

end Operand

/-! ### Effects -/

namespace Effect

/-- **The same effect** on a core with other contents of the hidden registers. -/
def withHidden (x : HiddenRegisters) : Effect → Effect
  | done c => done (c.withHidden x)
  | halted c => halted (c.withHidden x)
  | input c p store => input (c.withHidden x) p store
  | output c p b => output (c.withHidden x) p b

/-- **Storing plainly.** What comes into a core from a port does not depend on hidden registers. -/
def StoresPlainly : Effect → Prop
  | input _ _ store => ∀ x c b, store (c.withHidden x) b = (store c b).withHidden x
  | _ => True

end Effect

namespace Instruction

/-- **Plain instructions.** No operand is or uses an index register, and there is no exchange with
the shadow. -/
structure IsPlain (i : Instruction) : Prop where
  dst : i.dst.usesIndex = false
  src : i.src.usesIndex = false
  ne_exchangeAF : i.operation ≠ .exchangeAF
  ne_exchangeGeneral : i.operation ≠ .exchangeGeneral

/-- Two optional effects correspond if they come from the same optional value. -/
theorem map_withHidden {α : Type} {x : HiddenRegisters} {o : Option α} {f g : α → Effect}
    (h : ∀ a, o = some a → f a = (g a).withHidden x) :
    o.map f = (o.map g).map (Effect.withHidden x) := by
  cases o with
  | none => rfl
  | some a => exact congrArg some (h a rfl)

section

variable {i : Instruction} (x : HiddenRegisters) (L : FlagLayout) (c : Core)

theorem onDst_withHidden (plain : i.dst.usesIndex = false)
    (f : UInt8 → UInt8 → AluResult UInt8) :
    i.onDst L (c.withHidden x) f = (i.onDst L c f).map (Effect.withHidden x) := by
  unfold onDst
  rw [Operand.place8?_withHidden plain]
  refine map_withHidden fun p _ => ?_
  dsimp only
  rw [c.read8_withHidden, c.write8_withHidden]
  rfl

theorem onDst16_withHidden (plain : i.dst.usesIndex = false) (f : UInt16 → UInt16) :
    i.onDst16 L (c.withHidden x) f = (i.onDst16 L c f).map (Effect.withHidden x) := by
  unfold onDst16
  rw [Operand.place16?_withHidden]
  refine map_withHidden fun p hp => ?_
  have isPlain := Operand.isPlain_of_place16? plain hp
  rw [c.read16_withHidden x isPlain, c.write16_withHidden x L isPlain]
  rfl

theorem onBit_withHidden (plain : i.src.usesIndex = false) (f : UInt8 → UInt8 → UInt8) :
    i.onBit L (c.withHidden x) f = (i.onBit L c f).map (Effect.withHidden x) := by
  unfold onBit
  rw [Operand.place8?_withHidden plain]
  split
  · rw [c.read8_withHidden, c.write8_withHidden]
    rfl
  · rfl

end

/-- **Effects of plain instructions** do not depend on hidden registers and leave them as they
are. -/
theorem IsPlain.effect?_withHidden {i : Instruction} (plain : i.IsPlain) (x : HiddenRegisters)
    (L : FlagLayout) (c : Core) :
    i.effect? L (c.withHidden x) = (i.effect? L c).map (Effect.withHidden x) := by
  obtain ⟨dst, src, notAF, notGeneral⟩ := plain
  unfold effect?
  -- In each case what is read is rewritten, and then what is stored is the same by definition.
  generalize i.operation = o at notAF notGeneral ⊢
  cases o with
  | exchangeAF => exact absurd rfl notAF
  | exchangeGeneral => exact absurd rfl notGeneral
  | nop | halt | neg | daa | cpl | scf | ccf | rotateA | exchangeDEHL | ei | di => rfl
  | move =>
    dsimp only
    rw [Operand.value8?_withHidden src, Operand.place8?_withHidden dst]
    split
    · rw [c.write8_withHidden]
      rfl
    · rfl
  | move16 =>
    dsimp only
    rw [Operand.value16?_withHidden src, Operand.place16?_withHidden]
    split
    · rename_i w p _ hp
      rw [c.write16_withHidden x L (Operand.isPlain_of_place16? dst hp)]
      rfl
    · rfl
  | arithmetic k =>
    dsimp only
    rw [Operand.value8?_withHidden src]
    refine map_withHidden fun b _ => ?_
    by_cases compares : k = .cp
    · rw [if_pos compares, if_pos compares]
      rfl
    · rw [if_neg compares, if_neg compares]
      rfl
  | inc => exact onDst_withHidden x L c dst (Alu.inc L)
  | dec => exact onDst_withHidden x L c dst (Alu.dec L)
  | shift k => exact onDst_withHidden x L c dst (Alu.shift L k)
  | inc16 => exact onDst16_withHidden x L c dst (· + 1)
  | dec16 => exact onDst16_withHidden x L c dst (· - 1)
  | arithmetic16 k =>
    dsimp only
    rw [Operand.value16?_withHidden src, Operand.place16?_withHidden]
    split
    · rename_i p w hp _
      have isPlain := Operand.isPlain_of_place16? dst hp
      rw [c.read16_withHidden x isPlain, c.write16_withHidden x L isPlain]
      rfl
    · rfl
  | bit =>
    dsimp only
    rw [Operand.value8?_withHidden src]
    split <;> rfl
  | set => exact onBit_withHidden x L c src _
  | res => exact onBit_withHidden x L c src _
  | jp | jr =>
    dsimp only
    rw [Operand.value16?_withHidden src]
    refine map_withHidden fun a _ => ?_
    show Effect.done (if i.dst.permits c.flags then _ else _) = _
    split <;> rfl
  | djnz =>
    refine map_withHidden fun a _ => ?_
    show Effect.done (if c.registers.get8 .b - 1 = 0 then _ else _) = _
    dsimp only
    split <;> rfl
  | call =>
    refine map_withHidden fun a _ => ?_
    show Effect.done (if i.dst.permits c.flags then _ else _) = _
    split <;> rfl
  | ret =>
    dsimp only
    show some (Effect.done (if i.dst.permits c.flags then _ else _)) = _
    split <;> rfl
  | rst => exact map_withHidden fun a _ => rfl
  | push =>
    dsimp only
    rw [Operand.value16?_withHidden src]
    exact map_withHidden fun w _ => rfl
  | pop =>
    dsimp only
    rw [Operand.place16?_withHidden]
    refine map_withHidden fun p hp => ?_
    rw [c.pop_withHidden, Core.write16_withHidden x L _ (Operand.isPlain_of_place16? dst hp)]
    rfl
  | exchangeTop =>
    dsimp only
    rw [Operand.place16?_withHidden, Operand.place16?_withHidden]
    split
    · rename_i p q hp hq
      have isPlain := Operand.isPlain_of_place16? dst hp
      have isPlain' := Operand.isPlain_of_place16? src hq
      rw [c.read16_withHidden x isPlain, c.read16_withHidden x isPlain',
        c.write16_withHidden x L isPlain, Core.write16_withHidden x L _ isPlain']
      rfl
    · rfl
  | input =>
    dsimp only
    rw [Operand.place8?_withHidden dst]
    split <;> rfl
  | output =>
    dsimp only
    rw [Operand.value8?_withHidden src]
    split <;> rfl
  | block d repeats =>
    cases repeats with
    | false => rfl
    | true => exact congrArg (fun c => some (Effect.done c)) (c.transferMany_withHidden x L d _)

/-- A plain instruction keeps the hidden registers. -/
theorem IsPlain.hidden_eq {j : Instruction} (plain : j.IsPlain) {L : FlagLayout} {c c' : Core}
    (h : j.effect? L c = some (.done c')) : c'.hidden = c.hidden := by
  have kept := plain.effect?_withHidden c.hidden L c
  rw [show c.withHidden c.hidden = c from rfl, h] at kept
  have same : Effect.done c' = .done (c'.withHidden c.hidden) := Option.some.inj kept
  exact (congrArg Core.hidden (Effect.done.inj same)).trans rfl

/-- **What comes from a port** is stored in a place that is not hidden. -/
theorem storesPlainly_effect? {i : Instruction} {L : FlagLayout} {c : Core} {e : Effect}
    (h : i.effect? L c = some e) : e.StoresPlainly := by
  cases suits_effect? h with
  | done | halted | output => trivial
  | input reads p store =>
    unfold effect? at h
    rw [reads] at h
    dsimp only at h
    split at h <;> cases h
    · exact fun x c b => c.write8_withHidden x L _ b
    · intro x c b
      dsimp only
      rw [c.write8_withHidden]
      rfl

/-! ### Decoded instructions -/

/-- The 8085 has no exchanges with the shadow. -/
theorem exchange_of_mem_i8085 : ∀ e ∈ Variant.i8085.opcodes,
    e.operation ≠ .exchangeAF ∧ e.operation ≠ .exchangeGeneral := by
  decide

/-- **The instructions of the 8085 are plain.** -/
theorem isPlain_of_decode {m : Memory} {a : UInt16} {i : Instruction}
    (h : decode .i8085 m a = .ok i) : i.IsPlain := by
  have index := index_eq_of_decode h
  obtain ⟨lead, e, hl, he, -, rfl, -⟩ := decodeWith_eq_ok_iff.1 (decode_eq_ok_iff.1 h)
  cases hl
  obtain ⟨notAF, notGeneral⟩ := exchange_of_mem_i8085 e (List.mem_of_find?_eq_some he)
  -- Without a lead the instruction has no index register, and neither have its operands.
  obtain ⟨dst, src⟩ := Option.or_eq_none_iff.1 index.symm
  refine ⟨?_, ?_, notAF, notGeneral⟩
  · rw [Operand.usesIndex_eq, dst]
    rfl
  · rw [Operand.usesIndex_eq, src]
    rfl

end Instruction

end Micro80
