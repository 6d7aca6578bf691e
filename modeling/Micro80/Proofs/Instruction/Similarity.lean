import Micro80.Machine.Effect

/-!
# Similar cores

Most operations get to the registers by way of their operands only; beside these they know the
accumulator, the flags, the stack pointer and memory. Cores may then be different in other
registers, and the operands may stand for different places in them: as long as the values are the
same, such an operation does the same to both.

## Main definitions

* `Core.IsSimilarity`: relations between cores that are the same in what operations know.
* `Place8.Alike`, `Place16.Alike`, `Operand.Alike`, `Effect.Alike`: what corresponds to each other
  in similar cores.
* `Operation.takesIndex`: operations that get to HL by way of their operands only.

## Main statements

* `Instruction.alike_effect?`: like operands make like effects.
-/

namespace Micro80

/-! ### Similar cores -/

/-- **Similarities.** Relations between cores that differ at most in registers to which operations
get by way of their operands only, and in the program counter. -/
structure Core.IsSimilarity (R : Core → Core → Prop) : Prop where
  memory : ∀ {c c'}, R c c' → c'.memory = c.memory
  flags : ∀ {c c'}, R c c' → c'.flags = c.flags
  accumulator : ∀ {c c'}, R c c' → c'.accumulator = c.accumulator
  sp : ∀ {c c'}, R c c' → c'.registers.sp = c.registers.sp
  store : ∀ {c c'} (m : Memory), R c c' → R { c with memory := m } { c' with memory := m }
  setFlags : ∀ {c c'} (L : FlagLayout) (f : UInt8), R c c' → R (c.setFlags L f) (c'.setFlags L f)
  setAccumulator : ∀ {c c'} (b : UInt8), R c c' → R (c.set8 .a b) (c'.set8 .a b)
  setSP : ∀ {c c'} (w : UInt16), R c c' → R (c.set16 .sp w) (c'.set16 .sp w)
  jump : ∀ {c c'} (a : UInt16), R c c' → R (c.jump a) (c'.jump a)

/-- **Like places of bytes**: what is in the one, for one of two similar cores, is in the other for
the other. -/
structure Place8.Alike (R : Core → Core → Prop) (p p' : Place8) : Prop where
  read : ∀ {c c'}, R c c' → c'.read8 p' = c.read8 p
  write : ∀ {c c'} (L : FlagLayout) (b : UInt8), R c c' → R (c.write8 L p b) (c'.write8 L p' b)

/-- **Like places of words.** -/
structure Place16.Alike (R : Core → Core → Prop) (p p' : Place16) : Prop where
  read : ∀ {c c'}, R c c' → c'.read16 p' = c.read16 p
  write : ∀ {c c'} (L : FlagLayout) (w : UInt16), R c c' → R (c.write16 L p w) (c'.write16 L p' w)

/-- **Like operands** of instructions on two cores. -/
structure Operand.Alike (R : Core → Core → Prop) (c c' : Core) (o o' : Operand) : Prop where
  place8 : Option.Rel (Place8.Alike R) (o.place8? c.registers) (o'.place8? c'.registers)
  place16 : Option.Rel (Place16.Alike R) (o.place16? c.registers) (o'.place16? c'.registers)
  value8 : c'.value8? o' = c.value8? o
  value16 : c'.value16? o' = c.value16? o
  permits : o'.permits = o.permits

/-- Effects that are complete, on similar cores. -/
inductive Effect.Alike (R : Core → Core → Prop) : Effect → Effect → Prop where
  | done {c c' : Core} (h : R c c') : Alike R (.done c) (.done c')

section

variable {R : Core → Core → Prop} (sim : Core.IsSimilarity R) {c c' : Core} (h : R c c')

include sim

namespace Core.IsSimilarity

theorem alike_cell (a : UInt16) : Place8.Alike R (.cell a) (.cell a) where
  read h := congrArg (·.read a) (sim.memory h)
  write L b h := by
    rw [Core.write8, Core.write8, sim.memory h]
    exact sim.store _ h

theorem alike_cells (a : UInt16) : Place16.Alike R (.cells a) (.cells a) where
  read h := congrArg (·.readWord a) (sim.memory h)
  write L w h := by
    rw [Core.write16, Core.write16, sim.memory h]
    exact sim.store _ h

include h

theorem setResult (L : FlagLayout) (r : AluResult UInt8) :
    R (c.setResult L r) (c'.setResult L r) :=
  sim.setFlags L r.flags (sim.setAccumulator r.value h)

theorem top : c'.top = c.top := by
  rw [Core.top, Core.top, sim.memory h, sim.sp h]

theorem pop : R c.pop c'.pop := by
  rw [Core.pop, Core.pop, sim.sp h]
  exact sim.setSP _ h

theorem push (w : UInt16) : R (c.push w) (c'.push w) := by
  have stored := sim.setSP (c.registers.sp - 2) (sim.store ((c.memory.write (c.registers.sp - 1)
    (highByte w)).write (c.registers.sp - 2) (lowByte w)) h)
  rw [Core.push, Core.push, sim.memory h, sim.sp h]
  exact stored

end Core.IsSimilarity

/-! ### Like operands -/

namespace Operand

omit sim

/-- What is known of an operand that stands for the place of a byte. -/
theorem values_of_place8? {o : Operand} {p : Place8} (h : o.place8? c.registers = some p) :
    o.place16? c.registers = none ∧ c.value8? o = some (c.read8 p) ∧ c.value16? o = none ∧
      o.permits = fun _ => true := by
  cases o with
  | reg8 | indirect | indexed | direct =>
    cases h
    exact ⟨rfl, rfl, rfl, rfl⟩
  | _ => cases h

/-- What is known of an operand that stands for the place of a word. -/
theorem values_of_place16? {o : Operand} {p : Place16} (h : o.place16? c.registers = some p) :
    o.place8? c.registers = none ∧ c.value8? o = none ∧ c.value16? o = some (c.read16 p) ∧
      o.permits = fun _ => true := by
  cases o with
  | reg16 | direct16 | stackTop =>
    cases h
    exact ⟨rfl, rfl, rfl, rfl⟩
  | _ => cases h

namespace Alike

variable {o o' : Operand}

include h

theorem of_place8 {p p' : Place8} (ho : o.place8? c.registers = some p)
    (ho' : o'.place8? c'.registers = some p') (alike : Place8.Alike R p p') :
    Alike R c c' o o' := by
  obtain ⟨word, value8, value16, permits⟩ := values_of_place8? ho
  obtain ⟨word', value8', value16', permits'⟩ := values_of_place8? ho'
  constructor
  · rw [ho, ho']
    exact .some alike
  · rw [word, word']
    exact .none
  · rw [value8, value8', alike.read h]
  · rw [value16, value16']
  · rw [permits, permits']

theorem of_place16 {p p' : Place16} (ho : o.place16? c.registers = some p)
    (ho' : o'.place16? c'.registers = some p') (alike : Place16.Alike R p p') :
    Alike R c c' o o' := by
  obtain ⟨byte, value8, value16, permits⟩ := values_of_place16? ho
  obtain ⟨byte', value8', value16', permits'⟩ := values_of_place16? ho'
  constructor
  · rw [byte, byte']
    exact .none
  · rw [ho, ho']
    exact .some alike
  · rw [value8, value8']
  · rw [value16, value16', alike.read h]
  · rw [permits, permits']

omit h

/-- An operand that stands for no place is what it is on any core. -/
theorem of_no_place (byte : ∀ s, o.place8? s = none) (word : ∀ s, o.place16? s = none) :
    Alike R c c' o o := by
  have read : (o.place8? c'.registers).map c'.read8 = (o.place8? c.registers).map c.read8 := by
    rw [byte, byte, Option.map_none, Option.map_none]
  have read16 : (o.place16? c'.registers).map c'.read16 =
      (o.place16? c.registers).map c.read16 := by
    rw [word, word, Option.map_none, Option.map_none]
  constructor
  · rw [byte, byte]
    exact .none
  · rw [word, word]
    exact .none
  · cases o with
    | imm8 => rfl
    | _ => exact read
  · cases o with
    | imm16 | address | relative => rfl
    | _ => exact read16
  · rfl

end Alike

end Operand

/-! ### Effects -/

/-- **Operations that take an index register.** They get to HL by way of their operands only. -/
def Operation.takesIndex : Operation → Bool
  | move | move16 | arithmetic _ | inc | dec | inc16 | dec16 | arithmetic16 _ | jp | push | pop
  | exchangeTop => true
  | _ => false

namespace Instruction

section

variable {i j : Instruction} (L : FlagLayout)

include h

theorem alike_onDst (dst : Operand.Alike R c c' i.dst j.dst) (f : UInt8 → UInt8 → AluResult UInt8) :
    Option.Rel (Effect.Alike R) (i.onDst L c f) (j.onDst L c' f) := by
  unfold onDst
  refine dst.place8.rec (fun alike => .some ?_) .none
  dsimp only
  rw [alike.read h, sim.flags h]
  exact .done (sim.setFlags L _ (alike.write L _ h))

omit sim in
theorem alike_onDst16 (dst : Operand.Alike R c c' i.dst j.dst) (f : UInt16 → UInt16) :
    Option.Rel (Effect.Alike R) (i.onDst16 L c f) (j.onDst16 L c' f) := by
  unfold onDst16
  refine dst.place16.rec (fun alike => .some ?_) .none
  dsimp only
  rw [alike.read h]
  exact .done (alike.write L _ h)

/-- **Effects on similar cores** of an operation that takes an index register are similar if the
operands are alike. -/
theorem alike_effect? (operation : i.operation = j.operation)
    (takes : j.operation.takesIndex = true) (dst : Operand.Alike R c c' i.dst j.dst)
    (src : Operand.Alike R c c' i.src j.src) :
    Option.Rel (Effect.Alike R) (i.effect? L c) (j.effect? L c') := by
  unfold effect?
  rw [operation]
  generalize j.operation = o at takes
  cases o with
  | move =>
    dsimp only
    rw [src.value8]
    cases c.value8? i.src with
    | none => exact .none
    | some b => exact dst.place8.rec (fun alike => .some (.done (alike.write L b h))) .none
  | move16 =>
    dsimp only
    rw [src.value16]
    cases c.value16? i.src with
    | none => exact .none
    | some w => exact dst.place16.rec (fun alike => .some (.done (alike.write L w h))) .none
  | arithmetic k =>
    dsimp only
    rw [src.value8, sim.accumulator h, sim.flags h]
    cases c.value8? i.src with
    | none => exact .none
    | some b =>
      refine .some (.done ?_)
      split
      · exact sim.setFlags L _ h
      · exact sim.setResult h L _
  | inc => exact alike_onDst sim h L dst (Alu.inc L)
  | dec => exact alike_onDst sim h L dst (Alu.dec L)
  | inc16 => exact alike_onDst16 h L dst (· + 1)
  | dec16 => exact alike_onDst16 h L dst (· - 1)
  | arithmetic16 k =>
    dsimp only
    rw [src.value16, sim.flags h]
    cases c.value16? i.src with
    | none => exact dst.place16.rec (fun _ => .none) .none
    | some w =>
      refine dst.place16.rec (fun alike => .some ?_) .none
      rw [alike.read h]
      exact .done (sim.setFlags L _ (alike.write L _ h))
  | jp =>
    dsimp only
    rw [src.value16, sim.flags h, dst.permits]
    cases c.value16? i.src with
    | none => exact .none
    | some a =>
      refine .some (.done ?_)
      split
      · exact sim.jump a h
      · exact h
  | push =>
    dsimp only
    rw [src.value16]
    cases c.value16? i.src with
    | none => exact .none
    | some w => exact .some (.done (sim.push h w))
  | pop =>
    dsimp only
    rw [sim.top h]
    exact dst.place16.rec (fun alike => .some (.done (alike.write L _ (sim.pop h)))) .none
  | exchangeTop =>
    dsimp only
    refine dst.place16.rec (fun top => ?_) ?_
    · refine src.place16.rec (fun alike => .some ?_) .none
      rw [top.read h, alike.read h]
      exact .done (alike.write L _ (top.write L _ h))
    · exact src.place16.rec (fun _ => .none) .none
  | _ => cases takes

end

omit sim

/-- Like effects, of which one exists, are complete on similar cores. -/
theorem exists_done_of_rel {R : Core → Core → Prop} {e e' : Option Effect}
    (rel : Option.Rel (Effect.Alike R) e e') (works : e.isSome = true) :
    ∃ c c', e = some (.done c) ∧ e' = some (.done c') ∧ R c c' := by
  cases rel with
  | none => cases works
  | some alike =>
    cases alike with
    | done h => exact ⟨_, _, rfl, rfl, h⟩

end Instruction

end

end Micro80
