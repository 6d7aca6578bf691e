import Micro80.Machine.Effect
import Micro80.Proofs.Alu.Agreement

/-!
# Agreement of cores

Two cores agree if a program that does not look at the half carry, the parity and the subtraction
flag cannot tell them apart: their memories, stack pointers, program counters and interrupt
flip-flops are equal, so are their byte registers but the flags, and the flags agree. Nothing is
said about index registers and shadows.

Whatever is stored in the same place of both cores, agreement lasts. What is read is the same unless
it is the flags register as such, alone or in AF, or an index register.

## Main definitions

* `Core.Agree`, `Effect.Agree`.
* `Operand.isShared`, `Operation.isShared`, `Instruction.IsShared`: what does not look at anything
  in which agreeing cores differ.

## Main statements

* `Core.Agree.put8`, `Core.Agree.put16`: storing results.
* `Core.Agree.value8?`, `Core.Agree.value16?`: reading operands.
* `Instruction.agree_effect?`: shared instructions have agreeing effects on agreeing cores.
-/

namespace Micro80

/-- **Agreement of cores.** -/
structure Core.Agree (c d : Core) : Prop where
  byte : ∀ r, r ≠ .f → c.registers.main.get r = d.registers.main.get r
  sp : c.registers.sp = d.registers.sp
  pc : c.registers.pc = d.registers.pc
  memory : c.memory = d.memory
  interrupts : c.interrupts = d.interrupts
  flags : Flags.Agree c.flags d.flags

namespace Core.Agree

variable {c d : Core} (h : c.Agree d)

include h

/-! ### Storing -/

/-- The same memory in the place of both memories. -/
theorem store (m : Memory) : Agree { c with memory := m } { d with memory := m } :=
  ⟨h.byte, h.sp, h.pc, rfl, h.interrupts, h.flags⟩

theorem set8 {r : Reg8} (hr : r ≠ .f) (b : UInt8) : (c.set8 r b).Agree (d.set8 r b) where
  byte r' hr' := by
    show (c.registers.main.set r b).get r' = (d.registers.main.set r b).get r'
    rw [RegisterSet.get_set, RegisterSet.get_set, h.byte r' hr']
  sp := h.sp
  pc := h.pc
  memory := h.memory
  interrupts := h.interrupts
  flags := by
    show Flags.Agree ((c.registers.main.set r b).get .f) ((d.registers.main.set r b).get .f)
    rw [RegisterSet.get_set, RegisterSet.get_set, if_neg hr.symm, if_neg hr.symm]
    exact h.flags

theorem setFlags (v w : Variant) {f g : UInt8} (hf : Flags.Agree f g) :
    (c.setFlags v.layout f).Agree (d.setFlags w.layout g) where
  byte r hr := by
    show (c.registers.main.set .f _).get r = (d.registers.main.set .f _).get r
    rw [RegisterSet.get_set, RegisterSet.get_set, if_neg hr, if_neg hr]
    exact h.byte r hr
  sp := h.sp
  pc := h.pc
  memory := h.memory
  interrupts := h.interrupts
  flags := hf.fix v w

theorem set16 {r : Reg16} (hr : r ≠ .pair .af) (a : UInt16) :
    (c.set16 r a).Agree (d.set16 r a) := by
  cases r with
  | pair p =>
    -- A load of a pair is a load of its two registers.
    have high : p.high ≠ .f := by cases p <;> decide
    have low : p.low ≠ .f := by
      cases p with
      | af => exact absurd rfl hr
      | bc | de | hl => decide
    exact (h.set8 high (highByte a)).set8 low (lowByte a)
  | sp => exact ⟨h.byte, rfl, h.pc, h.memory, h.interrupts, h.flags⟩
  | pc => exact ⟨h.byte, h.sp, rfl, h.memory, h.interrupts, h.flags⟩
  | ix | iy => exact ⟨h.byte, h.sp, h.pc, h.memory, h.interrupts, h.flags⟩

theorem jump (a : UInt16) : (c.jump a).Agree (d.jump a) := h.set16 (by decide) a

/-- A byte may be stored anywhere, even in the flags. -/
theorem write8 (v w : Variant) (p : Place8) (b : UInt8) :
    (c.write8 v.layout p b).Agree (d.write8 w.layout p b) := by
  cases p with
  | cell a =>
    unfold Core.write8
    rw [h.memory]
    exact h.store _
  | register r =>
    cases r with
    | f => exact h.setFlags v w (.refl b)
    | b | c | d | e | h | l | a => exact h.set8 (by decide) b

/-- A word may be stored anywhere, even in AF. -/
theorem write16 (v w : Variant) (p : Place16) (a : UInt16) :
    (c.write16 v.layout p a).Agree (d.write16 w.layout p a) := by
  cases p with
  | cells a' =>
    unfold Core.write16
    rw [h.memory]
    exact h.store _
  | register r =>
    cases r with
    | pair q =>
      cases q with
      | af => exact (h.set8 (by decide) (highByte a)).setFlags v w (.refl (lowByte a))
      | bc | de | hl => exact h.set16 (by decide) a
    | sp | ix | iy | pc => exact h.set16 (by decide) a

/-- **A result of bytes** may be stored anywhere. -/
theorem put8 (v w : Variant) (p : Place8) {r s : AluResult UInt8} (hr : r.Agree s) :
    ((c.write8 v.layout p r.value).setFlags v.layout r.flags).Agree
      ((d.write8 w.layout p s.value).setFlags w.layout s.flags) := by
  rw [hr.value]
  exact (h.write8 v w p s.value).setFlags v w hr.flags

/-- **A result of words** may be stored anywhere. -/
theorem put16 (v w : Variant) (p : Place16) {r s : AluResult UInt16} (hr : r.Agree s) :
    ((c.write16 v.layout p r.value).setFlags v.layout r.flags).Agree
      ((d.write16 w.layout p s.value).setFlags w.layout s.flags) := by
  rw [hr.value]
  exact (h.write16 v w p s.value).setFlags v w hr.flags

theorem setResult (v w : Variant) {r s : AluResult UInt8} (hr : r.Agree s) :
    (c.setResult v.layout r).Agree (d.setResult w.layout s) :=
  h.put8 v w (.register .a) hr

theorem push (a : UInt16) : (c.push a).Agree (d.push a) := by
  unfold Core.push
  rw [h.sp, h.memory]
  exact ⟨h.byte, rfl, h.pc, rfl, h.interrupts, h.flags⟩

theorem pop : c.pop.Agree d.pop := by
  unfold Core.pop
  rw [h.sp]
  exact h.set16 (by decide) _

theorem top_eq : c.top = d.top := by
  rw [Core.top, Core.top, h.sp, h.memory]

theorem exchangeDEHL :
    Agree { c with registers := c.registers.exchangeDEHL }
      { d with registers := d.registers.exchangeDEHL } where
  byte r hr := by
    cases r with
    | b => exact h.byte .b hr
    | c => exact h.byte .c hr
    | d => exact h.byte .h (by decide)
    | e => exact h.byte .l (by decide)
    | h => exact h.byte .d (by decide)
    | l => exact h.byte .e (by decide)
    | f => exact absurd rfl hr
    | a => exact h.byte .a hr
  sp := h.sp
  pc := h.pc
  memory := h.memory
  interrupts := h.interrupts
  flags := h.flags

end Core.Agree

/-! ### Reading -/

/-- Whether a word register holds neither flags nor an index. -/
def Reg16.isShared : Reg16 → Bool
  | pair .af | ix | iy => false
  | _ => true

/-- Whether agreeing cores have the same byte in a place. -/
def Place8.isShared : Place8 → Bool
  | register .f => false
  | _ => true

/-- Whether agreeing cores have the same word in a place. -/
def Place16.isShared : Place16 → Bool
  | register r => r.isShared
  | cells _ => true

namespace Operand

/-- Whether an operand stands for the same place or value in agreeing cores. -/
def isShared : Operand → Bool
  | reg8 r => r != .f
  | reg16 r => r.isShared
  | indirect p => p != .af
  | indexed .. => false
  | condition k => k != .po && k != .pe
  | _ => true

theorem isShared_of_place8? {o : Operand} (shared : o.isShared = true) {s : Registers}
    {p : Place8} (h : o.place8? s = some p) : p.isShared = true := by
  cases o with
  | reg8 r =>
    cases h
    cases r with
    | f => cases shared
    | b | c | d | e | h | l | a => rfl
  | indirect q | indexed x d | direct a => cases h; rfl
  | _ => cases h

theorem isShared_of_place16? {o : Operand} (shared : o.isShared = true) {s : Registers}
    {p : Place16} (h : o.place16? s = some p) : p.isShared = true := by
  cases o with
  | reg16 r => cases h; exact shared
  | direct16 a | stackTop => cases h; rfl
  | _ => cases h

end Operand

namespace Core.Agree

variable {c d : Core} (h : c.Agree d)

include h

theorem get8 {r : Reg8} (hr : r ≠ .f) : c.registers.get8 r = d.registers.get8 r := h.byte r hr

theorem accumulator : c.accumulator = d.accumulator := h.byte .a (by decide)

theorem pair {p : Pair} (hp : p ≠ .af) :
    c.registers.main.pair p = d.registers.main.pair p := by
  have high : p.high ≠ .f := by cases p <;> decide
  have low : p.low ≠ .f := by
    cases p with
    | af => exact absurd rfl hp
    | bc | de | hl => decide
  rw [RegisterSet.pair, RegisterSet.pair, h.byte _ high, h.byte _ low]

theorem get16 {r : Reg16} (hr : r.isShared = true) :
    c.registers.get16 r = d.registers.get16 r := by
  cases r with
  | pair p =>
    cases p with
    | af => cases hr
    | bc | de | hl => exact h.pair (by decide)
  | sp => exact h.sp
  | pc => exact h.pc
  | ix | iy => cases hr

theorem read8 {p : Place8} (hp : p.isShared = true) : c.read8 p = d.read8 p := by
  cases p with
  | cell a => rw [Core.read8, Core.read8, h.memory]
  | register r => exact h.byte r (by rintro rfl; cases hp)

theorem read16 {p : Place16} (hp : p.isShared = true) : c.read16 p = d.read16 p := by
  cases p with
  | cells a => rw [Core.read16, Core.read16, h.memory]
  | register r => exact h.get16 hp

/-- A shared operand stands for the same place of a byte, -/
theorem place8? {o : Operand} (ho : o.isShared = true) :
    o.place8? c.registers = o.place8? d.registers := by
  cases o with
  | indirect p => rw [Operand.place8?, Operand.place8?, h.pair (by rintro rfl; cases ho)]
  | indexed x d => cases ho
  | _ => rfl

/-- and any operand for the same place of a word. -/
theorem place16? (o : Operand) : o.place16? c.registers = o.place16? d.registers := by
  cases o with
  | stackTop => exact congrArg (fun a => some (Place16.cells a)) h.sp
  | _ => rfl

/-- **The byte** for which a shared operand stands is the same. -/
theorem value8? {o : Operand} (ho : o.isShared = true) : c.value8? o = d.value8? o := by
  -- The value is read through the place, unless it stands in the operand.
  have through : (o.place8? c.registers).map c.read8 = (o.place8? d.registers).map d.read8 := by
    rw [h.place8? ho]
    exact Option.map_congr fun p hp => h.read8 (Operand.isShared_of_place8? ho hp)
  cases o with
  | imm8 b => rfl
  | _ => exact through

/-- **The word** for which a shared operand stands is the same. -/
theorem value16? {o : Operand} (ho : o.isShared = true) : c.value16? o = d.value16? o := by
  have through :
      (o.place16? c.registers).map c.read16 = (o.place16? d.registers).map d.read16 := by
    rw [h.place16? o]
    exact Option.map_congr fun p hp => h.read16 (Operand.isShared_of_place16? ho hp)
  cases o with
  | imm16 w | address a | relative a d => rfl
  | _ => exact through

theorem permits {o : Operand} (ho : o.isShared = true) :
    o.permits c.flags = o.permits d.flags := by
  cases o with
  | condition k =>
    have odd : k ≠ .po := by rintro rfl; cases ho
    have even : k ≠ .pe := by rintro rfl; cases ho
    exact Condition.holds_eq_of_agree h.flags odd even
  | _ => rfl

end Core.Agree

/-! ### Effects -/

/-- **Agreement of effects.** Effects of the same kind with agreeing cores, which for the time being
want the same from the same port and later take the same answer. -/
inductive Effect.Agree : Effect → Effect → Prop where
  | done {c d : Core} (h : c.Agree d) : Agree (.done c) (.done d)
  | halted {c d : Core} (h : c.Agree d) : Agree (.halted c) (.halted d)
  | input {c d : Core} {p : UInt8} {store store' : Core → UInt8 → Core} (h : c.Agree d)
      (stored : ∀ b, (store c b).Agree (store' d b)) :
      Agree (.input c p store) (.input d p store')
  | output {c d : Core} {p b : UInt8} (h : c.Agree d) : Agree (.output c p b) (.output d p b)

/-- Whether an operation looks at nothing but the operands and the three flags on which both
processors agree. -/
def Operation.isShared : Operation → Bool
  | daa | exchangeAF | exchangeGeneral | block .. => false
  | _ => true

namespace Instruction

/-- **Shared instructions.** The operation and the operands are shared, except that words may be
popped into anything. -/
structure IsShared (i : Instruction) : Prop where
  operation : i.operation.isShared = true
  dst : i.operation = .pop ∨ i.dst.isShared = true
  src : i.src.isShared = true

/-- Two optional effects agree if they come from the same optional value. -/
theorem agree_map {α : Type} {o : Option α} {f g : α → Effect}
    (h : ∀ x, o = some x → (f x).Agree (g x)) :
    Option.Rel Effect.Agree (o.map f) (o.map g) := by
  cases o with
  | none => exact .none
  | some x => exact .some (h x rfl)

section

variable {c d : Core} (h : c.Agree d) (v w : Variant) {i : Instruction}

include h

theorem agree_onDst (shared : i.dst.isShared = true) {f g : UInt8 → UInt8 → AluResult UInt8}
    (hfg : ∀ a, (f a c.flags).Agree (g a d.flags)) :
    Option.Rel Effect.Agree (i.onDst v.layout c f) (i.onDst w.layout d g) := by
  unfold onDst
  rw [h.place8? shared]
  refine agree_map fun p hp => .done ?_
  rw [h.read8 (Operand.isShared_of_place8? shared hp)]
  exact h.put8 v w p (hfg _)

theorem agree_onDst16 (shared : i.dst.isShared = true) (f : UInt16 → UInt16) :
    Option.Rel Effect.Agree (i.onDst16 v.layout c f) (i.onDst16 w.layout d f) := by
  unfold onDst16
  rw [h.place16? i.dst]
  refine agree_map fun p hp => .done ?_
  rw [h.read16 (Operand.isShared_of_place16? shared hp)]
  exact h.write16 v w p _

theorem agree_onBit (shared : i.src.isShared = true) (f : UInt8 → UInt8 → UInt8) :
    Option.Rel Effect.Agree (i.onBit v.layout c f) (i.onBit w.layout d f) := by
  unfold onBit
  rw [h.place8? shared]
  split
  · rename_i n p _ hp
    rw [h.read8 (Operand.isShared_of_place8? shared hp)]
    exact .some (.done (h.write8 v w p _))
  · exact .none

end

/-- **Effects agree.** On agreeing cores a shared instruction has agreeing effects, whichever of the
two processors executes it. -/
theorem agree_effect? {i : Instruction} (shared : i.IsShared) (v w : Variant) {c d : Core}
    (h : c.Agree d) :
    Option.Rel Effect.Agree (i.effect? v.layout c) (i.effect? w.layout d) := by
  obtain ⟨operation, dst, src⟩ := shared
  unfold effect?
  -- In each case what is read is rewritten from one core to the other, and then both store alike.
  generalize i.operation = o at operation dst ⊢
  cases o with
  | daa | exchangeAF | exchangeGeneral | block => cases operation
  | nop => exact .some (.done h)
  | halt => exact .some (.halted h)
  | move =>
    dsimp only
    rw [h.value8? src, h.place8? (dst.resolve_left nofun)]
    split
    · exact .some (.done (h.write8 v w _ _))
    · exact .none
  | move16 =>
    dsimp only
    rw [h.value16? src, h.place16? i.dst]
    split
    · exact .some (.done (h.write16 v w _ _))
    · exact .none
  | arithmetic k =>
    dsimp only
    rw [h.value8? src, h.accumulator]
    refine agree_map fun b _ => .done ?_
    have result := Alu.agree_arithmetic v w h.flags k d.accumulator b
    split
    · exact h.setFlags v w result.flags
    · exact h.setResult v w result
  | inc => exact agree_onDst h v w (dst.resolve_left nofun) (Alu.agree_inc v w h.flags)
  | dec => exact agree_onDst h v w (dst.resolve_left nofun) (Alu.agree_dec v w h.flags)
  | shift k => exact agree_onDst h v w (dst.resolve_left nofun) (Alu.agree_shift v w h.flags k)
  | inc16 => exact agree_onDst16 h v w (dst.resolve_left nofun) (· + 1)
  | dec16 => exact agree_onDst16 h v w (dst.resolve_left nofun) (· - 1)
  | arithmetic16 k =>
    dsimp only
    rw [h.value16? src, h.place16? i.dst]
    split
    · rename_i p b hp _
      rw [h.read16 (Operand.isShared_of_place16? (dst.resolve_left nofun) hp)]
      exact .some (.done (h.put16 v w p (Alu.agree_arithmetic16 v w h.flags k _ b)))
    · exact .none
  | neg =>
    dsimp only
    rw [h.accumulator]
    exact .some (.done (h.setResult v w (Alu.agree_neg v w _)))
  | cpl =>
    dsimp only
    rw [h.accumulator]
    exact .some (.done (h.setResult v w (Alu.agree_cpl v w h.flags _)))
  | rotateA k =>
    dsimp only
    rw [h.accumulator]
    exact .some (.done (h.setResult v w (Alu.agree_rotateA v w h.flags k _)))
  | scf => exact .some (.done (h.setFlags v w (Alu.agree_scf v w h.flags).flags))
  | ccf => exact .some (.done (h.setFlags v w (Alu.agree_ccf v w h.flags).flags))
  | bit =>
    dsimp only
    rw [h.value8? src]
    split
    · exact .some (.done (h.setFlags v w (Alu.agree_bit v w h.flags _ _).flags))
    · exact .none
  | set => exact agree_onBit h v w src _
  | res => exact agree_onBit h v w src _
  | jp | jr =>
    dsimp only
    rw [h.value16? src, h.permits (dst.resolve_left nofun)]
    refine agree_map fun a _ => .done ?_
    split
    · exact h.jump a
    · exact h
  | djnz =>
    dsimp only
    have counter : Reg8.b ≠ .f := nofun
    rw [h.get8 counter]
    refine agree_map fun a _ => .done ?_
    split
    · exact h.set8 counter _
    · exact (h.set8 counter _).jump a
  | call =>
    dsimp only
    rw [h.permits (dst.resolve_left nofun), h.pc]
    refine agree_map fun a _ => .done ?_
    split
    · exact (h.push _).jump a
    · exact h
  | ret =>
    dsimp only
    rw [h.permits (dst.resolve_left nofun), h.top_eq]
    refine .some (.done ?_)
    split
    · exact h.pop.jump _
    · exact h
  | rst =>
    dsimp only
    rw [h.pc]
    exact agree_map fun a _ => .done ((h.push _).jump a)
  | push =>
    dsimp only
    rw [h.value16? src]
    exact agree_map fun a _ => .done (h.push a)
  | pop =>
    dsimp only
    rw [h.place16? i.dst, h.top_eq]
    exact agree_map fun p _ => .done (h.pop.write16 v w p _)
  | exchangeDEHL => exact .some (.done h.exchangeDEHL)
  | exchangeTop =>
    dsimp only
    rw [h.place16? i.dst, h.place16? i.src]
    split
    · rename_i p q hp hq
      rw [h.read16 (Operand.isShared_of_place16? (dst.resolve_left nofun) hp),
        h.read16 (Operand.isShared_of_place16? src hq)]
      exact .some (.done ((h.write16 v w p _).write16 v w q _))
    · exact .none
  | input =>
    dsimp only
    rw [h.place8? (dst.resolve_left nofun),
      h.get8 (show Reg8.c ≠ .f from nofun)]
    split
    · exact .some (.input h fun b => h.write8 v w _ b)
    · exact .some (.input h fun b => h.put8 v w _ (Alu.agree_input v w h.flags b))
    · exact .none
  | output =>
    dsimp only
    rw [h.value8? src, h.get8 (show Reg8.c ≠ .f from nofun)]
    split
    · exact .some (.output h)
    · exact .some (.output h)
    · exact .none
  | ei => exact .some (.done ⟨h.byte, h.sp, h.pc, h.memory, rfl, h.flags⟩)
  | di => exact .some (.done ⟨h.byte, h.sp, h.pc, h.memory, rfl, h.flags⟩)

end Instruction

end Micro80
