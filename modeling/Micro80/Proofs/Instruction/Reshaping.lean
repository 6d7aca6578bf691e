import Micro80.Proofs.Instruction.Indexing
import Micro80.Proofs.Instruction.Similarity

/-!
# Reshaping cores

An instruction with an index register is compared with the one without it on a core whose HL has
been altered: it has been exchanged with the index register, or another word has been loaded. Such
cores are similar, and the operands of the two instructions are alike.

## Main definitions

* `Core.IsAside`: functions that alter HL and index registers only.
* `Core.exchangeHL`, `Core.withHL`: the two of them that matter here.
* `Core.Reshaped`: what a function makes of a core, apart from the program counter.
* `Operand.isNeutral`, `Operand.isBare`: operands that have nothing to do with HL, and those that
  have nothing to do with index registers.

## Main statements

* `Core.IsAside.isSimilarity`: what has been reshaped is similar.
* `Operand.alike_exchangeHL`, `Operand.alike_withHL`, `Operand.alike_self`: operands with an index
  register in the place of HL.
-/

namespace Micro80

/-! ### Cores with other registers -/

/-- **Asides.** Functions that alter only H, L and index registers, and to which it does not matter
what the rest of the core is. -/
structure Core.IsAside (T : Core → Core) : Prop where
  memory : ∀ c, (T c).memory = c.memory
  sp : ∀ c, (T c).registers.sp = c.registers.sp
  get8 : ∀ c {r}, r ≠ .h → r ≠ .l → (T c).registers.get8 r = c.registers.get8 r
  store : ∀ c m, T { c with memory := m } = { T c with memory := m }
  setSP : ∀ c w, T (c.set16 .sp w) = (T c).set16 .sp w
  set8 : ∀ c {r} b, r ≠ .h → r ≠ .l → T (c.set8 r b) = (T c).set8 r b
  jump : ∀ c a, T (c.jump a) = (T c).jump a

namespace Core

/-- The core with HL and an index register exchanged. -/
def exchangeHL (x : Index) (c : Core) : Core :=
  (c.set16 (.pair .hl) (c.registers.get16 x.register)).set16 x.register
    (c.registers.get16 (.pair .hl))

/-- The core with another word in HL. -/
def withHL (w : UInt16) (c : Core) : Core := c.set16 (.pair .hl) w

theorem isAside_exchangeHL (x : Index) : IsAside (exchangeHL x) where
  memory _ := rfl
  sp _ := by cases x <;> rfl
  get8 _ r h l := by cases r <;> first | contradiction | (cases x <;> rfl)
  store _ _ := by cases x <;> rfl
  setSP _ _ := by cases x <;> rfl
  set8 _ r _ h l := by cases r <;> first | contradiction | (cases x <;> rfl)
  jump _ _ := by cases x <;> rfl

theorem isAside_withHL (w : UInt16) : IsAside (withHL w) where
  memory _ := rfl
  sp _ := rfl
  get8 _ r h l := by cases r <;> first | contradiction | rfl
  store _ _ := rfl
  setSP _ _ := rfl
  set8 _ r _ h l := by cases r <;> first | contradiction | rfl
  jump _ _ := rfl

/-- **Reshaped cores.** A core is what a function makes of another one, apart from the program
counter, which has gone to the same address in both, or is still at `a` in the one and at `b` in the
other. -/
def Reshaped (T : Core → Core) (a b : UInt16) (c c' : Core) : Prop :=
  ∃ k, c' = (T c).jump k ∧ (k = c.registers.pc ∨ c.registers.pc = a ∧ k = b)

end Core

open Micro80.Core

namespace Core.IsAside

variable {T : Core → Core} (aside : IsAside T) {a b : UInt16}

include aside

theorem isSimilarity (a b : UInt16) : IsSimilarity (Reshaped T a b) where
  memory := by
    rintro c _ ⟨k, rfl, -⟩
    exact aside.memory c
  flags := by
    rintro c _ ⟨k, rfl, -⟩
    exact aside.get8 c (r := .f) (by decide) (by decide)
  accumulator := by
    rintro c _ ⟨k, rfl, -⟩
    exact aside.get8 c (r := .a) (by decide) (by decide)
  sp := by
    rintro c _ ⟨k, rfl, -⟩
    exact aside.sp c
  store := by
    rintro c _ m ⟨k, rfl, pc⟩
    exact ⟨k, (congrArg (Core.jump · k) (aside.store c m)).symm, pc⟩
  setFlags := by
    rintro c _ L f ⟨k, rfl, pc⟩
    have stored := aside.set8 c (r := .f) (L.fix f) (by decide) (by decide)
    exact ⟨k, (congrArg (Core.jump · k) stored).symm, pc⟩
  setAccumulator := by
    rintro c _ v ⟨k, rfl, pc⟩
    have stored := aside.set8 c (r := .a) v (by decide) (by decide)
    exact ⟨k, (congrArg (Core.jump · k) stored).symm, pc⟩
  setSP := by
    rintro c _ w ⟨k, rfl, pc⟩
    exact ⟨k, (congrArg (Core.jump · k) (aside.setSP c w)).symm, pc⟩
  jump := by
    rintro c _ n ⟨k, rfl, -⟩
    exact ⟨n, (congrArg (Core.jump · n) (aside.jump c n)).symm, .inl rfl⟩

/-- A byte register other than H and L is where it was. -/
theorem alike_register {r : Reg8} (h : r ≠ .h) (l : r ≠ .l) :
    Place8.Alike (Reshaped T a b) (.register r) (.register r) where
  read := by
    rintro c _ ⟨k, rfl, -⟩
    exact aside.get8 c h l
  write := by
    rintro c c' L v related
    obtain flags | rfl := ne_or_eq r .f
    · obtain ⟨k, rfl, pc⟩ := related
      have other (c : Core) : c.write8 L (.register r) v = c.set8 r v := by
        cases r <;> first | contradiction | rfl
      rw [other, other]
      exact ⟨k, (congrArg (Core.jump · k) (aside.set8 c v h l)).symm, pc⟩
    · exact (aside.isSimilarity a b).setFlags L v related

/-- So is a pair other than HL, -/
theorem alike_pair {p : Pair} (hl : p ≠ .hl) :
    Place16.Alike (Reshaped T a b) (.register (.pair p)) (.register (.pair p)) := by
  have high : p.high ≠ .h ∧ p.high ≠ .l := by cases p <;> first | contradiction | decide
  have low : p.low ≠ .h ∧ p.low ≠ .l := by cases p <;> first | contradiction | decide
  constructor
  · rintro c _ ⟨k, rfl, -⟩
    exact congrArg₂ word (aside.get8 c high.1 high.2) (aside.get8 c low.1 low.2)
  · intro c c' L w related
    have stored (c : Core) : c.write16 L (.register (.pair p)) w =
        (c.write8 L (.register p.high) (highByte w)).write8 L (.register p.low) (lowByte w) := by
      cases p <;> rfl
    rw [stored, stored]
    exact (aside.alike_register low.1 low.2).write L _
      ((aside.alike_register high.1 high.2).write L _ related)

/-- and so is the stack pointer. -/
theorem alike_sp : Place16.Alike (Reshaped T a b) (.register .sp) (.register .sp) where
  read := by
    rintro c _ ⟨k, rfl, -⟩
    exact aside.sp c
  write := by
    rintro c _ L w related
    exact (aside.isSimilarity a b).setSP w related

end Core.IsAside

/-! ### Operands of substituted instructions -/

/-- An index register is found in HL after the exchange. -/
theorem Place16.alike_exchangeHL (x : Index) (a b : UInt16) :
    Place16.Alike (Reshaped (exchangeHL x) a b) (.register x.register) (.register (.pair .hl)) where
  read := by
    rintro c _ ⟨k, rfl, -⟩
    cases x <;> simp [read16, exchangeHL, Core.set16, Core.jump, Index.register]
  write := by
    rintro c _ L w ⟨k, rfl, pc⟩
    cases x
    · exact ⟨k, rfl, pc⟩
    · exact ⟨k, rfl, pc⟩

namespace Operand

/-- Whether an operand has to do with neither HL nor an index register, nor the program counter. -/
def isNeutral : Operand → Bool
  | reg8 .h | reg8 .l | reg16 (.pair .hl) | reg16 .ix | reg16 .iy | reg16 .pc | indirect .hl
  | indexed .. => false
  | _ => true

/-- A neutral operand is the same with an index register in the place of HL. -/
theorem substitute_of_isNeutral {o : Operand} (neutral : o.isNeutral = true) (x : Index)
    (d : Int8) : o.substitute x d = o := by
  cases o with
  | reg16 r =>
    cases r with
    | pair p => cases p <;> first | rfl | cases neutral
    | _ => rfl
  | indirect p => cases p <;> first | rfl | cases neutral
  | _ => rfl

/-- **Neutral operands** are the same for a reshaped core. -/
theorem alike_of_isNeutral {T : Core → Core} (aside : IsAside T) {a b : UInt16} {c c' : Core}
    (h : Reshaped T a b c c') {o : Operand} (neutral : o.isNeutral = true) :
    Alike (Reshaped T a b) c c' o o := by
  have sim := aside.isSimilarity a b
  cases o with
  | reg8 r =>
    refine .of_place8 h rfl rfl (aside.alike_register ?_ ?_)
    · rintro rfl
      cases neutral
    · rintro rfl
      cases neutral
  | reg16 r =>
    cases r with
    | pair p =>
      refine .of_place16 h rfl rfl (aside.alike_pair ?_)
      rintro rfl
      cases neutral
    | sp => exact .of_place16 h rfl rfl aside.alike_sp
    | ix | iy | pc => cases neutral
  | indirect p =>
    have same : c'.registers.main.pair p = c.registers.main.pair p := by
      refine (aside.alike_pair (a := a) (b := b) ?_).read h
      rintro rfl
      cases neutral
    exact .of_place8 h rfl (congrArg (some <| Place8.cell ·) same) (sim.alike_cell _)
  | indexed => cases neutral
  | direct a => exact .of_place8 h rfl rfl (sim.alike_cell a)
  | direct16 a => exact .of_place16 h rfl rfl (sim.alike_cells a)
  | stackTop =>
    exact .of_place16 h rfl (congrArg (some <| Place16.cells ·) (sim.sp h)) (sim.alike_cells _)
  | _ => exact .of_no_place (fun _ => rfl) fun _ => rfl

theorem isHalfOfHL_substitute (o : Operand) (x : Index) (d : Int8) :
    (o.substitute x d).isHalfOfHL = o.isHalfOfHL := by
  cases o with
  | reg16 r =>
    cases r with
    | pair p => cases p <;> rfl
    | _ => rfl
  | indirect p => cases p <;> rfl
  | _ => rfl

/-- Whether an operand is one of an instruction without an index register. -/
def isBare : Operand → Bool
  | reg16 .ix | reg16 .iy | reg16 .pc | indexed .. => false
  | _ => true

theorem usesIndex_of_isBare {o : Operand} (bare : o.isBare = true) : o.usesIndex = false := by
  cases o with
  | reg16 r => cases r <;> first | rfl | cases bare
  | indexed => cases bare
  | _ => rfl

/-- Operands without an index register that are not neutral are HL, the byte to which it points, or
one of its halves. -/
theorem isNeutral_or {o : Operand} (bare : o.isBare = true) :
    o.isNeutral = true ∨ o = .reg16 (.pair .hl) ∨ o = .indirect .hl ∨ o.isHalfOfHL = true := by
  cases o with
  | reg8 r => cases r <;> simp [isNeutral, isHalfOfHL]
  | reg16 r =>
    cases r with
    | pair p => cases p <;> simp [isNeutral]
    | sp => simp [isNeutral]
    | ix | iy | pc => cases bare
  | indirect p => cases p <;> simp [isNeutral]
  | indexed => cases bare
  | _ => exact .inl rfl

/-- The byte to which an index register points is the one to which HL points without it. -/
theorem substitute_eq_indexed {o : Operand} (bare : o.isBare = true) {x : Index} {d : Int8}
    (h : (o.substitute x d).isIndexed = true) : o.substitute x d = .indexed x d := by
  cases o with
  | reg16 r =>
    cases r with
    | pair p => cases p <;> cases h
    | _ => cases h
  | indirect p => cases p <;> first | rfl | cases h
  | indexed => cases bare
  | _ => cases h

section

variable {x : Index} {d : Int8} {a b : UInt16} {c c' : Core} {o : Operand}

/-- **An operand that is not indexed** works on a core as it does without the index register on the
core with HL exchanged. -/
theorem alike_exchangeHL (bare : o.isBare = true) (whole : o.isHalfOfHL = false)
    (unpointed : (o.substitute x d).isIndexed = false) (h : Reshaped (exchangeHL x) a b c c') :
    Alike (Reshaped (exchangeHL x) a b) c c' (o.substitute x d) o := by
  obtain neutral | rfl | rfl | half := isNeutral_or bare
  · rw [substitute_of_isNeutral neutral]
    exact alike_of_isNeutral (isAside_exchangeHL x) h neutral
  · exact .of_place16 h rfl rfl (Place16.alike_exchangeHL x a b)
  · cases unpointed
  · cases whole.symm.trans half

/-- **An operand of an instruction with an indexed one** works on a core as it does without the
index register on a core on which HL points to the same byte. -/
theorem alike_withHL (bare : o.isBare = true) (whole : o.isHalfOfHL = false)
    (byte : o ≠ .reg16 (.pair .hl)) {w : UInt16}
    (target : w = displaced (c.registers.get16 x.register) d)
    (h : Reshaped (withHL w) a b c c') :
    Alike (Reshaped (withHL w) a b) c c' (o.substitute x d) o := by
  obtain neutral | rfl | rfl | half := isNeutral_or bare
  · rw [substitute_of_isNeutral neutral]
    exact alike_of_isNeutral (isAside_withHL w) h neutral
  · exact absurd rfl byte
  · have points : c'.registers.main.pair .hl = displaced (c.registers.get16 x.register) d := by
      obtain ⟨k, rfl, -⟩ := h
      rw [← target]
      exact (c.registers.get16_set16 (.pair .hl) (.pair .hl) w).trans (if_pos rfl)
    exact .of_place8 h rfl (congrArg (some <| Place8.cell ·) points)
      (((isAside_withHL w).isSimilarity a b).alike_cell _)
  · cases whole.symm.trans half

/-- **An operand with an index register in the place of HL** does not depend on HL. -/
theorem alike_self (bare : o.isBare = true) (whole : o.isHalfOfHL = false) {w : UInt16}
    (h : Reshaped (withHL w) a b c c') :
    Alike (Reshaped (withHL w) a b) c c' (o.substitute x d) (o.substitute x d) := by
  obtain neutral | rfl | rfl | half := isNeutral_or bare
  · rw [substitute_of_isNeutral neutral]
    exact alike_of_isNeutral (isAside_withHL w) h neutral
  · have alike : Place16.Alike (Reshaped (withHL w) a b) (.register x.register)
        (.register x.register) := by
      constructor
      · rintro c _ ⟨k, rfl, -⟩
        cases x <;> rfl
      · rintro c _ L v ⟨k, rfl, pc⟩
        cases x
        · exact ⟨k, rfl, pc⟩
        · exact ⟨k, rfl, pc⟩
    exact .of_place16 h rfl rfl alike
  · have same : c'.registers.get16 x.register = c.registers.get16 x.register := by
      obtain ⟨k, rfl, -⟩ := h
      cases x <;> rfl
    exact .of_place8 h rfl (congrArg (some <| Place8.cell <| displaced · d) same)
      (((isAside_withHL w).isSimilarity a b).alike_cell _)
  · cases whole.symm.trans half

end

end Operand

end Micro80
