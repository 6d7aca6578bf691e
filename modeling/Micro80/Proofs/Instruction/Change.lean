import Micro80.Machine.Effect
import Micro80.Proofs.Memory.BlockCopy

/-!
# Changes of a core

Whatever an instruction does to a core is made of a few kinds of changes: loading a register,
setting the flags, storing a byte, exchanging registers and switching interrupts. Each of them
leaves everything else as it is. So what is known about a core remains true if it survives the
changes that are made, and for this it is enough to know which kinds they are and not what they
bring.

Storing at a place, the stack and block transfers are put together from changes here.

## Main definitions

* `Change`, with `Change.Makes`: the kinds of changes and what they may make of a core.
* `Core.Survives`: properties that survive some changes.
* `Place8.changes`, `Place16.changes`, `Core.pushChanges`, `Core.blockChanges`: the changes of which
  larger ones are made.

## Main statements

* `Change.Makes.read_eq`, `Change.Makes.get16_eq`, `Change.Makes.flags_eq`: what a change leaves as
  it is.
* `Core.Survives.write8`, `Core.Survives.write16`: storing at a place.
* `Core.Survives.transferMany`: steps of a block transfer.
-/

namespace Micro80

/-- **Changes.** The kinds of changes of which effects are made. -/
inductive Change where
  /-- A byte register other than the flags is loaded. -/
  | byte (r : Reg8)
  /-- A word register other than AF is loaded. -/
  | word (r : Reg16)
  /-- The flags are set. -/
  | flags
  /-- A byte is stored at an address. -/
  | cell (a : UInt16)
  /-- Interrupts are enabled or disabled. -/
  | interrupts
  /-- DE and HL are exchanged. -/
  | exchangeDEHL
  /-- The accumulator and the flags are exchanged with their shadows. -/
  | exchangeAF
  /-- The other byte registers are exchanged with their shadows. -/
  | exchangeGeneral
  deriving DecidableEq

namespace Change

/-- Whether a change is one that an operation may make. Exchanges with the shadows, and those of DE
and HL, have operations of their own, and so has the interrupt flip-flop. -/
def Suits (o : Operation) : Change → Prop
  | interrupts => o = .ei ∨ o = .di
  | exchangeDEHL => o = .exchangeDEHL
  | exchangeAF => o = .exchangeAF
  | exchangeGeneral => o = .exchangeGeneral
  | _ => True

/-- **Making a change.** What a change may make of a core of a processor. -/
inductive Makes (v : Variant) (c : Core) : Change → Core → Prop where
  | byte {r : Reg8} (h : r ≠ .f) (b : UInt8) : Makes v c (.byte r) (c.set8 r b)
  | word {r : Reg16} (h : r ≠ .pair .af) (w : UInt16) : Makes v c (.word r) (c.set16 r w)
  | flags (f : UInt8) : Makes v c .flags (c.setFlags v.layout f)
  | cell (a : UInt16) (b : UInt8) : Makes v c (.cell a) { c with memory := c.memory.write a b }
  | interrupts (b : Bool) : Makes v c .interrupts { c with interrupts := b }
  | exchangeDEHL : Makes v c .exchangeDEHL { c with registers := c.registers.exchangeDEHL }
  | exchangeAF : Makes v c .exchangeAF { c with registers := c.registers.exchangeAF }
  | exchangeGeneral : Makes v c .exchangeGeneral { c with registers := c.registers.exchangeGeneral }

/-! ### What changes leave -/

namespace Makes

variable {v : Variant} {c c' : Core} {x : Change} (h : x.Makes v c c')

include h

/-- A byte of memory. -/
theorem read_eq {a : UInt16} (hx : x ≠ .cell a) : c'.memory.read a = c.memory.read a := by
  cases h with
  | cell a' b =>
    have other : a ≠ a' := by
      rintro rfl
      exact hx rfl
    show (c.memory.write a' b).read a = _
    rw [Memory.read_write, if_neg other]
  | _ => rfl

/-- The marks of memory. -/
theorem marks_eq : c'.memory.marks = c.memory.marks := by
  cases h <;> rfl

/-- A word register that is no pair. -/
theorem get16_eq {r : Reg16} (word : ∀ p, r ≠ .pair p) (hx : x ≠ .word r) :
    c'.registers.get16 r = c.registers.get16 r := by
  cases h with
  | @word r' h w =>
    have other : r ≠ r' := by
      rintro rfl
      exact hx rfl
    show (c.registers.set16 r' w).get16 r = _
    rw [Registers.get16_set16, if_neg other]
  | _ =>
    cases r with
    | pair p => exact absurd rfl (word p)
    | _ => rfl

/-- The shadow registers. -/
theorem shadow_eq (hAF : x ≠ .exchangeAF) (hGeneral : x ≠ .exchangeGeneral) :
    c'.registers.shadow = c.registers.shadow := by
  cases h with
  | @word r h w => cases r <;> rfl
  | exchangeAF => exact absurd rfl hAF
  | exchangeGeneral => exact absurd rfl hGeneral
  | _ => rfl

/-- The flags. -/
theorem flags_eq (notSet : x ≠ .flags) (notExchanged : x ≠ .exchangeAF) : c'.flags = c.flags := by
  cases h with
  | @byte r hr b =>
    cases r with
    | f => exact absurd rfl hr
    | b | c | d | e | h | l | a => rfl
  | @word r hr w =>
    cases r with
    | pair p =>
      cases p with
      | af => exact absurd rfl hr
      | bc | de | hl => rfl
    | sp | ix | iy | pc => rfl
  | flags f => exact absurd rfl notSet
  | exchangeAF => exact absurd rfl notExchanged
  | _ => rfl

/-- The interrupt flip-flop. -/
theorem interrupts_eq (hx : x ≠ .interrupts) : c'.interrupts = c.interrupts := by
  cases h with
  | interrupts => exact absurd rfl hx
  | _ => rfl

end Makes

end Change

/-! ### Changes put together -/

/-- The changes by which a byte is stored at a place. -/
def Place8.changes : Place8 → List Change
  | .register .f => [.flags]
  | .register r => [.byte r]
  | .cell a => [.cell a]

/-- The changes by which a word is stored at a place. -/
def Place16.changes : Place16 → List Change
  | .register (.pair .af) => [.byte .a, .flags]
  | .register r => [.word r]
  | .cells a => [.cell a, .cell (a + 1)]

theorem Place8.changes_cases {p : Place8} {x : Change} (h : x ∈ p.changes) :
    x = .flags ∨ (∃ r, x = .byte r) ∨ ∃ a, x = .cell a ∧ p = .cell a := by
  cases p with
  | cell a => exact .inr (.inr ⟨a, List.mem_singleton.1 h, rfl⟩)
  | register r =>
    cases r with
    | f => exact .inl (List.mem_singleton.1 h)
    | b | c | d | e | h | l | a => exact .inr (.inl ⟨_, List.mem_singleton.1 h⟩)

theorem Place16.changes_cases {p : Place16} {x : Change} (h : x ∈ p.changes) :
    x = .flags ∨ (∃ r, x = .byte r) ∨ (∃ r, x = .word r ∧ p = .register r) ∨
      ∃ a, p = .cells a ∧ (x = .cell a ∨ x = .cell (a + 1)) := by
  cases p with
  | cells a =>
    simp only [changes, List.mem_cons, List.not_mem_nil, or_false] at h
    exact .inr (.inr (.inr ⟨a, rfl, h⟩))
  | register r =>
    by_cases accumulator : r = .pair .af
    · subst accumulator
      simp only [changes, List.mem_cons, List.not_mem_nil, or_false] at h
      exact h.symm.imp_right fun byte => .inl ⟨_, byte⟩
    · have single : (Place16.register r).changes = [.word r] := by
        unfold changes
        split <;> simp_all
      rw [single] at h
      exact .inr (.inr (.inl ⟨r, List.mem_singleton.1 h, rfl⟩))

/-- Storing a byte at a place sets the flags only if that is the place of the flags. -/
theorem Place8.flags_mem_changes {p : Place8} : .flags ∈ p.changes ↔ p = .register .f := by
  constructor
  · intro mem
    cases p with
    | cell a => cases List.mem_singleton.1 mem
    | register r =>
      cases r with
      | f => rfl
      | b | c | d | e | h | l | a => cases List.mem_singleton.1 mem
  · rintro rfl
    exact List.mem_singleton_self _

/-- Storing a word sets the flags only if its place is AF. -/
theorem Place16.flags_mem_changes {p : Place16} :
    .flags ∈ p.changes ↔ p = .register (.pair .af) := by
  constructor
  · intro mem
    cases p with
    | cells a => simp only [changes, List.mem_cons, List.not_mem_nil, reduceCtorEq, or_self] at mem
    | register r =>
      cases r with
      | pair q =>
        cases q with
        | af => rfl
        | bc | de | hl => cases List.mem_singleton.1 mem
      | sp | ix | iy | pc => cases List.mem_singleton.1 mem
  · rintro rfl
    exact List.mem_cons_of_mem _ (List.mem_singleton_self _)

namespace Core

/-- The changes by which a word is pushed. -/
def pushChanges (c : Core) : List Change :=
  [.cell (c.registers.sp - 1), .cell (c.registers.sp - 2), .word .sp]

/-- The changes that a block transfer makes beside storing bytes. -/
def blockChanges : List Change := [.word (.pair .hl), .word (.pair .de), .word (.pair .bc), .flags]

/-- **Surviving.** A property of cores that remains true whichever of some changes are made. -/
def Survives (v : Variant) (xs : List Change) (P : Core → Prop) : Prop :=
  ∀ x ∈ xs, ∀ c c', x.Makes v c c' → P c → P c'

/-- A part of the core is the same as long as no change concerns it. -/
theorem survives_of_eq {α : Type} {v : Variant} {xs : List Change} {f : Core → α}
    (h : ∀ x ∈ xs, ∀ c c', x.Makes v c c' → f c' = f c) (y : α) :
    Survives v xs fun c => f c = y :=
  fun x hx c c' makes same => (h x hx c c' makes).trans same

namespace Survives

variable {v : Variant} {xs : List Change} {P : Core → Prop} {c : Core}

/-! ### Registers and memory -/

section

variable (survives : Survives v xs P) (h : P c)

include survives h

theorem set8 {r : Reg8} (mem : .byte r ∈ xs) (hr : r ≠ .f) (b : UInt8) : P (c.set8 r b) :=
  survives _ mem c _ (.byte hr b) h

theorem set16 {r : Reg16} (mem : .word r ∈ xs) (hr : r ≠ .pair .af) (w : UInt16) :
    P (c.set16 r w) :=
  survives _ mem c _ (.word hr w) h

theorem jump (mem : .word .pc ∈ xs) (a : UInt16) : P (c.jump a) :=
  survives.set16 h mem (by decide) a

theorem setFlags (mem : .flags ∈ xs) (f : UInt8) : P (c.setFlags v.layout f) :=
  survives _ mem c _ (.flags f) h

theorem store {a : UInt16} (mem : .cell a ∈ xs) (b : UInt8) :
    P { c with memory := c.memory.write a b } :=
  survives _ mem c _ (.cell a b) h

theorem write8 {p : Place8} (mem : p.changes ⊆ xs) (b : UInt8) :
    P (c.write8 v.layout p b) := by
  cases p with
  | cell a => exact survives.store h (mem List.mem_cons_self) b
  | register r =>
    cases r with
    | f => exact survives.setFlags h (mem List.mem_cons_self) b
    | b | c | d | e | h | l | a => exact survives.set8 h (mem List.mem_cons_self) (by decide) b

theorem write16 {p : Place16} (mem : p.changes ⊆ xs) (w : UInt16) :
    P (c.write16 v.layout p w) := by
  cases p with
  | cells a =>
    have low := survives.store h (mem List.mem_cons_self) (lowByte w)
    exact survives.store low (mem (List.mem_cons_of_mem _ List.mem_cons_self)) (highByte w)
  | register r =>
    cases r with
    | pair q =>
      cases q with
      | af =>
        have high := survives.set8 h (r := .a) (mem (by decide)) (by decide) (highByte w)
        exact survives.setFlags high (mem (by decide)) (lowByte w)
      | bc | de | hl => exact survives.set16 h (mem List.mem_cons_self) (by decide) w
    | sp | ix | iy | pc => exact survives.set16 h (mem List.mem_cons_self) (by decide) w

/-- A result may be stored anywhere. -/
theorem put8 {p : Place8} (mem : p.changes ⊆ xs) (flags : .flags ∈ xs) (r : AluResult UInt8) :
    P ((c.write8 v.layout p r.value).setFlags v.layout r.flags) :=
  survives.setFlags (survives.write8 h mem r.value) flags r.flags

theorem setResult (accumulator : .byte .a ∈ xs) (flags : .flags ∈ xs) (r : AluResult UInt8) :
    P (c.setResult v.layout r) :=
  survives.setFlags (survives.set8 h accumulator (by decide) r.value) flags r.flags

/-! ### The stack and blocks -/

theorem push (mem : c.pushChanges ⊆ xs) (w : UInt16) : P (c.push w) := by
  have high := survives.store h (mem (by simp [pushChanges])) (highByte w)
    (a := c.registers.sp - 1)
  have low := survives.store high (mem (by simp [pushChanges])) (lowByte w)
    (a := c.registers.sp - 2)
  exact survives.set16 low (r := .sp) (mem (by simp [pushChanges])) (by decide) _

theorem pop (mem : .word .sp ∈ xs) : P c.pop := survives.set16 h mem (by decide) _

theorem transfer {d : Direction} (cell : .cell (c.registers.main.pair .de) ∈ xs)
    (mem : blockChanges ⊆ xs) : P (c.transfer v.layout d) := by
  have copied := survives.store h cell (c.memory.read (c.registers.main.pair .hl))
  have source := survives.set16 copied (r := .pair .hl) (mem (by decide)) (by decide)
    (d.next (c.registers.main.pair .hl))
  have target := survives.set16 source (r := .pair .de) (mem (by decide)) (by decide)
    (d.next (c.registers.main.pair .de))
  have counted := survives.set16 target (r := .pair .bc) (mem (by decide)) (by decide)
    (c.registers.main.pair .bc - 1)
  exact survives.setFlags counted (mem (by decide)) _

end

/-- Each step stores a byte where the steps before it have left DE. -/
theorem transferMany {d : Direction} {steps : Nat} (survives : Survives v xs P) (h : P c)
    (cells : ∀ k < steps, .cell (d.along (c.registers.main.pair .de) k) ∈ xs)
    (mem : 0 < steps → blockChanges ⊆ xs) : P (c.transferMany v.layout d steps) := by
  induction steps generalizing c with
  | zero => exact h
  | succ steps ih =>
    have positive := Nat.succ_pos steps
    have first := cells 0 positive
    rw [Direction.along_zero] at first
    refine ih (survives.transfer h first (mem positive)) (fun k hk => ?_) fun _ => mem positive
    rw [pair_de_transfer, ← Direction.along_one, ← Direction.along_add, Nat.add_comm]
    exact cells (k + 1) (Nat.succ_lt_succ hk)

end Survives

end Core

end Micro80
