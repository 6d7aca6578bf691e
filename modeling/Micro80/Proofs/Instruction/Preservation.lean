import Micro80.Proofs.Instruction.Change

/-!
# What instructions preserve

The operation and the operands of an instruction tell which changes it makes of a core. So a
property that survives these changes survives the instruction, and one that survives every change
survives every instruction. An instruction that wants a port has changed nothing when it waits for
it, and what it does with the answer is made of the same changes.

## Main definitions

* `Instruction.changes`: the changes that an instruction makes.
* `Instruction.branches`: whether it goes elsewhere than behind itself.
* `Core.IsClosed`: properties of cores that survive each change.
* `Effect.Keeps`: effects after which a property holds again.
* `Effect.Suits`: the kinds of effects that operations have.

## Main statements

* `Instruction.suits_of_mem_changes`, `Instruction.word_cases_of_mem_changes`: which instructions
  make certain changes.
* `Instruction.keeps_of_survives`: instructions keep what survives their changes.
* `Instruction.keeps_effect?`: instructions keep closed properties.
* `Instruction.suits_effect?`: instructions have effects of their own kinds.
-/

namespace Micro80

/-! ### The changes of an instruction -/

namespace Operand

/-- The changes by which a byte is stored in an operand. -/
def changes8 (o : Operand) (s : Registers) : List Change := (o.place8? s).elim [] Place8.changes

/-- The changes by which a word is stored in an operand. -/
def changes16 (o : Operand) (s : Registers) : List Change := (o.place16? s).elim [] Place16.changes

variable {o : Operand} {s : Registers}

theorem changes8_of_eq {p : Place8} (h : o.place8? s = some p) : o.changes8 s = p.changes := by
  rw [changes8, h]
  rfl

theorem changes16_of_eq {p : Place16} (h : o.place16? s = some p) : o.changes16 s = p.changes := by
  rw [changes16, h]
  rfl

theorem changes8_cases {x : Change} (h : x ∈ o.changes8 s) :
    x = .flags ∨ (∃ r, x = .byte r) ∨ ∃ a, x = .cell a ∧ o.place8? s = some (.cell a) := by
  unfold changes8 at h
  cases place : o.place8? s with
  | none =>
    rw [place] at h
    cases h
  | some p =>
    rw [place] at h
    exact (Place8.changes_cases h).imp_right (Or.imp_right fun ⟨a, cell, eq⟩ => ⟨a, cell, eq ▸ rfl⟩)

theorem changes16_cases {x : Change} (h : x ∈ o.changes16 s) :
    x = .flags ∨ (∃ r, x = .byte r) ∨ (∃ r, x = .word r ∧ o = .reg16 r) ∨
      ∃ a, o.place16? s = some (.cells a) ∧ (x = .cell a ∨ x = .cell (a + 1)) := by
  unfold changes16 at h
  cases place : o.place16? s with
  | none =>
    rw [place] at h
    cases h
  | some p =>
    rw [place] at h
    obtain flags | byte | ⟨r, word, rfl⟩ | ⟨a, rfl, cell⟩ := Place16.changes_cases h
    · exact .inl flags
    · exact .inr (.inl byte)
    · have register : o = .reg16 r := by
        cases o with
        | reg16 r' =>
          cases place
          rfl
        | _ => cases place
      exact .inr (.inr (.inl ⟨r, word, register⟩))
    · exact .inr (.inr (.inr ⟨a, rfl, cell⟩))

theorem suits_of_mem_changes8 {x : Change} (h : x ∈ o.changes8 s) (op : Operation) :
    x.Suits op := by
  obtain rfl | ⟨r, rfl⟩ | ⟨a, rfl, -⟩ := changes8_cases h <;> trivial

theorem suits_of_mem_changes16 {x : Change} (h : x ∈ o.changes16 s) (op : Operation) :
    x.Suits op := by
  obtain rfl | ⟨r, rfl⟩ | ⟨r, rfl, -⟩ | ⟨a, -, rfl | rfl⟩ := changes16_cases h <;> trivial

theorem place8?_of_cell_mem {a : UInt16} (h : .cell a ∈ o.changes8 s) :
    o.place8? s = some (.cell a) := by
  obtain flags | ⟨r, byte⟩ | ⟨b, cell, place⟩ := changes8_cases h
  · cases flags
  · cases byte
  · cases cell
    exact place

theorem place16?_of_cell_mem {a : UInt16} (h : .cell a ∈ o.changes16 s) :
    ∃ b, o.place16? s = some (.cells b) ∧ (a = b ∨ a = b + 1) := by
  obtain flags | ⟨r, byte⟩ | ⟨r, word, -⟩ | ⟨b, place, cell⟩ := changes16_cases h
  · cases flags
  · cases byte
  · cases word
  · exact ⟨b, place, cell.imp Change.cell.inj Change.cell.inj⟩

theorem word_notMem_changes8 {r : Reg16} : .word r ∉ o.changes8 s := by
  intro h
  obtain flags | ⟨r, byte⟩ | ⟨a, cell, -⟩ := changes8_cases h
  · cases flags
  · cases byte
  · cases cell

theorem eq_of_word_mem_changes16 {r : Reg16} (h : .word r ∈ o.changes16 s) : o = .reg16 r := by
  obtain flags | ⟨r, byte⟩ | ⟨r, word, eq⟩ | ⟨a, -, cell | cell⟩ := changes16_cases h
  · cases flags
  · cases byte
  · cases word
    exact eq
  · cases cell
  · cases cell

/-- Where an operand is does not depend on the program counter. -/
theorem place8?_jump (o : Operand) (c : Core) (a : UInt16) :
    o.place8? (c.jump a).registers = o.place8? c.registers := by
  cases o with
  | indexed x d => cases x <;> rfl
  | _ => rfl

theorem place16?_jump (o : Operand) (c : Core) (a : UInt16) :
    o.place16? (c.jump a).registers = o.place16? c.registers := by
  cases o <;> rfl

/-- Nor does the byte for which it stands. -/
theorem value8?_jump (o : Operand) (c : Core) (a : UInt16) :
    (c.jump a).value8? o = c.value8? o := by
  cases o with
  | indexed x d => cases x <;> rfl
  | _ => rfl

end Operand

namespace Instruction

/-- **The changes of an instruction.** Which changes an instruction makes of a core, as told by its
operation, its operands and the registers. A jump that is not taken makes none. -/
def changes (i : Instruction) (c : Core) : List Change :=
  match i.operation with
  | .nop | .halt | .output => []
  | .move => i.dst.changes8 c.registers
  | .move16 | .inc16 | .dec16 => i.dst.changes16 c.registers
  | .arithmetic k => if k = .cp then [.flags] else [.byte .a, .flags]
  | .inc | .dec | .shift _ => i.dst.changes8 c.registers ++ [.flags]
  | .arithmetic16 _ => i.dst.changes16 c.registers ++ [.flags]
  | .neg | .daa | .cpl | .rotateA _ => [.byte .a, .flags]
  | .scf | .ccf | .bit => [.flags]
  | .set | .res => i.src.changes8 c.registers
  | .jp | .jr => if i.dst.permits c.flags then [.word .pc] else []
  | .djnz => if c.registers.get8 .b = 1 then [.byte .b] else [.byte .b, .word .pc]
  | .call => if i.dst.permits c.flags then c.pushChanges ++ [.word .pc] else []
  | .ret => if i.dst.permits c.flags then [.word .sp, .word .pc] else []
  | .rst => c.pushChanges ++ [.word .pc]
  | .push => c.pushChanges
  | .pop => .word .sp :: i.dst.changes16 c.registers
  | .exchangeDEHL => [.exchangeDEHL]
  | .exchangeAF => [.exchangeAF]
  | .exchangeGeneral => [.exchangeGeneral]
  | .exchangeTop => i.dst.changes16 c.registers ++ i.src.changes16 c.registers
  | .input => i.dst.changes8 c.registers ++ if i.src = .portC then [.flags] else []
  | .block _ false => .cell (c.registers.main.pair .de) :: Core.blockChanges
  | .block d true =>
    let count := (c.registers.main.pair .bc).toNat
    (List.range count).map (fun k => .cell (d.along (c.registers.main.pair .de) k)) ++
      if count = 0 then [] else Core.blockChanges
  | .ei | .di => [.interrupts]

/-- **Instructions make changes that suit their operations.** -/
theorem suits_of_mem_changes {i : Instruction} {c : Core} :
    ∀ x ∈ i.changes c, x.Suits i.operation := by
  have stored8 (o : Operand) (op : Operation) : ∀ x ∈ o.changes8 c.registers, x.Suits op :=
    fun _ h => Operand.suits_of_mem_changes8 h op
  have stored16 (o : Operand) (op : Operation) : ∀ x ∈ o.changes16 c.registers, x.Suits op :=
    fun _ h => Operand.suits_of_mem_changes16 h op
  unfold changes
  cases i.operation with
  | move | set | res => exact stored8 _ _
  | move16 | inc16 | dec16 => exact stored16 _ _
  | inc | dec | shift =>
    exact List.forall_mem_append.2 ⟨stored8 _ _, by simp [Change.Suits]⟩
  | arithmetic16 => exact List.forall_mem_append.2 ⟨stored16 _ _, by simp [Change.Suits]⟩
  | pop => exact List.forall_mem_cons.2 ⟨trivial, stored16 _ _⟩
  | exchangeTop => exact List.forall_mem_append.2 ⟨stored16 _ _, stored16 _ _⟩
  | input =>
    refine List.forall_mem_append.2 ⟨stored8 _ _, ?_⟩
    split <;> simp [Change.Suits]
  | arithmetic | jp | jr | djnz | call | ret =>
    dsimp only
    split <;> simp [Change.Suits, Core.pushChanges]
  | block d repeats =>
    cases repeats with
    | false => simp [Change.Suits, Core.blockChanges]
    | true =>
      refine List.forall_mem_append.2 ⟨by simp [Change.Suits], ?_⟩
      split <;> simp [Change.Suits, Core.blockChanges]
  | _ => simp [Change.Suits, Core.pushChanges]

/-- Whether an instruction goes elsewhere than behind itself. -/
def branches (i : Instruction) (c : Core) : Bool :=
  match i.operation with
  | .jp | .jr | .call | .ret => i.dst.permits c.flags
  | .djnz => c.registers.get8 .b != 1
  | .rst => true
  | _ => false

/-- **Word registers that an instruction loads** are its operands, but for the pairs and the stack
pointer, which some operations load by themselves, and for the program counter of a branch. -/
theorem word_cases_of_mem_changes {i : Instruction} {c : Core} {r : Reg16}
    (noPair : ∀ p, r ≠ .pair p) (notSP : r ≠ .sp) (mem : .word r ∈ i.changes c) :
    i.dst = .reg16 r ∨ i.src = .reg16 r ∨ r = .pc ∧ i.branches c = true := by
  have dst (mem : .word r ∈ i.dst.changes16 c.registers) :
      i.dst = .reg16 r ∨ i.src = .reg16 r ∨ r = .pc ∧ i.branches c = true :=
    .inl (Operand.eq_of_word_mem_changes16 mem)
  unfold changes at mem
  cases operation : i.operation with
  | move16 | inc16 | dec16 =>
    simp only [operation] at mem
    exact dst mem
  | arithmetic16 =>
    simp only [operation, List.mem_append, List.mem_singleton, reduceCtorEq, or_false] at mem
    exact dst mem
  | pop =>
    simp only [operation, List.mem_cons, Change.word.injEq, notSP, false_or] at mem
    exact dst mem
  | exchangeTop =>
    simp only [operation, List.mem_append] at mem
    obtain mem | mem := mem
    · exact dst mem
    · exact .inr (.inl (Operand.eq_of_word_mem_changes16 mem))
  | jp | jr | call | ret =>
    simp only [operation] at mem
    split at mem
    · rename_i taken
      refine .inr (.inr ⟨?_, ?_⟩)
      · simpa [Core.pushChanges, notSP] using mem
      · simpa only [branches, operation] using taken
    · cases mem
  | djnz =>
    simp only [operation] at mem
    split at mem
    · simp at mem
    · rename_i more
      refine .inr (.inr ⟨by simpa using mem, ?_⟩)
      simpa only [branches, operation, bne_iff_ne] using more
  | rst =>
    refine .inr (.inr ⟨?_, by simp only [branches, operation]⟩)
    simpa [operation, Core.pushChanges, notSP] using mem
  | move | set | res | inc | dec | shift =>
    simp [operation, Operand.word_notMem_changes8] at mem
  | input =>
    simp only [operation, List.mem_append, Operand.word_notMem_changes8, false_or] at mem
    split at mem <;> simp at mem
  | arithmetic =>
    simp only [operation] at mem
    split at mem <;> simp at mem
  | block d repeats =>
    cases repeats with
    | false => simp [operation, Core.blockChanges, noPair] at mem
    | true =>
      simp only [operation, List.mem_append] at mem
      obtain mem | mem := mem
      · simp at mem
      · split at mem <;> simp [Core.blockChanges, noPair] at mem
  | _ => simp [operation, Core.pushChanges, notSP] at mem

/-- Which changes are made does not depend on the program counter. -/
@[simp] theorem changes_jump (i : Instruction) (c : Core) (a : UInt16) :
    i.changes (c.jump a) = i.changes c := by
  unfold changes Operand.changes8 Operand.changes16
  simp only [Operand.place8?_jump, Operand.place16?_jump]
  rfl

end Instruction

/-! ### Effects -/

/-- **Keeping a property.** An effect after which a property holds, if it is one of an instruction
on the core `c`. An instruction that wants a port waits with that very core. -/
inductive Effect.Keeps (P : Core → Prop) (c : Core) : Effect → Prop where
  | done {c' : Core} (h : P c') : Keeps P c (.done c')
  | halted {c' : Core} (h : P c') : Keeps P c (.halted c')
  | input {p : UInt8} {store : Core → UInt8 → Core} (h : ∀ b, P (store c b)) :
      Keeps P c (.input c p store)
  | output {p b : UInt8} : Keeps P c (.output c p b)

namespace Instruction

section

variable {P : Core → Prop} {c : Core}

theorem keeps_none : ∀ e ∈ (none : Option Effect), e.Keeps P c := nofun

theorem keeps_some {e : Effect} (h : e.Keeps P c) : ∀ x ∈ some e, x.Keeps P c := by
  rintro x ⟨⟩
  exact h

theorem keeps_map {α : Type} {o : Option α} {f : α → Core} (h : ∀ a, o = some a → P (f a)) :
    ∀ e ∈ o.map fun a => Effect.done (f a), e.Keeps P c := by
  intro e he
  obtain ⟨a, ha, rfl⟩ := Option.map_eq_some_iff.1 he
  exact .done (h a ha)

variable {v : Variant} {xs : List Change} (survives : Core.Survives v xs P) (h : P c)
  {i : Instruction}

include survives h

theorem keeps_onDst (mem : i.dst.changes8 c.registers ⊆ xs) (flags : .flags ∈ xs)
    (f : UInt8 → UInt8 → AluResult UInt8) : ∀ e ∈ i.onDst v.layout c f, e.Keeps P c := by
  refine keeps_map fun p place => ?_
  rw [Operand.changes8_of_eq place] at mem
  exact survives.put8 h mem flags _

theorem keeps_onDst16 (mem : i.dst.changes16 c.registers ⊆ xs) (f : UInt16 → UInt16) :
    ∀ e ∈ i.onDst16 v.layout c f, e.Keeps P c := by
  refine keeps_map fun p place => ?_
  rw [Operand.changes16_of_eq place] at mem
  exact survives.write16 h mem _

theorem keeps_onBit (mem : i.src.changes8 c.registers ⊆ xs) (f : UInt8 → UInt8 → UInt8) :
    ∀ e ∈ i.onBit v.layout c f, e.Keeps P c := by
  unfold onBit
  split
  · rename_i n p bit place
    rw [Operand.changes8_of_eq place] at mem
    exact keeps_some (.done (survives.write8 h mem _))
  · exact keeps_none

end

/-- **Instructions keep what survives their changes.** -/
theorem keeps_of_survives {v : Variant} {P : Core → Prop} {i : Instruction} {c : Core}
    (survives : Core.Survives v (i.changes c) P) (h : P c) :
    ∀ e ∈ i.effect? v.layout c, e.Keeps P c := by
  unfold changes at survives
  unfold effect?
  generalize i.operation = operation at survives ⊢
  cases operation with
  | nop => exact keeps_some (.done h)
  | halt => exact keeps_some (.halted h)
  | move =>
    dsimp only at survives ⊢
    split
    · rename_i place
      rw [Operand.changes8_of_eq place] at survives
      exact keeps_some (.done (survives.write8 h (List.Subset.refl _) _))
    · exact keeps_none
  | move16 =>
    dsimp only at survives ⊢
    split
    · rename_i place
      rw [Operand.changes16_of_eq place] at survives
      exact keeps_some (.done (survives.write16 h (List.Subset.refl _) _))
    · exact keeps_none
  | arithmetic k =>
    refine keeps_map fun b _ => ?_
    dsimp only at survives ⊢
    split
    · rename_i compares
      rw [if_pos compares] at survives
      exact survives.setFlags h (by simp) _
    · rename_i stores
      rw [if_neg stores] at survives
      exact survives.setResult h (by simp) (by simp) _
  | inc | dec | shift k => exact keeps_onDst survives h (by simp) (by simp) _
  | inc16 | dec16 => exact keeps_onDst16 survives h (List.Subset.refl _) _
  | arithmetic16 k =>
    dsimp only at survives ⊢
    split
    · rename_i place _
      rw [Operand.changes16_of_eq place] at survives
      exact keeps_some (.done (survives.setFlags (survives.write16 h (by simp) _) (by simp) _))
    · exact keeps_none
  | neg | daa | cpl | rotateA k =>
    exact keeps_some (.done (survives.setResult h (by simp) (by simp) _))
  | scf | ccf => exact keeps_some (.done (survives.setFlags h (by simp) _))
  | bit =>
    dsimp only
    split
    · exact keeps_some (.done (survives.setFlags h (by simp) _))
    · exact keeps_none
  | set | res => exact keeps_onBit survives h (List.Subset.refl _) _
  | jp | jr =>
    refine keeps_map fun a _ => ?_
    dsimp only at survives
    split
    · rename_i taken
      rw [if_pos taken] at survives
      exact survives.jump h (by simp) a
    · exact h
  | djnz =>
    refine keeps_map fun a _ => ?_
    dsimp only at survives ⊢
    split
    · rename_i last
      rw [if_pos (by grind)] at survives
      exact survives.set8 h (by simp) (by decide) _
    · rename_i more
      rw [if_neg (by grind)] at survives
      have counted := survives.set8 h (r := .b) (by simp) (by decide) (c.registers.get8 .b - 1)
      exact survives.jump counted (by simp) a
  | call =>
    refine keeps_map fun a _ => ?_
    dsimp only at survives
    split
    · rename_i taken
      rw [if_pos taken] at survives
      exact survives.jump (survives.push h (by simp) _) (by simp) a
    · exact h
  | ret =>
    refine keeps_some (.done ?_)
    dsimp only at survives
    split
    · rename_i taken
      rw [if_pos taken] at survives
      exact survives.jump (survives.pop h (by simp)) (by simp) _
    · exact h
  | rst => exact keeps_map fun a _ => survives.jump (survives.push h (by simp) _) (by simp) a
  | push => exact keeps_map fun w _ => survives.push h (List.Subset.refl _) w
  | pop =>
    refine keeps_map fun p place => ?_
    dsimp only at survives
    rw [Operand.changes16_of_eq place] at survives
    exact survives.write16 (survives.pop h (by simp)) (by simp) _
  | exchangeDEHL => exact keeps_some (.done (survives _ (by simp) c _ .exchangeDEHL h))
  | exchangeAF => exact keeps_some (.done (survives _ (by simp) c _ .exchangeAF h))
  | exchangeGeneral => exact keeps_some (.done (survives _ (by simp) c _ .exchangeGeneral h))
  | exchangeTop =>
    dsimp only at survives ⊢
    split
    · rename_i top place
      rw [Operand.changes16_of_eq top, Operand.changes16_of_eq place] at survives
      exact keeps_some (.done (survives.write16 (survives.write16 h (by simp) _) (by simp) _))
    · exact keeps_none
  | input =>
    dsimp only at survives ⊢
    split
    · rename_i place _
      rw [Operand.changes8_of_eq place] at survives
      exact keeps_some (.input fun b => survives.write8 h (by simp) b)
    · rename_i place port
      rw [Operand.changes8_of_eq place, if_pos port] at survives
      exact keeps_some (.input fun b => survives.put8 h (by simp) (by simp) _)
    · exact keeps_none
  | output =>
    dsimp only
    split
    · exact keeps_some .output
    · exact keeps_some .output
    · exact keeps_none
  | block d repeats =>
    cases repeats with
    | false => exact keeps_some (.done (survives.transfer h (by simp) (by simp)))
    | true =>
      dsimp only at survives
      refine keeps_some (.done (survives.transferMany h (fun k hk => ?_) fun positive => ?_))
      · exact List.mem_append_left _ (List.mem_map.2 ⟨k, List.mem_range.2 hk, rfl⟩)
      · rw [if_neg (Nat.ne_of_gt positive)]
        exact List.subset_append_right _ _
  | ei | di => exact keeps_some (.done (survives _ (by simp) c _ (.interrupts _) h))

end Instruction

/-! ### Closed properties -/

/-- **Closed properties.** Properties of the cores of a processor that hold again after each of the
changes of which effects are made. -/
structure Core.IsClosed (v : Variant) (P : Core → Prop) : Prop where
  set8 {c : Core} (h : P c) {r : Reg8} (hr : r ≠ .f) (b : UInt8) : P (c.set8 r b)
  set16 {c : Core} (h : P c) {r : Reg16} (hr : r ≠ .pair .af) (w : UInt16) : P (c.set16 r w)
  setFlags {c : Core} (h : P c) (f : UInt8) : P (c.setFlags v.layout f)
  store {c : Core} (h : P c) (a : UInt16) (b : UInt8) :
    P { c with memory := c.memory.write a b }
  enable {c : Core} (h : P c) (b : Bool) : P { c with interrupts := b }
  exchangeDEHL {c : Core} (h : P c) : P { c with registers := c.registers.exchangeDEHL }
  exchangeAF {c : Core} (h : P c) : P { c with registers := c.registers.exchangeAF }
  exchangeGeneral {c : Core} (h : P c) : P { c with registers := c.registers.exchangeGeneral }

/-- Nothing is asked of a core. -/
theorem Core.isClosed_true (v : Variant) : IsClosed v fun _ => True where
  set8 _ _ _ _ := trivial
  set16 _ _ _ _ := trivial
  setFlags _ _ := trivial
  store _ _ _ := trivial
  enable _ _ := trivial
  exchangeDEHL _ := trivial
  exchangeAF _ := trivial
  exchangeGeneral _ := trivial

/-- **Closed properties** survive whichever changes are made. -/
theorem Core.IsClosed.survives {v : Variant} {P : Core → Prop} (closed : IsClosed v P)
    (xs : List Change) : Survives v xs P := by
  intro x _ c c' makes h
  cases makes with
  | byte hr b => exact closed.set8 h hr b
  | word hr w => exact closed.set16 h hr w
  | flags f => exact closed.setFlags h f
  | cell a b => exact closed.store h a b
  | interrupts b => exact closed.enable h b
  | exchangeDEHL => exact closed.exchangeDEHL h
  | exchangeAF => exact closed.exchangeAF h
  | exchangeGeneral => exact closed.exchangeGeneral h

theorem Core.IsClosed.jump {v : Variant} {P : Core → Prop} (closed : IsClosed v P) {c : Core}
    (h : P c) (a : UInt16) : P (c.jump a) :=
  closed.set16 h (by decide) a

/-- **Instructions keep closed properties.** -/
theorem Instruction.keeps_effect? {v : Variant} {P : Core → Prop} (closed : Core.IsClosed v P)
    (i : Instruction) {c : Core} (h : P c) : ∀ e ∈ i.effect? v.layout c, e.Keeps P c :=
  keeps_of_survives (closed.survives (i.changes c)) h

/-! ### Kinds of effects -/

/-- **Kinds of effects.** An effect that an instruction on the core `c` can have: only a halt
instruction halts, and only instructions for ports want one. -/
inductive Effect.Suits (i : Instruction) (c : Core) : Effect → Prop where
  | done (c' : Core) : Suits i c (.done c')
  | halted (halts : i.operation = .halt) : Suits i c (.halted c)
  | input (reads : i.operation = .input) (p : UInt8) (store : Core → UInt8 → Core) :
      Suits i c (.input c p store)
  | output (writes : i.operation = .output) (p b : UInt8) : Suits i c (.output c p b)

/-- **Instructions have effects of their own kinds.** -/
theorem Instruction.suits_effect? {L : FlagLayout} {i : Instruction} {c : Core} {e : Effect}
    (h : i.effect? L c = some e) : e.Suits i c := by
  unfold effect? at h
  cases operation : i.operation with
  | halt =>
    rw [operation] at h
    cases h
    exact .halted operation
  | input =>
    rw [operation] at h
    dsimp only at h
    split at h <;> cases h <;> exact .input operation _ _
  | output =>
    rw [operation] at h
    dsimp only at h
    split at h <;> cases h <;> exact .output operation _ _
  | nop | neg | daa | cpl | scf | ccf | rotateA | ret | exchangeDEHL | exchangeAF
  | exchangeGeneral | ei | di =>
    rw [operation] at h
    cases h
    exact .done _
  | arithmetic | inc | dec | shift | inc16 | dec16 | jp | jr | djnz | call | rst | push | pop =>
    rw [operation] at h
    obtain ⟨x, -, rfl⟩ := Option.map_eq_some_iff.1 h
    exact .done _
  | move | move16 | arithmetic16 | bit | exchangeTop =>
    rw [operation] at h
    dsimp only at h
    split at h <;> cases h
    exact .done _
  | set | res =>
    rw [operation] at h
    dsimp only [onBit] at h
    split at h <;> cases h
    exact .done _
  | block d repeats =>
    rw [operation] at h
    cases repeats <;> cases h <;> exact .done _

end Micro80
