import Mathlib.Data.List.Forall2
import Micro80.Proofs.Instruction.Form
import Micro80.Proofs.Machine.Canonical
import Micro80.Proofs.Machine.Step

/-!
# The stack

The stack is a region of a circular memory below the stack pointer, and nothing keeps it from
growing into whatever else is there, or around memory into itself. It holds half as many words as
memory has bytes before this happens. Up to that many words come back in the reverse order of that
in which they have been pushed, whichever instructions push and pop them and whatever happens in
between, as long as it restores the stack pointer and leaves alone the bytes of the words that are
still to be popped.

## Main definitions

* `Memory.HoldsWords`: words that are in memory one after the other.
* `Instruction.pushed?`, `Instruction.pops`: the word that an instruction pushes, and whether it
  pops one.
* `Instruction.HasDelivered`: a core that has received a popped word.
* `Machine.Interlude`: what may happen between pushes and pops.
* `Machine.Piles`, `Machine.Unpiles`: pushing words, and popping them again.
* `Machine.Piled`, `Machine.Unpiled`: what is known of a machine then.

## Main statements

* `Machine.Piles.piled`: what is in memory after words have been pushed.
* `Machine.Unpiles.unpiled`: what has become of them when some have been popped.
* `Machine.stack_is_lifo`: the stack gives back what it has been given.
-/

namespace Micro80

/-! ### Words in memory -/

/-- Less than a round above an address is not below it. -/
theorem add_ofNat_ne_sub_ofNat (a : UInt16) {k d : Nat} (pos : 0 < d) (h : k + d < 65536) :
    a + UInt16.ofNat k ≠ a - UInt16.ofNat d := by
  intro eq
  have numbers := congrArg UInt16.toNat eq
  have bound := a.toNat_lt
  rw [UInt16.toNat_add, UInt16.toNat_sub, UInt16.toNat_ofNat', UInt16.toNat_ofNat'] at numbers
  omega

namespace Memory

/-- **Words in a row.** The words are in memory from an address upwards, each with its low byte
first. -/
def HoldsWords (m : Memory) : UInt16 → List UInt16 → Prop
  | _, [] => True
  | a, w :: ws => m.readWord a = w ∧ HoldsWords m (a + 2) ws

/-- Words stay where they are as long as their bytes do. -/
theorem HoldsWords.congr {m m' : Memory} {a : UInt16} {ws : List UInt16} (h : m.HoldsWords a ws)
    (same : ∀ k < 2 * ws.length, m'.read (a + UInt16.ofNat k) = m.read (a + UInt16.ofNat k)) :
    m'.HoldsWords a ws := by
  induction ws generalizing a with
  | nil => trivial
  | cons w ws ih =>
    obtain ⟨first, rest⟩ := h
    rw [List.length_cons] at same
    refine ⟨?_, ih rest fun k hk => ?_⟩
    · have low : m'.read a = m.read a := by simpa using same 0 (by omega)
      have high : m'.read (a + 1) = m.read (a + 1) := same 1 (by omega)
      rw [readWord, low, high]
      exact first
    · have along : a + 2 + UInt16.ofNat k = a + UInt16.ofNat (k + 2) := by
        rw [UInt16.ofNat_add]
        grind
      rw [along]
      exact same (k + 2) (by omega)

end Memory

namespace Core

variable (c : Core) (w : UInt16)

/-- Pushing changes two bytes. -/
theorem read_push {a : UInt16} (high : a ≠ c.registers.sp - 1) (low : a ≠ c.registers.sp - 2) :
    (c.push w).memory.read a = c.memory.read a := by
  show ((c.memory.write _ _).write _ _).read a = _
  rw [Memory.read_write, if_neg low, Memory.read_write, if_neg high]

/-- The word that has been pushed is on top. -/
theorem readWord_push : (c.push w).memory.readWord (c.registers.sp - 2) = w := by
  have above : c.registers.sp - 2 + 1 = c.registers.sp - 1 := by grind
  have apart : c.registers.sp - 1 ≠ c.registers.sp - 2 := by grind
  show word (((c.memory.write _ _).write _ _).read _) (((c.memory.write _ _).write _ _).read _) = _
  rw [above, Memory.read_write, Memory.read_write, if_neg apart, Memory.read_write, if_pos rfl,
    if_pos rfl, word_highByte_lowByte]

/-- **Pushing onto words.** The others stay below the new one if there is room for all of them. -/
theorem holdsWords_push {ws : List UInt16} (room : ws.length < 32768)
    (h : c.memory.HoldsWords c.registers.sp ws) :
    (c.push w).memory.HoldsWords (c.registers.sp - 2) (w :: ws) := by
  have back : c.registers.sp - 2 + 2 = c.registers.sp := by grind
  refine ⟨c.readWord_push w, ?_⟩
  rw [back]
  refine h.congr fun k hk => c.read_push w ?_ ?_
  · exact add_ofNat_ne_sub_ofNat c.registers.sp (d := 1) Nat.one_pos (by omega)
  · exact add_ofNat_ne_sub_ofNat c.registers.sp (d := 2) Nat.two_pos (by omega)

/-- A word register that has been loaded holds the word, unless flags are fixed in it. -/
theorem get16_write16 (L : FlagLayout) {r : Reg16} (hr : r ≠ .pair .af) :
    (c.write16 L (.register r) w).registers.get16 r = w := by
  cases r with
  | pair p =>
    cases p with
    | af => exact absurd rfl hr
    | bc | de | hl => simp [write16, set16]
  | sp | ix | iy | pc => rfl

/-- Popping a word and pushing another one replaces the top of the stack. -/
theorem push_pop : c.pop.push w = { c with memory := c.memory.writeWord c.registers.sp w } := by
  have high : c.registers.sp + 2 - 1 = c.registers.sp + 1 := by grind
  have low : c.registers.sp + 2 - 2 = c.registers.sp := by grind
  have apart : c.registers.sp ≠ c.registers.sp + 1 := by grind
  have memory : (c.pop.push w).memory = c.memory.writeWord c.registers.sp w := by
    refine Memory.ext_read (fun a => ?_) rfl
    show ((c.memory.write (c.registers.sp + 2 - 1) _).write (c.registers.sp + 2 - 2) _).read a = _
    rw [high, low, Memory.writeWord]
    -- The two bytes are stored in either order.
    simp only [Memory.read_write]
    by_cases first : a = c.registers.sp
    · rw [if_pos first, if_neg (first ▸ apart), if_pos first]
    · rw [if_neg first, if_neg first]
  have registers : (c.pop.push w).registers = c.registers := by
    show { c.registers with sp := c.registers.sp + 2 - 2 } = c.registers
    rw [low]
  rw [← memory, ← registers]
  rfl

end Core

/-! ### Instructions -/

namespace Instruction

/-- **Pushing.** The word that an instruction pushes onto the stack of a core, if it pushes one. -/
def pushed? (i : Instruction) (c : Core) : Option UInt16 :=
  match i.operation, i.src with
  | .push, .reg16 r => some (c.registers.get16 r)
  | .call, _ => if i.dst.permits c.flags then some i.next else none
  | .rst, _ => some i.next
  | _, _ => none

/-- **Popping.** Whether an instruction pops a word from the stack of a core. -/
def pops (i : Instruction) (c : Core) : Bool :=
  match i.operation with
  | .pop => true
  | .ret => i.dst.permits c.flags
  | _ => false

/-- **Delivery.** A core that has received a word from an instruction that has popped it: in the
program counter if the instruction is a return, and otherwise in its destination, where AF takes the
flags that there are. -/
def HasDelivered (L : FlagLayout) (i : Instruction) (w : UInt16) (c : Core) : Prop :=
  match i.operation, i.dst with
  | .ret, _ => c.registers.pc = w
  | .pop, .reg16 (.pair .af) => c.accumulator = highByte w ∧ c.flags = L.fix (lowByte w)
  | .pop, .reg16 r => c.registers.get16 r = w
  | _, _ => False

variable {v : Variant} {a : UInt16} {i : Instruction} {c : Core} (h : decode v c.memory a = .ok i)

include h

/-- Every push, every restart and every call that is taken pushes a word, and nothing else does. -/
theorem isSome_pushed?_iff : (i.pushed? c).isSome = true ↔
    i.operation = .push ∨ i.operation = .rst ∨
      i.operation = .call ∧ i.dst.permits c.flags = true := by
  cases operation : i.operation with
  | push =>
    obtain ⟨r, src⟩ := exists_src_of_push h operation
    simp [pushed?, operation, src]
  | call => simp [pushed?, operation]
  | rst => simp [pushed?, operation]
  | _ => simp [pushed?, operation]

/-- **What an instruction does that pushes.** -/
theorem exists_effect?_of_pushed? {w : UInt16} (pushed : i.pushed? c = some w) (L : FlagLayout) :
    ∃ c', i.effect? L (c.jump i.next) = some (.done c') ∧
      c'.memory = (c.push w).memory ∧ c'.registers.sp = c.registers.sp - 2 := by
  unfold pushed? at pushed
  unfold effect?
  split at pushed
  · rename_i r operation src
    have other : r ≠ .pc := fun pc => (ne_pc_of_decode h).2 (pc ▸ src)
    have same : (c.jump i.next).registers.get16 r = c.registers.get16 r := by
      show (c.registers.set16 .pc i.next).get16 r = _
      rw [Registers.get16_set16, if_neg other]
    rw [operation, src]
    cases pushed
    refine ⟨(c.jump i.next).push ((c.jump i.next).registers.get16 r), rfl, ?_, rfl⟩
    rw [same]
    rfl
  · rename_i operation
    obtain ⟨taken, pushed⟩ := Option.ite_none_right_eq_some.1 pushed
    cases pushed
    rw [operation, src_of_call h operation]
    exact ⟨_, congrArg some (congrArg Effect.done (if_pos taken)), rfl, rfl⟩
  · rename_i operation
    cases pushed
    rw [operation, src_of_rst h operation]
    exact ⟨_, rfl, rfl, rfl⟩
  · cases pushed

/-- **What an instruction does that pops.** -/
theorem exists_effect?_of_pops (pops : i.pops c = true) (L : FlagLayout) :
    ∃ c', i.effect? L (c.jump i.next) = some (.done c') ∧ c'.memory = c.memory ∧
      c'.registers.sp = c.registers.sp + 2 ∧ i.HasDelivered L c.top c' := by
  unfold Instruction.pops at pops
  unfold effect? HasDelivered
  split at pops
  · rename_i operation
    obtain ⟨r, dst, other⟩ := exists_dst_of_pop h operation
    rw [operation, dst]
    refine ⟨_, rfl, ?_, ?_, ?_⟩
    · rw [Core.memory_write16]
      rfl
    · cases r with
      | sp => exact absurd rfl other
      | pair p => cases p <;> rfl
      | ix | iy | pc => rfl
    · have loaded := Core.get16_write16 (c.jump i.next).pop c.top L (r := r)
      cases r with
      | pair p =>
        cases p with
        | af => exact ⟨rfl, rfl⟩
        | bc | de | hl => exact loaded (by decide)
      | sp | ix | iy | pc => exact loaded (by decide)
  · rename_i operation
    rw [operation]
    exact ⟨_, congrArg some (congrArg Effect.done (if_pos pops)), rfl, rfl, rfl⟩
  · cases pops

/-- **Exchanging the top of the stack** with a register is popping a word, pushing what is in the
register, and loading the register with the word. -/
theorem exists_effect?_of_exchangeTop (operation : i.operation = .exchangeTop) (L : FlagLayout) :
    let behind := c.jump i.next
    ∃ r, i.src = .reg16 r ∧ i.effect? L behind =
      some (.done ((behind.pop.push (behind.registers.get16 r)).set16 r behind.top)) := by
  intro behind
  obtain ⟨top, src⟩ := operands_of_exchangeTop h operation
  refine ⟨_, src, ?_⟩
  unfold effect?
  rw [operation, top, src, Core.push_pop]
  obtain _ | _ | _ := i.index <;> rfl

end Instruction

namespace Machine

variable {ι σ : Type}

section

variable (bus : Peripherals ι σ) {m : Machine ι σ} {i : Instruction} (front : m.InFrontOf i)

include front

/-- **A step that pushes.** -/
theorem step_of_pushed {w : UInt16} (h : i.pushed? m.core = some w) :
    (m.step bus).1.variant = m.variant ∧
      (m.step bus).1.core.memory = (m.core.push w).memory ∧
      (m.step bus).1.core.registers.sp = m.core.registers.sp - 2 := by
  obtain ⟨c, effect, memory, sp⟩ :=
    Instruction.exists_effect?_of_pushed? front.decoded h m.variant.layout
  obtain ⟨console, stepped⟩ := exists_step_eq_of_done front bus effect
  rw [stepped]
  exact ⟨rfl, memory, sp⟩

/-- **A step that pops.** -/
theorem step_of_pops (h : i.pops m.core = true) :
    (m.step bus).1.variant = m.variant ∧
      (m.step bus).1.core.memory = m.core.memory ∧
      (m.step bus).1.core.registers.sp = m.core.registers.sp + 2 ∧
      i.HasDelivered m.variant.layout m.core.top (m.step bus).1.core := by
  obtain ⟨c, effect, memory, sp, received⟩ :=
    Instruction.exists_effect?_of_pops front.decoded h m.variant.layout
  obtain ⟨console, stepped⟩ := exists_step_eq_of_done front bus effect
  rw [stepped]
  exact ⟨rfl, memory, sp, received⟩

end

/-! ### Pushing and popping words -/

/-- **Interludes.** What may happen while there are some words on the stack, be it due to other
instructions or from outside: the stack pointer is where it was, and the words are still there. The
bytes at the addresses in `still` are left alone as well. -/
structure Interlude (still : UInt16 → Prop) (words : Nat) (m m' : Machine ι σ) : Prop where
  variant : m'.variant = m.variant
  sp : m'.core.registers.sp = m.core.registers.sp
  pile : ∀ k < 2 * words, m'.core.memory.read (m.core.registers.sp + UInt16.ofNat k) =
    m.core.memory.read (m.core.registers.sp + UInt16.ofNat k)
  still : ∀ a, still a → m'.core.memory.read a = m.core.memory.read a

/-- **Pushing words,** one step for each, and interludes. The word that has been pushed last is the
first one of the list. -/
inductive Piles (bus : Peripherals ι σ) (still : UInt16 → Prop) (m : Machine ι σ) :
    List UInt16 → Machine ι σ → Prop where
  | start : Piles bus still m [] m
  | interlude {ws : List UInt16} {x y : Machine ι σ} (h : Piles bus still m ws x)
      (between : x.Interlude still ws.length y) : Piles bus still m ws y
  | push {ws : List UInt16} {x : Machine ι σ} {i : Instruction} {w : UInt16}
      (h : Piles bus still m ws x) (front : x.InFrontOf i) (pushed : i.pushed? x.core = some w) :
      Piles bus still m (w :: ws) (x.step bus).1

/-- **Popping words,** of which there are some on the stack, one step for each, and interludes. For
each word there is the instruction that has popped it and the machine afterwards, in the order of
the steps. -/
inductive Unpiles (bus : Peripherals ι σ) (still : UInt16 → Prop) (words : Nat) (m : Machine ι σ) :
    List (Instruction × Machine ι σ) → Machine ι σ → Prop where
  | start : Unpiles bus still words m [] m
  | interlude {ps : List (Instruction × Machine ι σ)} {x y : Machine ι σ}
      (h : Unpiles bus still words m ps x) (between : x.Interlude still (words - ps.length) y) :
      Unpiles bus still words m ps y
  | pop {ps : List (Instruction × Machine ι σ)} {x : Machine ι σ} {i : Instruction}
      (h : Unpiles bus still words m ps x) (front : x.InFrontOf i) (pops : i.pops x.core = true) :
      Unpiles bus still words m (ps ++ [(i, (x.step bus).1)]) (x.step bus).1

/-- **Piled words.** What is known of a machine after words have been pushed, the first of the list
last: they lie below where the stack pointer was, and nothing else has changed that interludes have
left alone. -/
structure Piled (still : UInt16 → Prop) (m : Machine ι σ) (ws : List UInt16) (x : Machine ι σ) :
    Prop where
  variant : x.variant = m.variant
  sp : x.core.registers.sp = m.core.registers.sp - UInt16.ofNat (2 * ws.length)
  words : x.core.memory.HoldsWords x.core.registers.sp ws
  elsewhere : ∀ a, still a →
    (∀ k < 2 * ws.length, a ≠ m.core.registers.sp - UInt16.ofNat (k + 1)) →
      x.core.memory.read a = m.core.memory.read a

/-- **Unpiled words.** What is known of a machine after some of the words on the stack have been
popped: they have been delivered, and the others are still there. -/
structure Unpiled (still : UInt16 → Prop) (x : Machine ι σ) (ws : List UInt16)
    (ps : List (Instruction × Machine ι σ)) (y : Machine ι σ) : Prop where
  variant : y.variant = x.variant
  sp : y.core.registers.sp = x.core.registers.sp + UInt16.ofNat (2 * ps.length)
  words : y.core.memory.HoldsWords y.core.registers.sp (ws.drop ps.length)
  delivered : List.Forall₂ (fun w p => p.1.HasDelivered x.variant.layout w p.2.core)
    (ws.take ps.length) ps
  elsewhere : ∀ a, still a → y.core.memory.read a = x.core.memory.read a

section

variable {bus : Peripherals ι σ} {still : UInt16 → Prop} {m x y : Machine ι σ} {ws : List UInt16}
  {ps : List (Instruction × Machine ι σ)}

theorem Piled.interlude (h : m.Piled still ws x) (between : x.Interlude still ws.length y) :
    m.Piled still ws y where
  variant := between.variant.trans h.variant
  sp := between.sp.trans h.sp
  words := by
    rw [between.sp]
    exact h.words.congr between.pile
  elsewhere a ha outside := (between.still a ha).trans (h.elsewhere a ha outside)

/-- **A word more** is on top of the others. -/
theorem Piled.push {i : Instruction} {w : UInt16} (h : m.Piled still ws x) (front : x.InFrontOf i)
    (pushed : i.pushed? x.core = some w) (room : ws.length < 32768) :
    m.Piled still (w :: ws) (x.step bus).1 := by
  obtain ⟨variant, memory, sp⟩ := step_of_pushed bus front pushed
  have one : m.core.registers.sp - UInt16.ofNat (2 * ws.length + 1) = x.core.registers.sp - 1 := by
    rw [h.sp, UInt16.ofNat_add]
    grind
  have two : m.core.registers.sp - UInt16.ofNat (2 * ws.length + 2) = x.core.registers.sp - 2 := by
    rw [h.sp, UInt16.ofNat_add]
    grind
  refine ⟨variant.trans h.variant, sp.trans two.symm, ?_, fun a ha outside => ?_⟩
  · rw [memory, sp]
    exact x.core.holdsWords_push w room h.words
  · rw [List.length_cons] at outside
    have high := outside (2 * ws.length) (by omega)
    have low := outside (2 * ws.length + 1) (by omega)
    rw [one] at high
    rw [two] at low
    rw [memory, x.core.read_push w high low]
    exact h.elsewhere a ha fun k hk => outside k (by omega)

/-- **Words that have been pushed** are on the stack, if there is room for all of them. -/
theorem Piles.piled (h : m.Piles bus still ws x) (room : ws.length ≤ 32768) :
    m.Piled still ws x := by
  induction h with
  | start => exact ⟨rfl, by simp, trivial, fun _ _ _ => rfl⟩
  | interlude _ between ih => exact (ih room).interlude between
  | push _ front pushed ih => exact (ih (Nat.le_of_succ_le room)).push front pushed room

theorem Unpiled.interlude (h : x.Unpiled still ws ps y) {z : Machine ι σ}
    (between : y.Interlude still (ws.length - ps.length) z) : x.Unpiled still ws ps z where
  variant := between.variant.trans h.variant
  sp := between.sp.trans h.sp
  words := by
    rw [between.sp]
    refine h.words.congr ?_
    rw [List.length_drop]
    exact between.pile
  delivered := h.delivered
  elsewhere a ha := (between.still a ha).trans (h.elsewhere a ha)

/-- **A word less.** The instruction delivers the first of the words that are left. -/
theorem Unpiled.pop (h : x.Unpiled still ws ps y) {i : Instruction} (front : y.InFrontOf i)
    (pops : i.pops y.core = true) (left : ps.length < ws.length) :
    x.Unpiled still ws (ps ++ [(i, (y.step bus).1)]) (y.step bus).1 := by
  obtain ⟨variant, memory, sp, delivered⟩ := step_of_pops bus front pops
  have words := h.words
  rw [List.drop_eq_getElem_cons left] at words
  obtain ⟨top, rest⟩ := words
  have length : (ps ++ [(i, (y.step bus).1)]).length = ps.length + 1 := by simp
  refine ⟨variant.trans h.variant, ?_, ?_, ?_, fun a ha => ?_⟩
  · rw [sp, h.sp, length, Nat.mul_succ, UInt16.ofNat_add]
    grind
  · rw [memory, sp, length]
    exact rest
  · rw [length, List.take_succ_eq_append_getElem left]
    rw [show y.core.top = ws[ps.length] from top, h.variant] at delivered
    exact List.rel_append h.delivered (.cons delivered .nil)
  · rw [memory]
    exact h.elsewhere a ha

/-- **Words that have been popped** are those that were on the stack. -/
theorem Unpiles.unpiled (h : x.Unpiles bus still ws.length ps y) (enough : ps.length ≤ ws.length)
    (words : x.core.memory.HoldsWords x.core.registers.sp ws) : x.Unpiled still ws ps y := by
  induction h with
  | start => exact ⟨rfl, by simp, words, .nil, fun _ _ => rfl⟩
  | interlude _ between ih => exact (ih enough).interlude between
  | pop _ front pops ih =>
    rw [List.length_append] at enough
    exact (ih (Nat.le_of_succ_le enough)).pop front pops enough

/-- The stack pointer is back where it was when all words have been popped. -/
theorem Unpiled.sp_eq (h : x.Unpiled still ws ps y) (piled : m.Piled still ws x)
    (all : ps.length = ws.length) : y.core.registers.sp = m.core.registers.sp := by
  rw [h.sp, piled.sp, all]
  grind

/-- **A single word** comes back from the stack. -/
theorem delivers_of_pushed {i j : Instruction} {w : UInt16} (front : m.InFrontOf i)
    (pushed : i.pushed? m.core = some w) (between : (m.step bus).1.Interlude (fun _ => False) 1 x)
    (front' : x.InFrontOf j) (pops : j.pops x.core = true) :
    j.HasDelivered m.variant.layout w (x.step bus).1.core ∧
      (x.step bus).1.core.registers.sp = m.core.registers.sp := by
  have piles : m.Piles bus (fun _ => False) [w] x := .interlude (.push .start front pushed) between
  have piled := piles.piled (by simp)
  have unpiles : x.Unpiles bus (fun _ => False) [w].length [(j, (x.step bus).1)] (x.step bus).1 :=
    .pop .start front' pops
  have unpiled := unpiles.unpiled (by simp) piled.words
  obtain ⟨delivered, -⟩ := List.forall₂_cons.1 unpiled.delivered
  rw [piled.variant] at delivered
  exact ⟨delivered, unpiled.sp_eq piled rfl⟩

end

/-- **The stack gives back what it has been given.** Let up to 32768 words be pushed by any
instructions. They are below where the stack pointer was, each with its low byte first, and nothing
else has changed that interludes have left alone. As many of them as are popped come back, the last
one first, and when all of them have been popped the stack pointer is where it was; popping changes
nothing in memory. Exchanging the top of the stack is popping a word, pushing a register and loading
it with the word. A return goes behind the call to which it belongs, and the accumulator and the
flags are the same after they have been pushed and popped again. -/
theorem stack_is_lifo (bus : Peripherals ι σ) :
    (∀ (still : UInt16 → Prop) (m x : Machine ι σ) (ws : List UInt16),
      m.Piles bus still ws x → ws.length ≤ 32768 →
        m.Piled still ws x ∧
        ∀ ps y, x.Unpiles bus still ws.length ps y → ps.length ≤ ws.length →
          x.Unpiled still ws ps y ∧
            (ps.length = ws.length → y.core.registers.sp = m.core.registers.sp)) ∧
    (∀ (m : Machine ι σ) (i : Instruction), m.InFrontOf i → i.operation = .exchangeTop →
      let behind := m.core.jump i.next
      ∃ r, i.src = .reg16 r ∧
        (m.step bus).1.core =
          (behind.pop.push (behind.registers.get16 r)).set16 r behind.top) ∧
    (∀ (m x : Machine ι σ) (i j : Instruction), m.InFrontOf i → i.operation = .call →
      i.dst.permits m.core.flags = true → (m.step bus).1.Interlude (fun _ => False) 1 x →
      x.InFrontOf j → j.operation = .ret → j.dst.permits x.core.flags = true →
        (x.step bus).1.pc = i.next ∧
          (x.step bus).1.core.registers.sp = m.core.registers.sp) ∧
    ∀ (m x : Machine ι σ) (i j : Instruction), m.InFrontOf i → i.operation = .push →
      i.src = .reg16 (.pair .af) → (m.step bus).1.Interlude (fun _ => False) 1 x →
      x.InFrontOf j → j.operation = .pop → j.dst = .reg16 (.pair .af) →
        (x.step bus).1.core.accumulator = m.core.accumulator ∧
          (x.step bus).1.core.flags = m.variant.layout.fix m.core.flags ∧
          (m.variant.CanHold m.core.flags → (x.step bus).1.core.flags = m.core.flags) := by
  refine ⟨fun still m x ws piles room => ?_, fun m i front operation => ?_, ?_, ?_⟩
  · have piled := piles.piled room
    refine ⟨piled, fun ps y unpiles enough => ?_⟩
    have unpiled := unpiles.unpiled enough piled.words
    exact ⟨unpiled, unpiled.sp_eq piled⟩
  · obtain ⟨r, src, effect⟩ :=
      Instruction.exists_effect?_of_exchangeTop front.decoded operation m.variant.layout
    obtain ⟨console, stepped⟩ := exists_step_eq_of_done front bus effect
    refine ⟨r, src, ?_⟩
    rw [stepped]
    rfl
  · intro m x i j front call taken between front' ret taken'
    have pushed : i.pushed? m.core = some i.next := by simp [Instruction.pushed?, call, taken]
    have pops : j.pops x.core = true := by simp [Instruction.pops, ret, taken']
    obtain ⟨delivered, sp⟩ := delivers_of_pushed front pushed between front' pops
    simp only [Instruction.HasDelivered, ret] at delivered
    exact ⟨delivered, sp⟩
  · intro m x i j front push src between front' pop dst
    have pushed : i.pushed? m.core = some (word m.core.accumulator m.core.flags) := by
      simp only [Instruction.pushed?, push, src]
      rfl
    have pops : j.pops x.core = true := by simp [Instruction.pops, pop]
    obtain ⟨delivered, -⟩ := delivers_of_pushed front pushed between front' pops
    simp only [Instruction.HasDelivered, pop, dst, highByte_word, lowByte_word] at delivered
    obtain ⟨accumulator, flags⟩ := delivered
    refine ⟨accumulator, flags, fun canonical => ?_⟩
    rw [flags]
    exact (m.variant.fix_eq_self_iff _).2 canonical

/-- `PUSH BC`, and behind it a call of a routine that returns at once, and `POP DE`. -/
def nesting : Machine Empty Unit :=
  (((start .z80 () none).load 0 [0xC5, 0xCD, 0x10, 0x00, 0xD1]).load 0x10 [0xC9]).alterCore
    fun c => (c.set16 .sp 0x40).set16 (.pair .bc) 0x1234

/-- That machine after some steps. -/
def nested (n : Nat) : Machine Empty Unit := Nat.repeat (fun m => (m.step .empty).1) n nesting

/-- The return goes behind the call, DE takes what was in BC, and the stack pointer is back. -/
theorem stack_is_lifo_nesting :
    ∃ ps, (nested 0).Piles .empty (fun _ => True) [4, 0x1234] (nested 2) ∧
      (nested 2).Unpiles .empty (fun _ => True) 2 ps (nested 4) ∧
      ps.map (fun p => p.2.pc) = [4, 5] ∧
      (nested 4).core.registers.get16 (.pair .de) = 0x1234 ∧
      (nested 4).core.registers.sp = (nested 0).core.registers.sp ∧
      ∀ a, (nested 4).core.memory.read a = (nested 2).core.memory.read a := by
  have pushed (n : Nat) (w : UInt16) (awake : (nested n).isHalted = false)
      (found : (Instruction.decode (nested n).variant (nested n).core.memory
        (nested n).pc).toOption.map (fun i => i.pushed? (nested n).core) = some (some w)) :
      ∃ i, (nested n).InFrontOf i ∧ i.pushed? (nested n).core = some w := by
    obtain ⟨i, decoded, pushed⟩ := Instruction.exists_decode_of_map found
    exact ⟨i, ⟨awake, decoded⟩, pushed⟩
  have popped (n : Nat) (awake : (nested n).isHalted = false)
      (found : (Instruction.decode (nested n).variant (nested n).core.memory
        (nested n).pc).toOption.map (fun i => i.pops (nested n).core) = some true) :
      ∃ i, (nested n).InFrontOf i ∧ i.pops (nested n).core = true := by
    obtain ⟨i, decoded, pops⟩ := Instruction.exists_decode_of_map found
    exact ⟨i, ⟨awake, decoded⟩, pops⟩
  obtain ⟨push, front₀, pushed₀⟩ := pushed 0 0x1234 (by decide +kernel) (by decide +kernel)
  obtain ⟨call, front₁, pushed₁⟩ := pushed 1 4 (by decide +kernel) (by decide +kernel)
  obtain ⟨ret, front₂, pops₂⟩ := popped 2 (by decide +kernel) (by decide +kernel)
  obtain ⟨pop, front₃, pops₃⟩ := popped 3 (by decide +kernel) (by decide +kernel)
  have piles : (nested 0).Piles .empty (fun _ => True) [4, 0x1234] (nested 2) :=
    .push (.push .start front₀ pushed₀) front₁ pushed₁
  have unpiles : (nested 2).Unpiles .empty (fun _ => True) 2 [(ret, nested 3), (pop, nested 4)]
      (nested 4) := .pop (.pop .start front₂ pops₂) front₃ pops₃
  obtain ⟨-, back⟩ := (stack_is_lifo .empty).1 _ _ _ _ piles (by decide)
  obtain ⟨unpiled, sp⟩ := back _ _ unpiles (Nat.le_refl 2)
  have addresses : [(nested 3).pc, (nested 4).pc] = [4, 5] := by decide +kernel
  exact ⟨_, piles, unpiles, addresses, by decide +kernel, sp rfl,
    fun a => unpiled.elsewhere a trivial⟩

end Machine

end Micro80
