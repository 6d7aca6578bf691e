import Micro80.Machine.Panel
import Micro80.Proofs.Machine.Advance
import Micro80.Proofs.Machine.Composition

/-!
# Canonical machines

Not every byte can be the flags of a processor, since the bits that are not flags are fixed.
Whatever is done with a machine, both its flags and their shadow are bytes that its processor can
hold, and between runs it is about to fetch an instruction, or halted.

Instructions load the flags in many ways, and some of them exchange flags that they have not fixed
themselves. But all of them are made of a few changes, each of which leaves the registers canonical,
so there is no need to look at them one by one.

## Main definitions

* `Variant.CanHold`: the flags that a processor can hold.
* `Registers.IsCanonical`: registers with such flags in both sets.
* `Machine.IsCanonical`: machines as they are between runs.
* `Machine.Reachable`: machines that a user can get.

## Main statements

* `Core.isClosed_isCanonical`: instructions leave the registers canonical.
* `Machine.IsCanonical.runEnds`: so do runs, however they end.
* `Machine.canonical_of_reachable`: machines that a user can get are canonical.
-/

namespace Micro80

variable {ι σ : Type}

/-! ### Flags -/

/-- **The flags that a processor can hold.** Bits 5 and 3 are off, and on the 8085 bit 1 is on. -/
def Variant.CanHold : Variant → UInt8 → Prop
  | i8085, f => f &&& 0x2A = 0x02
  | z80, f => f &&& 0x28 = 0

/-- These are the flags that are not changed by being fixed. -/
theorem Variant.fix_eq_self_iff (v : Variant) (f : UInt8) :
    v.layout.fix f = f ↔ v.CanHold f := by
  unfold CanHold
  cases v with
  | i8085 =>
    revert f
    apply forall_byte
    decide +kernel
  | z80 =>
    revert f
    apply forall_byte
    decide +kernel

/-- **Canonical registers.** Both the flags and their shadow are bytes that the processor can
hold. -/
structure Registers.IsCanonical (v : Variant) (s : Registers) : Prop where
  flags : v.layout.fix s.main.f = s.main.f
  shadow : v.layout.fix s.shadow.f = s.shadow.f

namespace Registers

theorem isCanonical_reset (v : Variant) : (reset v.layout.reset).IsCanonical v := by
  cases v <;> exact ⟨by decide, by decide⟩

namespace IsCanonical

variable {v : Variant} {s : Registers} (h : s.IsCanonical v)

include h

theorem set8 {r : Reg8} (hr : r ≠ .f) (b : UInt8) : (s.set8 r b).IsCanonical v := by
  cases r with
  | f => exact absurd rfl hr
  | b | c | d | e | h | l | a => exact ⟨h.flags, h.shadow⟩

theorem set16 {r : Reg16} (hr : r ≠ .pair .af) (w : UInt16) : (s.set16 r w).IsCanonical v := by
  cases r with
  | pair p =>
    cases p with
    | af => exact absurd rfl hr
    | bc | de | hl => exact ⟨h.flags, h.shadow⟩
  | sp | ix | iy | pc => exact ⟨h.flags, h.shadow⟩

theorem setFlags (f : UInt8) : (s.set8 .f (v.layout.fix f)).IsCanonical v :=
  ⟨FlagLayout.fix_fix v f, h.shadow⟩

/-- Loading a slot of the panel, which may be the flags, their shadow or a pair with one of them. -/
theorem slot (x : Slot) (w : UInt16) : (x.set v.layout w s).IsCanonical v := by
  have fixed : v.layout.fix (lowByte (word (highByte w) (v.layout.fix (lowByte w)))) =
      lowByte (word (highByte w) (v.layout.fix (lowByte w))) := by
    rw [lowByte_word]
    exact FlagLayout.fix_fix v (lowByte w)
  cases x with
  | byte r =>
    cases r with
    | f => exact h.setFlags (lowByte w)
    | b | c | d | e | h | l | a => exact h.set8 (by decide) (lowByte w)
  | word r =>
    cases r with
    | pair p =>
      cases p with
      | af => exact ⟨fixed, h.shadow⟩
      | bc | de | hl => exact ⟨h.flags, h.shadow⟩
    | sp | ix | iy | pc => exact ⟨h.flags, h.shadow⟩
  | shadow p =>
    cases p with
    | af => exact ⟨h.flags, fixed⟩
    | bc | de | hl => exact ⟨h.flags, h.shadow⟩

end IsCanonical

end Registers

/-- **Instructions leave the registers canonical.** -/
theorem Core.isClosed_isCanonical (v : Variant) :
    IsClosed v fun c => c.registers.IsCanonical v where
  set8 h _ hr b := h.set8 hr b
  set16 h _ hr w := h.set16 hr w
  setFlags h f := h.setFlags f
  store h _ _ := h
  enable h _ := h
  exchangeDEHL h := ⟨h.flags, h.shadow⟩
  exchangeAF h := ⟨h.shadow, h.flags⟩
  exchangeGeneral h := ⟨h.flags, h.shadow⟩

namespace Machine

/-! ### Runs -/

/-- **Canonical machines.** Machines of a given processor as they are between runs. -/
structure IsCanonical (v : Variant) (m : Machine ι σ) : Prop where
  variant : m.variant = v
  registers : m.core.registers.IsCanonical v
  phase : m.phase = .fetch ∨ m.phase = .halted

namespace IsCanonical

variable {v : Variant} {m : Machine ι σ} (h : m.IsCanonical v) (bus : Peripherals ι σ)

include h

/-- Nothing else matters than the registers, the processor and the phase. -/
theorem congr {m' : Machine ι σ} (variant : m'.variant = m.variant)
    (registers : m'.core.registers = m.core.registers) (phase : m'.phase = m.phase) :
    m'.IsCanonical v where
  variant := variant.trans h.variant
  registers := by
    rw [registers]
    exact h.registers
  phase := by
    rw [phase]
    exact h.phase

theorem advance : (m.advance bus).machine.IsCanonical v := by
  obtain rfl := h.variant
  have inversion := m.advances bus
  exact ⟨inversion.variant_eq, inversion.keeps (Core.isClosed_isCanonical m.variant) h.registers,
    inversion.phase_eq⟩

theorem turn (first : Bool) : (m.turn bus first).machine.IsCanonical v :=
  keeps_turn (fun _ same => same.advance bus) first h

/-- **Runs** leave a machine canonical, also if a device fails. -/
theorem runEnds {limit : Nat} {r : Machine ι σ × Cause} (ends : m.RunEnds bus limit r) :
    r.1.IsCanonical v :=
  keeps_runEnds (fun first _ same => same.turn bus first) h ends

omit bus

/-! ### Operations -/

theorem report (e : Event) : (m.report e).IsCanonical v := by
  rw [report_eq]
  exact h.congr rfl rfl rfl

theorem setRegister (n : Nat) (w : UInt16) : (m.setRegister n w).IsCanonical v := by
  unfold Machine.setRegister
  split
  · exact h
  · refine ⟨h.variant, ?_, h.phase⟩
    rw [h.variant]
    exact h.registers.slot _ w

theorem reset : m.reset.IsCanonical v := by
  unfold Machine.reset
  rw [report_eq, h.variant]
  exact ⟨rfl, Registers.isCanonical_reset v, .inl rfl⟩

theorem setPC (a : UInt16) : (m.setPC a).IsCanonical v :=
  ⟨h.variant, h.registers.set16 (show Reg16.pc ≠ .pair .af by decide) a, h.phase⟩

theorem load (origin : UInt16) (bytes : List UInt8) : (m.load origin bytes).IsCanonical v := by
  have loaded : (m.alterMemory fun memory => memory.load origin bytes).IsCanonical v :=
    h.congr rfl rfl rfl
  unfold Machine.load
  dsimp only
  split
  · exact loaded
  · exact loaded.report _

theorem loadImage (i : Image) : (m.loadImage i).IsCanonical v := by
  unfold Machine.loadImage
  generalize i.segments = segments
  induction segments generalizing m with
  | nil => exact h
  | cons s rest ih => exact ih (h.load s.1 s.2)

variable [DecidableEq ι] (bus : Peripherals ι σ)

theorem install (d : ι) : (m.install bus d).2.IsCanonical v := by
  have wired : ∀ inputs outputs : PortMap ι,
      IsCanonical v { m with inputs := inputs, outputs := outputs } :=
    fun _ _ => h.congr rfl rfl rfl
  unfold Machine.install
  split
  · exact (wired _ _).report _
  · exact (wired _ _).report _

theorem clearDevices : (m.clearDevices bus).IsCanonical v := h.congr rfl rfl rfl

theorem remove (d : ι) : (m.remove bus d).2.IsCanonical v :=
  (h.report _).congr rfl rfl rfl

end IsCanonical

/-! ### Everything a user can do -/

/-- **Reachable machines.** What becomes of a new machine by runs with or without a limit, however
they end, by loading registers with any number and any word, by resets, and by everything that can
be done with devices, memory, policy and console. -/
inductive Reachable [DecidableEq ι] (v : Variant) : Machine ι σ → Prop where
  | start (s : σ) (console : Option Console) : Reachable v (start v s console)
  | run {m : Machine ι σ} (h : Reachable v m) {bus : Peripherals ι σ} {limit : Nat}
      {r : Machine ι σ × Cause} (ends : m.RunEnds bus limit r) : Reachable v r.1
  | setRegister {m : Machine ι σ} (h : Reachable v m) (n : Nat) (w : UInt16) :
      Reachable v (m.setRegister n w)
  | setPC {m : Machine ι σ} (h : Reachable v m) (a : UInt16) : Reachable v (m.setPC a)
  | reset {m : Machine ι σ} (h : Reachable v m) : Reachable v m.reset
  | masterClear {m : Machine ι σ} (h : Reachable v m) (bus : Peripherals ι σ) :
      Reachable v (m.masterClear bus)
  | install {m : Machine ι σ} (h : Reachable v m) (bus : Peripherals ι σ) (d : ι) :
      Reachable v (m.install bus d).2
  | remove {m : Machine ι σ} (h : Reachable v m) (bus : Peripherals ι σ) (d : ι) :
      Reachable v (m.remove bus d).2
  | removeAll {m : Machine ι σ} (h : Reachable v m) : Reachable v m.removeAll
  | clearDevices {m : Machine ι σ} (h : Reachable v m) (bus : Peripherals ι σ) :
      Reachable v (m.clearDevices bus)
  | alterDevices {m : Machine ι σ} (h : Reachable v m) (s : σ) :
      Reachable v { m with devices := s }
  | load {m : Machine ι σ} (h : Reachable v m) (origin : UInt16) (bytes : List UInt8) :
      Reachable v (m.load origin bytes)
  | loadImage {m : Machine ι σ} (h : Reachable v m) (i : Image) : Reachable v (m.loadImage i)
  | alterMemory {m : Machine ι σ} (h : Reachable v m) (f : Memory → Memory) :
      Reachable v (m.alterMemory f)
  | setPolicy {m : Machine ι σ} (h : Reachable v m) (p : Policy) :
      Reachable v { m with policy := p }
  | setConsole {m : Machine ι σ} (h : Reachable v m) (c : Option Console) :
      Reachable v { m with console := c }

theorem isCanonical_start (v : Variant) (s : σ) (console : Option Console) :
    (start v s console : Machine ι σ).IsCanonical v := by
  unfold start Machine.reset
  rw [report_eq]
  exact ⟨rfl, Registers.isCanonical_reset v, .inl rfl⟩

/-- **Whatever a user does** leaves the machine canonical. -/
theorem Reachable.isCanonical [DecidableEq ι] {v : Variant} {m : Machine ι σ}
    (h : Reachable v m) : m.IsCanonical v := by
  induction h with
  | start s console => exact isCanonical_start v s console
  | run _ ends ih => exact ih.runEnds _ ends
  | setRegister _ n w ih => exact ih.setRegister n w
  | reset _ ih => exact ih.reset
  | masterClear _ bus ih => exact (ih.clearDevices bus).reset
  | install _ bus d ih => exact ih.install bus d
  | remove _ bus d ih => exact ih.remove bus d
  | load _ origin bytes ih => exact ih.load origin bytes
  | loadImage _ i ih => exact ih.loadImage i
  | setPC _ a ih => exact ih.setPC a
  | clearDevices _ bus ih => exact ih.clearDevices bus
  | removeAll _ ih | alterDevices _ _ ih | alterMemory _ _ ih
  | setPolicy _ _ ih | setConsole _ _ ih => exact ih.congr rfl rfl rfl

/-- **Reachable machines are canonical.** They play the processor for which they were made, fixing
neither their flags nor the shadow changes them, the bits that are not flags are as they should be,
and they are about to fetch an instruction, or halted. -/
theorem canonical_of_reachable [DecidableEq ι] {v : Variant} {m : Machine ι σ}
    (h : Reachable v m) :
    m.variant = v ∧
      (∀ f ∈ [m.core.registers.main.f, m.core.registers.shadow.f],
        v.layout.fix f = f ∧ v.CanHold f) ∧
      (m.phase = .fetch ∨ m.phase = .halted) := by
  have canonical := h.isCanonical
  refine ⟨canonical.variant, ?_, canonical.phase⟩
  intro f hf
  have fixed : v.layout.fix f = f := by
    simp only [List.mem_cons, List.not_mem_nil, or_false] at hf
    obtain rfl | rfl := hf
    · exact canonical.registers.flags
    · exact canonical.registers.shadow
  exact ⟨fixed, (v.fix_eq_self_iff f).1 fixed⟩

end Machine

/-- A device that always fails. -/
def Peripherals.broken : Peripherals Unit Unit where
  info _ := ⟨.ascii "BRK", .ascii "BRK", .ascii "broken", true, true, 0, 1⟩
  read _ _ s := ⟨s, none, .error ⟨.ascii "broken"⟩⟩
  write _ _ _ s := ⟨s, none, .error ⟨.ascii "broken"⟩⟩
  clear _ s := s

/-- An exchange of the flags with their shadow, which has been loaded with ones, and behind it an
instruction that reads the broken device. -/
def Machine.exchanging : Machine Unit Unit :=
  (((Machine.start .z80 () none).install .broken ()).2.setRegister 16 0xFFFF).load 0
    [0x08, 0xDB, 0]

/-- The flags after the exchange and the failure. -/
theorem Machine.canonical_of_reachable_exchanging :
    Reachable .z80 (exchanging.run .broken 2).1 ∧
      (exchanging.run .broken 2).2 = .failure ⟨.ascii "broken"⟩ ∧
      (exchanging.run .broken 2).1.core.registers.main.f = 0xD7 ∧
      Variant.CanHold .z80 (exchanging.run .broken 2).1.core.registers.main.f ∧
      (exchanging.run .broken 2).1.phase = .fetch := by
  have made : Reachable .z80 exchanging :=
    (((Reachable.start () none).install .broken ()).setRegister 16 0xFFFF).load 0 [0x08, 0xDB, 0]
  have ends : exchanging.RunEnds .broken 2 (exchanging.run .broken 2) := rfl
  have reachable : Reachable .z80 (exchanging.run .broken 2).1 := made.run ends
  obtain ⟨-, flags, -⟩ := canonical_of_reachable reachable
  refine ⟨reachable, by decide +kernel, by decide +kernel, ?_, by decide +kernel⟩
  exact (flags _ List.mem_cons_self).2

end Micro80
