import Micro80.Proofs.Instruction.Acceptance
import Micro80.Proofs.Machine.Advance
import Micro80.Proofs.Machine.Composition

/-!
# Where there is no instruction

A machine that finds no instruction at its program counter says what is wrong and does nothing else.
If its policy is to stop, it stays there: every run ends at once and in the same way, however often
it is tried, until somebody moves the program counter or changes the bytes that it finds. If its
policy is to go on, it passes over one byte, and this counts as a turn.

It does not matter whether the machine has just been started or comes there in the course of a run.

## Main definitions

* `Machine.Undisturbed`: changes that leave what is found at the program counter.
* `Machine.Untouched`: runs and such changes, one after the other.

## Main statements

* `Machine.exists_advance_of_stops`, `Machine.exists_advance_of_passes`: a turn without an
  instruction.
* `Machine.runEnds_of_undecodable`: how a run ends that comes there.
* `Machine.Untouched.undisturbed`: no run gets away from there.
* `Machine.decode_failure`: all of this together.
-/

namespace Micro80

variable {ι σ : Type}

namespace Machine

/-! ### Turns -/

/-- A machine that stops where there is no instruction ends the run and remembers what is wrong. -/
theorem exists_advance_of_stops (bus : Peripherals ι σ) {m : Machine ι σ} {e : DecodeError}
    (stops : m.policy.stopOnIllegalOpcode = true)
    (undecodable : Instruction.decode m.variant m.core.memory m.pc = .error e) :
    ∃ console, m.advance bus =
      .ended { m with phase := .fetch, fault := some e, console := console }
        (.stop .illegalOpcode) := by
  obtain ⟨console, advanced⟩ := exists_advance_eq_of_error bus undecodable
  rw [Policy.illegalOpcode, stops] at advanced
  exact ⟨console, advanced⟩

/-- A machine that does not stop there passes over a byte. -/
theorem exists_advance_of_passes (bus : Peripherals ι σ) {m : Machine ι σ} {e : DecodeError}
    (passes : m.policy.stopOnIllegalOpcode = false)
    (undecodable : Instruction.decode m.variant m.core.memory m.pc = .error e) :
    ∃ console, m.advance bus =
      .running
        { m with
          phase := .fetch
          fault := some e
          console := console
          core := m.core.jump (m.pc + 1) } := by
  obtain ⟨console, advanced⟩ := exists_advance_eq_of_error bus undecodable
  rw [Policy.illegalOpcode, passes] at advanced
  exact ⟨console, advanced⟩

/-! ### Runs -/

section

variable {bus : Peripherals ι σ} {m x : Machine ι σ} {e : DecodeError} {k : Nat}
  (taken : m.take bus k true = .running x) (proceeds : x.proceeds (k == 0) = true)
  (undecodable : Instruction.decode x.variant x.core.memory x.pc = .error e)

include taken proceeds

/-- The turn after some turns have been taken. -/
theorem take_succ_of_proceeds (j : Nat) :
    m.take bus (k + (j + 1)) true = (x.advance bus).andThen (take bus j false) := by
  rw [take_of_running taken, Bool.true_and, take_succ, turn_of_proceeds proceeds]

include undecodable

/-- **A run that comes to where there is no instruction** ends there, if that is the policy. -/
theorem runEnds_of_undecodable (stops : x.policy.stopOnIllegalOpcode = true) :
    ∃ console, ∀ limit, limit = 0 ∨ k < limit → ∀ r,
      m.RunEnds bus limit r ↔
        r = ({ x with phase := .fetch, fault := some e, console := console },
          .stop .illegalOpcode) := by
  obtain ⟨console, advanced⟩ := exists_advance_of_stops bus stops undecodable
  have ended := take_succ_of_proceeds taken proceeds 0
  rw [advanced] at ended
  exact ⟨console, fun limit enough r => runEnds_iff ended enough r⟩

/-- **Otherwise it goes on** behind the byte, with one turn less. -/
theorem take_of_undecodable (passes : x.policy.stopOnIllegalOpcode = false) :
    ∃ console, ∀ j,
      m.take bus (k + (j + 1)) true =
        take bus j false
          { x with
            phase := .fetch
            fault := some e
            console := console
            core := x.core.jump (x.pc + 1) } := by
  obtain ⟨console, advanced⟩ := exists_advance_of_passes bus passes undecodable
  refine ⟨console, fun j => ?_⟩
  rw [take_succ_of_proceeds taken proceeds, advanced]
  rfl

end

/-! ### Again and again -/

/-- **Undisturbed machines.** Two machines which may differ in many ways, but not in what they find
at their program counters and in whether they stop there. Behind a byte that is no lead nothing is
looked at. -/
structure Undisturbed (m m' : Machine ι σ) : Prop where
  variant : m'.variant = m.variant
  stops : m'.policy.stopOnIllegalOpcode = m.policy.stopOnIllegalOpcode
  isHalted : m'.isHalted = m.isHalted
  pc : m'.pc = m.pc
  opcode : m'.core.memory.read m.pc = m.core.memory.read m.pc
  second : m.core.memory.read m.pc ∈ Z80.leads →
    m'.core.memory.read (m.pc + 1) = m.core.memory.read (m.pc + 1)

namespace Undisturbed

variable {m m' m'' : Machine ι σ}

theorem refl (m : Machine ι σ) : m.Undisturbed m := ⟨rfl, rfl, rfl, rfl, rfl, fun _ => rfl⟩

theorem trans (h : m.Undisturbed m') (h' : m'.Undisturbed m'') : m.Undisturbed m'' where
  variant := h'.variant.trans h.variant
  stops := h'.stops.trans h.stops
  isHalted := h'.isHalted.trans h.isHalted
  pc := h'.pc.trans h.pc
  opcode := by
    have opcode := h'.opcode
    rw [h.pc] at opcode
    exact opcode.trans h.opcode
  second lead := by
    have second := h'.second
    rw [h.pc, h.opcode] at second
    exact (second lead).trans (h.second lead)

/-- What is wrong stays so. -/
theorem undecodable (h : m.Undisturbed m') {e : DecodeError}
    (undecodable : Instruction.decode m.variant m.core.memory m.pc = .error e) :
    Instruction.decode m'.variant m'.core.memory m'.pc = .error e := by
  rw [h.variant, h.pc]
  exact Instruction.decode_eq_error_congr h.opcode h.second undecodable

end Undisturbed

/-- **Untouched machines.** What can become of a machine by runs, with or without a limit, and by
changes from outside that leave what is found at the program counter. -/
inductive Untouched (bus : Peripherals ι σ) (m : Machine ι σ) : Machine ι σ → Prop where
  | start : Untouched bus m m
  | run {x : Machine ι σ} {limit : Nat} {r : Machine ι σ × Cause} (h : Untouched bus m x)
      (ends : x.RunEnds bus limit r) : Untouched bus m r.1
  | change {x y : Machine ι σ} (h : Untouched bus m x) (outside : x.Undisturbed y) :
      Untouched bus m y

/-- Every run ends at once in a machine that stops where there is no instruction. -/
theorem exists_runEnds_iff (bus : Peripherals ι σ) {m : Machine ι σ} {e : DecodeError}
    (awake : m.isHalted = false)
    (undecodable : Instruction.decode m.variant m.core.memory m.pc = .error e)
    (stops : m.policy.stopOnIllegalOpcode = true) :
    ∃ console, ∀ limit r,
      m.RunEnds bus limit r ↔
        r = ({ m with phase := .fetch, fault := some e, console := console },
          .stop .illegalOpcode) := by
  have proceeds : m.proceeds (0 == 0) = true := proceeds_iff.2 ⟨awake, rfl⟩
  obtain ⟨console, ends⟩ :=
    runEnds_of_undecodable (take_zero bus true m) proceeds undecodable stops
  exact ⟨console, fun limit => ends limit (Nat.eq_zero_or_pos limit)⟩

/-- **No run gets away** from where there is no instruction. -/
theorem Untouched.undisturbed {bus : Peripherals ι σ} {m x : Machine ι σ} {e : DecodeError}
    (awake : m.isHalted = false)
    (undecodable : Instruction.decode m.variant m.core.memory m.pc = .error e)
    (stops : m.policy.stopOnIllegalOpcode = true) (h : m.Untouched bus x) :
    m.Undisturbed x := by
  induction h with
  | start => exact .refl m
  | @run x limit r _ ends ih =>
    obtain ⟨console, only⟩ := exists_runEnds_iff bus (ih.isHalted.trans awake)
      (ih.undecodable undecodable) (ih.stops.trans stops)
    obtain rfl := (only limit r).1 ends
    -- The run has changed nothing that matters here.
    have nothing : x.Undisturbed
        { x with phase := .fetch, fault := some e, console := console } :=
      ⟨rfl, rfl, (ih.isHalted.trans awake).symm, rfl, rfl, fun _ => rfl⟩
    exact ih.trans nothing
  | change _ outside ih => exact ih.trans outside

/-- **Decode failures.** Let there be no instruction at the program counter of a machine that has
not halted. If the machine stops there, every run with or without a limit ends at once: the machine
is ready to fetch and remembers what is wrong, and nothing else changes but the console. This
remains so after any number of runs and changes that leave what is found there. A run that comes
there after some turns ends with the machine as it is then, in the same way. If the machine does not
stop there, the run goes on behind the byte, with one turn less, and nothing else has changed. -/
theorem decode_failure (bus : Peripherals ι σ) {m : Machine ι σ} {e : DecodeError}
    (awake : m.isHalted = false)
    (undecodable : Instruction.decode m.variant m.core.memory m.pc = .error e) :
    (m.policy.stopOnIllegalOpcode = true → ∀ x, m.Untouched bus x →
      ∃ console, ∀ limit r,
        x.RunEnds bus limit r ↔
          r = ({ x with phase := .fetch, fault := some e, console := console },
            .stop .illegalOpcode)) ∧
      ∀ (origin : Machine ι σ) (k : Nat), origin.take bus k true = .running m →
        m.proceeds (k == 0) = true →
        (m.policy.stopOnIllegalOpcode = true →
          ∃ console, ∀ limit, limit = 0 ∨ k < limit → ∀ r,
            origin.RunEnds bus limit r ↔
              r = ({ m with phase := .fetch, fault := some e, console := console },
                .stop .illegalOpcode)) ∧
        (m.policy.stopOnIllegalOpcode = false →
          ∃ console, ∀ j,
            origin.take bus (k + (j + 1)) true =
              take bus j false
                { m with
                  phase := .fetch
                  fault := some e
                  console := console
                  core := m.core.jump (m.pc + 1) }) := by
  refine ⟨fun stops x untouched => ?_, fun origin k taken proceeds => ⟨?_, ?_⟩⟩
  · have same := untouched.undisturbed awake undecodable stops
    exact exists_runEnds_iff bus (same.isHalted.trans awake) (same.undecodable undecodable)
      (same.stops.trans stops)
  · exact runEnds_of_undecodable taken proceeds undecodable
  · exact take_of_undecodable taken proceeds undecodable

/-- An instruction without effect, and behind it a move from memory to memory. -/
def straying (stops : Bool) : Machine Empty Unit :=
  { (start .z80 () none).load 0 [0x00, 0xDD, 0x76] with policy := ⟨false, stops⟩ }

/-- The machine in front of that move. -/
def stray (stops : Bool) : Machine Empty Unit := ((straying stops).run .empty 1).1

/-- A run without a limit that ends at the move, another one that does not get away from there, and
two turns of which the second passes over the first byte of the move. -/
theorem decode_failure_stray :
    (∀ stops, (stray stops).isHalted = false ∧
      Instruction.decode (stray stops).variant (stray stops).core.memory (stray stops).pc
        = .error .memoryToMemory) ∧
    (∃ console, (straying true).RunEnds .empty 0
      ({ stray true with phase := .fetch, fault := some .memoryToMemory, console := console },
        .stop .illegalOpcode)) ∧
    ((stray true).run .empty 7).2 = .stop .illegalOpcode ∧
    ∃ m, (straying false).take .empty 2 true = .running m ∧ m.pc = 2 := by
  have awake : ∀ stops, (stray stops).isHalted = false := by decide +kernel
  have undecodable : ∀ stops, Instruction.decode (stray stops).variant (stray stops).core.memory
      (stray stops).pc = .error .memoryToMemory := fun stops =>
    Instruction.verdict_eq_some_iff.1 (by revert stops; decide +kernel)
  have taken : ∀ stops, (straying stops).take .empty 1 true = .running (stray stops) :=
    fun stops => take_eq_running (by revert stops; decide +kernel)
  obtain ⟨sticks, inRun⟩ := decode_failure Peripherals.empty (awake true) (undecodable true)
  obtain ⟨console, atOnce⟩ := sticks (by decide +kernel) (stray true) .start
  obtain ⟨console', ends⟩ := (inRun (straying true) 1 (taken true) (by decide +kernel)).1
    (by decide +kernel)
  obtain ⟨console'', passes⟩ := ((decode_failure Peripherals.empty (awake false)
    (undecodable false)).2 (straying false) 1 (taken false) (by decide +kernel)).2
    (by decide +kernel)
  have seventh := (atOnce 7 ((stray true).run .empty 7)).1 rfl
  refine ⟨fun stops => ⟨awake stops, undecodable stops⟩, ⟨console', ?_⟩, ?_, _, passes 0, ?_⟩
  · exact (ends 0 (.inl rfl) _).2 rfl
  · rw [seventh]
  · have lead : (stray false).pc = 1 := by decide +kernel
    show (stray false).pc + 1 = 2
    rw [lead]
    rfl

end Machine

end Micro80
