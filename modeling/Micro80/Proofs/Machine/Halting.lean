import Micro80.Proofs.Machine.Dialogue

/-!
# Halting

A machine that has halted does nothing any more: a run ends at once and leaves it as it is, and
nothing else that a user may do to it wakes it up but a reset. This is about the phase of the
machine, which is looked at before breakpoints and before anything is decoded.

The only way to halt is a halt instruction, which has one byte and leaves the machine behind it. A
device may ask for a stop under the pretence that the machine has halted. This ends the run, but the
machine has not halted and goes on with the next run.

## Main definitions

* `Command.clears`: the commands that wake up a machine.
* `Machine.ComesToHalt`: a run that comes to a halt instruction.

## Main statements

* `Instruction.phase_effect?`: only a halt instruction halts.
* `Machine.comesToHalt_of_runEnds`: a run that halts has come to a halt instruction.
* `Machine.halted_until_cleared`: a halted machine stays as it is, and how it has become one.
-/

namespace Micro80

variable {ι σ : Type}

/-! ### Halt instructions -/

/-- Halt instructions have neither operands nor bytes in front of them. -/
theorem Variant.halt_of_mem (v : Variant) : ∀ e ∈ v.opcodes, e.operation = .halt →
    e.lead = none ∧ e.indexable = false ∧ e.dst = .absent ∧ e.src = .absent := by
  cases v <;> decide

namespace Instruction

/-- **A halt instruction has one byte.** -/
theorem length_of_halt {v : Variant} {m : Memory} {a : UInt16} {i : Instruction}
    (h : decode v m a = .ok i) (halts : i.operation = .halt) : i.length = 1 := by
  obtain ⟨lead, entry, hl, he, -, rfl, -⟩ := decodeWith_eq_ok_iff.1 (decode_eq_ok_iff.1 h)
  obtain ⟨noLead, notIndexable, dst, src⟩ :=
    v.halt_of_mem entry (List.mem_of_find?_eq_some he) halts
  have noIndex : lead.index.isSome = false := by
    rw [← Bool.not_eq_true]
    intro index
    rw [indexable_of_find? he index] at notIndexable
    cases notIndexable
  have noPage : lead.page = none := by
    have matching := List.find?_some he
    simp only [Opcode.matching, Bool.and_eq_true, beq_iff_eq] at matching
    exact matching.1.1.symm.trans noLead
  have empty : lead.size = 0 := by
    obtain ⟨rfl, -⟩ | ⟨rfl, -⟩ | ⟨x, rfl, -⟩ := Lead.read?_cases hl
    · rfl
    · cases noPage
    · cases noIndex
  rw [length_ofEntry, empty, noIndex, dst, src]
  rfl

/-- The address after a halt instruction. -/
theorem next_of_halt {v : Variant} {m : Memory} {a : UInt16} {i : Instruction}
    (h : decode v m a = .ok i) (halts : i.operation = .halt) : i.next = a + 1 := by
  rw [next, length_of_halt h halts, address_of_decode h]
  rfl

/-- **Only a halt instruction halts.** -/
theorem phase_effect? {L : FlagLayout} {i : Instruction} {c : Core} {e : Effect}
    (h : i.effect? L c = some e) (goesOn : i.operation ≠ .halt) : e.phase = .fetch := by
  cases suits_effect? h with
  | halted halts => exact absurd halts goesOn
  | done | input | output => rfl

theorem effect?_of_halt {L : FlagLayout} {i : Instruction} (c : Core)
    (halts : i.operation = .halt) : i.effect? L c = some (.halted c) := by
  unfold effect?
  rw [halts]

end Instruction

namespace Machine

/-! ### Coming to a halt -/

/-- **Coming to a halt.** A run with the given limit, zero for none, gets from one machine to
another one that is in front of a halt instruction and deals with it. The machine is then halted
behind the instruction, its last instruction is this one, and nothing else has changed but what the
console has received. -/
inductive ComesToHalt (bus : Peripherals ι σ) (limit : Nat) (m : Machine ι σ) :
    Machine ι σ → Prop where
  | intro {k : Nat} {x : Machine ι σ} {i : Instruction} {console : Option Console}
      (within : limit = 0 ∨ k < limit) (taken : m.take bus k true = .running x)
      (proceeds : x.proceeds (k == 0) = true)
      (decoded : Instruction.decode x.variant x.core.memory x.pc = .ok i)
      (halts : i.operation = .halt) :
      ComesToHalt bus limit m
        (x.after .halted console x.devices (x.core.jump (x.pc + 1)))

variable {bus : Peripherals ι σ} {m y : Machine ι σ}

/-- A machine that has not halted deals with a halt instruction if a turn halts it. -/
theorem exists_turn_of_halts {first : Bool} (awake : m.isHalted = false)
    (halts : (m.turn bus first).machine.isHalted = true) :
    ∃ i console, m.proceeds first = true ∧
      Instruction.decode m.variant m.core.memory m.pc = .ok i ∧ i.operation = .halt ∧
      m.turn bus first =
        .ended (m.after .halted console m.devices (m.core.jump (m.pc + 1))) (.stop .halt) := by
  cases proceeds : m.proceeds first with
  | false =>
    rw [turn_of_not_proceeds proceeds, Progress.machine_ended, awake] at halts
    cases halts
  | true =>
    rw [turn_of_proceeds proceeds] at halts ⊢
    cases decoded : Instruction.decode m.variant m.core.memory m.pc with
    | error e =>
      obtain ⟨console, advanced⟩ := exists_advance_eq_of_error bus decoded
      rw [advanced] at halts
      split at halts <;> cases halts
    | ok i =>
      obtain ⟨e, console, effect, advanced⟩ := exists_advance_eq_of_ok bus decoded
      by_cases operation : i.operation = .halt
      · rw [Instruction.effect?_of_halt _ operation] at effect
        cases effect
        rw [Instruction.next_of_halt decoded operation] at advanced
        exact ⟨i, console, rfl, rfl, operation, advanced⟩
      · -- Any other instruction leaves the machine ready to fetch.
        rw [advanced, Instruction.phase_effect? effect operation] at halts
        split at halts
        · rw [Progress.machine_stopIf] at halts
          cases halts
        · cases halts

/-- **Turns that halt.** A machine that has not halted comes to a halt instruction if turns halt
it. -/
theorem exists_take_of_halts {n : Nat} {first : Bool} (awake : m.isHalted = false)
    (halts : (m.take bus n first).machine.isHalted = true) :
    ∃ k < n, ∃ x i console, m.take bus k first = .running x ∧
      x.proceeds (first && k == 0) = true ∧
      Instruction.decode x.variant x.core.memory x.pc = .ok i ∧ i.operation = .halt ∧
      m.take bus n first =
        .ended (x.after .halted console x.devices (x.core.jump (x.pc + 1))) (.stop .halt) := by
  -- The first turn that halts is the last one, since no machine that goes on has halted.
  induction n generalizing first m with
  | zero =>
    rw [take_zero, Progress.machine_running, awake] at halts
    cases halts
  | succ n ih =>
    rw [take_succ] at halts ⊢
    have regular := isRegular_turn bus first m
    cases turned : m.turn bus first with
    | running z =>
      rw [turned, Progress.andThen_running] at halts
      rw [turned] at regular
      have ready : z.isHalted = false := by
        cases regular with
        | running fetches => simp [isHalted, fetches]
      obtain ⟨k, less, x, i, console, taken, proceeds, decoded, operation, ended⟩ :=
        ih ready halts
      refine ⟨k + 1, Nat.succ_lt_succ less, x, i, console, ?_, ?_, decoded, operation, ended⟩
      · rw [take_succ, turned]
        exact taken
      · have begun : (k + 1 == 0) = false := rfl
        rw [begun, Bool.and_false]
        exact proceeds
    | ended z cause =>
      have halting : (m.turn bus first).machine.isHalted = true := by
        rw [turned] at halts ⊢
        exact halts
      obtain ⟨i, console, proceeds, decoded, operation, ended⟩ :=
        exists_turn_of_halts awake halting
      rw [turned] at ended
      refine ⟨0, Nat.succ_pos n, m, i, console, rfl, ?_, decoded, operation, ?_⟩
      · rw [beq_self_eq_true, Bool.and_true]
        exact proceeds
      · rw [ended]
        rfl

/-- **A run that halts** has come to a halt instruction, and this is why it has ended. -/
theorem comesToHalt_of_runEnds {limit : Nat} {cause : Cause} (awake : m.isHalted = false)
    (ends : m.RunEnds bus limit (y, cause)) (halts : y.isHalted = true) :
    cause = .stop .halt ∧ m.ComesToHalt bus limit y := by
  obtain ⟨n, within, ran⟩ : ∃ n, (limit = 0 ∨ n ≤ limit) ∧ m.run bus n = (y, cause) := by
    unfold RunEnds at ends
    split at ends
    · rename_i unlimited
      obtain ⟨n, ended⟩ := ends
      exact ⟨n, .inl unlimited, run_of_runFree? ended⟩
    · exact ⟨limit, .inr (Nat.le_refl limit), ends⟩
  rw [run_eq] at ran
  obtain ⟨rfl, rfl⟩ := Prod.mk.inj ran
  obtain ⟨k, less, x, i, console, taken, proceeds, decoded, operation, ended⟩ :=
    exists_take_of_halts awake halts
  rw [ended]
  exact ⟨rfl, .intro (within.imp id (Nat.lt_of_lt_of_le less)) taken proceeds decoded operation⟩

/-! ### Staying halted -/

/-- **Runs of a halted machine** end at once, with or without a limit, and change nothing. -/
theorem runEnds_iff_of_isHalted (halted : m.isHalted = true) (limit : Nat)
    (r : Machine ι σ × Cause) : m.RunEnds bus limit r ↔ r = (m, .stop .halt) := by
  have stays : m.proceeds true = false := by
    rw [proceeds, halted]
    rfl
  have ended : m.take bus 1 true = .ended m (.stop .halt) := by
    rw [take_succ, turn_of_not_proceeds stays, halted]
    rfl
  exact runEnds_iff ended (Nat.eq_zero_or_pos limit) r

end Machine

/-- **Clearing commands.** The commands that wake up a machine. -/
def Command.clears : Command ι σ → Bool
  | .run _ => false
  | .act x => x.clears

namespace Machine

variable [DecidableEq ι] {bus : Peripherals ι σ} {m x y : Machine ι σ}

/-- **A halted machine** stays halted whatever command it performs that does not clear it. -/
theorem Performs.isHalted {c : Command ι σ} {a : Answer} (performs : m.Performs bus c a x)
    (keeps : c.clears = false) (halted : m.isHalted = true) :
    x.isHalted = true ∧ ∀ limit, c = .run limit → a = .ended (.stop .halt) := by
  cases performs with
  | run ends =>
    obtain ⟨rfl, rfl⟩ := Prod.mk.inj ((runEnds_iff_of_isHalted halted _ _).1 ends)
    exact ⟨halted, fun _ _ => rfl⟩
  | act action =>
    refine ⟨?_, nofun⟩
    unfold Machine.isHalted at halted ⊢
    rw [(spares_act bus m action).phase keeps]
    exact halted

/-- No action halts a machine, not even one that clears it. -/
theorem isHalted_act (action : Action ι σ) (awake : m.isHalted = false) :
    (m.act bus action).1.isHalted = false := by
  unfold Machine.isHalted at awake ⊢
  cases keeps : action.clears with
  | false =>
    rw [(spares_act bus m action).phase keeps]
    exact awake
  | true =>
    have ready : ∀ x : Machine ι σ, x.reset.phase = .fetch := fun x => phase_report _ _
    cases action with
    | reset => exact decide_eq_false (by simp [act, ready])
    | masterClear => exact decide_eq_false (by simp [act, masterClear, ready])
    | _ => cases keeps

/-- **A machine that has not halted** halts by a run only, and the run has come to a halt
instruction. -/
theorem Performs.comesToHalt {c : Command ι σ} {a : Answer} (performs : m.Performs bus c a x)
    (awake : m.isHalted = false) (halts : x.isHalted = true) :
    ∃ limit, c = .run limit ∧ a = .ended (.stop .halt) ∧ m.ComesToHalt bus limit x := by
  cases performs with
  | run ends =>
    obtain ⟨rfl, comes⟩ := comesToHalt_of_runEnds awake ends halts
    exact ⟨_, rfl, rfl, comes⟩
  | act action =>
    rw [isHalted_act action awake] at halts
    cases halts

/-- **Halted until cleared.** Whatever a user does to a halted machine, without a reset or a master
clear, it stays halted, every run is answered by the reason that it has halted, and runs that are
still to come, with or without a limit, end in this way and leave the whole machine as it is.

A machine that has not halted halts by a run only that comes to a halt instruction, and then it is
behind this instruction. -/
theorem halted_until_cleared (bus : Peripherals ι σ) (m : Machine ι σ) :
    (m.isHalted = true → ∀ l x, m.Dialogue bus l x → (∀ e ∈ l, e.1.clears = false) →
        x.isHalted = true ∧
          (∀ limit a, (.run limit, a) ∈ l → a = .ended (.stop .halt)) ∧
          ∀ limit r, x.RunEnds bus limit r ↔ r = (x, .stop .halt)) ∧
      (m.isHalted = false → ∀ c a x, m.Performs bus c a x → x.isHalted = true →
        ∃ limit, c = .run limit ∧ a = .ended (.stop .halt) ∧ m.ComesToHalt bus limit x) := by
  constructor
  · intro halted l x dialogue keeps
    have stays : x.isHalted = true ∧
        ∀ limit a, (.run limit, a) ∈ l → a = .ended (.stop .halt) := by
      induction dialogue with
      | start => exact ⟨halted, nofun⟩
      | @perform l x y c a before performs ih =>
        obtain ⟨still, answered⟩ := ih fun e he => keeps e (List.mem_cons_of_mem _ he)
        obtain ⟨next, answer⟩ := performs.isHalted (keeps _ List.mem_cons_self) still
        refine ⟨next, fun limit b hb => ?_⟩
        obtain same | older := List.mem_cons.1 hb
        · obtain ⟨rfl, rfl⟩ := Prod.mk.inj same
          exact answer limit rfl
        · exact answered limit b older
    exact ⟨stays.1, stays.2, runEnds_iff_of_isHalted stays.1⟩
  · intro awake c a x performs halts
    exact performs.comesToHalt awake halts

end Machine

/-- A device that pretends that the machine has halted whenever it is read. -/
def Peripherals.pretender : Peripherals Unit Unit where
  info _ := ⟨.ascii "PRE", .ascii "PRE", .ascii "pretender", true, false, 0, 1⟩
  read _ _ s := ⟨s, some .halt, .ok 0⟩
  write _ _ _ s := ⟨s, none, .ok ()⟩
  clear _ s := s

/-- An instruction that reads the pretender, and behind it a halt instruction. -/
def Machine.dozing : Machine Unit Unit :=
  ((Machine.start .i8085 () none).install .pretender ()).2.load 0 [0xDB, 0, 0x76]

/-- The same machine when the instruction has been executed, and the run been ended by it. -/
def Machine.nodding : Machine Unit Unit := (dozing.run .pretender 1).1

/-- The machine one run later. -/
def Machine.asleep : Machine Unit Unit := (nodding.run .pretender 1).1

/-- The first run ends under a pretence and does not halt the machine, but the second one does, and
setting back the program counter does not wake it up. -/
theorem Machine.halted_until_cleared_asleep :
    (dozing.run .pretender 1).2 = .stop .halt ∧ nodding.isHalted = false ∧
      nodding.ComesToHalt .pretender 1 asleep ∧ asleep.pc = 3 ∧
      (asleep.setPC 0).RunEnds .pretender 0 (asleep.setPC 0, .stop .halt) := by
  have awake : nodding.isHalted = false := by decide +kernel
  have halted : asleep.isHalted = true := by decide +kernel
  have performs : nodding.Performs .pretender (.run 1)
      (.ended (nodding.run .pretender 1).2) asleep := performs_run .pretender nodding (by decide)
  have comes : nodding.ComesToHalt .pretender 1 asleep := by
    obtain ⟨-, falls⟩ := halted_until_cleared .pretender nodding
    obtain ⟨limit, same, -, comes⟩ := falls awake _ _ _ performs halted
    cases same
    exact comes
  have dialogue : asleep.Dialogue .pretender [(.act (.setPC 0), .done)] (asleep.setPC 0) :=
    .perform .start (.act (.setPC 0))
  obtain ⟨stays, -⟩ := halted_until_cleared .pretender asleep
  obtain ⟨-, -, ends⟩ := stays halted _ _ dialogue (by simp [Command.clears, Action.clears])
  exact ⟨by decide +kernel, awake, comes, by decide +kernel, (ends 0 _).2 rfl⟩

end Micro80
