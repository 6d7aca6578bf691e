import Micro80.Proofs.Machine.TraceLines

/-!
# Runs and their limits

A run has a limit of turns, and a turn deals with one instruction at most. That it deals with no
more can be heard: each instruction that is executed has its line in the trace, each byte that is
passed over has its warning, and in a turn there is only one of them. So of a run there are no more
of them to be heard than it may take turns.

Limits add up. A run may be cut in two at any number of turns, and the two parts then do what the
whole run does, up to a breakpoint at the place where it has been cut.

## Main definitions

* `Message.tellsInstruction`: the messages for instructions, and for bytes that are none.

## Main statements

* `Machine.turn_tells_one`: a turn deals with one instruction at most.
* `Machine.run_tells_le`: a run deals with no more instructions than its limit says.
* `Machine.run_composition`: runs with limits, and how they are composed.
-/

namespace Micro80

variable {ι σ : Type}

/-- Whether a message tells of an instruction that is executed, or of a byte that is passed over. -/
def Message.tellsInstruction (m : Message) : Bool := m.isTraceLine || m.isWarning

theorem Event.IsSilent.tellsInstruction {e : Event} (silent : e.IsSilent) :
    e.message.tellsInstruction = false := by
  rw [Message.tellsInstruction, silent.1, silent.2]
  rfl

namespace Machine

/-! ### Counting instructions -/

/-- **A turn tells of one instruction,** or of the one byte that is none. -/
theorem filter_tellsInstruction_advanceEvents (m : Machine ι σ) :
    (m.advanceEvents.map Event.message).filter Message.tellsInstruction =
      (m.traceLine?.or m.warning?).toList := by
  unfold advanceEvents
  cases decoded : Instruction.decode m.variant m.core.memory m.pc with
  | error e =>
    have none : m.traceLine? = none := by
      rw [traceLine?, decoded]
    rw [none, warning?_of_error decoded]
    rfl
  | ok i =>
    obtain ⟨others, events, silent⟩ := m.exists_executionEvents_eq i
    have announced : (Event.executing i m.core.accumulator m.core.flags).message.tellsInstruction =
        true := by
      rw [Message.tellsInstruction,
        Event.isTraceLine_executing (Instruction.isSound_of_decode decoded)]
      rfl
    dsimp only
    rw [events, List.map_cons, List.filter_cons_of_pos announced, traceLine?_of_ok decoded]
    exact congrArg _ (Event.filter_map_eq_nil fun e mem => (silent e mem).tellsInstruction)

/-- **A turn deals with one instruction at most,** as a console hears that hears everything. -/
theorem turn_tells_one (bus : Peripherals ι σ) (first : Bool) (m : Machine ι σ) {c : Console}
    (hears : Severity.trace.passes c.threshold = true) :
    ∃ messages : List Message,
      ((m.withConsole (some c)).turn bus first).machine.console =
          some { c with received := (c.received.toList ++ messages).toArray } ∧
        (messages.filter Message.tellsInstruction).length ≤ 1 := by
  refine ⟨(m.turnEvents first).map Event.message, ?_, ?_⟩
  · rw [turn_withConsole, Progress.machine_map, console_withConsole, heard_of_hears hears]
  · rw [turnEvents_eq]
    split
    · rw [filter_tellsInstruction_advanceEvents]
      exact Option.length_toList_le
    · exact Nat.zero_le 1

/-- **A run deals with no more instructions than its limit says.** -/
theorem run_tells_le (bus : Peripherals ι σ) (turns : Nat) (m : Machine ι σ) {c : Console}
    (hears : Severity.trace.passes c.threshold = true) :
    ∃ messages : List Message,
      ((m.withConsole (some c)).run bus turns).1.console =
          some { c with received := (c.received.toList ++ messages).toArray } ∧
        (messages.filter Message.tellsInstruction).length ≤ turns := by
  have told := console_run (m := m.withConsole (some c)) rfl hears bus turns
  refine ⟨_, told, ?_⟩
  rw [filter_takeEvents filter_tellsInstruction_advanceEvents]
  exact Nat.le_trans (List.length_filterMap_le _ _) (length_visited_le bus turns true _)

/-! ### Composition -/

/-- **Composition of runs.** Let no device pretend that the turns are used up. A run of `n` turns
deals with at most `n` instructions, of which only the first can have a breakpoint, and a console
that hears everything hears of no more. If it stops, a run of more turns and a run without a limit
end as it does. If it is finished, a run of `k` turns more ends at a breakpoint if there is one, and
else as a run of `k` turns from there. A run without a limit is never finished. -/
theorem run_composition {bus : Peripherals ι σ} (hb : ¬ bus.Requests .finished) {n k : Nat}
    (hn : 0 < n) (hk : 0 < k) (m : Machine ι σ) :
    ((m.visited bus n true).length ≤ n ∧
      (∀ x ∈ (m.visited bus n true).tail, x.atBreakpoint = false) ∧
      ∀ c : Console, Severity.trace.passes c.threshold = true → ∃ messages : List Message,
        ((m.withConsole (some c)).run bus n).1.console =
            some { c with received := (c.received.toList ++ messages).toArray } ∧
          (messages.filter Message.tellsInstruction).length ≤ n) ∧
      ((m.run bus n).2 ≠ .stop .finished → m.run bus (n + k) = m.run bus n ∧
        ∀ r, m.EndsFreely bus r ↔ r = m.run bus n) ∧
      ((m.run bus n).2 = .stop .finished → m.run bus (n + k) =
        if (m.run bus n).1.atBreakpoint then ((m.run bus n).1, .stop .breakpoint)
        else (m.run bus n).1.run bus k) ∧
      ∀ r, m.EndsFreely bus r → r.2 ≠ .stop .finished := by
  refine ⟨⟨length_visited_le bus n true m, fun x => not_atBreakpoint_of_mem_tail_visited,
      fun c hears => run_tells_le bus n m hears⟩,
    fun stopped => ⟨run_add_of_ne_finished hb k stopped, endsFreely_iff hb stopped⟩,
    run_add_of_finished hb hn hk, ?_⟩
  rintro r ⟨turns, ended⟩
  exact ((runFree?_eq_some_iff hb).1 ended).2

end Machine

/-- A device that asks for a stop whenever it is read. -/
def Peripherals.button : Peripherals Unit Unit where
  info _ := ⟨.ascii "KEY", .ascii "KEY", .ascii "button", true, false, 0, 1⟩
  read _ _ s := ⟨s, some .request, .ok 0⟩
  write _ _ _ s := ⟨s, none, .ok ()⟩
  clear _ s := s

/-- An instruction without effect, and behind it one that reads the button and has a breakpoint. -/
def Machine.pressing : Machine Unit Unit :=
  (((Machine.start .i8085 () none).install .button ()).2.load 1 [0xDB]).alterMemory
    fun m => m.setBreak 1 true

/-- A run that reaches a breakpoint as its turns are used up, and what becomes of it with one turn
more, in the same run or in a new one. -/
theorem Machine.run_composition_pressing :
    ¬ Peripherals.button.Requests .finished ∧
      pressing.run .button 2 = ((pressing.run .button 1).1, .stop .breakpoint) ∧
      ((pressing.run .button 1).1.run .button 1).2 = .stop .request := by
  have silent : ¬ Peripherals.button.Requests .finished := by
    rintro (⟨d, p, s, h⟩ | ⟨d, p, b, s, h⟩) <;> cases h
  obtain ⟨-, -, continues, -⟩ := run_composition silent Nat.one_pos Nat.one_pos pressing
  have marked : (pressing.run .button 1).1.atBreakpoint = true := by decide +kernel
  refine ⟨silent, ?_, by decide +kernel⟩
  rw [continues (by decide +kernel), if_pos marked]

end Micro80
