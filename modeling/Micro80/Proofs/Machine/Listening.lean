import Micro80.Proofs.Machine.Reports

/-!
# Listening

What a machine reports does not depend on who listens, and what a user does with the machine does
not depend on it either, unless it is done to the console itself. So a dialogue has one history of
reports, and this history settles what any console has in the end. Consoles with different
thresholds have parts of the same history, and a machine without a console does what it does with
one.

## Main definitions

* `Command.retunes`: what has to do with the console itself.
* `Console.holding`, `Message.shownAll`: a console with some messages, and what it shows.
* `Machine.consoleText`: what is shown of a machine, which may have no console.

## Main statements

* `Machine.RunEnds.withConsole`, `Machine.Performs.withConsole`, `Machine.Dialogue.withConsole`:
  runs, commands and dialogues have a history of reports, the same for all listeners.
* `Machine.logging_only_observes`: machines with different consoles, and without one.
-/

namespace Micro80

variable {ι σ : Type}

/-- Whether a command has to do with the console itself. -/
def Command.retunes : Command ι σ → Bool
  | .run _ => false
  | .act x => x.retunes

namespace Machine

/-! ### Runs -/

section

variable (bus : Peripherals ι σ) (m : Machine ι σ) (turns : Nat)

theorem run_withConsole (o : Option Console) :
    (m.withConsole o).run bus turns =
      ((m.run bus turns).1.withConsole (heard (m.takeEvents bus turns true) o),
        (m.run bus turns).2) :=
  run_map (take_withConsole o m bus turns true)

theorem runFree?_withConsole (o : Option Console) :
    (m.withConsole o).runFree? bus turns =
      (m.runFree? bus turns).map fun r =>
        (r.1.withConsole (heard (m.takeEvents bus turns true) o), r.2) := by
  rw [runFree?_eq, runFree?_eq, take_withConsole]
  cases m.take bus turns true <;> rfl

end

variable {bus : Peripherals ι σ} {m x : Machine ι σ}

/-- **A run has one history,** whoever listens. -/
theorem RunEnds.withConsole {limit : Nat} {cause : Cause}
    (ends : m.RunEnds bus limit (x, cause)) :
    ∃ events, x.console = heard events m.console ∧
      ∀ o, (m.withConsole o).RunEnds bus limit (x.withConsole (heard events o), cause) := by
  by_cases unlimited : limit = 0
  · subst unlimited
    simp only [RunEnds, if_pos] at ends ⊢
    obtain ⟨turns, ended⟩ := ends
    have anew := runFree?_withConsole bus m turns
    rw [ended] at anew
    -- Giving a machine its own console changes nothing.
    have own := (anew m.console).symm.trans ended
    refine ⟨m.takeEvents bus turns true, ?_, fun o => ⟨turns, anew o⟩⟩
    exact congrArg Machine.console (congrArg Prod.fst (Option.some.inj own)).symm
  · simp only [RunEnds, if_neg unlimited] at ends ⊢
    have anew := run_withConsole bus m limit
    rw [ends] at anew
    have own := (anew m.console).symm.trans ends
    refine ⟨m.takeEvents bus limit true, ?_, anew⟩
    exact congrArg Machine.console (congrArg Prod.fst own).symm

/-! ### Dialogues -/

variable [DecidableEq ι]

/-- **A command has one history,** whoever listens. -/
theorem Performs.withConsole {c : Command ι σ} {a : Answer} (performs : m.Performs bus c a x)
    (tuned : c.retunes = false) :
    ∃ events, x.console = heard events m.console ∧
      ∀ o, (m.withConsole o).Performs bus c a (x.withConsole (heard events o)) := by
  cases performs with
  | run ends =>
    obtain ⟨events, told, anew⟩ := ends.withConsole
    exact ⟨events, told, fun o => .run (anew o)⟩
  | act action =>
    have anew := fun o => act_withConsole bus o m (x := action) tuned
    refine ⟨m.actEvents bus action, ?_, fun o => performs_act_iff.2 (anew o)⟩
    exact congrArg Machine.console (congrArg Prod.fst (anew m.console))

/-- **A dialogue has one history,** whoever listens. -/
theorem Dialogue.withConsole {l : List (Command ι σ × Answer)} (dialogue : m.Dialogue bus l x)
    (tuned : ∀ e ∈ l, e.1.retunes = false) :
    ∃ events, x.console = heard events m.console ∧
      ∀ o, (m.withConsole o).Dialogue bus l (x.withConsole (heard events o)) := by
  induction dialogue with
  | start => exact ⟨[], (heard_nil _).symm, fun o => by rw [heard_nil]; exact .start⟩
  | @perform l x y c a before performs ih =>
    obtain ⟨earlier, told, anew⟩ := ih fun e he => tuned e (List.mem_cons_of_mem _ he)
    obtain ⟨later, told', anew'⟩ := performs.withConsole (tuned _ List.mem_cons_self)
    refine ⟨earlier ++ later, ?_, fun o => ?_⟩
    · rw [heard_append, ← told, told']
    · rw [heard_append]
      exact .perform (anew o) (anew' (heard earlier o))

/-! ### New machines -/

omit [DecidableEq ι] in
theorem start_withConsole (v : Variant) (devices : σ) (o : Option Console) :
    (start v devices o : Machine ι σ) =
      (start v devices none).withConsole (heard [.reset v] o) := by
  unfold start
  exact reset_withConsole o
    { variant := v
      phase := .fetch
      fault := none
      lastPC := 0
      policy := .standard
      inputs := .empty
      outputs := .empty
      devices := devices
      console := none
      core := ⟨.reset 0, .blank, false⟩ }

end Machine

/-! ### Consoles -/

/-- A console that has received some messages. -/
def Console.holding (program : Text) (attached : Bool) (t : Severity) (messages : List Message) :
    Console :=
  ⟨program, attached, t, messages.toArray⟩

/-- The text of some messages, one after the other, if there is something to show them on. -/
def Message.shownAll (program : Text) (attached : Bool) (messages : List Message) : Text :=
  if attached then messages.flatMap (Message.shown program) else []

theorem Console.text_holding (program : Text) (attached : Bool) (t : Severity)
    (messages : List Message) :
    (holding program attached t messages).text = Message.shownAll program attached messages :=
  text_eq (holding program attached t messages)

/-- What a new console with some threshold has of a history. -/
theorem Machine.heard_start (program : Text) (attached : Bool) (t : Severity)
    (events : List Event) :
    heard events (some (.start program attached t)) =
      some (.holding program attached t
        ((events.map Event.message).filter fun m => m.severity.passes t)) :=
  congrArg some (Console.listen_eq (.start program attached t) events)

/-- A console with the threshold of the instruction trace has all of it. -/
theorem Machine.heard_start_trace (program : Text) (attached : Bool) (events : List Event) :
    heard events (some (.start program attached .trace)) =
      some (.holding program attached .trace (events.map Event.message)) := by
  have all : (events.map Event.message).filter (fun m => m.severity.passes .trace) =
      events.map Event.message := by
    rw [List.filter_eq_self]
    intro m hm
    obtain ⟨e, -, rfl⟩ := List.mem_map.1 hm
    exact e.passes_trace
  rw [heard_start, all]

namespace Machine

variable [DecidableEq ι] {bus : Peripherals ι σ}

/-- **New machines have one history.** What can become of a new machine with some console can become
of it with any other one and with none, by the same commands with the same answers. -/
theorem Dialogue.start_withConsole {v : Variant} {devices : σ} {o : Option Console}
    {x : Machine ι σ} {l : List (Command ι σ × Answer)}
    (dialogue : (Machine.start v devices o).Dialogue bus l x)
    (tuned : ∀ e ∈ l, e.1.retunes = false) :
    ∃ events, x.console = heard events o ∧
      ∀ o', (Machine.start v devices o').Dialogue bus l (x.withConsole (heard events o')) := by
  obtain ⟨events, told, anew⟩ := dialogue.withConsole tuned
  rw [Machine.start_withConsole v devices o, console_withConsole, ← heard_append] at told
  refine ⟨.reset v :: events, told, fun o' => ?_⟩
  have first : heard (.reset v :: events) o' = heard events (heard [.reset v] o') :=
    heard_append [.reset v] events o'
  have again := anew (heard [.reset v] o')
  rw [Machine.start_withConsole v devices o, withConsole_withConsole] at again
  rw [Machine.start_withConsole v devices o', first]
  exact again

/-- What the console of a machine shows, nothing if there is none. -/
def consoleText (m : Machine ι σ) : Text := m.console.elim [] Console.text

/-- **Logging only observes.** Let a new machine be given commands that leave the console alone.
Without a console and with one at any threshold the same answers are possible, and what can become
of the machine without a console is what can become of it with one, but for the console itself: the
registers, memory, the devices and all else are the same.

What can become of it with a console at some threshold is what can become of it with one that hears
everything, and of the messages that the latter has heard the former has those that pass the
threshold, in the same order. The texts of the two consoles are those of their messages. -/
theorem logging_only_observes (bus : Peripherals ι σ) (v : Variant) (devices : σ) (program : Text)
    (attached : Bool) (threshold : Severity) {l : List (Command ι σ × Answer)}
    (tuned : ∀ e ∈ l, e.1.retunes = false) :
    (∀ x, (start v devices none).Dialogue bus l x ↔
        ∃ y, (start v devices (some (.start program attached threshold))).Dialogue bus l y ∧
          x = y.withConsole none) ∧
      ∀ y, (start v devices (some (.start program attached threshold))).Dialogue bus l y ↔
        ∃ (z : Machine ι σ) (messages : List Message),
          (start v devices (some (.start program attached .trace))).Dialogue bus l z ∧
            z.console = some (.holding program attached .trace messages) ∧
            y = z.withConsole (some (.holding program attached threshold
              (messages.filter fun m => m.severity.passes threshold))) ∧
            z.consoleText = Message.shownAll program attached messages ∧
            y.consoleText = Message.shownAll program attached
              (messages.filter fun m => m.severity.passes threshold) := by
  refine ⟨fun x => ⟨fun dialogue => ?_, ?_⟩, fun y => ⟨fun dialogue => ?_, ?_⟩⟩
  · obtain ⟨events, told, anew⟩ := dialogue.start_withConsole tuned
    exact ⟨_, anew (some (.start program attached threshold)),
      congrArg (x.withConsole ·) told⟩
  · rintro ⟨y, dialogue, rfl⟩
    obtain ⟨events, -, anew⟩ := dialogue.start_withConsole tuned
    exact anew none
  · obtain ⟨events, told, anew⟩ := dialogue.start_withConsole tuned
    have full := heard_start_trace program attached events
    rw [heard_start] at told
    refine ⟨_, events.map Event.message, anew (some (.start program attached .trace)), full, ?_, ?_,
      ?_⟩
    · exact congrArg (y.withConsole ·) told
    · rw [consoleText, console_withConsole, full]
      exact Console.text_holding ..
    · rw [consoleText, told]
      exact Console.text_holding ..
  · rintro ⟨z, messages, dialogue, held, rfl, -⟩
    obtain ⟨events, told, anew⟩ := dialogue.start_withConsole tuned
    -- The messages of the console that hears everything are the whole history.
    rw [heard_start_trace, held] at told
    have same : messages = events.map Event.message := by
      have received := congrArg Console.received (Option.some.inj told)
      exact List.toArray_inj received
    rw [same, ← heard_start]
    exact anew _

end Machine

/-- Loading an instruction without effect and a byte that begins none behind it, and a run. -/
def Command.stumbling : List (Command Empty Unit × Answer) :=
  [(.run 0, .ended (.stop .illegalOpcode)), (.act (.load 0 [0x00, 0xED, 0x00]), .done)]

/-- A new machine in front of these bytes, with a console that hears of nothing but errors and what
may be one. -/
def Machine.stumbling : Machine Empty Unit :=
  (start .z80 () (some (.start (.ascii "Z85") true .warning))).load 0 [0x00, 0xED, 0x00]

/-- The machine after the run. -/
def Machine.stumbled : Machine Empty Unit := (stumbling.run .empty 2).1

/-- The console shows a single line, which is a part of what one that hears everything shows, and
the machine without a console has become the same. -/
theorem Machine.logging_only_observes_stumbling :
    (∀ e ∈ Command.stumbling, e.1.retunes = false) ∧
      stumbled.consoleText =
        .ascii "Z85: illegal opcode (0xED) at 0x0001" ++ [Text.newline] ∧
      (start .z80 () none).Dialogue .empty Command.stumbling (stumbled.withConsole none) ∧
      ∃ (z : Machine Empty Unit) (messages : List Message),
        (start .z80 () (some (.start (.ascii "Z85") true .trace))).Dialogue .empty
            Command.stumbling z ∧
          stumbled.consoleText = Message.shownAll (.ascii "Z85") true
            (messages.filter fun m => m.severity.passes .warning) := by
  have tuned : ∀ e ∈ Command.stumbling, e.1.retunes = false := by
    simp [Command.stumbling, Command.retunes, Action.retunes]
  have ends : stumbling.RunEnds .empty 0 (stumbled, .stop .illegalOpcode) := by
    have silent : ¬ Peripherals.empty.Requests .finished := by
      rintro (⟨⟨⟩, -⟩ | ⟨⟨⟩, -⟩)
    have cause : (stumbling.run .empty 2).2 = .stop .illegalOpcode := by decide +kernel
    rw [RunEnds, if_pos rfl]
    exact ⟨2, (runFree?_eq_some_iff silent).2 ⟨Prod.ext rfl cause, by simp⟩⟩
  have dialogue : (start .z80 () (some (.start (.ascii "Z85") true .warning))).Dialogue .empty
      Command.stumbling stumbled := .perform (.perform .start (.act _)) (.run ends)
  obtain ⟨alone, parts⟩ := logging_only_observes .empty .z80 () (.ascii "Z85") true .warning tuned
  obtain ⟨z, messages, full, -, -, -, shown⟩ := (parts _).1 dialogue
  exact ⟨tuned, by decide +kernel, (alone _).2 ⟨stumbled, dialogue, rfl⟩, z, messages, full, shown⟩

end Micro80
