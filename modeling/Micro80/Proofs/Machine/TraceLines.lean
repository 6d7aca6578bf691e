import Mathlib.Data.List.Basic
import Micro80.Memory.Inspect
import Micro80.Proofs.Instruction.Locality
import Micro80.Proofs.Instruction.TextLength
import Micro80.Proofs.Machine.Composition
import Micro80.Proofs.Machine.Failure
import Micro80.Proofs.Machine.Listening

/-!
# The instruction trace

A console that hears everything has one line for each instruction that a run executes, in their
order, and one warning for each byte that is no instruction. The line is written before the
instruction takes effect. So it shows the bytes that are executed, even if the instruction
overwrites them, and the accumulator and the flags as the instruction finds them, and there is a
line too for an instruction whose device fails. What ends a run without an instruction adds nothing.

Other messages can have the severity of the trace. A line of the trace can be told from them by the
stroke behind its address.

## Main definitions

* `Message.isTraceLine`, `Message.isWarning`: the messages in question.
* `Machine.traceLine?`, `Machine.warning?`: what is to be told of a machine in front of an
  instruction, or of a byte that is none.
* `Event.IsSilent`: events that are told by other messages.
* `Machine.advanceEvents`: the reports of a turn that proceeds.
* `Machine.IsHistory`: messages that tell what a run has dealt with.

## Main statements

* `Machine.filter_isTraceLine_advanceEvents`, `Machine.filter_isWarning_advanceEvents`: what a turn
  reports.
* `Machine.takeEvents_eq`: what a run reports is what its turns report.
* `Machine.exists_getLast?_visited_of_failure`: the instruction whose device has failed is the last
  one of a run.
* `Machine.trace_is_history`: all of this together.
-/

namespace Micro80

variable {ι σ : Type}

/-! ### Lines and warnings -/

namespace Message

/-- Whether a message is a line of the instruction trace. -/
def isTraceLine (m : Message) : Bool := m.severity = .trace && m.text[4]? = some 47

def isWarning (m : Message) : Bool := m.severity = .warning

end Message

namespace Machine

/-- **The line of the trace** for the instruction that a machine is in front of, if it is in front
of one: the address, the bytes that are in memory there, their disassembly, the accumulator and the
flags. -/
def traceLine? (m : Machine ι σ) : Option Message :=
  match Instruction.decode m.variant m.core.memory m.pc with
  | .error _ => none
  | .ok _ =>
    let r := m.core.memory.disassemble m.variant m.pc
    let bytes := m.core.memory.bytesFrom m.pc r.1
    some ⟨.trace, .hex 4 m.pc.toNat ++ .ascii "/ "
      ++ .padRight 12 (bytes.flatMap fun b => Text.hex 2 b.toNat ++ [Text.blank]) ++ .ascii "\t"
      ++ .padRight 20 r.2 ++ .ascii "\tA=" ++ .hex 2 m.core.accumulator.toNat
      ++ .ascii " F=" ++ m.variant.layout.display m.core.flags⟩

/-- **The warning** about the byte that a machine is in front of, if it begins no instruction: the
reason, the byte and its address. -/
def warning? (m : Machine ι σ) : Option Message :=
  match Instruction.decode m.variant m.core.memory m.pc with
  | .ok _ => none
  | .error e =>
    some ⟨.warning, e.message ++ .ascii " (" ++ .marked 2 (m.core.memory.read m.pc).toNat
      ++ .ascii ") at " ++ .marked 4 m.pc.toNat⟩

end Machine

/-! ### Messages -/

/-- What is shown of flags has a character for each bit at most. -/
theorem FlagLayout.length_display_le (L : FlagLayout) (f : UInt8) : (L.display f).length ≤ 8 := by
  rw [display, List.length_zipWith]
  exact Nat.min_le_right _ _

namespace Event

theorem length_bytesText (bytes : List UInt8) :
    (bytes.flatMap fun b => Text.hex 2 b.toNat ++ [Text.blank]).length = 3 * bytes.length := by
  induction bytes with
  | nil => rfl
  | cons b rest ih =>
    rw [List.flatMap_cons, List.length_append, List.length_append, Text.length_hex_byte, ih,
      List.length_singleton, List.length_cons]
    omega

/-- A line of the trace is never cut. -/
theorem length_traceText_le {v : Variant} {i : Instruction} (sound : i.IsSound v) (a f : UInt8) :
    (traceText i a f).length ≤ Text.limit := by
  have text := Instruction.length_text_le sound.entry_mem
  have flags := i.variant.layout.length_display_le f
  have bytes : i.bytes.length ≤ 4 := sound.length_le
  have stroke : (Text.ascii "/ ").length = 2 := rfl
  have tab : (Text.ascii "\t").length = 1 := rfl
  have before : (Text.ascii "\tA=").length = 3 := rfl
  have between : (Text.ascii " F=").length = 3 := rfl
  simp only [traceText, List.length_append, Text.length_hex_word, Text.length_padRight,
    length_bytesText, Text.length_hex_byte, stroke, tab, before, between, Text.limit]
  omega

theorem message_executing {v : Variant} {i : Instruction} (sound : i.IsSound v) (a f : UInt8) :
    (executing i a f).message = ⟨.trace, traceText i a f⟩ :=
  congrArg (Message.mk _) (Text.clip_of_length_le (length_traceText_le sound a f))

theorem message_undecodable (e : DecodeError) (b : UInt8) (a : UInt16) :
    (undecodable e b a).message =
      ⟨.warning, e.message ++ .ascii " (" ++ .marked 2 b.toNat ++ .ascii ") at "
        ++ .marked 4 a.toNat⟩ := by
  have reason : e.message.length ≤ 40 := by
    cases e <;> decide
  have before : (Text.ascii " (").length = 2 := rfl
  have mark : (Text.ascii "0x").length = 2 := rfl
  have between : (Text.ascii ") at ").length = 5 := rfl
  refine congrArg (Message.mk _) (Text.clip_of_length_le ?_)
  simp only [text, byteText, addressText, Text.marked, List.length_append, Text.length_hex_byte,
    Text.length_hex_word, before, mark, between, Text.limit]
  omega

/-- In a line of the trace a stroke stands behind the address. -/
theorem isTraceLine_executing {v : Variant} {i : Instruction} (sound : i.IsSound v) (a f : UInt8) :
    (executing i a f).message.isTraceLine = true := by
  have stroke : (traceText i a f)[4]? = some 47 := by
    simp only [traceText, List.append_assoc]
    rw [List.getElem?_append_right (Nat.le_of_eq (Text.length_hex_word _)), Text.length_hex_word]
    rfl
  rw [message_executing sound, Message.isTraceLine, stroke]
  rfl

/-- **Silence.** Events that are told neither by a line of the trace nor by a warning. -/
def IsSilent (e : Event) : Prop :=
  e.message.isTraceLine = false ∧ e.message.isWarning = false

theorem isSilent_halted (v : Variant) (a : UInt16) : (halted v a).IsSilent := by
  refine ⟨?_, rfl⟩
  cases v <;> rfl

/-- A console with the threshold of the trace, or with one below it, hears of every event. -/
theorem passes_of_trace {t : Severity} (h : Severity.trace.passes t = true) (e : Event) :
    e.message.severity.passes t = true := by
  have rank : Severity.trace.rank ≤ e.severity.rank := of_decide_eq_true e.passes_trace
  exact decide_eq_true (Nat.le_trans (of_decide_eq_true h) rank)

/-- Events none of which has a message of some kind. -/
theorem filter_map_eq_nil {kind : Message → Bool} {events : List Event}
    (h : ∀ e ∈ events, kind e.message = false) : (events.map message).filter kind = [] := by
  rw [List.filter_eq_nil_iff]
  intro x mem
  obtain ⟨e, among, rfl⟩ := List.mem_map.1 mem
  exact Bool.eq_false_iff.1 (h e among)

end Event

/-- A console shows what it has been told in addition behind the rest. -/
theorem Console.text_concat (c : Console) (messages : List Message) :
    { c with received := (c.received.toList ++ messages).toArray }.text =
      c.text ++ Message.shownAll c.program c.attached messages := by
  rw [text_eq, text_eq, Message.shownAll]
  cases c.attached with
  | false => rfl
  | true => exact List.flatMap_append

/-- What else is said about an instruction is silent. -/
theorem Instruction.isSilent_remark {i : Instruction} {c : Core} {e : Event}
    (h : i.remark? c = some e) : e.IsSilent := by
  unfold remark? at h
  split at h
  · cases h
    exact Event.isSilent_halted _ _
  · dsimp only at h
    split at h <;> cases h <;> exact ⟨rfl, rfl⟩
  · cases h

namespace Machine

theorem isSilent_of_mem_portEvents {m : Machine ι σ} {effect : Effect} {e : Event}
    (h : e ∈ m.portEvents effect) : e.IsSilent := by
  unfold portEvents at h
  split at h
  · split at h
    · obtain rfl := List.mem_singleton.1 h
      exact ⟨rfl, rfl⟩
    · cases h
  · split at h
    · obtain rfl := List.mem_singleton.1 h
      exact ⟨rfl, rfl⟩
    · cases h
  · cases h
  · cases h

/-! ### Turns -/

/-- The reports of a turn that proceeds. -/
def advanceEvents (m : Machine ι σ) : List Event :=
  match Instruction.decode m.variant m.core.memory m.pc with
  | .error e => [.undecodable e (m.core.memory.read m.pc) m.pc]
  | .ok i => m.executionEvents i

theorem turnEvents_eq (m : Machine ι σ) (first : Bool) :
    m.turnEvents first = if m.proceeds first then m.advanceEvents else [] := rfl

/-- An instruction that is executed is announced, and all else that is reported is silent. -/
theorem exists_executionEvents_eq (m : Machine ι σ) (i : Instruction) :
    ∃ others, m.executionEvents i = .executing i m.core.accumulator m.core.flags :: others ∧
      ∀ e ∈ others, e.IsSilent := by
  refine ⟨_, rfl, fun e mem => ?_⟩
  obtain remark | port := List.mem_append.1 mem
  · exact Instruction.isSilent_remark (Option.mem_toList.1 remark)
  · cases effect : i.effect? m.variant.layout (m.core.jump i.next) with
    | none =>
      rw [effect] at port
      cases port
    | some x =>
      rw [effect] at port
      exact isSilent_of_mem_portEvents port

/-- The line of the trace for an instruction is what its announcement says. -/
theorem traceLine?_of_ok {m : Machine ι σ} {i : Instruction}
    (decoded : Instruction.decode m.variant m.core.memory m.pc = .ok i) :
    m.traceLine? = some (Event.executing i m.core.accumulator m.core.flags).message := by
  have sound := Instruction.isSound_of_decode decoded
  have shown : m.core.memory.disassemble m.variant m.pc = (i.length, i.text) := by
    rw [Memory.disassemble, decoded]
  have bytes : m.core.memory.bytesFrom m.pc i.length = i.bytes :=
    (Instruction.bytes_of_decodeWith (Instruction.decode_eq_ok_iff.1 decoded)).symm
  have address := Instruction.address_of_decode decoded
  have variant := Instruction.variant_of_decode decoded
  rw [Event.message_executing sound, traceLine?, decoded]
  dsimp only
  rw [shown, bytes, Event.traceText, address, variant]

/-- The warning about a byte is what its report says. -/
theorem warning?_of_error {m : Machine ι σ} {e : DecodeError}
    (undecodable : Instruction.decode m.variant m.core.memory m.pc = .error e) :
    m.warning? = some (Event.undecodable e (m.core.memory.read m.pc) m.pc).message := by
  rw [Event.message_undecodable, warning?, undecodable]

/-- A machine is in front of an instruction, or of a byte that is none. -/
theorem isSome_traceLine? (m : Machine ι σ) : m.traceLine?.isSome = !m.warning?.isSome := by
  unfold traceLine? warning?
  cases Instruction.decode m.variant m.core.memory m.pc <;> rfl

/-- **What a turn reports** contains the line of the trace, if there is an instruction, and no other
line. -/
theorem filter_isTraceLine_advanceEvents (m : Machine ι σ) :
    (m.advanceEvents.map Event.message).filter Message.isTraceLine = m.traceLine?.toList := by
  unfold advanceEvents
  cases decoded : Instruction.decode m.variant m.core.memory m.pc with
  | error e =>
    have none : m.traceLine? = none := by
      rw [traceLine?, decoded]
    rw [none]
    rfl
  | ok i =>
    obtain ⟨others, events, silent⟩ := m.exists_executionEvents_eq i
    have announced := Event.isTraceLine_executing (Instruction.isSound_of_decode decoded)
      m.core.accumulator m.core.flags
    dsimp only
    rw [events, List.map_cons, List.filter_cons_of_pos announced, traceLine?_of_ok decoded]
    exact congrArg _ (Event.filter_map_eq_nil fun e mem => (silent e mem).1)

/-- What a turn reports contains the warning, if there is no instruction, and no other warning. -/
theorem filter_isWarning_advanceEvents (m : Machine ι σ) :
    (m.advanceEvents.map Event.message).filter Message.isWarning = m.warning?.toList := by
  unfold advanceEvents
  cases decoded : Instruction.decode m.variant m.core.memory m.pc with
  | error e =>
    rw [warning?_of_error decoded]
    rfl
  | ok i =>
    obtain ⟨others, events, silent⟩ := m.exists_executionEvents_eq i
    have none : m.warning? = none := by
      rw [warning?, decoded]
    dsimp only
    rw [events, none, List.map_cons, List.filter_cons_of_neg Bool.false_ne_true]
    exact Event.filter_map_eq_nil fun e mem => (silent e mem).2

/-! ### Runs -/

/-- **What a run reports** is what its instructions report. -/
theorem takeEvents_eq (bus : Peripherals ι σ) (turns : Nat) (first : Bool) (m : Machine ι σ) :
    m.takeEvents bus turns first = (m.visited bus turns first).flatMap advanceEvents := by
  induction turns generalizing first m with
  | zero => rfl
  | succ turns ih =>
    rw [takeEvents, visited, turnEvents_eq]
    cases proceeds : m.proceeds first with
    | false =>
      rw [turn_of_not_proceeds proceeds]
      rfl
    | true =>
      rw [if_pos rfl, if_pos rfl, List.flatMap_cons]
      cases m.turn bus first with
      | ended x cause => rfl
      | running x => exact congrArg (m.advanceEvents ++ ·) (ih false x)

/-- Messages of one kind that each turn has at most once are, over a run, those of its turns. -/
theorem filter_takeEvents {kind : Message → Bool} {told : Machine ι σ → Option Message}
    (once : ∀ m : Machine ι σ,
      (m.advanceEvents.map Event.message).filter kind = (told m).toList)
    (bus : Peripherals ι σ) (turns : Nat) (first : Bool) (m : Machine ι σ) :
    ((m.takeEvents bus turns first).map Event.message).filter kind =
      (m.visited bus turns first).filterMap told := by
  rw [takeEvents_eq, List.map_flatMap, List.filter_flatMap, List.filterMap_eq_flatMap_toList]
  exact congrArg (List.flatMap · _) (funext once)

/-- A halted machine has no instructions in front of it. -/
theorem not_isHalted_of_mem_visited {bus : Peripherals ι σ} {turns : Nat} {first : Bool}
    {m x : Machine ι σ} (h : x ∈ m.visited bus turns first) : x.isHalted = false := by
  obtain ⟨f, -, proceeds⟩ := exists_proceeds_of_mem_visited h
  exact (proceeds_iff.1 proceeds).1

theorem visited_of_isHalted (bus : Peripherals ι σ) {m : Machine ι σ} (halted : m.isHalted = true)
    (turns : Nat) (first : Bool) : m.visited bus turns first = [] := by
  cases turns with
  | zero => rfl
  | succ turns =>
    have stays : m.proceeds first = false := by
      rw [proceeds, halted]
      rfl
    rw [visited, stays]
    rfl

/-- Only an instruction can fail. -/
theorem exists_decode_of_failure {bus : Peripherals ι σ} {first : Bool} {m m' : Machine ι σ}
    {e : DeviceFailure} (h : m.turn bus first = .ended m' (.failure e)) :
    m.proceeds first = true ∧
      ∃ i, Instruction.decode m.variant m.core.memory m.pc = .ok i := by
  cases proceeds : m.proceeds first with
  | false =>
    rw [turn_of_not_proceeds proceeds] at h
    cases h
  | true =>
    refine ⟨rfl, ?_⟩
    rw [turn_of_proceeds proceeds] at h
    cases decoded : Instruction.decode m.variant m.core.memory m.pc with
    | ok i => exact ⟨i, rfl⟩
    | error d =>
      obtain ⟨console, advanced⟩ := exists_advance_eq_of_error bus decoded
      rw [advanced] at h
      cases stop : m.policy.illegalOpcode with
      | none =>
        rw [stop] at h
        cases h
      | some r =>
        rw [stop] at h
        cases h

/-- **A run that a failure ends** has its last line for the instruction that has failed. -/
theorem exists_getLast?_visited_of_failure {bus : Peripherals ι σ} {turns : Nat} {first : Bool}
    {m m' : Machine ι σ} {e : DeviceFailure}
    (h : m.take bus turns first = .ended m' (.failure e)) :
    ∃ x i, (m.visited bus turns first).getLast? = some x ∧
      Instruction.decode x.variant x.core.memory x.pc = .ok i ∧ m'.core = x.core := by
  induction turns generalizing first m with
  | zero => cases h
  | succ turns ih =>
    rw [take_succ] at h
    cases turned : m.turn bus first with
    | ended x cause =>
      rw [turned] at h
      cases h
      obtain ⟨proceeds, i, decoded⟩ := exists_decode_of_failure turned
      refine ⟨m, i, ?_, decoded, ?_⟩
      · rw [visited, proceeds, turned]
        rfl
      · rw [(fails_of_turn turned).2]
        rfl
    | running x =>
      rw [turned] at h
      obtain ⟨y, i, last, found⟩ := ih h
      refine ⟨y, i, ?_, found⟩
      rw [visited_of_running turned, List.getLast?_cons, last]
      rfl

/-- **Histories.** Messages that tell what a run has dealt with. -/
structure IsHistory (bus : Peripherals ι σ) (turns : Nat) (m : Machine ι σ)
    (messages : List Message) : Prop where
  /-- There is one line for each instruction, as the run has found it. -/
  lines_eq : messages.filter Message.isTraceLine = (m.visited bus turns true).filterMap traceLine?
  /-- There is one warning for each byte that is no instruction. -/
  warnings_eq : messages.filter Message.isWarning = (m.visited bus turns true).filterMap warning?
  /-- There is no line where there is a warning. -/
  apart : ∀ x ∈ m.visited bus turns true, x.traceLine?.isSome = !x.warning?.isSome
  length_visited_le : (m.visited bus turns true).length ≤ turns
  awake : ∀ x ∈ m.visited bus turns true, x.isHalted = false
  free : ∀ x ∈ (m.visited bus turns true).tail, x.atBreakpoint = false
  /-- The instruction whose device has failed has the last line, and has been taken back. -/
  failed : ∀ e, (m.run bus turns).2 = .failure e →
    ∃ x line, (m.visited bus turns true).getLast? = some x ∧ x.traceLine? = some line ∧
      (m.run bus turns).1.core = x.core

/-- The messages of a run are its history. -/
theorem isHistory_takeEvents (bus : Peripherals ι σ) (turns : Nat) (m : Machine ι σ) :
    m.IsHistory bus turns ((m.takeEvents bus turns true).map Event.message) where
  lines_eq := filter_takeEvents filter_isTraceLine_advanceEvents bus turns true m
  warnings_eq := filter_takeEvents filter_isWarning_advanceEvents bus turns true m
  apart x _ := x.isSome_traceLine?
  length_visited_le := length_visited_le bus turns true m
  awake _ := not_isHalted_of_mem_visited
  free _ := not_atBreakpoint_of_mem_tail_visited
  failed e failure := by
    unfold run at failure ⊢
    cases taken : m.take bus turns true with
    | running x =>
      rw [taken] at failure
      cases failure
    | ended x cause =>
      rw [taken] at failure
      cases failure
      obtain ⟨y, i, last, decoded, same⟩ := exists_getLast?_visited_of_failure taken
      exact ⟨y, _, last, traceLine?_of_ok decoded, same⟩

/-- A console that hears everything receives the messages of all events. -/
theorem heard_of_hears {c : Console} (hears : Severity.trace.passes c.threshold = true)
    (events : List Event) :
    heard events (some c) = some { c with
      received := (c.received.toList ++ events.map Event.message).toArray } := by
  have all : (events.map Event.message).filter (fun x => x.severity.passes c.threshold) =
      events.map Event.message := by
    rw [List.filter_eq_self]
    intro x mem
    obtain ⟨e, -, rfl⟩ := List.mem_map.1 mem
    exact e.passes_of_trace hears
  rw [heard, Option.map_some, Console.listen_eq, all]

/-- A run adds the messages of its events to a console that hears everything. -/
theorem console_run {m : Machine ι σ} {c : Console} (listening : m.console = some c)
    (hears : Severity.trace.passes c.threshold = true) (bus : Peripherals ι σ) (turns : Nat) :
    (m.run bus turns).1.console = some { c with
      received := (c.received.toList ++
        (m.takeEvents bus turns true).map Event.message).toArray } := by
  have own : m.run bus turns = _ := run_withConsole bus m turns m.console
  rw [own, console_withConsole, listening, heard_of_hears hears]

/-- **The trace is the history.** Let a machine have a console that hears everything. A run, with or
without a limit, adds some messages to it and shows them behind what has been shown before. Among
them there is one line for each instruction that is executed and one warning for each byte that
begins none, in their order and as the run finds them. The last line is that of the instruction
whose device fails, if this is what ends the run. A machine that has halted, a breakpoint in front
of a turn and a limit that is reached add nothing. -/
theorem trace_is_history (bus : Peripherals ι σ) (m : Machine ι σ) {c : Console}
    (listening : m.console = some c) (hears : Severity.trace.passes c.threshold = true)
    (turns : Nat) :
    (∃ messages,
      (m.run bus turns).1.console =
          some { c with received := (c.received.toList ++ messages).toArray } ∧
        (m.run bus turns).1.consoleText =
          c.text ++ Message.shownAll c.program c.attached messages ∧
        m.IsHistory bus turns messages ∧
        (m.isHalted = true → messages = [])) ∧
      (∀ x, m.runFree? bus turns = some x → x = m.run bus turns) ∧
      ∀ first, m.proceeds first = false → (m.turn bus first).machine.console = some c := by
  have told := console_run listening hears bus turns
  refine ⟨⟨_, told, ?_, m.isHistory_takeEvents bus turns, fun halted => ?_⟩,
    fun x ended => (run_of_runFree? ended).symm, fun first stays => ?_⟩
  · rw [consoleText, told]
    exact c.text_concat _
  · rw [takeEvents_eq, visited_of_isHalted bus halted]
    rfl
  · rw [turn_of_not_proceeds stays]
    exact listening

end Machine

/-- An instruction that loads the accumulator with a byte that halts, one that puts this byte in its
own place, and a byte that begins no instruction. -/
def Machine.vanishing : Machine Empty Unit :=
  ((start .z80 () none).load 0 [0x3E, 0x76, 0x32, 0x02, 0x00, 0xED, 0x00]).withConsole
    (some (.start (.ascii "Z85") true .trace))

/-- The instruction that is not there any more has its line, with what the accumulator was. -/
theorem Machine.trace_is_history_vanishing :
    ∃ messages,
      (vanishing.run .empty 5).1.consoleText =
          Message.shownAll (.ascii "Z85") true messages ∧
        messages.filter Message.isTraceLine =
          [⟨.trace, .ascii "0000/ 3E 76       \tLD\tA,76H            \tA=00 F=..-.-..."⟩,
            ⟨.trace, .ascii "0002/ 32 02 00    \tLD\t(0002H),A        \tA=76 F=..-.-..."⟩] ∧
        messages.filter Message.isWarning =
          [⟨.warning, .ascii "illegal opcode (0xED) at 0x0005"⟩] ∧
        (vanishing.run .empty 5).1.core.memory.read 2 = 0x76 := by
  obtain ⟨⟨messages, -, shown, history, -⟩, -⟩ :=
    trace_is_history .empty vanishing rfl (by decide) 5
  refine ⟨messages, shown, ?_, ?_, by decide +kernel⟩
  · rw [history.lines_eq]
    decide +kernel
  · rw [history.warnings_eq]
    decide +kernel

end Micro80
