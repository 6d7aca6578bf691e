import Mathlib.Data.List.TakeWhile
import Micro80.Log.Session
import Micro80.Proofs.Text.Dump

/-!
# Messages line by line

A message may have any number of lines. In a file each of them stands behind the time and the
severity of the message; the console shows the message as it is. Nothing of a text is lost in its
lines, and nothing is added but that the last line is ended: put one after the other, each with a
line feed, the lines are the text again. So empty lines inside of a text are kept, and an empty text
has no line.

Texts that have been formatted are cut before anything else happens, and file and console receive
what has been kept. Where a text is cut in front of a line feed or behind one makes no difference to
its lines. Other texts are kept as they are, unless there is a NUL in them.

## Main definitions

* `Text.terminated`: a text with a line feed at its end.
* `MessageForm`: texts that are formatted and texts that are streamed.
* `Severity.opening`, `Severity.closing`: what a console shows around a text.

## Main statements

* `Text.flatMap_lines`: the lines of a text make up the text.
* `Message.lines_entry`: the lines of what is written for a message.
* `Session.message_keeps_its_lines`: what a message adds to the file and to the console.
-/

namespace Micro80

/-! ### Lines and their text -/

namespace Text

/-- **Ended texts.** A text with a line feed at its end. An empty text has no line to be ended. -/
def terminated (t : Text) : Text :=
  if t = [] ∨ t.getLast? = some newline then t else t ++ [newline]

/-- Whether a text has to be ended does not depend on what it begins with. -/
theorem terminated_cons {t : Text} (nonempty : t ≠ []) (c : UInt8) :
    terminated (c :: t) = c :: terminated t := by
  unfold terminated
  rw [List.getLast?_cons_of_ne_nil nonempty]
  simp only [List.cons_ne_nil, nonempty, false_or]
  split <;> rfl

theorem terminated_newline_cons (t : Text) :
    terminated (newline :: t) = newline :: terminated t := by
  by_cases nonempty : t = []
  · subst nonempty
    rfl
  · exact terminated_cons nonempty newline

theorem terminated_singleton {c : UInt8} (h : c ≠ newline) : terminated [c] = [c, newline] := by
  unfold terminated
  rw [if_neg]
  · rfl
  · simpa using h

theorem lines_eq_nil_iff {t : Text} : t.lines = [] ↔ t = [] := by
  cases t with
  | nil => exact ⟨fun _ => rfl, fun _ => rfl⟩
  | cons c rest =>
    rw [lines]
    split
    · simp
    · split <;> simp

/-- **Lines make up their text,** each with a line feed after it. -/
theorem flatMap_lines (t : Text) :
    (t.lines.flatMap fun line => line ++ [newline]) = t.terminated := by
  induction t with
  | nil => rfl
  | cons c rest ih =>
    rw [lines]
    by_cases feed : c = newline
    · rw [if_pos feed, feed, terminated_newline_cons, ← ih]
      rfl
    · rw [if_neg feed]
      cases rows : lines rest with
      | nil =>
        rw [lines_eq_nil_iff.1 rows, terminated_singleton feed]
        rfl
      | cons line others =>
        have more : rest ≠ [] := by
          rintro rfl
          cases rows
        rw [rows] at ih
        rw [terminated_cons more, ← ih]
        rfl

/-! ### What has no line feed -/

theorem newline_notMem_numeral {radix : Nat} (two : 2 ≤ radix) (sixteen : radix ≤ 16)
    (width n : Nat) : newline ∉ numeral radix width n := by
  intro mem
  obtain ⟨k, hk, same⟩ := exists_digit_of_mem_numeral two mem
  have all : ∀ k < 16, newline ≠ digit k := by decide
  exact all k (by omega) same

theorem newline_notMem_decimal (width : Nat) (n : Int) : newline ∉ decimal width n := by
  have digits : ∀ width n, newline ∉ numeral 10 width n :=
    newline_notMem_numeral (by decide) (by decide)
  unfold decimal
  split
  · rw [List.mem_append, not_or]
    exact ⟨by decide, digits _ _⟩
  · exact digits _ _

end Text

theorem TimeStamp.newline_notMem_text (t : TimeStamp) : Text.newline ∉ t.text := by
  have numbers := Text.newline_notMem_decimal
  unfold text
  simp only [List.mem_append, not_or]
  refine ⟨⟨⟨⟨⟨⟨numbers _ _, ?_⟩, numbers _ _⟩, ?_⟩, numbers _ _⟩, ?_⟩, numbers _ _⟩
  all_goals decide

theorem Severity.newline_notMem_name (s : Severity) : Text.newline ∉ s.name := by
  unfold name
  split <;> decide

/-! ### Messages in a file -/

/-- **What stands in front of a line** in a file. -/
def Message.front (stamp : TimeStamp) (severity : Severity) : Text :=
  stamp.text ++ .ascii " " ++ severity.name ++ .ascii "\t"

theorem Message.newline_notMem_front (stamp : TimeStamp) (severity : Severity) :
    Text.newline ∉ front stamp severity := by
  unfold front
  simp only [List.mem_append, not_or]
  exact ⟨⟨⟨stamp.newline_notMem_text, by decide⟩, severity.newline_notMem_name⟩, by decide⟩

/-- **The lines in a file** are those of the message, each with the same time and severity in
front. -/
theorem Message.lines_entry (stamp : TimeStamp) (m : Message) :
    (m.entry stamp).lines = m.text.lines.map (front stamp m.severity ++ ·) := by
  have rows : ∀ row ∈ m.text.lines.map (front stamp m.severity ++ ·), Text.newline ∉ row := by
    intro row mem
    obtain ⟨line, within, rfl⟩ := List.mem_map.1 mem
    rw [List.mem_append, not_or]
    exact ⟨newline_notMem_front stamp m.severity, Text.newline_notMem_of_mem_lines within⟩
  rw [← Text.lines_flatten rows, List.map_map]
  rfl

/-! ### Forms of messages -/

/-- **Forms of messages.** How the text of a message has been put together. -/
inductive MessageForm where
  /-- By filling a format. -/
  | formatted
  /-- By writing one thing after the other. -/
  | streamed

namespace MessageForm

/-- A message of either form. -/
def message : MessageForm → Severity → Text → Message
  | formatted, severity, text => .formatted severity text
  | streamed, severity, text => .streamed severity text

/-- What is kept of the text: of a formatted one the first 1023 bytes, of a streamed one all that is
not behind a NUL. -/
def kept : MessageForm → Text → Text
  | formatted, text => text.take 1023
  | streamed, text => text.takeWhile fun c => c != 0

theorem message_eq (form : MessageForm) (severity : Severity) (text : Text) :
    form.message severity text = ⟨severity, form.kept text⟩ := by
  cases form <;> rfl

/-- A streamed text without a NUL is kept as a whole. -/
theorem kept_streamed {text : Text} (clean : 0 ∉ text) : streamed.kept text = text := by
  rw [kept, List.takeWhile_eq_self_iff]
  intro c mem
  rw [bne_iff_ne]
  rintro rfl
  exact clean mem

end MessageForm

/-! ### Messages on a console -/

/-- What a console shows in front of a text. -/
def Severity.opening (program : Text) (s : Severity) : Text :=
  match s.rank with
  | 5 => []
  | 1 => .ascii "-- "
  | 2 => .ascii "["
  | _ => program ++ .ascii ": "

/-- What a console shows behind a text. -/
def Severity.closing (s : Severity) : Text :=
  match s.rank with
  | 2 => .ascii "]" ++ [Text.newline]
  | _ => [Text.newline]

/-- **A console shows a text as one piece.** -/
theorem Message.shown_eq (program : Text) (m : Message) :
    m.shown program = m.severity.opening program ++ m.text ++ m.severity.closing := by
  obtain ⟨⟨rank⟩, text⟩ := m
  unfold shown Severity.opening Severity.closing
  split <;> simp_all

theorem Console.text_receive (c : Console) (m : Message) :
    (c.receive m).text =
      c.text ++ if c.attached && c.admits m.severity then m.shown c.program else [] := by
  unfold text textFrom
  rw [attached_receive, program_receive]
  unfold receive
  cases c.attached <;> cases c.admits m.severity <;> simp

/-! ### Sending -/

namespace Session

/-- **Messages keep their lines.** A message that is sent to an open file adds to it the lines of
what has been kept of its text, each behind the same time and severity, and adds nothing to other
files. These lines make up the text, and none has a line feed inside. A console that lets the
message through receives the same text and shows it as one piece. A streamed text without a NUL is
kept as a whole. -/
theorem message_keeps_its_lines (s : Session) (clock : Clock) {l : Log} (used : s.log = some l)
    (form : MessageForm) (severity : Severity) (text : Text) :
    let kept := form.kept text
    let rows := kept.lines
    let front := clock.now.text ++ .ascii " " ++ severity.name ++ .ascii "\t"
    let after := s.send clock (form.message severity text)
    let console := l.console.receive ⟨severity, kept⟩
    (form = .streamed → 0 ∉ text → kept = text) ∧
    ((rows.flatMap fun row => row ++ [Text.newline]) = kept.terminated ∧
      ∀ row ∈ rows, Text.newline ∉ row) ∧
    (∀ f, l.current = some f → severity.passes l.fileThreshold = true →
      let added : Text := rows.flatMap fun row => front ++ row ++ [Text.newline]
      after.directory.content? f.file = some ((s.directory.content? f.file).getD [] ++ added) ∧
      added.lines = rows.map (front ++ ·) ∧
      ∀ other ≠ f.file, after.directory.content? other = s.directory.content? other) ∧
    after.log = some { l with console := console } ∧
    console.text = l.console.text ++
      if l.console.attached && l.console.admits severity then
        severity.opening l.console.program ++ kept ++ severity.closing
      else [] := by
  intro kept rows front after console
  have sent : after =
      { directory := l.record clock ⟨severity, kept⟩ s.directory
        log := some { l with console := l.console.receive ⟨severity, kept⟩ } } := by
    show s.send clock (form.message severity text) = _
    rw [form.message_eq, send, used]
  refine ⟨?_, ⟨kept.flatMap_lines, fun row => Text.newline_notMem_of_mem_lines⟩, ?_, ?_, ?_⟩
  · rintro rfl clean
    exact MessageForm.kept_streamed clean
  · intro f isOpen passes added
    have written : after.directory = s.directory.append f.file added := by
      rw [sent]
      show l.record clock ⟨severity, kept⟩ s.directory = _
      rw [Log.record, isOpen]
      exact if_pos passes
    rw [written]
    refine ⟨s.directory.content?_append_self f.file added, ?_, fun other differs => ?_⟩
    · exact Message.lines_entry clock.now ⟨severity, kept⟩
    · exact s.directory.content?_append_of_ne added differs
  · rw [sent]
  · rw [Console.text_receive, Message.shown_eq]

/-- A formatted text whose last byte that is kept is a line feed, and a file that is open. -/
theorem message_keeps_its_lines_cut :
    let clock : Clock := ⟨⟨0, 0⟩, ⟨2026, 10, 19⟩⟩
    let file : Text := .ascii "z85.log"
    let l : Log := ⟨.start (.ascii "Z85") true .warning, some ⟨file, file⟩, .debug⟩
    let s : Session := ⟨.empty, some l⟩
    let long : Text := List.replicate 1022 65
    let text := long ++ Text.newline :: Text.ascii "lost"
    let after := s.send clock (.formatted .warning text)
    s.log = some l ∧
      after.directory.content? file =
        some (clock.now.text ++ .ascii " " ++ .ascii "WARN" ++ .ascii "\t" ++ long
          ++ [Text.newline]) ∧
      (after.log.map fun l => l.console.text) =
        some (.ascii "Z85: " ++ (long ++ [Text.newline]) ++ [Text.newline]) := by
  intro clock file l s long text after
  have used : s.log = some l := rfl
  have kept : MessageForm.formatted.kept text = long ++ [Text.newline] := by
    have length : long.length = 1022 := List.length_replicate
    show (long ++ Text.newline :: Text.ascii "lost").take (1022 + 1) = _
    rw [← length, List.take_length_add_append]
    rfl
  have single : Text.newline ∉ long := fun mem => by cases List.eq_of_mem_replicate mem
  have rows : Text.lines (long ++ [Text.newline]) = [long] := Text.lines_append_newline single []
  obtain ⟨-, -, written, log, shown⟩ :=
    s.message_keeps_its_lines clock used .formatted .warning text
  obtain ⟨content, -⟩ := written ⟨file, file⟩ rfl rfl
  rw [kept] at content log shown
  rw [rows, List.flatMap_singleton] at content
  refine ⟨used, content, ?_⟩
  show (s.send clock (MessageForm.formatted.message .warning text)).log.map _ = _
  rw [log]
  exact congrArg some shown

end Session

end Micro80
