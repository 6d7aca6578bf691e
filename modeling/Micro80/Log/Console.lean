import Micro80.Log.Message

/-!
# Consoles

A console shows the messages that its threshold lets through, each as one piece of text whose form
tells the severity: output of commands as it is, traces after two hyphens, messages for finding
errors in brackets, and everything else after the name of the program.

## Main definitions

* `Console`, with `Console.receive`.
* `Console.text`: what a console shows.
-/

namespace Micro80

/-- **Consoles.** -/
structure Console where
  /-- The name of the program. -/
  program : Text
  /-- Whether there is something to show messages on. -/
  attached : Bool
  /-- The threshold. -/
  threshold : Severity
  /-- The messages that were let through. -/
  received : Array Message

/-- A message as a console shows it. -/
def Message.shown (program : Text) (m : Message) : Text :=
  match m.severity.rank with
  | 5 => m.text ++ [Text.newline]
  | 1 => .ascii "-- " ++ m.text ++ [Text.newline]
  | 2 => .ascii "[" ++ m.text ++ .ascii "]" ++ [Text.newline]
  | _ => program ++ .ascii ": " ++ m.text ++ [Text.newline]

namespace Console

/-- A console that has received nothing. -/
def start (program : Text) (attached : Bool) (threshold : Severity) : Console :=
  ⟨program, attached, threshold, #[]⟩

/-- Whether messages of a severity are let through. -/
def admits (c : Console) (s : Severity) : Bool := s.passes c.threshold

/-- The console after a message. -/
def receive (c : Console) (m : Message) : Console :=
  if c.admits m.severity then { c with received := c.received.push m } else c

/-- What a console shows of the messages after the first `seen`. -/
def textFrom (c : Console) (seen : Nat) : Text :=
  if c.attached then (c.received.toList.drop seen).flatMap (Message.shown c.program) else []

/-- **The text of a console.** -/
def text (c : Console) : Text := c.textFrom 0

/-- A console keeps its threshold, its program and what it shows messages on. -/
@[simp] theorem threshold_receive (c : Console) (m : Message) :
    (c.receive m).threshold = c.threshold := by
  unfold receive
  split <;> rfl

@[simp] theorem program_receive (c : Console) (m : Message) :
    (c.receive m).program = c.program := by
  unfold receive
  split <;> rfl

@[simp] theorem attached_receive (c : Console) (m : Message) :
    (c.receive m).attached = c.attached := by
  unfold receive
  split <;> rfl

/-- Nothing about a console changes but what it has received. -/
theorem foldl_receive_eq (c : Console) (messages : List Message) :
    messages.foldl receive c = { c with received := (messages.foldl receive c).received } := by
  induction messages generalizing c with
  | nil => rfl
  | cons m rest ih =>
    rw [List.foldl_cons]
    exact (ih (c.receive m)).trans
      (by simp only [program_receive, attached_receive, threshold_receive])

/-- The messages of a console are those of a history that its threshold lets through. -/
theorem received_foldl_receive (c : Console) (history : List Message) :
    (history.foldl receive c).received.toList
      = c.received.toList ++ history.filter fun m => c.admits m.severity := by
  induction history generalizing c with
  | nil => simp
  | cons m rest ih =>
    rw [List.foldl_cons, ih, List.filter_cons]
    have same : (c.receive m).admits = c.admits := by
      funext s
      rw [admits, threshold_receive, admits]
    rw [same]
    by_cases h : c.admits m.severity
    · simp [receive, h]
    · simp [receive, h]

end Console

end Micro80
