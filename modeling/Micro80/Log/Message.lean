import Micro80.Text

/-!
# Messages

A message is a text with a severity. Severities are ordered by rank; a threshold is a severity,
and lets everything through that ranks at least as high.

## Main definitions

* `Severity`, with `Severity.name`.
* `Message`, with `Message.formatted` for texts that come from formatting and `Message.streamed` for
  texts that are put together piece by piece.
-/

namespace Micro80

/-- **Severities.** Ranks other than those of the named severities are allowed, since a threshold
may stand above or below all of them. -/
structure Severity where
  /-- The place in the order. -/
  rank : Nat
  deriving DecidableEq

namespace Severity

/-- Each executed instruction. -/
def trace : Severity := ⟨1⟩

/-- What helps to find errors. -/
def debug : Severity := ⟨2⟩

/-- What may be an error. -/
def warning : Severity := ⟨3⟩

/-- What is an error. -/
def error : Severity := ⟨4⟩

/-- Output of a command. -/
def output : Severity := ⟨5⟩

/-- Errors of a command. -/
def commandError : Severity := ⟨6⟩

/-- What ends everything. -/
def abort : Severity := ⟨7⟩

/-- The threshold that lets no named severity through. -/
def silent : Severity := ⟨8⟩

/-- The name of a severity in a log file. -/
def name (s : Severity) : Text :=
  match s.rank with
  | 1 => .ascii "TRACE"
  | 2 => .ascii "DEBUG"
  | 3 => .ascii "WARN"
  | 4 => .ascii "ERROR"
  | 5 => .ascii "CMDOUT"
  | 6 => .ascii "CMDERR"
  | 7 => .ascii "ABORT"
  | _ => .ascii "UNKNOWN"

/-- Whether a threshold lets a severity through. -/
def passes (s threshold : Severity) : Bool := threshold.rank ≤ s.rank

/-- A lower threshold lets through what a higher one does. -/
theorem passes_mono {s t u : Severity} (h : t.rank ≤ u.rank) (p : s.passes u) : s.passes t := by
  simp only [passes, decide_eq_true_eq] at p ⊢
  exact Nat.le_trans h p

end Severity

/-- **Messages.** -/
structure Message where
  /-- How serious it is. -/
  severity : Severity
  /-- What it says. -/
  text : Text
  deriving DecidableEq

/-- A message whose text has been formatted, and is cut as formatted texts are. -/
def Message.formatted (severity : Severity) (text : Text) : Message := ⟨severity, text.clip⟩

/-- A message whose text has been put together piece by piece, and is handed over without its
length. -/
def Message.streamed (severity : Severity) (text : Text) : Message := ⟨severity, text.untilNul⟩

end Micro80
