/-!
# Text as bytes

Consoles, log files and dumps receive bytes, and a message may be cut between two bytes of one
character. `Text` is therefore a list of bytes, and every rule of this library about lengths,
padding and cutting counts bytes.

## Main definitions

* `Text.ascii`: the bytes of a literal.
* `Text.numeral`, `Text.hex`, `Text.decimal`: numerals with a least width.
* `Text.clip`: the part of a formatted text that is kept.
* `Text.untilNul`: the part of a text that is handed over without its length.
* `Text.lines`: the lines of a text.
-/

namespace Micro80

/-- **Text.** A sequence of bytes, as a console or a file receives them. -/
abbrev Text := List UInt8

namespace Text

/-- The bytes of a literal made of ASCII characters, one byte per character. -/
def ascii (s : String) : Text :=
  s.toList.map fun c => UInt8.ofNat c.toNat

/-- The line feed that ends a line. -/
def newline : UInt8 := 10

/-- The blank. -/
def blank : UInt8 := 32

/-! ### Numerals -/

/-- The digit for a value below sixteen, letters in upper case. -/
def digit (n : Nat) : UInt8 :=
  UInt8.ofNat (if n < 10 then 48 + n else 55 + n)

/-- **Numerals.** `n` in the given radix, most significant digit first, with zeros in front up to
the given width. A wider number is written in full. -/
def numeral (radix width n : Nat) : Text :=
  if n < radix ∨ radix < 2 then List.replicate (width - 1) (digit 0) ++ [digit n]
  else numeral radix (width - 1) (n / radix) ++ [digit (n % radix)]
termination_by n
decreasing_by exact Nat.div_lt_self (by omega) (by omega)

/-- A hexadecimal numeral of at least `width` digits. -/
def hex (width n : Nat) : Text := numeral 16 width n

/-- A hexadecimal numeral of at least `width` digits, marked as one. -/
def marked (width n : Nat) : Text := ascii "0x" ++ hex width n

/-- A decimal numeral of at least `width` characters; the sign of a negative number is one of
them. -/
def decimal (width : Nat) (n : Int) : Text :=
  if n < 0 then ascii "-" ++ numeral 10 (width - 1) n.natAbs else numeral 10 width n.natAbs

/-! ### Widths and lengths -/

/-- The longest text that formatting produces, in bytes. -/
def limit : Nat := 1023

/-- **Formatted text.** Whatever is formatted keeps its first `limit` bytes. -/
def clip (t : Text) : Text := t.take limit

/-- What stands in front of the first NUL. A text that is handed over without its length ends
there. -/
def untilNul (t : Text) : Text := t.takeWhile fun c => c != 0

/-- Blanks after a text up to the given width; a longer text is left as it is. -/
def padRight (width : Nat) (t : Text) : Text :=
  t ++ List.replicate (width - t.length) blank

theorem length_clip_le (t : Text) : (clip t).length ≤ limit :=
  List.length_take_le limit t

theorem clip_of_length_le {t : Text} (h : t.length ≤ limit) : clip t = t :=
  List.take_of_length_le h

/-! ### Letter case -/

/-- The lower case form of an ASCII letter; every other byte stays. -/
def lower (c : UInt8) : UInt8 :=
  if 65 ≤ c ∧ c ≤ 90 then c + 32 else c

/-- Whether two texts agree up to the case of ASCII letters. -/
def sameIgnoringCase (s t : Text) : Bool := s.map lower == t.map lower

/-- Whether a byte is an ASCII letter. -/
def isLetter (c : UInt8) : Bool := (65 ≤ c && c ≤ 90) || (97 ≤ c && c ≤ 122)

/-! ### Lines -/

/-- **Lines.** What stands before each line feed, and what follows the last one if anything
does. An empty text has no line. -/
def lines : Text → List Text
  | [] => []
  | c :: rest =>
    if c = newline then [] :: lines rest
    else match lines rest with
      | [] => [[c]]
      | line :: others => (c :: line) :: others

/-- No line contains a line feed. -/
theorem newline_notMem_of_mem_lines {t line : Text} (h : line ∈ lines t) : newline ∉ line := by
  induction t generalizing line with
  | nil => simp [lines] at h
  | cons c rest ih =>
    rw [lines] at h
    split at h
    · rcases List.mem_cons.1 h with rfl | h
      · simp
      · exact ih h
    · rename_i hc
      split at h
      · simp only [List.mem_singleton] at h
        subst h
        simpa using fun e => hc e.symm
      · rename_i first others hl
        rcases List.mem_cons.1 h with rfl | h
        · rw [List.mem_cons, not_or]
          exact ⟨fun e => hc e.symm, ih (by rw [hl]; exact List.mem_cons_self)⟩
        · exact ih (by rw [hl]; exact List.mem_cons_of_mem _ h)

end Text

end Micro80
