import Micro80.Text

/-!
# Hexadecimal dumps

A dump shows bytes sixteen to a line: the address of the first byte, the bytes in hexadecimal
padded to sixteen columns, and the same bytes as characters.

## Main definitions

* `Text.dumpLine`: one line.
* `Text.dump`: a whole dump with an optional title.
-/

namespace Micro80

namespace Text

/-- The bytes that one line of a dump holds. -/
def dumpWidth : Nat := 16

/-- A byte as it is shown: printable ASCII as itself, anything else as a full stop. -/
def shown (b : UInt8) : UInt8 := if 32 ≤ b ∧ b ≤ 126 then b else 46

/-- One line of a dump. Addresses have 32 bits and at least four digits. -/
def dumpLine (address : Nat) (bytes : List UInt8) : Text :=
  hex 4 (address % 0x100000000) ++ ascii "/"
    ++ padRight (3 * dumpWidth) (bytes.flatMap fun b => blank :: hex 2 b.toNat)
    ++ ascii "  " ++ bytes.map shown ++ [newline]

/-- The lines of a dump, each starting sixteen bytes after the one before. -/
def dumpLines (address : Nat) (bytes : List UInt8) : List Text :=
  if bytes.isEmpty then []
  else
    dumpLine address (bytes.take dumpWidth)
      :: dumpLines (address + dumpWidth) (bytes.drop dumpWidth)
termination_by bytes.length
decreasing_by
  rename_i h
  have : 0 < bytes.length := List.length_pos_iff.2 (by simpa using h)
  simp only [List.length_drop, dumpWidth]
  omega

/-- **Dumps.** The title on a line of its own, if there is one, and then the lines. -/
def dump (title : Option Text) (address : Nat) (bytes : List UInt8) : Text :=
  (match title with
    | some t => t ++ [newline]
    | none => [])
    ++ (dumpLines address bytes).flatten

end Text

end Micro80
