import Micro80.Text

/-!
# The two processors

One machine plays two processors of the 80 family. The variant is chosen when a machine is built
and never changes; it selects the instruction table, the flag layout and the names of things.

## Main definitions

* `Variant`, with `Variant.ofCode?` and `Variant.other`.
-/

namespace Micro80

/-- **Variants.** The processor that a machine plays. -/
inductive Variant where
  /-- The 8085 instruction set, without RIM and SIM. -/
  | i8085
  /-- The documented Z80 instruction set. -/
  | z80
  deriving DecidableEq

namespace Variant

/-- The number that stands for a variant. -/
def code : Variant → Nat
  | i8085 => 1
  | z80 => 2

/-- The variant with a given number. -/
def ofCode? : Nat → Option Variant
  | 1 => some i8085
  | 2 => some z80
  | _ => none

/-- The processor that is not this one. -/
def other : Variant → Variant
  | i8085 => z80
  | z80 => i8085

/-- The short name. -/
def name : Variant → Text
  | i8085 => .ascii "8085"
  | z80 => .ascii "Z80"

/-- The description shown to a user. -/
def description : Variant → Text
  | i8085 => .ascii "8085 microprocessor"
  | z80 => .ascii "Z80 microprocessor"

@[simp] theorem ofCode?_code (v : Variant) : ofCode? v.code = some v := by
  cases v <;> rfl

end Variant

end Micro80
