import Micro80.Machine

/-!
# The panel of a machine

A user names registers and sees their values; a program refers to them by numbers. Both processors
show the same registers under the same numbers, but the 8085 does not show those that only the Z80
has. Reading or loading a register by a number that stands for none does no harm.

## Main definitions

* `Slot`: what a number stands for.
* `Panel`: names and sizes.
* `Machine.getRegister`, `Machine.setRegister`.
-/

namespace Micro80

/-! ### Slots -/

/-- **Slots.** What the panel shows. -/
inductive Slot where
  /-- A byte register. -/
  | byte (r : Reg8)
  /-- A word register. -/
  | word (r : Reg16)
  /-- A pair of the shadow set. -/
  | shadow (p : Pair)
  deriving DecidableEq

namespace Slot

/-- The slots in the order of their numbers. -/
def all : List Slot :=
  [ .byte .a, .byte .f, .byte .b, .byte .c, .byte .d, .byte .e, .byte .h, .byte .l,
    .word (.pair .af), .word (.pair .bc), .word (.pair .de), .word (.pair .hl),
    .word .sp, .word .pc, .word .ix, .word .iy,
    .shadow .af, .shadow .bc, .shadow .de, .shadow .hl ]

/-- The slot with a given number. -/
def ofNumber? (n : Nat) : Option Slot := all[n]?

/-- Whether only the Z80 shows a slot. -/
def onlyZ80 : Slot → Bool
  | .word .ix | .word .iy | .shadow _ => true
  | _ => false

/-- The name of a slot, if the processor shows it. -/
def name? (v : Variant) (s : Slot) : Option Text :=
  match v, s with
  | _, .byte r => some r.name
  | .i8085, .word (.pair .af) => some (.ascii "PSW")
  | .i8085, .word .ix | .i8085, .word .iy | .i8085, .shadow _ => none
  | .i8085, .word r => some (r.name .z80)
  | .z80, .word r => some (r.name .z80)
  | .z80, .shadow p => some (p.name .z80 ++ .ascii "'")

/-- The number of bits of a slot, zero if the processor does not show it. -/
def size (v : Variant) (s : Slot) : Nat :=
  match v, s with
  | _, .byte _ => 8
  | .i8085, s => if s.onlyZ80 then 0 else 16
  | .z80, _ => 16

/-- The contents of a slot. -/
def get (s : Slot) (r : Registers) : UInt16 :=
  match s with
  | .byte x => (r.get8 x).toUInt16
  | .word x => r.get16 x
  | .shadow p => r.shadow.pair p

/-- The registers after a slot has been loaded. A byte register takes the low byte, and flags are
fixed to the bits that the processor has. -/
def set (L : FlagLayout) (s : Slot) (w : UInt16) (r : Registers) : Registers :=
  match s with
  | .byte .f => r.set8 .f (L.fix (lowByte w))
  | .byte x => r.set8 x (lowByte w)
  | .word (.pair .af) => r.set16 (.pair .af) (Micro80.word (highByte w) (L.fix (lowByte w)))
  | .word x => r.set16 x w
  | .shadow .af => r.setShadowPair .af (Micro80.word (highByte w) (L.fix (lowByte w)))
  | .shadow p => r.setShadowPair p w

end Slot

/-! ### Panels -/

/-- **Panels.** How a processor presents itself to a user. -/
structure Panel where
  /-- The short name. -/
  name : Text
  /-- The description. -/
  description : Text
  /-- The names of registers and their numbers. -/
  registers : List (Text × Nat)
  /-- The number of bits of the register with a given number. -/
  size : Nat → Nat

namespace Panel

/-- The panel of a processor that says nothing about itself. -/
def bare : Panel where
  name := .ascii "none"
  description := .ascii "unknown"
  registers := []
  size _ := 8

/-- The number of the register with a given name. Letter case does not matter. -/
def find? (p : Panel) (name : Text) : Option Nat :=
  (p.registers.find? fun r => Text.sameIgnoringCase r.1 name).map Prod.snd

end Panel

/-- The panel of a processor. -/
def Variant.panel (v : Variant) : Panel where
  name := v.name
  description := v.description
  registers := Slot.all.zipIdx.filterMap fun s => (s.1.name? v).map fun name => (name, s.2)
  size n := ((Slot.ofNumber? n).map (Slot.size v)).getD 0

namespace Machine

variable {ι σ : Type}

/-- The contents of the register with a given number, zero if there is none. -/
def getRegister (m : Machine ι σ) (n : Nat) : UInt16 :=
  ((Slot.ofNumber? n).map fun s => s.get m.core.registers).getD 0

/-- **Loading a register** by its number. -/
def setRegister (m : Machine ι σ) (n : Nat) (w : UInt16) : Machine ι σ :=
  match Slot.ofNumber? n with
  | none => m
  | some s =>
    m.alterCore fun c => { c with registers := s.set m.variant.layout w c.registers }

end Machine

end Micro80
