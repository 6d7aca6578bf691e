import Micro80.Word

/-!
# Registers

Eight byte registers come in a main and a shadow set. Register pairs are views of two of them,
with the first register in the high byte; the stack pointer, the program counter and the two index
registers are words of their own.

## Main definitions

* `Reg8`, `Pair`, `Reg16`: names of registers.
* `RegisterSet`: the eight byte registers.
* `Registers`: everything a program can name, with reads, writes and exchanges.
-/

namespace Micro80

/-! ### Names -/

/-- **Byte registers.** The accumulator is `a` and the flags are `f`. -/
inductive Reg8 where
  | b | c | d | e | h | l | f | a
  deriving DecidableEq

/-- **Register pairs.** -/
inductive Pair where
  | bc | de | hl | af
  deriving DecidableEq

/-- **Word registers.** A pair, or one of the registers that are words by themselves. -/
inductive Reg16 where
  | pair (p : Pair)
  | sp | ix | iy | pc
  deriving DecidableEq

/-- The byte register in the high byte of a pair. -/
def Pair.high : Pair → Reg8
  | bc => .b
  | de => .d
  | hl => .h
  | af => .a

/-- The byte register in the low byte of a pair. -/
def Pair.low : Pair → Reg8
  | bc => .c
  | de => .e
  | hl => .l
  | af => .f

/-! ### One set of byte registers -/

/-- **Register sets.** The contents of the eight byte registers. -/
structure RegisterSet where
  b : UInt8
  c : UInt8
  d : UInt8
  e : UInt8
  h : UInt8
  l : UInt8
  f : UInt8
  a : UInt8
  deriving DecidableEq

namespace RegisterSet

/-- Zero everywhere but in the flags. -/
def reset (flags : UInt8) : RegisterSet := ⟨0, 0, 0, 0, 0, 0, flags, 0⟩

/-- The contents of a byte register. -/
def get (s : RegisterSet) : Reg8 → UInt8
  | .b => s.b
  | .c => s.c
  | .d => s.d
  | .e => s.e
  | .h => s.h
  | .l => s.l
  | .f => s.f
  | .a => s.a

/-- The set after one byte register has been loaded. -/
def set (s : RegisterSet) (r : Reg8) (v : UInt8) : RegisterSet :=
  match r with
  | .b => { s with b := v }
  | .c => { s with c := v }
  | .d => { s with d := v }
  | .e => { s with e := v }
  | .h => { s with h := v }
  | .l => { s with l := v }
  | .f => { s with f := v }
  | .a => { s with a := v }

/-- A load is seen in its own register and nowhere else. -/
@[simp] theorem get_set (s : RegisterSet) (r r' : Reg8) (v : UInt8) :
    (s.set r v).get r' = if r' = r then v else s.get r' := by
  cases r <;> cases r' <;> rfl

/-- Register sets are determined by what their registers hold. -/
theorem ext_get {s t : RegisterSet} (h : ∀ r, s.get r = t.get r) : s = t := by
  obtain ⟨_, _, _, _, _, _, _, _⟩ := s
  obtain ⟨_, _, _, _, _, _, _, _⟩ := t
  have hb := h .b
  have hc := h .c
  have hd := h .d
  have he := h .e
  have hh := h .h
  have hl := h .l
  have hf := h .f
  have ha := h .a
  simp only [get] at hb hc hd he hh hl hf ha
  simp [*]

/-- The contents of a pair. -/
def pair (s : RegisterSet) (p : Pair) : UInt16 := word (s.get p.high) (s.get p.low)

/-- The set after a pair has been loaded. -/
def setPair (s : RegisterSet) (p : Pair) (w : UInt16) : RegisterSet :=
  (s.set p.high (highByte w)).set p.low (lowByte w)

/-- A load of a pair is seen in that pair and in no other. -/
@[simp] theorem pair_setPair (s : RegisterSet) (p q : Pair) (w : UInt16) :
    (s.setPair p w).pair q = if q = p then w else s.pair q := by
  cases p <;> cases q <;> simp [pair, setPair, Pair.high, Pair.low]

end RegisterSet

/-! ### The register file -/

/-- **The register file.** The main and the shadow set, and the words. -/
structure Registers where
  /-- The byte registers that instructions work on. -/
  main : RegisterSet
  /-- The set that exchanges bring in. -/
  shadow : RegisterSet
  /-- The stack pointer. -/
  sp : UInt16
  /-- The program counter. -/
  pc : UInt16
  /-- The first index register. -/
  ix : UInt16
  /-- The second index register. -/
  iy : UInt16
  deriving DecidableEq

namespace Registers

/-- **Reset.** All registers are zero but the flags of both sets. -/
def reset (flags : UInt8) : Registers :=
  ⟨.reset flags, .reset flags, 0, 0, 0, 0⟩

/-- The contents of a byte register of the main set. -/
def get8 (s : Registers) (r : Reg8) : UInt8 := s.main.get r

/-- The register file after a byte register of the main set has been loaded. -/
def set8 (s : Registers) (r : Reg8) (v : UInt8) : Registers :=
  { s with main := s.main.set r v }

/-- The register file after a byte register of the shadow set has been loaded. -/
def setShadow8 (s : Registers) (r : Reg8) (v : UInt8) : Registers :=
  { s with shadow := s.shadow.set r v }

/-- The contents of a word register. -/
def get16 (s : Registers) : Reg16 → UInt16
  | .pair p => s.main.pair p
  | .sp => s.sp
  | .ix => s.ix
  | .iy => s.iy
  | .pc => s.pc

/-- The register file after a word register has been loaded. -/
def set16 (s : Registers) (r : Reg16) (w : UInt16) : Registers :=
  match r with
  | .pair p => { s with main := s.main.setPair p w }
  | .sp => { s with sp := w }
  | .ix => { s with ix := w }
  | .iy => { s with iy := w }
  | .pc => { s with pc := w }

/-- The register file after a pair of the shadow set has been loaded. -/
def setShadowPair (s : Registers) (p : Pair) (w : UInt16) : Registers :=
  { s with shadow := s.shadow.setPair p w }

/-- The register file after a word register has been increased by one. -/
def inc16 (s : Registers) (r : Reg16) : Registers := s.set16 r (s.get16 r + 1)

/-- The register file after a word register has been decreased by one. -/
def dec16 (s : Registers) (r : Reg16) : Registers := s.set16 r (s.get16 r - 1)

/-- The accumulator. -/
def accumulator (s : Registers) : UInt8 := s.main.a

/-- The flags. -/
def flags (s : Registers) : UInt8 := s.main.f

/-- A load of a word register is seen in that register and in no other. -/
@[simp] theorem get16_set16 (s : Registers) (r r' : Reg16) (w : UInt16) :
    (s.set16 r w).get16 r' = if r' = r then w else s.get16 r' := by
  cases r <;> cases r' <;> simp [get16, set16]

/-! ### Exchanges -/

/-- Exchanges the main and the shadow set. -/
def exchangeSets (s : Registers) : Registers :=
  { s with main := s.shadow, shadow := s.main }

/-- Exchanges the accumulator and the flags with their shadows. -/
def exchangeAF (s : Registers) : Registers :=
  { s with
    main := { s.main with a := s.shadow.a, f := s.shadow.f }
    shadow := { s.shadow with a := s.main.a, f := s.main.f } }

/-- Exchanges the byte registers other than the accumulator and the flags with their shadows. -/
def exchangeGeneral (s : Registers) : Registers :=
  { s with
    main := { s.shadow with a := s.main.a, f := s.main.f }
    shadow := { s.main with a := s.shadow.a, f := s.shadow.f } }

/-- Exchanges the pairs DE and HL of the main set. -/
def exchangeDEHL (s : Registers) : Registers :=
  { s with main := { s.main with d := s.main.h, e := s.main.l, h := s.main.d, l := s.main.e } }

/-- Exchanging both parts of the sets exchanges the sets. -/
theorem exchangeGeneral_exchangeAF (s : Registers) :
    s.exchangeAF.exchangeGeneral = s.exchangeSets := rfl

end Registers

end Micro80
