import Micro80.Memory.Cells
import Micro80.Word

/-!
# Memory

A memory has 64K bytes and wraps around: the address after `FFFF` is `0000`. Beside its byte every
address carries a byte of marks. One of the eight marks is the breakpoint; the others are free for
whoever uses the memory. Bytes and marks never influence each other.

## Main definitions

* `Memory`, with `Memory.read` and `Memory.write` for bytes, `Memory.readWord` and
  `Memory.writeWord` for words, low byte first.
* `Memory.alterMarks`: marks switched on and off in a range that may wrap around.
* `Memory.isBreak`, `Memory.findBreak`: breakpoints.
-/

namespace Micro80

/-- **Memory.** A byte and a byte of marks for every address. -/
structure Memory where
  /-- The bytes that programs see. -/
  data : Cells
  /-- The marks that programs do not see. -/
  marks : Cells

namespace Memory

/-- A memory of zeros without marks. -/
def blank : Memory := ⟨Cells.fill 0, Cells.fill 0⟩

/-! ### Bytes and words -/

/-- The byte at an address. -/
def read (m : Memory) (a : UInt16) : UInt8 := m.data.get a

/-- The byte at a distance from an address, wrapping around at the top of memory. -/
def ahead (m : Memory) (a : UInt16) (i : Nat) : UInt8 := m.read (a + UInt16.ofNat i)

/-- The memory after a byte has been stored. -/
def write (m : Memory) (a : UInt16) (b : UInt8) : Memory :=
  { m with data := m.data.set a b }

/-- The word whose low byte is at the address and whose high byte is at the next one. -/
def readWord (m : Memory) (a : UInt16) : UInt16 := word (m.read (a + 1)) (m.read a)

/-- The memory after a word has been stored, low byte first. -/
def writeWord (m : Memory) (a : UInt16) (w : UInt16) : Memory :=
  (m.write a (lowByte w)).write (a + 1) (highByte w)

/-- The memory with the same byte everywhere and its marks as they were. -/
def fill (m : Memory) (b : UInt8) : Memory :=
  { m with data := Cells.fill b }

@[simp] theorem read_write (m : Memory) (a a' : UInt16) (b : UInt8) :
    (m.write a b).read a' = if a' = a then b else m.read a' :=
  m.data.get_set a a' b

@[simp] theorem marks_write (m : Memory) (a : UInt16) (b : UInt8) :
    (m.write a b).marks = m.marks := rfl

@[simp] theorem marks_writeWord (m : Memory) (a w : UInt16) :
    (m.writeWord a w).marks = m.marks := rfl

@[simp] theorem read_fill (m : Memory) (b : UInt8) (a : UInt16) : (m.fill b).read a = b :=
  Cells.get_fill b a

@[simp] theorem marks_fill (m : Memory) (b : UInt8) : (m.fill b).marks = m.marks := rfl

/-- Memories agree when their bytes and their marks do. -/
theorem ext_read {m n : Memory} (bytes : ∀ a, m.read a = n.read a) (marks : m.marks = n.marks) :
    m = n := by
  obtain ⟨md, mm⟩ := m
  obtain ⟨nd, nm⟩ := n
  have : md = nd := Cells.ext bytes
  subst this
  exact congrArg _ marks

/-! ### Marks -/

/-- The marks at an address. -/
def marksAt (m : Memory) (a : UInt16) : UInt8 := m.marks.get a

/-- The memory after the marks at an address have been replaced. -/
def setMarks (m : Memory) (a : UInt16) (f : UInt8) : Memory :=
  { m with marks := m.marks.set a f }

/-- The number of steps to an address, one address further up. -/
theorem toNat_sub_succ {a b : UInt16} (ne : b ≠ a) : (b - a).toNat = (b - (a + 1)).toNat + 1 := by
  have apart : b.toNat ≠ a.toNat := fun h => ne (UInt16.toNat_inj.1 h)
  have := a.toNat_lt
  have := b.toNat_lt
  have next : (a + 1).toNat = (a.toNat + 1) % 65536 := UInt16.toNat_add a 1
  rw [UInt16.toNat_sub, UInt16.toNat_sub, next]
  omega

/-- **Marking a range.** In every address from `first` to `last` the marks in `off` are switched
off and then those in `on` are switched on. The first address is marked before the range is found
to end there, so a range whose last address is below its first one wraps around. -/
def alterMarks (m : Memory) (first last : UInt16) (on off : UInt8) : Memory :=
  let marked := m.setMarks first ((m.marksAt first &&& ~~~off) ||| on)
  if first = last then marked else marked.alterMarks (first + 1) last on off
termination_by (last - first).toNat
decreasing_by
  rename_i ne
  rw [toNat_sub_succ (Ne.symm ne)]
  exact Nat.lt_succ_self _

/-! ### Breakpoints -/

/-- The mark of a breakpoint. -/
def breakMark : UInt8 := 0x80

/-- Whether there is a breakpoint at an address. -/
def isBreak (m : Memory) (a : UInt16) : Bool := m.marksAt a &&& breakMark != 0

/-- Sets or removes the breakpoints of a range. -/
def setBreaks (m : Memory) (first last : UInt16) (on : Bool) : Memory :=
  if on then m.alterMarks first last breakMark 0 else m.alterMarks first last 0 breakMark

/-- Sets or removes one breakpoint. -/
def setBreak (m : Memory) (a : UInt16) (on : Bool) : Memory := m.setBreaks a a on

/-- Removes every breakpoint. -/
def clearBreaks (m : Memory) : Memory := m.setBreaks 0 0xFFFF false

/-- The first breakpoint among `count` addresses starting with `a`. -/
def findBreakFrom (m : Memory) (a : UInt16) : (count : Nat) → Option UInt16
  | 0 => none
  | count + 1 => if m.isBreak a then some a else findBreakFrom m (a + 1) count

/-- **Finding a breakpoint.** The least address with a breakpoint that is not below `a`; the search
ends at the top of memory. -/
def findBreak (m : Memory) (a : UInt16) : Option UInt16 :=
  m.findBreakFrom a (65536 - a.toNat)

end Memory

end Micro80
