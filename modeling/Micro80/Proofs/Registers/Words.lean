import Mathlib.Logic.Function.Basic
import Micro80.Registers

/-!
# The register file as words

The register file holds twelve words that have nothing to do with each other: four pairs, their
shadows, the two pointers and the two index registers. Everything else is a view. A byte register is
one half of a word, and loading it leaves the other half as it is. An exchange gives words each
other's contents, which is to say that it changes what the words are called.

So the words alone tell what every read gives after any operations. Nothing of the way in which the
registers are kept has to be known for this: not that the pairs are kept as bytes, and not that the
shadows are a set of their own.

## Main definitions

* `RegisterWord`, `Half`: the names of the words and of their halves.
* `RegisterWords`: what the words hold, with `Registers.words`.
* `RegisterAction`: operations on the register file, with `Registers.perform` and
  `RegisterWords.perform`.
* `Registers.Reads`: every read gives what certain words hold.

## Main statements

* `Registers.words_perform`, `Registers.words_performAll`: operations do to the registers what they
  do to the words.
* `Registers.reads_words`: every read gives what the words hold.
-/

namespace Micro80

/-! ### Names -/

/-- **Words** of the register file. -/
inductive RegisterWord where
  | main (p : Pair)
  | shadow (p : Pair)
  | sp | pc | ix | iy
  deriving DecidableEq

/-- **Halves** of a word. -/
inductive Half where
  | high | low
  deriving DecidableEq

namespace Half

/-- What a half of a word holds. -/
def get : Half → UInt16 → UInt8
  | high, w => highByte w
  | low, w => lowByte w

/-- The word with one half replaced. -/
def put : Half → UInt8 → UInt16 → UInt16
  | high, b, w => word b (lowByte w)
  | low, b, w => word (highByte w) b

end Half

/-- The pair of which a byte register is a half, -/
def Reg8.pair : Reg8 → Pair
  | .a | .f => .af
  | .b | .c => .bc
  | .d | .e => .de
  | .h | .l => .hl

/-- and the half that it is. -/
def Reg8.half : Reg8 → Half
  | .a | .b | .d | .h => .high
  | .f | .c | .e | .l => .low

/-- The word that is a word register. -/
def Reg16.registerWord : Reg16 → RegisterWord
  | .pair p => .main p
  | .sp => .sp
  | .pc => .pc
  | .ix => .ix
  | .iy => .iy

namespace RegisterWord

/-- The name of a word after the sets have been exchanged. -/
def swapSets : RegisterWord → RegisterWord
  | main p => shadow p
  | shadow p => main p
  | n => n

/-- The name of a word after the accumulator and the flags have been exchanged with their
shadows. -/
def swapAF : RegisterWord → RegisterWord
  | main .af => shadow .af
  | shadow .af => main .af
  | n => n

/-- The name of a word after the other pairs have been exchanged with their shadows. -/
def swapGeneral : RegisterWord → RegisterWord
  | main .af => main .af
  | shadow .af => shadow .af
  | n => n.swapSets

/-- The name of a word after DE and HL have been exchanged. -/
def swapDEHL : RegisterWord → RegisterWord
  | main .de => main .hl
  | main .hl => main .de
  | n => n

end RegisterWord

/-! ### Operations -/

/-- **Register operations.** The accumulator and the flags are byte registers, the stack pointer and
the program counter are word registers, and all of them are loaded as such. -/
inductive RegisterAction where
  /-- Clears all registers but the flags of both sets. -/
  | reset (flags : UInt8)
  | set8 (r : Reg8) (b : UInt8)
  | setShadow8 (r : Reg8) (b : UInt8)
  | set16 (r : Reg16) (w : UInt16)
  | setShadowPair (p : Pair) (w : UInt16)
  | inc16 (r : Reg16)
  | dec16 (r : Reg16)
  | exchangeSets
  | exchangeAF
  | exchangeGeneral
  | exchangeDEHL

/-- The operations that exchange registers. -/
def RegisterAction.exchanges : List RegisterAction :=
  [.exchangeSets, .exchangeAF, .exchangeGeneral, .exchangeDEHL]

/-- The register file after an operation. -/
def Registers.perform (s : Registers) : RegisterAction → Registers
  | .reset flags => .reset flags
  | .set8 r b => s.set8 r b
  | .setShadow8 r b => s.setShadow8 r b
  | .set16 r w => s.set16 r w
  | .setShadowPair p w => s.setShadowPair p w
  | .inc16 r => s.inc16 r
  | .dec16 r => s.dec16 r
  | .exchangeSets => s.exchangeSets
  | .exchangeAF => s.exchangeAF
  | .exchangeGeneral => s.exchangeGeneral
  | .exchangeDEHL => s.exchangeDEHL

/-- The register file after some operations. -/
def Registers.performAll (s : Registers) (actions : List RegisterAction) : Registers :=
  actions.foldl perform s

/-- **Contents of the words.** -/
abbrev RegisterWords : Type := RegisterWord → UInt16

namespace RegisterWords

/-- Zero everywhere but in the flags. -/
def reset (flags : UInt8) : RegisterWords
  | .main .af | .shadow .af => word 0 flags
  | _ => 0

/-- One word loaded, and no other changed. -/
def load (w : RegisterWords) (n : RegisterWord) (v : UInt16) : RegisterWords :=
  Function.update w n v

/-- One half of a word loaded, and nothing else changed. -/
def loadHalf (w : RegisterWords) (n : RegisterWord) (h : Half) (b : UInt8) : RegisterWords :=
  w.load n (h.put b (w n))

/-- Each word with the content of the one that has its name afterwards. -/
def rename (w : RegisterWords) (swap : RegisterWord → RegisterWord) : RegisterWords :=
  fun n => w (swap n)

/-- **What an operation does to the words.** -/
def perform (w : RegisterWords) : RegisterAction → RegisterWords
  | .reset flags => reset flags
  | .set8 r b => w.loadHalf (.main r.pair) r.half b
  | .setShadow8 r b => w.loadHalf (.shadow r.pair) r.half b
  | .set16 r v => w.load r.registerWord v
  | .setShadowPair p v => w.load (.shadow p) v
  | .inc16 r => w.load r.registerWord (w r.registerWord + 1)
  | .dec16 r => w.load r.registerWord (w r.registerWord - 1)
  | .exchangeSets => w.rename .swapSets
  | .exchangeAF => w.rename .swapAF
  | .exchangeGeneral => w.rename .swapGeneral
  | .exchangeDEHL => w.rename .swapDEHL

/-- What some operations do to the words. -/
def performAll (w : RegisterWords) (actions : List RegisterAction) : RegisterWords :=
  actions.foldl perform w

end RegisterWords

/-! ### The words of a register file -/

namespace Registers

/-- **What the words hold** in a register file. -/
def words (s : Registers) : RegisterWords
  | .main p => s.main.pair p
  | .shadow p => s.shadow.pair p
  | .sp => s.sp
  | .pc => s.pc
  | .ix => s.ix
  | .iy => s.iy

/-- **Reads.** Every read of a register file gives what the given words hold. -/
structure Reads (s : Registers) (w : RegisterWords) : Prop where
  get8 : ∀ r, s.get8 r = r.half.get (w (.main r.pair))
  shadow8 : ∀ r, s.shadow.get r = r.half.get (w (.shadow r.pair))
  get16 : ∀ r, s.get16 r = w r.registerWord
  shadowPair : ∀ p, s.shadow.pair p = w (.shadow p)
  accumulator : s.accumulator = highByte (w (.main .af))
  flags : s.flags = lowByte (w (.main .af))
  pc : s.pc = w .pc
  sp : s.sp = w .sp

end Registers

/-- A byte register is a half of its pair. -/
theorem RegisterSet.get_eq (s : RegisterSet) (r : Reg8) : s.get r = r.half.get (s.pair r.pair) := by
  cases r <;> simp [Reg8.half, Reg8.pair, Half.get, pair, Pair.high, Pair.low]

/-- Loading a byte register changes its half of its pair, and no other pair. -/
theorem RegisterSet.pair_set (s : RegisterSet) (r : Reg8) (b : UInt8) (p : Pair) :
    (s.set r b).pair p = if p = r.pair then r.half.put b (s.pair r.pair) else s.pair p := by
  cases r <;> cases p <;> simp [Reg8.half, Reg8.pair, Half.put, pair, Pair.high, Pair.low]

namespace Registers

variable (s : Registers)

theorem reads_words : s.Reads s.words where
  get8 := s.main.get_eq
  shadow8 := s.shadow.get_eq
  get16 r := by cases r <;> rfl
  shadowPair _ := rfl
  accumulator := s.main.get_eq .a
  flags := s.main.get_eq .f
  pc := rfl
  sp := rfl

theorem words_set8 (r : Reg8) (b : UInt8) :
    (s.set8 r b).words = s.words.loadHalf (.main r.pair) r.half b := by
  funext n
  cases n <;>
    simp [words, set8, RegisterSet.pair_set, RegisterWords.loadHalf, RegisterWords.load,
      Function.update_apply]

theorem words_setShadow8 (r : Reg8) (b : UInt8) :
    (s.setShadow8 r b).words = s.words.loadHalf (.shadow r.pair) r.half b := by
  funext n
  cases n <;>
    simp [words, setShadow8, RegisterSet.pair_set, RegisterWords.loadHalf, RegisterWords.load,
      Function.update_apply]

theorem words_set16 (r : Reg16) (v : UInt16) :
    (s.set16 r v).words = s.words.load r.registerWord v := by
  funext n
  cases r <;> cases n <;>
    simp [words, set16, RegisterWords.load, Reg16.registerWord, Function.update_apply]

theorem words_setShadowPair (p : Pair) (v : UInt16) :
    (s.setShadowPair p v).words = s.words.load (.shadow p) v := by
  funext n
  cases n <;> simp [words, setShadowPair, RegisterWords.load, Function.update_apply]

/-- **An operation** does to the registers what it does to the words. -/
theorem words_perform (x : RegisterAction) : (s.perform x).words = s.words.perform x := by
  cases x with
  | reset flags =>
    have zero : word 0 0 = 0 := by decide
    funext n
    cases n with
    | main p | shadow p =>
      cases p with
      | af => rfl
      | bc | de | hl => exact zero
    | sp | pc | ix | iy => rfl
  | set8 r b => exact s.words_set8 r b
  | setShadow8 r b => exact s.words_setShadow8 r b
  | set16 r v => exact s.words_set16 r v
  | setShadowPair p v => exact s.words_setShadowPair p v
  | inc16 r => exact (s.words_set16 r _).trans (by rw [s.reads_words.get16]; rfl)
  | dec16 r => exact (s.words_set16 r _).trans (by rw [s.reads_words.get16]; rfl)
  | exchangeSets =>
    funext n
    cases n <;> rfl
  | exchangeAF | exchangeGeneral | exchangeDEHL =>
    funext n
    cases n with
    | main p | shadow p => cases p <;> rfl
    | sp | pc | ix | iy => rfl

/-- **Several operations** do so, too. -/
theorem words_performAll (actions : List RegisterAction) :
    (s.performAll actions).words = s.words.performAll actions := by
  induction actions generalizing s with
  | nil => rfl
  | cons x rest ih =>
    have first := s.words_perform x
    exact (ih (s.perform x)).trans (congrArg (·.performAll rest) first)

/-! ### Steps and exchanges -/

/-- **Steps wrap.** The next word after the last one is the first one, -/
theorem toNat_inc16 (r : Reg16) :
    ((s.inc16 r).get16 r).toNat = ((s.get16 r).toNat + 1) % 65536 := by
  rw [inc16, get16_set16, if_pos rfl, UInt16.toNat_add]
  rfl

/-- and the other way round. -/
theorem toNat_dec16 (r : Reg16) :
    ((s.dec16 r).get16 r).toNat = ((s.get16 r).toNat + 65535) % 65536 := by
  rw [dec16, get16_set16, if_pos rfl, UInt16.toNat_sub, Nat.add_comm]
  rfl

/-- Loading a word register leaves the other words alone. -/
theorem words_set16_of_ne {r : Reg16} {n : RegisterWord} (differs : n ≠ r.registerWord)
    (v : UInt16) : (s.set16 r v).words n = s.words n := by
  rw [words_set16]
  exact Function.update_of_ne differs v s.words

/-- **Exchanges** undo themselves, and the registers that are words by themselves take no part in
them. -/
theorem perform_exchange {x : RegisterAction} (h : x ∈ RegisterAction.exchanges) :
    (s.perform x).perform x = s ∧
      ∀ n ∈ [RegisterWord.sp, .pc, .ix, .iy], (s.perform x).words n = s.words n := by
  simp only [RegisterAction.exchanges, List.mem_cons, List.not_mem_nil, or_false] at h
  obtain rfl | rfl | rfl | rfl := h
  all_goals
    refine ⟨rfl, fun n hn => ?_⟩
    simp only [List.mem_cons, List.not_mem_nil, or_false] at hn
    obtain rfl | rfl | rfl | rfl := hn <;> rfl

end Registers

end Micro80
