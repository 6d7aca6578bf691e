import Micro80.Machine.Panel
import Micro80.Proofs.Registers.Words

/-!
# Registers by their numbers

The panel of a machine knows twenty numbers. Each stands for a word of the register file or for a
half of one, and no two stand for the same. What is loaded by one number and read by another one can
be told from the words alone. A half takes as many bits as it has, and flags that have been loaded
are fixed to the bits that the processor has. A number that stands for nothing reads as zero, and
loading by it does nothing.

## Main definitions

* `RegisterView`: what a number stands for.
* `RegisterWords.loadNumber`, `RegisterWords.readNumber`: loads and reads by a number.

## Main statements

* `Machine.words_setRegister`, `Machine.getRegister_eq`: the panel works on the words.
* `Machine.registers_are_words`: the register file and the panel are what the words say.
-/

namespace Micro80

/-! ### Views -/

/-- Whether a word has flags in its low half. -/
def RegisterWord.hasFlags : RegisterWord → Bool
  | main .af | shadow .af => true
  | _ => false

/-- The words with the flags in one of them fixed to the bits that a processor has. -/
def RegisterWords.fixFlags (w : RegisterWords) (L : FlagLayout) (n : RegisterWord) :
    RegisterWords :=
  w.loadHalf n .low (L.fix (lowByte (w n)))

/-- **Views.** A word, or one half of a word. -/
inductive RegisterView where
  | whole (n : RegisterWord)
  | half (n : RegisterWord) (h : Half)

namespace RegisterView

/-- The views in the order of their numbers. -/
def all : List RegisterView :=
  [ half (.main .af) .high, half (.main .af) .low, half (.main .bc) .high, half (.main .bc) .low,
    half (.main .de) .high, half (.main .de) .low, half (.main .hl) .high, half (.main .hl) .low,
    whole (.main .af), whole (.main .bc), whole (.main .de), whole (.main .hl),
    whole .sp, whole .pc, whole .ix, whole .iy,
    whole (.shadow .af), whole (.shadow .bc), whole (.shadow .de), whole (.shadow .hl) ]

/-- What a view shows. -/
def get (w : RegisterWords) : RegisterView → UInt16
  | whole n => w n
  | half n h => (h.get (w n)).toUInt16

/-- The words after a view has been loaded with as many bits as it has. -/
def load (w : RegisterWords) (v : UInt16) : RegisterView → RegisterWords
  | whole n => w.load n v
  | half n h => w.loadHalf n h (lowByte v)

/-- The word whose flags a view shows, if it shows flags. -/
def flags? : RegisterView → Option RegisterWord
  | whole n | half n .low => if n.hasFlags then some n else none
  | half _ .high => none

end RegisterView

namespace RegisterWords

/-- **Loads by number.** Flags that have been loaded are fixed. -/
def loadNumber (w : RegisterWords) (L : FlagLayout) (number : Nat) (v : UInt16) : RegisterWords :=
  match RegisterView.all[number]? with
  | none => w
  | some x => x.flags?.elim (x.load w v) (RegisterWords.fixFlags (x.load w v) L)

/-- **Reads by number.** -/
def readNumber (w : RegisterWords) (number : Nat) : UInt16 :=
  (RegisterView.all[number]?).elim 0 (RegisterView.get w)

variable (w : RegisterWords) (L : FlagLayout) (n : RegisterWord)

theorem load_load (v v' : UInt16) : (w.load n v).load n v' = w.load n v' := by
  unfold load
  exact Function.update_idem v v' w

theorem load_self (v : UInt16) : w.load n v n = v := by
  unfold load
  exact Function.update_self n v w

/-- Flags that have been loaded with the rest of their word. -/
theorem fixFlags_load (v : UInt16) :
    (w.load n v).fixFlags L n = w.load n (word (highByte v) (L.fix (lowByte v))) := by
  rw [fixFlags, loadHalf, load_load, load_self]
  rfl

/-- Flags that have been loaded alone. -/
theorem fixFlags_loadHalf (b : UInt8) :
    (w.loadHalf n .low b).fixFlags L n = w.loadHalf n .low (L.fix b) := by
  rw [loadHalf, fixFlags_load]
  simp [Half.put, loadHalf]

end RegisterWords

/-! ### The panel -/

/-- The view that a slot is. -/
def Slot.view : Slot → RegisterView
  | .byte r => .half (.main r.pair) r.half
  | .word r => .whole r.registerWord
  | .shadow p => .whole (.shadow p)

/-- The panel has its slots in the order of the views. -/
theorem Slot.view_ofNumber? (number : Nat) :
    (Slot.ofNumber? number).map Slot.view = RegisterView.all[number]? :=
  List.getElem?_map.symm

theorem Slot.get_eq (x : Slot) (s : Registers) : x.get s = x.view.get s.words := by
  cases x with
  | byte r => exact congrArg UInt8.toUInt16 (s.reads_words.get8 r)
  | word r => exact s.reads_words.get16 r
  | shadow p => rfl

/-- **Loading a slot** loads the view and fixes the flags in it. -/
theorem Slot.words_set (L : FlagLayout) (x : Slot) (v : UInt16) (s : Registers) :
    (x.set L v s).words =
      x.view.flags?.elim (x.view.load s.words v)
        (RegisterWords.fixFlags (x.view.load s.words v) L) := by
  cases x with
  | byte r =>
    cases r with
    | f =>
      exact (s.words_set8 .f _).trans (s.words.fixFlags_loadHalf L (.main .af) (lowByte v)).symm
    | a | b | c | d | e | h | l => exact s.words_set8 _ (lowByte v)
  | word r =>
    cases r with
    | pair p =>
      cases p with
      | af => exact (s.words_set16 (.pair .af) _).trans (s.words.fixFlags_load L (.main .af) v).symm
      | bc | de | hl => exact s.words_set16 _ v
    | sp | pc | ix | iy => exact s.words_set16 _ v
  | shadow p =>
    cases p with
    | af => exact (s.words_setShadowPair .af _).trans (s.words.fixFlags_load L (.shadow .af) v).symm
    | bc | de | hl => exact s.words_setShadowPair _ v

namespace Machine

variable {ι σ : Type} (m : Machine ι σ)

/-- **Loading a register by its number** loads the words by it. -/
theorem words_setRegister (number : Nat) (v : UInt16) :
    (m.setRegister number v).core.registers.words =
      m.core.registers.words.loadNumber m.variant.layout number v := by
  unfold setRegister RegisterWords.loadNumber
  rw [← Slot.view_ofNumber?]
  cases Slot.ofNumber? number with
  | none => rfl
  | some x => exact x.words_set m.variant.layout v m.core.registers

/-- **Reading a register by its number** reads the words by it. -/
theorem getRegister_eq (number : Nat) :
    m.getRegister number = m.core.registers.words.readNumber number := by
  unfold getRegister RegisterWords.readNumber
  rw [← Slot.view_ofNumber?]
  cases Slot.ofNumber? number with
  | none => rfl
  | some x => exact x.get_eq m.core.registers

/-- A number that stands for nothing. -/
theorem setRegister_of_le {number : Nat} (unknown : 20 ≤ number) (v : UInt16) :
    m.setRegister number v = m := by
  have none : Slot.ofNumber? number = none := List.getElem?_eq_none unknown
  rw [setRegister, none]

/-- **Registers are words.** Whatever operations are carried out on the register file, every read
gives what the twelve words hold. A byte register is changed alone, steps wrap and change no other
word, and exchanges undo themselves and leave the pointers and the index registers alone; exchanging
the sets is exchanging both of their parts, in either order. Through the panel the words are loaded
and read by numbers, with flags fixed, and a number that stands for nothing has no effect. -/
theorem registers_are_words (s : Registers) :
    (∀ actions, (s.performAll actions).Reads (s.words.performAll actions)) ∧
    (∀ r b r', (s.set8 r b).get8 r' = if r' = r then b else s.get8 r') ∧
    (∀ r, ((s.inc16 r).get16 r).toNat = ((s.get16 r).toNat + 1) % 65536 ∧
      ((s.dec16 r).get16 r).toNat = ((s.get16 r).toNat + 65535) % 65536 ∧
      ∀ n ≠ r.registerWord,
        (s.inc16 r).words n = s.words n ∧ (s.dec16 r).words n = s.words n) ∧
    (∀ x ∈ RegisterAction.exchanges, (s.perform x).perform x = s ∧
      ∀ n ∈ [RegisterWord.sp, .pc, .ix, .iy], (s.perform x).words n = s.words n) ∧
    (s.exchangeAF.exchangeGeneral = s.exchangeSets ∧
      s.exchangeGeneral.exchangeAF = s.exchangeSets) ∧
    (∀ number v other, (m.setRegister number v).getRegister other =
      (m.core.registers.words.loadNumber m.variant.layout number v).readNumber other) ∧
    (∀ number, 20 ≤ number → ∀ v, m.setRegister number v = m) := by
  refine ⟨fun actions => ?_, fun r b r' => s.main.get_set r r' b, fun r => ?_,
    fun x hx => s.perform_exchange hx, ⟨rfl, rfl⟩, fun number v other => ?_,
    fun number unknown v => m.setRegister_of_le unknown v⟩
  · rw [← s.words_performAll]
    exact (s.performAll actions).reads_words
  · exact ⟨s.toNat_inc16 r, s.toNat_dec16 r,
      fun n differs => ⟨s.words_set16_of_ne differs _, s.words_set16_of_ne differs _⟩⟩
  · rw [getRegister_eq, words_setRegister]

/-- Flags in the shadow set are fixed, and the main set does not notice. -/
theorem registers_are_words_shadow :
    let m : Machine Empty Unit := start .z80 () none
    (m.setRegister 16 0x12FF).getRegister 16 = 0x12D7 ∧
      (m.setRegister 16 0x12FF).getRegister 8 = m.getRegister 8 ∧
      20 ≤ 20 ∧ m.setRegister 20 0x12FF = m := by
  intro m
  obtain ⟨-, -, -, -, -, panel, unknown⟩ := m.registers_are_words m.core.registers
  refine ⟨(panel 16 0x12FF 16).trans ?_, (panel 16 0x12FF 8).trans ?_, Nat.le_refl 20,
    unknown 20 (Nat.le_refl 20) 0x12FF⟩
  · decide
  · decide

end Machine

end Micro80
