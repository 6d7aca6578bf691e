import Micro80.Proofs.Memory.Loading
import Micro80.Proofs.Memory.Marking

/-!
# Histories of a memory

Whatever is done to a memory, one operation after the other, its bytes and its marks go through the
history without taking notice of each other. Among the marks the breakpoint is one that most
operations on marks are for: each of them touches the breakpoints of a range, and of nothing else,
and the last one that touches a breakpoint decides whether it is set. The other marks are touched by
one kind of operation only.

All of this says what a history is to somebody who looks at a part of the memory: the history
without the operations that do not touch this part.

## Main definitions

* `Memory.Edit`, `Memory.edit`: what can be done to a memory, and a history of it.
* `Memory.Edit.setting?`: how an operation leaves the breakpoint of an address, if it touches it.

## Main statements

* `Memory.Edit.related_edit`: a history as it is seen by what some operations do not touch.
* `Memory.data_edit`, `Memory.marks_edit`: bytes and marks after a history.
* `Memory.isBreak_edit`: the last operation that touches a breakpoint decides.
* `Memory.others_edit`: the marks that are no breakpoints.
-/

namespace Micro80

namespace Memory

/-! ### The mark of a breakpoint -/

theorem and_breakMark (f : UInt8) : (f &&& breakMark != 0) = f.toBitVec.getLsbD 7 := by
  revert f
  exact forall_byte (by decide +kernel)

/-- How switching marks leaves the breakpoint, if it touches it: switching on comes last. -/
def breakSetting? (on off : UInt8) : Option Bool :=
  if on &&& breakMark != 0 then some true
  else if off &&& breakMark != 0 then some false
  else none

theorem switched_and_breakMark (f on off : UInt8) :
    (switched f on off &&& breakMark != 0) =
      (breakSetting? on off).getD (f &&& breakMark != 0) := by
  unfold breakSetting? switched
  simp only [and_breakMark, UInt8.toBitVec_or, UInt8.toBitVec_and, UInt8.toBitVec_not,
    BitVec.getLsbD_or, BitVec.getLsbD_and, BitVec.getLsbD_not]
  cases on.toBitVec.getLsbD 7 <;> cases off.toBitVec.getLsbD 7 <;> simp

/-- Setting or removing a breakpoint leaves the other marks as they are. -/
theorem switched_and_others (f : UInt8) (on : Bool) :
    switched f (if on then breakMark else 0) (if on then 0 else breakMark) &&& ~~~breakMark =
      f &&& ~~~breakMark := by
  revert f
  cases on <;> exact forall_byte (by decide +kernel)

/-- The other marks are switched without regard to the breakpoint. -/
theorem switched_and_others_congr {f g : UInt8} (h : f &&& ~~~breakMark = g &&& ~~~breakMark)
    (on off : UInt8) :
    switched f on off &&& ~~~breakMark = switched g on off &&& ~~~breakMark := by
  have apart (x : UInt8) : switched x on off &&& ~~~breakMark =
      ((x &&& ~~~breakMark) &&& ~~~off) ||| (on &&& ~~~breakMark) := by
    apply UInt8.toBitVec_inj.1
    apply BitVec.eq_of_getLsbD_eq
    intro i _
    simp only [switched, UInt8.toBitVec_or, UInt8.toBitVec_and, BitVec.getLsbD_or,
      BitVec.getLsbD_and]
    cases x.toBitVec.getLsbD i <;> cases (~~~off).toBitVec.getLsbD i <;>
      cases on.toBitVec.getLsbD i <;> simp
  rw [apart f, apart g, h]

/-- Setting and removing breakpoints is marking a range. -/
theorem setBreaks_eq (m : Memory) (first last : UInt16) (on : Bool) :
    m.setBreaks first last on =
      m.alterMarks first last (if on then breakMark else 0) (if on then 0 else breakMark) := by
  cases on <;> rfl

theorem isBreak_alterMarks (m : Memory) (first last : UInt16) (on off : UInt8) (a : UInt16) :
    (m.alterMarks first last on off).isBreak a =
      if InRange first last a then (breakSetting? on off).getD (m.isBreak a) else m.isBreak a := by
  unfold isBreak
  rw [marksAt_alterMarks]
  split
  · exact switched_and_breakMark _ _ _
  · rfl

theorem isBreak_setBreaks (m : Memory) (first last : UInt16) (on : Bool) (a : UInt16) :
    (m.setBreaks first last on).isBreak a = if InRange first last a then on else m.isBreak a := by
  rw [setBreaks_eq, isBreak_alterMarks]
  cases on <;> rfl

theorem isBreak_congr {m n : Memory} (same : m.marks = n.marks) (a : UInt16) :
    m.isBreak a = n.isBreak a := by
  unfold isBreak marksAt
  rw [same]

/-! ### Histories -/

/-- **Operations on a memory.** -/
inductive Edit where
  /-- Sets or removes one breakpoint. -/
  | setBreak (a : UInt16) (on : Bool)
  /-- Sets or removes the breakpoints of a range. -/
  | setBreaks (first last : UInt16) (on : Bool)
  /-- Switches marks of a range off and on. -/
  | alterMarks (first last : UInt16) (on off : UInt8)
  /-- Removes every breakpoint. -/
  | clearBreaks
  /-- Stores the same byte everywhere. -/
  | fill (b : UInt8)
  /-- Stores a byte. -/
  | write (a : UInt16) (b : UInt8)
  /-- Stores a word. -/
  | writeWord (a w : UInt16)
  /-- Loads a segment. -/
  | load (origin : UInt16) (bytes : List UInt8)
  /-- Loads an image. -/
  | loadImage (image : Image)

namespace Edit

/-- The memory after an operation. -/
def apply (m : Memory) : Edit → Memory
  | setBreak a on => m.setBreak a on
  | setBreaks first last on => m.setBreaks first last on
  | alterMarks first last on off => m.alterMarks first last on off
  | clearBreaks => m.clearBreaks
  | fill b => m.fill b
  | write a b => m.write a b
  | writeWord a w => m.writeWord a w
  | load origin bytes => m.load origin bytes
  | loadImage image => m.loadImage image

/-- Whether an operation is for the bytes. -/
def isWriting : Edit → Bool
  | fill _ | write .. | writeWord .. | load .. | loadImage _ => true
  | _ => false

/-- Whether an operation may be for any marks. -/
def isSwitching : Edit → Bool
  | alterMarks .. => true
  | _ => false

/-- **Settings.** How an operation leaves the breakpoint of an address, if it touches it. -/
def setting? (e : Edit) (a : UInt16) : Option Bool :=
  match e with
  | setBreak b on => if a = b then some on else none
  | setBreaks first last on => if InRange first last a then some on else none
  | alterMarks first last on off => if InRange first last a then breakSetting? on off else none
  | clearBreaks => some false
  | _ => none

end Edit

/-- **Histories.** The memory after some operations, one after the other. -/
def edit (m : Memory) (history : List Edit) : Memory := history.foldl Edit.apply m

@[simp] theorem edit_cons (m : Memory) (e : Edit) (history : List Edit) :
    m.edit (e :: history) = (e.apply m).edit history := rfl

/-- **A history as it is seen by what some operations do not touch.** If a relation between two
memories survives an operation on both of them, or an operation of the other kind on the first one,
then the operations of the other kind may be left out of the history of the second one. -/
theorem Edit.related_edit {R : Memory → Memory → Prop} {kind : Edit → Bool}
    (both : ∀ m n e, kind e = true → R m n → R (e.apply m) (e.apply n))
    (one : ∀ m n e, kind e = false → R m n → R (e.apply m) n) {m n : Memory} (h : R m n)
    (history : List Edit) : R (m.edit history) (n.edit (history.filter kind)) := by
  induction history generalizing m n with
  | nil => exact h
  | cons e rest ih =>
    rw [edit_cons]
    cases touched : kind e with
    | true =>
      rw [List.filter_cons_of_pos touched]
      exact ih (both m n e touched h)
    | false =>
      rw [List.filter_cons_of_neg (Bool.eq_false_iff.1 touched)]
      exact ih (one m n e touched h)

/-! ### Bytes -/

theorem data_setBreaks (m : Memory) (first last : UInt16) (on : Bool) :
    (m.setBreaks first last on).data = m.data := by
  rw [setBreaks_eq, data_alterMarks]

/-- Only writing changes bytes. -/
theorem data_apply_of_not_isWriting {e : Edit} (other : e.isWriting = false) (m : Memory) :
    (e.apply m).data = m.data := by
  cases e with
  | setBreak a on => exact m.data_setBreaks a a on
  | setBreaks first last on => exact m.data_setBreaks first last on
  | alterMarks first last on off => exact m.data_alterMarks first last on off
  | clearBreaks => exact m.data_setBreaks 0 0xFFFF false
  | fill | write | writeWord | load | loadImage => cases other

theorem data_write_congr {m n : Memory} (same : m.data = n.data) (a : UInt16) (b : UInt8) :
    (m.write a b).data = (n.write a b).data := by
  unfold write
  rw [same]

theorem data_load_congr {m n : Memory} (same : m.data = n.data) (origin : UInt16)
    (bytes : List UInt8) : (m.load origin bytes).data = (n.load origin bytes).data := by
  induction bytes generalizing m n origin with
  | nil => exact same
  | cons b rest ih => exact ih (data_write_congr same origin b) _

theorem data_loadImage_congr {m n : Memory} (same : m.data = n.data) (image : Image) :
    (m.loadImage image).data = (n.loadImage image).data := by
  unfold loadImage
  induction image.segments generalizing m n with
  | nil => exact same
  | cons s rest ih => exact ih (data_load_congr same s.1 s.2)

/-- Writing takes no notice of marks. -/
theorem data_apply_congr {e : Edit} (writes : e.isWriting = true) {m n : Memory}
    (same : m.data = n.data) : (e.apply m).data = (e.apply n).data := by
  cases e with
  | fill b => rfl
  | write a b => exact data_write_congr same a b
  | writeWord a w => exact data_write_congr (data_write_congr same _ _) _ _
  | load origin bytes => exact data_load_congr same origin bytes
  | loadImage image => exact data_loadImage_congr same image
  | setBreak | setBreaks | alterMarks | clearBreaks => cases writes

/-- **The bytes after a history** are those after its writing, whatever marks there are. -/
theorem data_edit {m n : Memory} (same : m.data = n.data) (history : List Edit) :
    (m.edit history).data = (n.edit (history.filter Edit.isWriting)).data := by
  refine Edit.related_edit (R := fun m n => m.data = n.data) (fun m n e writes same => ?_)
    (fun m n e other same => ?_) same history
  · exact data_apply_congr writes same
  · exact (data_apply_of_not_isWriting other m).trans same

/-! ### Marks -/

/-- Writing changes no marks. -/
theorem marks_apply_of_isWriting {e : Edit} (writes : e.isWriting = true) (m : Memory) :
    (e.apply m).marks = m.marks := by
  cases e with
  | fill | write | writeWord => rfl
  | load origin bytes => exact m.marks_load origin bytes
  | loadImage image => exact m.marks_loadImage image
  | setBreak | setBreaks | alterMarks | clearBreaks => cases writes

/-- What is done to marks takes no notice of bytes. -/
theorem marks_apply_congr {e : Edit} (other : e.isWriting = false) {m n : Memory}
    (same : m.marks = n.marks) : (e.apply m).marks = (e.apply n).marks := by
  have range (first last : UInt16) (on : Bool) :
      (m.setBreaks first last on).marks = (n.setBreaks first last on).marks := by
    rw [setBreaks_eq, setBreaks_eq]
    exact marks_alterMarks_congr same ..
  cases e with
  | setBreak a on => exact range a a on
  | setBreaks first last on => exact range first last on
  | alterMarks first last on off => exact marks_alterMarks_congr same first last on off
  | clearBreaks => exact range 0 0xFFFF false
  | fill | write | writeWord | load | loadImage => cases other

/-- **The marks after a history** are those after what is no writing, whatever bytes there are. -/
theorem marks_edit {m n : Memory} (same : m.marks = n.marks) (history : List Edit) :
    (m.edit history).marks = (n.edit (history.filter fun e => !e.isWriting)).marks := by
  refine Edit.related_edit (R := fun m n => m.marks = n.marks) (fun m n e other same => ?_)
    (fun m n e writes same => ?_) same history
  · exact marks_apply_congr (by simpa using other) same
  · exact (marks_apply_of_isWriting (by simpa using writes) m).trans same

/-- Setting or removing breakpoints leaves the other marks as they are. -/
theorem others_setBreaks (m : Memory) (first last : UInt16) (on : Bool) (a : UInt16) :
    (m.setBreaks first last on).marksAt a &&& ~~~breakMark = m.marksAt a &&& ~~~breakMark := by
  rw [setBreaks_eq, marksAt_alterMarks]
  split
  · exact switched_and_others _ on
  · rfl

/-- Only operations for any marks change those that are no breakpoints. -/
theorem others_apply {e : Edit} (other : e.isSwitching = false) (m : Memory) (a : UInt16) :
    (e.apply m).marksAt a &&& ~~~breakMark = m.marksAt a &&& ~~~breakMark := by
  cases e with
  | setBreak b on => exact m.others_setBreaks b b on a
  | setBreaks first last on => exact m.others_setBreaks first last on a
  | clearBreaks => exact m.others_setBreaks 0 0xFFFF false a
  | alterMarks => cases other
  | fill | write | writeWord => rfl
  | load origin bytes =>
    unfold marksAt
    rw [Edit.apply, marks_load]
  | loadImage image =>
    unfold marksAt
    rw [Edit.apply, marks_loadImage]

/-- **The other marks after a history** are those after the operations for any marks. -/
theorem others_edit (m : Memory) (history : List Edit) (a : UInt16) :
    (m.edit history).marksAt a &&& ~~~breakMark =
      (m.edit (history.filter Edit.isSwitching)).marksAt a &&& ~~~breakMark := by
  refine Edit.related_edit
    (R := fun m n => m.marksAt a &&& ~~~breakMark = n.marksAt a &&& ~~~breakMark)
    (fun m n e switches same => ?_) (fun m n e other same => ?_) rfl history
  · cases e with
    | alterMarks first last on off =>
      dsimp only [Edit.apply]
      rw [marksAt_alterMarks, marksAt_alterMarks]
      split
      · exact switched_and_others_congr same on off
      · exact same
    | _ => cases switches
  · exact (others_apply other m a).trans same

/-! ### Breakpoints -/

/-- One operation leaves a breakpoint as it sets it, or as it has been. -/
theorem isBreak_apply (e : Edit) (m : Memory) (a : UInt16) :
    (e.apply m).isBreak a = (e.setting? a).getD (m.isBreak a) := by
  cases e with
  | setBreak b on =>
    rw [Edit.setting?, apply_ite (Option.getD · _)]
    exact (m.isBreak_setBreaks b b on a).trans (if_congr inRange_self rfl rfl)
  | setBreaks first last on =>
    rw [Edit.setting?, apply_ite (Option.getD · _)]
    exact m.isBreak_setBreaks first last on a
  | alterMarks first last on off =>
    rw [Edit.setting?, apply_ite (Option.getD · _)]
    exact m.isBreak_alterMarks first last on off a
  | clearBreaks => exact (m.isBreak_setBreaks 0 0xFFFF false a).trans (if_pos (inRange_all a))
  | fill | write | writeWord => rfl
  | load origin bytes => exact isBreak_congr (m.marks_load origin bytes) a
  | loadImage image => exact isBreak_congr (m.marks_loadImage image) a

/-- **The last operation that touches a breakpoint** decides whether it is set. -/
theorem isBreak_edit (m : Memory) (history : List Edit) (a : UInt16) :
    (m.edit history).isBreak a =
      ((history.filterMap fun e => e.setting? a).getLast?).getD (m.isBreak a) := by
  induction history generalizing m with
  | nil => rfl
  | cons e rest ih =>
    rw [edit_cons, ih, isBreak_apply, List.filterMap_cons]
    cases e.setting? a with
    | none => rfl
    | some on => rw [List.getLast?_cons, Option.getD_some, Option.getD_some]

end Memory

end Micro80
