import Mathlib.Data.UInt
import Micro80.Memory

/-!
# Marking ranges

A range of addresses may run over the top of memory. To mark it is to walk from its first address to
its last one, where the walk stops only after an address has been marked; so even a range of one
address is walked through, and a range that ends just before its first address is all of memory.

The walk has one address more than there are steps from the first one to the last one, and it comes
to no address twice. What marking does to an address is therefore told by the marks that are
switched off and on there once.

## Main definitions

* `Memory.InRange`: the addresses of a range.
* `Memory.walk`: the addresses of a range in the order in which they are marked.
* `Memory.switched`: a byte of marks with some of them switched off and then some switched on.

## Main statements

* `Memory.length_walk`, `Memory.mem_walk`, `Memory.nodup_walk`: which addresses a walk comes to.
* `Memory.alterMarks_eq_foldl`: marking a range is walking through it.
* `Memory.marksAt_alterMarks`: what marking a range leaves at an address.
-/

namespace Micro80

namespace Memory

/-! ### Ranges -/

/-- **The addresses of a range.** From the first address on, an address is reached no later than the
last one. -/
def InRange (first last a : UInt16) : Prop := (a - first).toNat ≤ (last - first).toNat

instance decidableInRange (first last a : UInt16) : Decidable (InRange first last a) :=
  inferInstanceAs (Decidable (_ ≤ _))

/-- From one address further up an address is reached last. -/
theorem toNat_sub_succ_self (a : UInt16) : (a - (a + 1)).toNat = 65535 := by
  have := a.toNat_lt
  have next : (a + 1).toNat = (a.toNat + 1) % 65536 := UInt16.toNat_add a 1
  rw [UInt16.toNat_sub, next]
  omega

/-- The range of one address. -/
theorem inRange_self {first a : UInt16} : InRange first first a ↔ a = first := by
  unfold InRange
  rw [UInt16.sub_self, UInt16.toNat_zero, Nat.le_zero, ← UInt16.toNat_zero, UInt16.toNat_inj,
    sub_eq_zero]

/-- The range of all addresses. -/
theorem inRange_all (a : UInt16) : InRange 0 0xFFFF a := Nat.le_of_lt_succ (UInt16.toNat_lt _)

/-! ### Walking through ranges -/

/-- **Walking through a range.** The addresses from `a` on, one after the other, until `last` has
been reached. -/
def walk (a last : UInt16) : List UInt16 :=
  if a = last then [a] else a :: walk (a + 1) last
termination_by (last - a).toNat
decreasing_by
  rename_i ne
  rw [toNat_sub_succ (Ne.symm ne)]
  exact Nat.lt_succ_self _

/-- **The length of a walk.** -/
theorem length_walk (first last : UInt16) :
    (walk first last).length = (last - first).toNat + 1 := by
  fun_induction walk first last with
  | case1 =>
    rw [UInt16.sub_self]
    rfl
  | case2 first ne ih => rw [List.length_cons, ih, ← toNat_sub_succ (Ne.symm ne)]

/-- **The addresses of a walk** are those of the range. -/
theorem mem_walk {first last a : UInt16} : a ∈ walk first last ↔ InRange first last a := by
  fun_induction walk first last with
  | case1 => rw [List.mem_singleton, inRange_self]
  | case2 first ne ih =>
    rw [List.mem_cons, ih]
    unfold InRange
    rw [toNat_sub_succ (Ne.symm ne)]
    by_cases here : a = first
    · subst here
      rw [UInt16.sub_self]
      exact iff_of_true (.inl rfl) (Nat.zero_le _)
    · rw [toNat_sub_succ here, Nat.succ_le_succ_iff]
      exact or_iff_right here

/-- **A walk comes to no address twice.** -/
theorem nodup_walk (first last : UInt16) : (walk first last).Nodup := by
  fun_induction walk first last with
  | case1 => exact List.nodup_singleton _
  | case2 first ne ih =>
    refine List.nodup_cons.2 ⟨fun again => ?_, ih⟩
    -- To come back to the first address would take more steps than to come to the last one.
    have steps := mem_walk.1 again
    unfold InRange at steps
    rw [toNat_sub_succ_self] at steps
    have fewer := toNat_sub_succ (Ne.symm ne)
    have := (last - first).toNat_lt
    omega

/-! ### Switching marks -/

/-- **Switching.** A byte of marks with those in `off` switched off and then those in `on` switched
on. -/
def switched (marks on off : UInt8) : UInt8 := (marks &&& ~~~off) ||| on

/-- The memory with some marks of one address switched. -/
def switchMarks (m : Memory) (on off : UInt8) (a : UInt16) : Memory :=
  m.setMarks a (switched (m.marksAt a) on off)

theorem marksAt_switchMarks (m : Memory) (on off : UInt8) (a b : UInt16) :
    (m.switchMarks on off a).marksAt b =
      if b = a then switched (m.marksAt a) on off else m.marksAt b :=
  m.marks.get_set a b _

/-- Marks that are switched at addresses of a list without repetitions are switched there once. -/
theorem marksAt_foldl_switchMarks {addresses : List UInt16} (nodup : addresses.Nodup) (m : Memory)
    (on off : UInt8) (a : UInt16) :
    (addresses.foldl (fun m a => m.switchMarks on off a) m).marksAt a =
      if a ∈ addresses then switched (m.marksAt a) on off else m.marksAt a := by
  induction addresses generalizing m with
  | nil => rfl
  | cons b rest ih =>
    obtain ⟨fresh, nodup⟩ := List.nodup_cons.1 nodup
    rw [List.foldl_cons, ih nodup, marksAt_switchMarks]
    by_cases here : a = b
    · subst here
      rw [if_neg fresh, if_pos rfl, if_pos List.mem_cons_self]
    · rw [if_neg here]
      exact if_congr (by rw [List.mem_cons, or_iff_right here]) rfl rfl

/-! ### Marking ranges -/

/-- **Marking a range** is walking through it and switching the marks of each address. -/
theorem alterMarks_eq_foldl (m : Memory) (first last : UInt16) (on off : UInt8) :
    m.alterMarks first last on off =
      (walk first last).foldl (fun m a => m.switchMarks on off a) m := by
  fun_induction walk first last generalizing m with
  | case1 =>
    rw [alterMarks, if_pos rfl]
    rfl
  | case2 first ne ih =>
    rw [alterMarks, if_neg ne]
    exact ih _

/-- **What marking a range leaves at an address.** -/
theorem marksAt_alterMarks (m : Memory) (first last : UInt16) (on off : UInt8) (a : UInt16) :
    (m.alterMarks first last on off).marksAt a =
      if InRange first last a then switched (m.marksAt a) on off else m.marksAt a := by
  rw [alterMarks_eq_foldl, marksAt_foldl_switchMarks (nodup_walk first last)]
  exact if_congr mem_walk rfl rfl

/-- Marking a range leaves the bytes as they are. -/
theorem data_alterMarks (m : Memory) (first last : UInt16) (on off : UInt8) :
    (m.alterMarks first last on off).data = m.data := by
  rw [alterMarks_eq_foldl]
  induction walk first last generalizing m with
  | nil => rfl
  | cons a rest ih => exact ih _

/-- Marking a range takes no notice of the bytes. -/
theorem marks_alterMarks_congr {m n : Memory} (same : m.marks = n.marks) (first last : UInt16)
    (on off : UInt8) :
    (m.alterMarks first last on off).marks = (n.alterMarks first last on off).marks := by
  apply Cells.ext
  intro a
  have marks (a : UInt16) : m.marksAt a = n.marksAt a := congrArg (fun c => c.get a) same
  show (m.alterMarks first last on off).marksAt a = (n.alterMarks first last on off).marksAt a
  rw [marksAt_alterMarks, marksAt_alterMarks, marks a]

end Memory

end Micro80
