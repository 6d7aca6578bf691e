import Mathlib.Order.Bounds.Defs
import Micro80.Proofs.Memory.History

/-!
# Breakpoints as a set of addresses

The breakpoints of a memory are a set of addresses. Operations on it are for ranges that may run
over the top of memory, and the last operation for an address decides whether it is in the set.

A search finds the least breakpoint that is not below an address, and it ends at the top of memory.
A caller who goes on from the address after the one that has been found, as long as there is such an
address, comes to all breakpoints.

## Main definitions

* `Memory.seekBreak`, `Memory.breaksFrom`: one search, and one search after the other.
* `Memory.IsExactRange`, `Memory.KeepsBreakpoints`, `Memory.FindsBreakpoints`: what is to be
  expected of ranges, of histories and of searches.

## Main statements

* `Memory.findBreak_eq_some_iff`, `Memory.findBreak_eq_none_iff`: what a search finds.
* `Memory.breaksFrom_spec`: what searches one after the other find.
* `Memory.breakpoints_are_a_set`: ranges, histories and searches are as expected.
-/

namespace Micro80

namespace Memory

/-! ### Searching -/

/-- The address after one that is not the last one. -/
theorem toNat_succ_of_lt {a b : UInt16} (h : a < b) : (a + 1).toNat = a.toNat + 1 := by
  have := UInt16.lt_iff_toNat_lt.1 h
  have := b.toNat_lt
  have next : (a + 1).toNat = (a.toNat + 1) % 65536 := UInt16.toNat_add a 1
  omega

/-- Where there is no breakpoint the search goes on at the next address. -/
theorem isLeast_of_not_isBreak {m : Memory} {a b : UInt16} (absent : ¬ m.isBreak a = true)
    (lower : a < 0xFFFF) (h : IsLeast {c | a + 1 ≤ c ∧ m.isBreak c = true} b) :
    IsLeast {c | a ≤ c ∧ m.isBreak c = true} b := by
  have next := toNat_succ_of_lt lower
  obtain ⟨⟨le, found⟩, least⟩ := h
  rw [UInt16.le_iff_toNat_le] at le
  refine ⟨⟨UInt16.le_iff_toNat_le.2 (by omega), found⟩, ?_⟩
  rintro c ⟨le, found⟩
  have ne : a.toNat ≠ c.toNat := by
    intro same
    rw [UInt16.toNat_inj.1 same] at absent
    exact absent found
  rw [UInt16.le_iff_toNat_le] at le
  exact least ⟨UInt16.le_iff_toNat_le.2 (by omega), found⟩

/-- What a search up to some address finds, and what it means that it finds nothing. -/
theorem findBreakFrom_spec (m : Memory) {a : UInt16} {count : Nat}
    (bounded : a.toNat + count ≤ 65536) :
    (∀ b, m.findBreakFrom a count = some b → IsLeast {c | a ≤ c ∧ m.isBreak c = true} b) ∧
      (m.findBreakFrom a count = none →
        ∀ c, a ≤ c → c.toNat < a.toNat + count → m.isBreak c = false) := by
  induction count generalizing a with
  | zero =>
    refine ⟨nofun, fun _ c le lt => ?_⟩
    rw [UInt16.le_iff_toNat_le] at le
    omega
  | succ count ih =>
    rw [findBreakFrom]
    by_cases present : m.isBreak a = true
    · rw [if_pos present]
      refine ⟨?_, nofun⟩
      rintro b ⟨⟩
      exact ⟨⟨UInt16.le_refl a, present⟩, fun c h => h.1⟩
    · rw [if_neg present]
      by_cases last : count = 0
      · -- The address was the only one.
        subst last
        refine ⟨nofun, fun _ c le lt => ?_⟩
        rw [UInt16.le_iff_toNat_le] at le
        have same : c = a := UInt16.toNat_inj.1 (by omega)
        rw [same]
        exact Bool.eq_false_iff.2 present
      · have lower : a < 0xFFFF := UInt16.lt_iff_toNat_lt.2 (by
          show a.toNat < 65535
          omega)
        have next := toNat_succ_of_lt lower
        obtain ⟨found, missed⟩ := ih (a := a + 1) (by omega)
        refine ⟨fun b h => isLeast_of_not_isBreak present lower (found b h), fun none c le lt => ?_⟩
        by_cases here : c = a
        · rw [here]
          exact Bool.eq_false_iff.2 present
        · have ne : c.toNat ≠ a.toNat := fun h => here (UInt16.toNat_inj.1 h)
          rw [UInt16.le_iff_toNat_le] at le
          exact missed none c (UInt16.le_iff_toNat_le.2 (by omega)) (by omega)

theorem isLeast_of_findBreak {m : Memory} {a b : UInt16} (h : m.findBreak a = some b) :
    IsLeast {c | a ≤ c ∧ m.isBreak c = true} b := by
  have := a.toNat_lt
  exact (m.findBreakFrom_spec (by omega)).1 b h

/-- **A search that misses** means that there is no breakpoint from the address on. -/
theorem findBreak_eq_none_iff {m : Memory} {a : UInt16} :
    m.findBreak a = none ↔ ∀ c, a ≤ c → m.isBreak c = false := by
  have := a.toNat_lt
  constructor
  · intro none c le
    have := c.toNat_lt
    exact (m.findBreakFrom_spec (by omega)).2 none c le (by omega)
  · intro absent
    cases found : m.findBreak a with
    | none => rfl
    | some b =>
      obtain ⟨⟨le, present⟩, -⟩ := isLeast_of_findBreak found
      rw [absent b le] at present
      cases present

/-- **A search finds** the least breakpoint that is not below the address. -/
theorem findBreak_eq_some_iff {m : Memory} {a b : UInt16} :
    m.findBreak a = some b ↔ IsLeast {c | a ≤ c ∧ m.isBreak c = true} b := by
  refine ⟨isLeast_of_findBreak, fun h => ?_⟩
  cases found : m.findBreak a with
  | none =>
    have absent := findBreak_eq_none_iff.1 found b h.1.1
    rw [h.1.2] at absent
    cases absent
  | some c =>
    have least := isLeast_of_findBreak found
    rw [UInt16.le_antisymm (least.2 h.1) (h.2 least.1)]

/-- **Searching with a cursor:** whether there is a breakpoint from the cursor on, and where the
cursor is after the search. -/
def seekBreak (m : Memory) (cursor : UInt16) : Bool × UInt16 :=
  match m.findBreak cursor with
  | some b => (true, b)
  | none => (false, cursor)

theorem seekBreak_found_iff {m : Memory} {a b : UInt16} :
    m.seekBreak a = (true, b) ↔ IsLeast {c | a ≤ c ∧ m.isBreak c = true} b := by
  rw [← findBreak_eq_some_iff, seekBreak]
  cases m.findBreak a <;> simp

/-- The cursor stays where it is if there is no breakpoint. -/
theorem seekBreak_missed_iff {m : Memory} {a b : UInt16} :
    m.seekBreak a = (false, b) ↔ b = a ∧ ∀ c, a ≤ c → m.isBreak c = false := by
  rw [← findBreak_eq_none_iff, seekBreak]
  cases m.findBreak a with
  | none => simp [eq_comm]
  | some c => simp

/-- **One search after the other,** each from the address after the one that has been found before,
until the last address or no other one has been found. -/
def breaksFrom (m : Memory) (cursor : UInt16) : List UInt16 :=
  match seek : m.seekBreak cursor with
  | (false, _) => []
  | (true, b) => b :: if _ : b < 0xFFFF then m.breaksFrom (b + 1) else []
termination_by 65536 - cursor.toNat
decreasing_by
  rename_i lower
  have le := UInt16.le_iff_toNat_le.1 (seekBreak_found_iff.1 seek).1.1
  have next := toNat_succ_of_lt lower
  have := b.toNat_lt
  omega

theorem breaksFrom_of_missed {m : Memory} {a c : UInt16} (seek : m.seekBreak a = (false, c)) :
    m.breaksFrom a = [] := by
  rw [breaksFrom]
  split
  · rfl
  · rename_i found
    rw [seek] at found
    cases found

theorem breaksFrom_of_found {m : Memory} {a b : UInt16} (seek : m.seekBreak a = (true, b)) :
    m.breaksFrom a = b :: if b < 0xFFFF then m.breaksFrom (b + 1) else [] := by
  rw [breaksFrom]
  split
  · rename_i missed
    rw [seek] at missed
    cases missed
  · rename_i found
    rw [seek] at found
    cases found
    rfl

/-- **The breakpoints that are found one after the other** ascend, and they are all breakpoints from
the first address on. -/
theorem breaksFrom_spec (m : Memory) (a : UInt16) :
    (m.breaksFrom a).Pairwise (· < ·) ∧
      ∀ c, c ∈ m.breaksFrom a ↔ a ≤ c ∧ m.isBreak c = true := by
  induction a using breaksFrom.induct (m := m) with
  | case1 a c seek =>
    rw [breaksFrom_of_missed seek]
    refine ⟨.nil, fun c => ⟨nofun, fun ⟨le, present⟩ => ?_⟩⟩
    rw [(seekBreak_missed_iff.1 seek).2 c le] at present
    cases present
  | case2 a b seek ih =>
    obtain ⟨⟨le, present⟩, least⟩ := seekBreak_found_iff.1 seek
    -- The further searches find what is above the breakpoint that has been found.
    have further : (if b < 0xFFFF then m.breaksFrom (b + 1) else []).Pairwise (· < ·) ∧
        ∀ c, c ∈ (if b < 0xFFFF then m.breaksFrom (b + 1) else []) ↔
          b < c ∧ m.isBreak c = true := by
      by_cases lower : b < 0xFFFF
      · rw [if_pos lower]
        refine ⟨(ih lower).1, fun c => ?_⟩
        rw [(ih lower).2, UInt16.le_iff_toNat_le, toNat_succ_of_lt lower, UInt16.lt_iff_toNat_lt]
        rfl
      · rw [if_neg lower]
        refine ⟨.nil, fun c => ⟨nofun, fun ⟨above, _⟩ => absurd ?_ lower⟩⟩
        have := UInt16.lt_iff_toNat_lt.1 above
        have := c.toNat_lt
        exact UInt16.lt_iff_toNat_lt.2 (show b.toNat < 65535 by omega)
    rw [breaksFrom_of_found seek, List.pairwise_cons]
    refine ⟨⟨fun c mem => ((further.2 c).1 mem).1, further.1⟩, fun c => ?_⟩
    rw [List.mem_cons, further.2]
    constructor
    · rintro (rfl | ⟨above, present⟩)
      · exact ⟨le, present⟩
      · exact ⟨UInt16.le_trans le (UInt16.le_of_lt above), present⟩
    · rintro ⟨from_a, present⟩
      by_cases here : c = b
      · exact .inl here
      · exact .inr ⟨UInt16.lt_of_le_of_ne (least ⟨from_a, present⟩) (Ne.symm here), present⟩

/-! ### All of this together -/

/-- **Exact ranges.** Marking a range comes to some addresses, one after the other: as many as there
are steps from the first address to the last one, and one more. They are the addresses of the range,
each of them once, and what is done to one of them is done to no other address. -/
structure IsExactRange (first last : UInt16) (addresses : List UInt16) : Prop where
  length : addresses.length = (last - first).toNat + 1
  nodup : addresses.Nodup
  mem_iff : ∀ a, a ∈ addresses ↔ (a - first).toNat ≤ (last - first).toNat
  alterMarks : ∀ (m : Memory) (on off : UInt8), m.alterMarks first last on off =
    addresses.foldl (fun m a => m.setMarks a ((m.marksAt a &&& ~~~off) ||| on)) m
  marksAt : ∀ (m : Memory) (on off : UInt8) (a : UInt16),
    (m.alterMarks first last on off).marksAt a =
      if a ∈ addresses then (m.marksAt a &&& ~~~off) ||| on else m.marksAt a

/-- **A history of breakpoints.** The last operation that touches a breakpoint decides, and where
none touches it, it is as it was in the beginning. The other marks are those that the operations for
any marks leave, the bytes are those that writing leaves, and the marks are those that the other
operations leave, each whatever else has been in the memory. -/
structure KeepsBreakpoints (m : Memory) (history : List Edit) : Prop where
  isBreak : ∀ a, (m.edit history).isBreak a =
    ((history.filterMap fun e => e.setting? a).getLast?).getD (m.isBreak a)
  others : ∀ a, (m.edit history).marksAt a &&& ~~~breakMark =
    (m.edit (history.filter Edit.isSwitching)).marksAt a &&& ~~~breakMark
  bytes : ∀ marks, (m.edit history).data =
    (edit { m with marks := marks } (history.filter Edit.isWriting)).data
  marks : ∀ data, (m.edit history).marks =
    (edit { m with data := data } (history.filter fun e => !e.isWriting)).marks

/-- **Finding breakpoints.** A search finds the least breakpoint from the cursor on. If there is
none it says so and leaves the cursor. Searches one after the other from the bottom of memory find
all breakpoints, each of them once and in ascending order. -/
structure FindsBreakpoints (m : Memory) : Prop where
  found_iff : ∀ a b, m.seekBreak a = (true, b) ↔ IsLeast {c | a ≤ c ∧ m.isBreak c = true} b
  missed_iff : ∀ a b, m.seekBreak a = (false, b) ↔ b = a ∧ ∀ c, a ≤ c → m.isBreak c = false
  ascending : (m.breaksFrom 0).Pairwise (· < ·)
  mem_iff : ∀ c, c ∈ m.breaksFrom 0 ↔ m.isBreak c = true

/-- **Breakpoints are a set of addresses.** Ranges are exact, a history keeps the set, and searches
find it. -/
theorem breakpoints_are_a_set (m : Memory) (history : List Edit) :
    (∀ first last, IsExactRange first last (walk first last)) ∧ m.KeepsBreakpoints history ∧
      (m.edit history).FindsBreakpoints := by
  refine ⟨fun first last => ?_, ?_, ?_⟩
  · exact
      { length := length_walk first last
        nodup := nodup_walk first last
        mem_iff := fun _ => mem_walk
        alterMarks := fun m on off => m.alterMarks_eq_foldl first last on off
        marksAt := fun m on off a =>
          (m.marksAt_alterMarks first last on off a).trans (if_congr mem_walk.symm rfl rfl) }
  · exact
      { isBreak := m.isBreak_edit history
        others := m.others_edit history
        bytes := fun marks => data_edit (m := m) (n := { m with marks := marks }) rfl history
        marks := fun data => marks_edit (m := m) (n := { m with data := data }) rfl history }
  · obtain ⟨ascending, mem_iff⟩ := (m.edit history).breaksFrom_spec 0
    refine ⟨fun _ _ => seekBreak_found_iff, fun _ _ => seekBreak_missed_iff, ascending,
      fun c => ?_⟩
    rw [mem_iff]
    exact and_iff_right (UInt16.le_iff_toNat_le.2 (Nat.zero_le _))

end Memory

end Micro80
