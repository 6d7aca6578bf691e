import Micro80.Instruction.Operation
import Micro80.Memory

/-!
# Copying blocks within a circular memory

A block is copied byte by byte, in one direction or the other, and source and target may overlap.
A byte that is copied may therefore have been written by the same copying before. This happens
exactly if the target lies ahead of the source, less far than the block is long; then the bytes
between the two repeat all over the target. Otherwise the target becomes what the source was.

Addresses wrap around, so that "ahead" means the number of steps from one address to the other in
the direction of copying. A block is never longer than memory, or it would overwrite itself.

## Main definitions

* `Direction.along`, `Direction.distance`: walking through memory.
* `Memory.copy`: copying a block byte by byte.

## Main statements

* `Memory.read_copy_target`: what copying leaves in the target.
* `Memory.read_copy_of_ne`: nothing else changes.
-/

namespace Micro80

/-! ### Walking -/

namespace Direction

/-- The address some steps away from `a` in a direction. -/
def along (d : Direction) (a : UInt16) (i : Nat) : UInt16 :=
  match d with
  | up => a + UInt16.ofNat i
  | down => a - UInt16.ofNat i

/-- **Distances.** The number of steps from `a` to `b` in a direction. -/
def distance (d : Direction) (a b : UInt16) : Nat :=
  match d with
  | up => (b - a).toNat
  | down => (a - b).toNat

@[simp] theorem along_zero (d : Direction) (a : UInt16) : d.along a 0 = a := by
  cases d <;> simp [along]

theorem along_add (d : Direction) (a : UInt16) (i j : Nat) :
    d.along a (i + j) = d.along (d.along a i) j := by
  unfold along
  rw [UInt16.ofNat_add]
  cases d <;> grind

@[simp] theorem along_one (d : Direction) (a : UInt16) : d.along a 1 = d.next a := by
  cases d <;> rfl

theorem along_succ (d : Direction) (a : UInt16) (i : Nat) :
    d.along a (i + 1) = d.next (d.along a i) := by
  rw [along_add, along_one]

/-- A distance leads from one address to the other. -/
@[simp] theorem along_distance (d : Direction) (a b : UInt16) :
    d.along a (d.distance a b) = b := by
  unfold along distance
  cases d <;> grind [UInt16.ofNat_toNat]

theorem distance_lt (d : Direction) (a b : UInt16) : d.distance a b < 65536 := by
  cases d <;> exact UInt16.toNat_lt _

/-- A walk from an address is the end of a longer walk from any other one. -/
theorem along_eq_along (d : Direction) (a b : UInt16) (i : Nat) :
    d.along b i = d.along a (d.distance a b + i) := by
  rw [along_add, along_distance]

/-- Walks from the same address meet if they differ by whole rounds, and only then. -/
theorem along_inj {d : Direction} {a : UInt16} {i j : Nat} :
    d.along a i = d.along a j ↔ i % 65536 = j % 65536 := by
  have same : UInt16.ofNat i = UInt16.ofNat j ↔ i % 65536 = j % 65536 := by
    rw [← UInt16.toNat_inj, UInt16.toNat_ofNat', UInt16.toNat_ofNat']
  cases d with
  | up => exact (UInt16.add_right_inj a).trans same
  | down => exact (UInt16.sub_right_inj a).trans same

end Direction

/-! ### Copying -/

namespace Memory

/-- **Copying a block** of some bytes, one after the other. -/
def copy (d : Direction) (source target : UInt16) : (count : Nat) → Memory → Memory
  | 0, m => m
  | count + 1, m =>
    let m := m.copy d source target count
    m.write (d.along target count) (m.read (d.along source count))

variable {d : Direction} {source target : UInt16}

theorem copy_succ (m : Memory) (count : Nat) :
    m.copy d source target (count + 1) =
      (m.copy d source target count).write (d.along target count)
        ((m.copy d source target count).read (d.along source count)) := rfl

@[simp] theorem marks_copy (m : Memory) (count : Nat) :
    (m.copy d source target count).marks = m.marks := by
  induction count with
  | zero => rfl
  | succ count ih => rw [copy_succ, marks_write, ih]

/-- Copying changes nothing outside the target. -/
theorem read_copy_of_ne {m : Memory} {count : Nat} {a : UInt16}
    (h : ∀ i < count, a ≠ d.along target i) :
    (m.copy d source target count).read a = m.read a := by
  induction count with
  | zero => rfl
  | succ count ih =>
    rw [copy_succ, read_write, if_neg (h count (Nat.lt_succ_self count))]
    exact ih fun i hi => h i (Nat.lt_succ_of_lt hi)

/-- The byte to be copied next has not been written before, unless the target lies ahead of the
source and has been reached. -/
theorem source_ne_target {count i : Nat} (bound : count < 65536) (hi : i < count)
    (apart : d.distance source target = 0 ∨ count < d.distance source target) :
    d.along source count ≠ d.along target i := by
  have near := d.distance_lt source target
  intro meet
  rw [d.along_eq_along source target, Direction.along_inj] at meet
  omega

/-- **What copying leaves in the target.** Bytes repeat after as many as lie between the source and
a target ahead of it. -/
theorem read_copy_target (m : Memory) {count i : Nat} (bound : count ≤ 65536) (hi : i < count) :
    (m.copy d source target count).read (d.along target i) =
      m.read (d.along source (i % d.distance source target)) := by
  -- By induction on the length of the block, for all of its bytes at once: what is read for the
  -- last byte may be any byte that has been written before it.
  induction count generalizing i with
  | zero => cases hi
  | succ count ih =>
    have before : count ≤ 65536 := by omega
    rw [copy_succ, read_write]
    by_cases last : i = count
    · subst last
      rw [if_pos rfl]
      by_cases apart : d.distance source target = 0 ∨ i < d.distance source target
      · -- It is still the byte that was there before the copying.
        have itself : i % d.distance source target = i := by
          obtain none | ahead := apart
          · rw [none, Nat.mod_zero]
          · exact Nat.mod_eq_of_lt ahead
        rw [itself]
        exact read_copy_of_ne fun j hj => source_ne_target (by omega) hj apart
      · -- It was written by the copying, earlier by the distance.
        rw [not_or, Nat.not_lt] at apart
        obtain ⟨positive, le⟩ := apart
        have written : d.along source i =
            d.along target (i - d.distance source target) := by
          rw [d.along_eq_along source target]
          congr 1
          omega
        rw [written, ih before (by omega), ← Nat.mod_eq_sub_mod le]
    · have other : d.along target i ≠ d.along target count := by
        rw [Ne, Direction.along_inj]
        omega
      rw [if_neg other]
      exact ih before (by omega)

end Memory

end Micro80
