import Mathlib.Algebra.GroupWithZero.Nat
import Micro80.Memory.Image
import Micro80.Memory.Inspect

/-!
# What loading leaves in memory

Bytes that are loaded may come to lie on others: on those of a segment with a lower origin, on those
of a segment that has run over the top of memory, and on those of the same segment if it is longer
than memory. Whichever is loaded last stays. So at each address that any segment covers there is the
byte that comes last in the segment with the highest origin among those that cover the address.

## Main definitions

* `Image.Places`, `Image.Covers`: the addresses at which a segment has bytes.
* `Image.IsLastWriter`: the byte of an image that stays at an address.

## Main statements

* `Memory.read_load_cases`: what loading a segment leaves at an address.
* `Memory.bytesFrom_load`: a segment that is not longer than memory can be read back.
* `Memory.loadImage_last_writer`: what loading an image leaves at every address.
-/

namespace Micro80

namespace Image

/-! ### Where segments lie -/

/-- **Placing.** A segment has its byte with the number `i` for an address. Addresses are counted
from the origin and begin anew at the top of memory. -/
def Places (s : UInt16 × List UInt8) (i : Nat) (a : UInt16) : Prop :=
  i < s.2.length ∧ (s.1.toNat + i) % 65536 = a.toNat

/-- A segment covers the addresses for which it has bytes. -/
def Covers (s : UInt16 × List UInt8) (a : UInt16) : Prop := ∃ i, Places s i a

variable {origin a : UInt16} {b : UInt8} {bytes rest : List UInt8} {i : Nat}

theorem places_mk : Places (origin, bytes) i a ↔
    i < bytes.length ∧ (origin.toNat + i) % 65536 = a.toNat := Iff.rfl

theorem not_covers_nil : ¬ Covers (origin, []) a := by
  rintro ⟨i, h, -⟩
  cases h

/-- The first byte lies at the origin. -/
theorem places_zero : Places (origin, b :: rest) 0 a ↔ origin = a := by
  have small := origin.toNat_lt
  rw [← UInt16.toNat_inj]
  constructor
  · rintro ⟨-, h⟩
    rwa [Nat.add_zero, Nat.mod_eq_of_lt small] at h
  · intro h
    exact ⟨Nat.succ_pos _, by rwa [Nat.add_zero, Nat.mod_eq_of_lt small]⟩

/-- The other bytes lie where they would as a segment that starts one address further up. -/
theorem places_succ :
    Places (origin, b :: rest) (i + 1) a ↔ Places (origin + 1, rest) i a := by
  have next : (origin + 1).toNat = (origin.toNat + 1) % 65536 := UInt16.toNat_add origin 1
  rw [places_mk, places_mk, List.length_cons, next]
  omega

theorem covers_cons :
    Covers (origin, b :: rest) a ↔ origin = a ∨ Covers (origin + 1, rest) a := by
  constructor
  · rintro ⟨_ | i, h⟩
    · exact .inl (places_zero.1 h)
    · exact .inr ⟨i, places_succ.1 h⟩
  · rintro (h | ⟨i, h⟩)
    · exact ⟨0, places_zero.2 h⟩
    · exact ⟨i + 1, places_succ.2 h⟩

/-- A segment that is not longer than memory has no more than one byte for an address. -/
theorem Places.eq {s : UInt16 × List UInt8} {i j : Nat} (short : s.2.length ≤ 65536)
    (hi : Places s i a) (hj : Places s j a) : i = j := by
  obtain ⟨hi, at_i⟩ := hi
  obtain ⟨hj, at_j⟩ := hj
  omega

/-! ### Last writers -/

/-- **The last byte** that a segment has for an address is the one with the number `i`. -/
structure IsLastPlace (s : UInt16 × List UInt8) (i : Nat) (a : UInt16) : Prop where
  places : Places s i a
  le_of_places : ∀ j, Places s j a → j ≤ i

/-- The last place of a segment is found without its first byte, if any other byte lies there. -/
theorem IsLastPlace.succ (h : IsLastPlace (origin + 1, rest) i a) :
    IsLastPlace (origin, b :: rest) (i + 1) a where
  places := places_succ.2 h.places
  le_of_places := by
    rintro (_ | j) hj
    · exact Nat.zero_le _
    · exact Nat.succ_le_succ (h.le_of_places j (places_succ.1 hj))

/-- The first byte of a segment is the last at its address if no other byte lies there. -/
theorem isLastPlace_zero (none : ¬ Covers (origin + 1, rest) origin) :
    IsLastPlace (origin, b :: rest) 0 origin where
  places := places_zero.2 rfl
  le_of_places := by
    rintro (_ | j) hj
    · exact Nat.le_refl 0
    · exact absurd ⟨j, places_succ.1 hj⟩ none

/-- **Last writers.** Of all segments of an image that cover an address, `s` is the one with the
highest origin, and the byte with the number `i` is the last that it has for the address. -/
structure IsLastWriter (image : Image) (s : UInt16 × List UInt8) (i : Nat) (a : UInt16) :
    Prop where
  mem : s ∈ image.segments
  highest : ∀ t ∈ image.segments, Covers t a → t.1 ≤ s.1
  last : IsLastPlace s i a

/-- The size of an image is the sum of the lengths of its segments. -/
theorem size_eq_sum (image : Image) :
    image.size = (image.segments.map fun s => s.2.length).sum := by
  unfold size
  rw [List.sum_eq_foldl, List.foldl_map]

end Image

namespace Memory

open Image

/-! ### Loading a segment -/

@[simp] theorem marks_load (m : Memory) (origin : UInt16) (bytes : List UInt8) :
    (m.load origin bytes).marks = m.marks := by
  induction bytes generalizing m origin with
  | nil => rfl
  | cons b rest ih => rw [load, ih, marks_write]

/-- **What loading a segment leaves at an address:** the last byte that the segment has for it, or
what has been there before. -/
theorem read_load_cases (m : Memory) (origin : UInt16) (bytes : List UInt8) (a : UInt16) :
    (∃ i, IsLastPlace (origin, bytes) i a ∧ bytes[i]? = some ((m.load origin bytes).read a)) ∨
      ¬ Covers (origin, bytes) a ∧ (m.load origin bytes).read a = m.read a := by
  induction bytes generalizing m origin with
  | nil => exact .inr ⟨not_covers_nil, rfl⟩
  | cons b rest ih =>
    rw [load]
    rcases ih (m.write origin b) (origin + 1) with ⟨i, last, found⟩ | ⟨none, stays⟩
    · exact .inl ⟨i + 1, last.succ, found⟩
    · rw [stays, read_write]
      by_cases first : a = origin
      · subst first
        exact .inl ⟨0, isLastPlace_zero none, by rw [if_pos rfl]; rfl⟩
      · refine .inr ⟨?_, if_neg first⟩
        rw [covers_cons, not_or]
        exact ⟨Ne.symm first, none⟩

/-- **Reading back** what has been loaded. -/
theorem bytesFrom_load (m : Memory) (origin : UInt16) {bytes : List UInt8}
    (short : bytes.length ≤ 65536) :
    (m.load origin bytes).bytesFrom origin bytes.length = bytes := by
  refine List.ext_getElem (by simp [bytesFrom]) fun i inside' inside => ?_
  have places : Places (origin, bytes) i (origin + UInt16.ofNat i) := by
    rw [places_mk, UInt16.toNat_add, UInt16.toNat_ofNat', Nat.add_mod_mod]
    exact ⟨inside, rfl⟩
  rcases m.read_load_cases origin bytes (origin + UInt16.ofNat i) with ⟨j, last, found⟩ | ⟨none, -⟩
  · rw [last.places.eq short places, List.getElem?_eq_getElem inside] at found
    rw [Option.some.inj found]
    simp [bytesFrom, ahead]
  · exact absurd ⟨i, places⟩ none

/-! ### Loading an image -/

theorem marks_loadImage (m : Memory) (image : Image) :
    (m.loadImage image).marks = m.marks := by
  unfold loadImage
  induction image.segments generalizing m with
  | nil => rfl
  | cons s rest ih => rw [List.foldl_cons, ih, marks_load]

/-- What loading segments one after the other leaves at an address: the last byte of the last
segment that covers it, or what has been there before. -/
theorem read_foldl_load_cases (segments : List (UInt16 × List UInt8)) (m : Memory) (a : UInt16) :
    let r := (segments.foldl (fun m s => m.load s.1 s.2) m).read a
    (∃ before s after i, segments = before ++ s :: after ∧ (∀ t ∈ after, ¬ Covers t a) ∧
        IsLastPlace s i a ∧ s.2[i]? = some r) ∨
      (∀ s ∈ segments, ¬ Covers s a) ∧ r = m.read a := by
  intro r
  induction segments generalizing m with
  | nil => exact .inr ⟨nofun, rfl⟩
  | cons s rest ih =>
    rcases ih (m.load s.1 s.2) with ⟨before, t, after, i, rfl, later, last, found⟩ | ⟨none, stays⟩
    · exact .inl ⟨s :: before, t, after, i, rfl, later, last, found⟩
    · -- No later segment reaches the address, so the first one decides.
      have decides : r = (m.load s.1 s.2).read a := stays
      rw [decides]
      rcases m.read_load_cases s.1 s.2 a with ⟨i, last, found⟩ | ⟨uncovered, same⟩
      · exact .inl ⟨[], s, rest, i, rfl, none, last, found⟩
      · exact .inr ⟨List.forall_mem_cons.2 ⟨uncovered, none⟩, same⟩

/-- **The last writer stays.** After an image has been loaded there is at each address the byte of
its last writer, or what has been there before if no segment covers the address. Marks stay as they
are, and the bytes are counted. A single segment that is not longer than memory can be read back
after it has been loaded. -/
theorem loadImage_last_writer (m : Memory) (image : Image) :
    let after := m.loadImage image
    (∀ a, (∃ s i, image.IsLastWriter s i a ∧ s.2[i]? = some (after.read a)) ∨
      (∀ s ∈ image.segments, ¬ Covers s a) ∧ after.read a = m.read a) ∧
    after.marks = m.marks ∧
    image.size = (image.segments.map fun s => s.2.length).sum ∧
    ∀ (origin : UInt16) (bytes : List UInt8), bytes.length ≤ 65536 →
      (m.load origin bytes).bytesFrom origin bytes.length = bytes := by
  intro after
  refine ⟨fun a => ?_, m.marks_loadImage image, image.size_eq_sum,
    fun origin bytes short => m.bytesFrom_load origin short⟩
  rcases read_foldl_load_cases image.segments m a with
    ⟨before, s, behind, i, split, later, last, found⟩ | unchanged
  · refine .inl ⟨s, i, ⟨?_, fun t mem covers => ?_, last⟩, found⟩
    · rw [split]
      exact List.mem_append_right before List.mem_cons_self
    · -- A segment before `s` has a lower origin, and those after it do not cover the address.
      have ascending := image.ascending
      rw [split] at ascending mem
      rcases List.mem_append.1 mem with earlier | here
      · exact UInt16.le_of_lt
          ((List.pairwise_append.1 ascending).2.2 t earlier s List.mem_cons_self)
      · rcases List.mem_cons.1 here with rfl | among
        · exact UInt16.le_refl _
        · exact absurd covers (later t among)
  · exact .inr unchanged

/-- An image whose second segment runs over the top of memory into the first one. -/
def wrapping : Image := (Image.empty.insert 0 [1, 2, 3]).insert 0xFFFE [9, 8, 7]

/-- The byte of the higher origin stays, and three bytes across the top of memory are read back. -/
theorem loadImage_last_writer_wrapping :
    let after := blank.loadImage wrapping
    (∃ s i, wrapping.IsLastWriter s i 0 ∧ s.2[i]? = some (after.read 0)) ∧ after.read 0 = 7 ∧
      wrapping.size = 6 ∧ ([9, 8, 7] : List UInt8).length ≤ 65536 ∧
      (blank.load 0xFFFE [9, 8, 7]).bytesFrom 0xFFFE 3 = [9, 8, 7] := by
  intro after
  obtain ⟨cells, -, count, back⟩ := loadImage_last_writer blank wrapping
  have short : ([9, 8, 7] : List UInt8).length ≤ 65536 := by decide
  refine ⟨?_, by decide +kernel, count, short, back 0xFFFE [9, 8, 7] short⟩
  rcases cells 0 with written | ⟨none, -⟩
  · exact written
  · have mem : ((0xFFFE, [9, 8, 7]) : UInt16 × List UInt8) ∈ wrapping.segments := by decide
    exact absurd ⟨2, by decide, by decide⟩ (none _ mem)

end Memory

end Micro80
