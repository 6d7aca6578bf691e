import Micro80.Memory

/-!
# Program images

A program image is a collection of segments, each of them bytes for consecutive addresses starting
at the segment's origin. An image holds at most one segment for each origin and is loaded in
ascending order of origins, so where segments overlap the one with the higher origin wins.

## Main definitions

* `Image`, with `Image.insert`.
* `Memory.load`, `Memory.loadImage`.
-/

namespace Micro80

/-- **Program images.** Segments in strictly ascending order of their origins. -/
structure Image where
  /-- The origins and what is loaded there. -/
  segments : List (UInt16 × List UInt8)
  /-- Origins ascend, so each occurs once. -/
  ascending : segments.Pairwise fun s t => s.1 < t.1

namespace Image

/-- The image without segments. -/
def empty : Image := ⟨[], List.Pairwise.nil⟩

/-- Puts a segment into a list of segments at the place of its origin, in place of an earlier
segment with that origin. -/
def insertSegment (origin : UInt16) (bytes : List UInt8) :
    List (UInt16 × List UInt8) → List (UInt16 × List UInt8)
  | [] => [(origin, bytes)]
  | s :: rest =>
    if origin < s.1 then (origin, bytes) :: s :: rest
    else if origin = s.1 then (origin, bytes) :: rest
    else s :: insertSegment origin bytes rest

theorem mem_insertSegment {origin : UInt16} {bytes : List UInt8}
    {segments : List (UInt16 × List UInt8)} {t : UInt16 × List UInt8}
    (h : t ∈ insertSegment origin bytes segments) : t = (origin, bytes) ∨ t ∈ segments := by
  induction segments with
  | nil => simpa [insertSegment] using h
  | cons s rest ih =>
    rw [insertSegment] at h
    split at h
    · exact List.mem_cons.1 h
    · split at h
      · rcases List.mem_cons.1 h with h | h
        · exact .inl h
        · exact .inr (List.mem_cons_of_mem _ h)
      · rcases List.mem_cons.1 h with h | h
        · exact .inr (h ▸ List.mem_cons_self)
        · exact (ih h).imp_right (List.mem_cons_of_mem _)

theorem pairwise_insertSegment (origin : UInt16) (bytes : List UInt8)
    {segments : List (UInt16 × List UInt8)} (h : segments.Pairwise fun s t => s.1 < t.1) :
    (insertSegment origin bytes segments).Pairwise fun s t => s.1 < t.1 := by
  induction segments with
  | nil => simp [insertSegment]
  | cons s rest ih =>
    obtain ⟨head, tail⟩ := List.pairwise_cons.1 h
    rw [insertSegment]
    split
    · rename_i lt
      refine List.pairwise_cons.2 ⟨fun t ht => ?_, h⟩
      rcases List.mem_cons.1 ht with rfl | ht
      · exact lt
      · exact UInt16.lt_trans lt (head t ht)
    · split
      · rename_i eq
        exact List.pairwise_cons.2 ⟨fun t ht => eq ▸ head t ht, tail⟩
      · rename_i nlt neq
        refine List.pairwise_cons.2 ⟨fun t ht => ?_, ih tail⟩
        rcases mem_insertSegment ht with rfl | ht
        · exact UInt16.lt_of_le_of_ne (UInt16.not_lt.1 nlt) (Ne.symm neq)
        · exact head t ht

/-- **Adding a segment.** A segment replaces an earlier one with the same origin. -/
def insert (i : Image) (origin : UInt16) (bytes : List UInt8) : Image where
  segments := insertSegment origin bytes i.segments
  ascending := pairwise_insertSegment origin bytes i.ascending

/-- The number of bytes in all segments. -/
def size (i : Image) : Nat := i.segments.foldl (fun n s => n + s.2.length) 0

end Image

namespace Memory

/-- **Loading a segment.** Stores bytes one after the other starting at an address, wrapping around
at the top of memory. -/
def load (m : Memory) (origin : UInt16) : List UInt8 → Memory
  | [] => m
  | b :: rest => load (m.write origin b) (origin + 1) rest

/-- **Loading an image.** Loads the segments in ascending order of origins. -/
def loadImage (m : Memory) (i : Image) : Memory :=
  i.segments.foldl (fun m s => m.load s.1 s.2) m

end Memory

end Micro80
