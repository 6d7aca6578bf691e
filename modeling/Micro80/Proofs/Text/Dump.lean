import Micro80.Proofs.Text.Number
import Micro80.Text.Dump

/-!
# Reading dumps

A dump can be read back: its lines end with line feeds and have none inside, the address of a line
ends before the first stroke, and the bytes of a line stand in columns of a fixed width. What comes
after the columns has one character for each byte, so that it tells how many of the columns are
used. Of the addresses only those that are wanted have to be read.

## Main definitions

* `Text.row`: a line of a dump after a given address, without the line feed.
* `Text.chunk`: the bytes of a line.

## Main statements

* `Text.dumpLines_eq`, `Text.lines_flatten`: the lines of a dump.
* `Text.row_inj`: a line determines its address and its bytes.
* `Text.dump_inj`: a dump determines its bytes and the address of its first line.
-/

namespace Micro80

namespace Text

/-! ### Lines -/

/-- What stands in front of the first separator is determined. -/
theorem append_cons_inj {c : UInt8} {s t u v : Text} (hs : c ∉ s) (ht : c ∉ t)
    (h : s ++ c :: u = t ++ c :: v) : s = t ∧ u = v := by
  induction s generalizing t with
  | nil =>
    cases t with
    | nil => exact ⟨rfl, (List.cons_inj_right c).1 h⟩
    | cons d t =>
      cases h
      exact absurd List.mem_cons_self ht
  | cons b s ih =>
    cases t with
    | nil =>
      cases h
      exact absurd List.mem_cons_self hs
    | cons d t =>
      obtain ⟨rfl, rest⟩ := List.cons_eq_cons.1 h
      obtain ⟨rfl, rfl⟩ := ih (fun mem => hs (List.mem_cons_of_mem _ mem))
        (fun mem => ht (List.mem_cons_of_mem _ mem)) rest
      exact ⟨rfl, rfl⟩

/-- What stands in front of the first line feed is the first line. -/
theorem lines_append_newline {t : Text} (h : newline ∉ t) (rest : Text) :
    lines (t ++ newline :: rest) = t :: lines rest := by
  induction t with
  | nil => rw [List.nil_append, lines, if_pos rfl]
  | cons c t ih =>
    have other : c ≠ newline := fun same => h (same ▸ List.mem_cons_self)
    rw [List.cons_append, lines, if_neg other, ih fun mem => h (List.mem_cons_of_mem c mem)]

/-- **Lines that are put one after the other,** each with a line feed, are those of the whole. -/
theorem lines_flatten {rows : List Text} (h : ∀ r ∈ rows, newline ∉ r) :
    lines (rows.map (· ++ [newline])).flatten = rows := by
  induction rows with
  | nil => rfl
  | cons r rest ih =>
    obtain ⟨first, others⟩ := List.forall_mem_cons.1 h
    rw [List.map_cons, List.flatten_cons, List.append_assoc, List.singleton_append,
      lines_append_newline first, ih others]

/-! ### Rows -/

/-- The bytes of a dump in their columns. -/
def columns (bytes : List UInt8) : Text := bytes.flatMap fun b => blank :: hex 2 b.toNat

/-- **Rows.** A line of a dump after what stands for the address, without the line feed: a stroke,
the bytes in hexadecimal padded to the width of a whole line, and the bytes as characters. -/
def row (address : Text) (bytes : List UInt8) : Text :=
  address ++ ascii "/" ++ padRight (3 * dumpWidth) (columns bytes) ++ ascii "  "
    ++ bytes.map shown

/-- A digit is neither a stroke nor a line feed. -/
theorem not_of_mem_hex {width n : Nat} {c : UInt8} (h : c ∈ hex width n) :
    c ≠ 47 ∧ c ≠ newline := by
  obtain ⟨k, hk, rfl⟩ := exists_digit_of_mem_numeral (by decide) h
  have all : ∀ k < 16, digit k ≠ 47 ∧ digit k ≠ newline := by decide
  exact all k hk

/-- No character that is shown for a byte ends the line. -/
theorem shown_ne_newline (b : UInt8) : shown b ≠ newline := by
  revert b
  exact forall_byte (by decide +kernel)

theorem newline_notMem_columns (bytes : List UInt8) : newline ∉ columns bytes := by
  intro mem
  obtain ⟨b, -, mem⟩ := List.mem_flatMap.1 mem
  rcases List.mem_cons.1 mem with here | digits
  · cases here
  · exact (not_of_mem_hex digits).2 rfl

/-- A row is a single line. -/
theorem newline_notMem_row {address : Text} (h : newline ∉ address) (bytes : List UInt8) :
    newline ∉ row address bytes := by
  unfold row padRight
  simp only [List.mem_append, not_or]
  refine ⟨⟨⟨⟨h, by decide⟩, newline_notMem_columns bytes, ?_⟩, by decide⟩, ?_⟩
  · intro mem
    cases (List.mem_replicate.1 mem).2
  · intro mem
    obtain ⟨b, -, same⟩ := List.mem_map.1 mem
    exact shown_ne_newline b same

/-! ### Reading a row -/

theorem length_hex_two (b : UInt8) : (hex 2 b.toNat).length = 2 :=
  length_numeral (by decide) b.toNat_lt

/-- A byte is determined by its two digits. -/
theorem hex_two_inj {b b' : UInt8} (h : hex 2 b.toNat = hex 2 b'.toNat) : b = b' := by
  have bound (b : UInt8) : b.toNat < 16 ^ (1 + 1) := b.toNat_lt
  exact UInt8.toNat_inj.1 (numeral_inj (by decide) (by decide) (bound b) (bound b') h)

/-- Each column has the same width. -/
theorem length_columns (bytes : List UInt8) : (columns bytes).length = 3 * bytes.length := by
  unfold columns
  induction bytes with
  | nil => rfl
  | cons b rest ih =>
    rw [List.flatMap_cons, List.length_append, ih, List.length_cons, List.length_cons,
      length_hex_two]
    omega

/-- The columns determine the bytes. -/
theorem columns_inj {bytes bytes' : List UInt8} (h : columns bytes = columns bytes') :
    bytes = bytes' := by
  induction bytes generalizing bytes' with
  | nil =>
    have length := congrArg List.length h
    rw [length_columns, length_columns] at length
    exact (List.length_eq_zero_iff.1 (Nat.eq_of_mul_eq_mul_left (by decide) length.symm)).symm
  | cons b rest ih =>
    obtain _ | ⟨b', rest'⟩ := bytes'
    · cases h
    · unfold columns at h
      rw [List.flatMap_cons, List.flatMap_cons] at h
      obtain ⟨first, others⟩ := List.append_inj h (by
        rw [List.length_cons, List.length_cons, length_hex_two, length_hex_two])
      rw [hex_two_inj ((List.cons_inj_right blank).1 first), ih others]

/-- The columns of a line are padded to the same width. -/
theorem length_padRight_columns {bytes : List UInt8} (short : bytes.length ≤ dumpWidth) :
    (padRight (3 * dumpWidth) (columns bytes)).length = 3 * dumpWidth := by
  rw [padRight, List.length_append, List.length_replicate, length_columns]
  omega

/-- **A row determines** what stands for its address and its bytes. -/
theorem row_inj {address address' : Text} {bytes bytes' : List UInt8} (clear : 47 ∉ address)
    (clear' : 47 ∉ address') (short : bytes.length ≤ dumpWidth)
    (short' : bytes'.length ≤ dumpWidth) (h : row address bytes = row address' bytes') :
    address = address' ∧ bytes = bytes' := by
  have opened (address : Text) (bytes : List UInt8) : row address bytes = address ++ 47 ::
      (padRight (3 * dumpWidth) (columns bytes) ++ (ascii "  " ++ bytes.map shown)) := by
    unfold row
    simp only [List.append_assoc]
    rfl
  rw [opened, opened] at h
  obtain ⟨same, rest⟩ := append_cons_inj clear clear' h
  obtain ⟨padded, shown⟩ := List.append_inj rest (by
    rw [length_padRight_columns short, length_padRight_columns short'])
  -- As many characters are shown as columns are used.
  have length := congrArg List.length (List.append_cancel_left shown)
  rw [List.length_map, List.length_map] at length
  obtain ⟨used, -⟩ := List.append_inj padded (by rw [length_columns, length_columns, length])
  exact ⟨same, columns_inj used⟩

/-! ### Dumps -/

/-- The bytes of the line of a dump with a given number. -/
def chunk (bytes : List UInt8) (k : Nat) : List UInt8 := (bytes.drop (dumpWidth * k)).take dumpWidth

theorem length_chunk_le (bytes : List UInt8) (k : Nat) : (chunk bytes k).length ≤ dumpWidth :=
  List.length_take_le _ _

/-- The bytes of all lines are all bytes. -/
theorem chunk_inj {bytes bytes' : List UInt8} (h : ∀ k, chunk bytes k = chunk bytes' k) :
    bytes = bytes' := by
  have entry (bytes : List UInt8) (i : Nat) :
      bytes[i]? = (chunk bytes (i / dumpWidth))[i % dumpWidth]? := by
    rw [chunk, List.getElem?_take, if_pos (Nat.mod_lt _ (by decide)), List.getElem?_drop,
      Nat.div_add_mod]
  refine List.ext_getElem? fun i => ?_
  rw [entry bytes, entry bytes', h]

/-- The number of lines of a dump. -/
def lineCount (n : Nat) : Nat := (n + (dumpWidth - 1)) / dumpWidth

theorem chunk_eq_nil {bytes : List UInt8} {k : Nat} (h : lineCount bytes.length ≤ k) :
    chunk bytes k = [] := by
  unfold lineCount dumpWidth at h
  rw [chunk, List.drop_eq_nil_of_le (by unfold dumpWidth; omega), List.take_nil]

/-- **The lines of a dump.** -/
theorem dumpLines_eq (address : Nat) (bytes : List UInt8) :
    dumpLines address bytes = (List.range (lineCount bytes.length)).map fun k =>
      dumpLine (address + dumpWidth * k) (chunk bytes k) := by
  fun_induction dumpLines address bytes with
  | case1 address bytes empty =>
    rw [List.isEmpty_iff.1 empty]
    rfl
  | case2 address bytes nonempty ih =>
    have positive : 0 < bytes.length := List.length_pos_iff.2 (by simpa using nonempty)
    have count : lineCount bytes.length = lineCount (bytes.drop dumpWidth).length + 1 := by
      rw [List.length_drop]
      unfold lineCount dumpWidth
      omega
    rw [ih, count, List.range_succ_eq_map, List.map_cons, List.map_map]
    congr 1
    refine List.map_congr_left fun k _ => ?_
    dsimp only [Function.comp, chunk]
    rw [List.drop_drop, Nat.mul_succ, Nat.add_comm (dumpWidth * k), Nat.add_assoc]

/-- The rows of a dump without a title. -/
theorem dump_eq (address : Nat) (bytes : List UInt8) :
    dump none address bytes = (((List.range (lineCount bytes.length)).map fun k =>
      row (hex 4 ((address + dumpWidth * k) % 0x100000000)) (chunk bytes k)).map
        (· ++ [newline])).flatten := by
  rw [dump, dumpLines_eq, List.nil_append, List.map_map]
  rfl

theorem lines_dump (address : Nat) (bytes : List UInt8) :
    lines (dump none address bytes) = (List.range (lineCount bytes.length)).map fun k =>
      row (hex 4 ((address + dumpWidth * k) % 0x100000000)) (chunk bytes k) := by
  rw [dump_eq]
  refine lines_flatten fun r mem => ?_
  obtain ⟨k, -, rfl⟩ := List.mem_map.1 mem
  exact newline_notMem_row (fun mem => (not_of_mem_hex mem).2 rfl) _

/-- **A dump determines its bytes,** and the address of its first line if it has one. -/
theorem dump_inj {address address' : Nat} {bytes bytes' : List UInt8}
    (h : dump none address bytes = dump none address' bytes') :
    bytes = bytes' ∧ (bytes ≠ [] →
      hex 4 (address % 0x100000000) = hex 4 (address' % 0x100000000)) := by
  have rows := congrArg lines h
  rw [lines_dump, lines_dump] at rows
  have count : lineCount bytes.length = lineCount bytes'.length := by
    simpa using congrArg List.length rows
  rw [← count, List.map_inj_left] at rows
  have clear (n : Nat) : 47 ∉ hex 4 n := fun mem => (not_of_mem_hex mem).1 rfl
  have same (k : Nat) (hk : k < lineCount bytes.length) :=
    row_inj (clear _) (clear _) (length_chunk_le bytes k) (length_chunk_le bytes' k)
      (rows k (List.mem_range.2 hk))
  have bytes_eq : bytes = bytes' := by
    refine chunk_inj fun k => ?_
    by_cases hk : k < lineCount bytes.length
    · exact (same k hk).2
    · rw [chunk_eq_nil (Nat.not_lt.1 hk), chunk_eq_nil (count ▸ Nat.not_lt.1 hk)]
  refine ⟨bytes_eq, fun nonempty => ?_⟩
  have positive := List.length_pos_iff.2 nonempty
  exact (same 0 (by unfold lineCount dumpWidth; omega)).1

end Text

end Micro80
