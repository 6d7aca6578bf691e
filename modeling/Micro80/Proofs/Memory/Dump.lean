import Micro80.Memory.Inspect
import Micro80.Proofs.Text.Dump

/-!
# What dumps of memory show

A dump takes its bytes from the memory, whose addresses wrap around, but the address of a line is
counted on from the first address without wrapping around. So the bytes are always the right ones,
and the dump can be read back, but after the top of memory the addresses have a digit too many.

## Main definitions

* `Memory.rowBytes`: the bytes of a line.
* `Memory.DumpsWith`: a dump whose lines have given addresses.

## Main statements

* `Memory.dumpsWith`: the lines of a dump.
* `Memory.dumpsWith_wrapped_iff`: when the addresses of all lines are those of their first bytes.
* `Memory.dump_reads_back`: a dump loses nothing, and what its lines are.
-/

namespace Micro80

namespace Memory

/-! ### Lines -/

/-- The bytes of the line with a given number: those at the distances `16 * k` up to
`16 * k + 15` from the first address, as far as they belong to the dump. -/
def rowBytes (m : Memory) (first : UInt16) (n k : Nat) : List UInt8 :=
  (List.range' (16 * k) (min 16 (n - 16 * k))).map (m.ahead first)

theorem chunk_bytesFrom (m : Memory) (first : UInt16) (n k : Nat) :
    Text.chunk (m.bytesFrom first n) k = m.rowBytes first n k := by
  unfold Text.chunk bytesFrom rowBytes
  rw [← List.map_drop, ← List.map_take, List.range_eq_range', List.drop_range', Nat.zero_add,
    Nat.mul_one]
  -- The last line may be shorter than the others.
  rcases Nat.le_total 16 (n - 16 * k) with full | short
  · rw [Nat.min_eq_left full]
    exact congrArg _ (List.take_range'_of_length_ge full)
  · rw [Nat.min_eq_right short]
    exact congrArg _ (List.take_range'_of_length_le short)

theorem length_bytesFrom (m : Memory) (first : UInt16) (n : Nat) :
    (m.bytesFrom first n).length = n := by
  rw [bytesFrom, List.length_map, List.length_range]

/-- **Dumps with addresses.** A dump consists of as many lines as its bytes need, and each line
begins with its address, in at least four digits, and goes on with its bytes. -/
structure DumpsWith (m : Memory) (first : UInt16) (n : Nat) (address : Nat → Nat) : Prop where
  text : m.dump first n = (((List.range (Text.lineCount n)).map fun k =>
    Text.row (Text.hex 4 (address k)) (m.rowBytes first n k)).map
      (· ++ [Text.newline])).flatten
  lines : Text.lines (m.dump first n) = (List.range (Text.lineCount n)).map fun k =>
    Text.row (Text.hex 4 (address k)) (m.rowBytes first n k)

/-- **The lines of a dump.** Their addresses are counted on from the first one. -/
theorem dumpsWith (m : Memory) (first : UInt16) (n : Nat) :
    m.DumpsWith first n fun k => (first.toNat + 16 * k) % 0x100000000 := by
  have text := Text.dump_eq first.toNat (m.bytesFrom first n)
  have lines := Text.lines_dump first.toNat (m.bytesFrom first n)
  simp only [chunk_bytesFrom, length_bytesFrom] at text lines
  exact ⟨text, lines⟩

/-! ### Addresses -/

theorem length_rowBytes_le (m : Memory) (first : UInt16) (n k : Nat) :
    (m.rowBytes first n k).length ≤ Text.dumpWidth := by
  rw [rowBytes, List.length_map, List.length_range']
  exact Nat.min_le_left _ _

/-- The addresses of the lines are determined, as they are written. -/
theorem DumpsWith.hex_eq {m : Memory} {first : UInt16} {n : Nat} {address address' : Nat → Nat}
    (h : m.DumpsWith first n address) (h' : m.DumpsWith first n address') {k : Nat}
    (hk : k < Text.lineCount n) : Text.hex 4 (address k) = Text.hex 4 (address' k) := by
  have rows := h.lines.symm.trans h'.lines
  rw [List.map_inj_left] at rows
  have short := m.length_rowBytes_le first n k
  have clear (n : Nat) : 47 ∉ Text.hex 4 n := fun mem => (Text.not_of_mem_hex mem).1 rfl
  exact (Text.row_inj (clear _) (clear _) short short (rows k (List.mem_range.2 hk))).1

/-- **Where all addresses are right.** Each line begins with the address of its first byte if and
only if no line begins above the top of memory. -/
theorem dumpsWith_wrapped_iff {m : Memory} {first : UInt16} {n : Nat} :
    (m.DumpsWith first n fun k => (first + UInt16.ofNat (16 * k)).toNat) ↔
      ∀ k < Text.lineCount n, first.toNat + 16 * k < 65536 := by
  have wrapped (k : Nat) :
      (first + UInt16.ofNat (16 * k)).toNat = (first.toNat + 16 * k) % 65536 := by
    rw [UInt16.toNat_add, UInt16.toNat_ofNat', Nat.add_mod_mod]
  constructor
  · intro right k hk
    refine Nat.lt_of_not_le fun above => ?_
    have := first.toNat_lt
    -- The first line above the top is at most fifteen addresses above it.
    obtain ⟨j, le, lower, upper⟩ : ∃ j ≤ k, 65536 ≤ first.toNat + 16 * j ∧
        first.toNat + 16 * j < 65536 + 16 := ⟨(65536 - first.toNat + 15) / 16, by omega⟩
    have same := right.hex_eq (m.dumpsWith first n) (Nat.lt_of_le_of_lt le hk)
    have short : (Text.hex 4 (first + UInt16.ofNat (16 * j)).toNat).length = 4 :=
      Text.length_numeral (by decide) (UInt16.toNat_lt _)
    have long : 4 < (Text.hex 4 ((first.toNat + 16 * j) % 0x100000000)).length :=
      Text.lt_length_numeral (by decide) (by rw [Nat.mod_eq_of_lt (by omega)]; exact lower)
    rw [← same, short] at long
    exact Nat.lt_irrefl 4 long
  · intro below
    obtain ⟨text, lines⟩ := m.dumpsWith first n
    have same : ((List.range (Text.lineCount n)).map fun k =>
          Text.row (Text.hex 4 ((first.toNat + 16 * k) % 0x100000000)) (m.rowBytes first n k)) =
        (List.range (Text.lineCount n)).map fun k =>
          Text.row (Text.hex 4 (first + UInt16.ofNat (16 * k)).toNat) (m.rowBytes first n k) := by
      refine List.map_congr_left fun k mem => ?_
      have := below k (List.mem_range.1 mem)
      rw [wrapped, Nat.mod_eq_of_lt (by omega), Nat.mod_eq_of_lt this]
    rw [same] at text lines
    exact ⟨text, lines⟩

/-! ### Reading back -/

/-- **A dump determines** the number of its bytes, the bytes, and if there are any the first
address. -/
theorem dump_inj {m m' : Memory} {first first' : UInt16} {n n' : Nat}
    (h : m.dump first n = m'.dump first' n') :
    n = n' ∧ m.bytesFrom first n = m'.bytesFrom first' n' ∧ (0 < n → first = first') := by
  obtain ⟨bytes, address⟩ := Text.dump_inj h
  have length := congrArg List.length bytes
  rw [length_bytesFrom, length_bytesFrom] at length
  refine ⟨length, bytes, fun positive => UInt16.toNat_inj.1 ?_⟩
  have nonempty : m.bytesFrom first n ≠ [] :=
    List.length_pos_iff.1 (by rwa [length_bytesFrom])
  have digits := address nonempty
  have bound (a : UInt16) : a.toNat < 16 ^ (3 + 1) := a.toNat_lt
  have small (a : UInt16) : a.toNat % 0x100000000 = a.toNat :=
    Nat.mod_eq_of_lt (Nat.lt_trans a.toNat_lt (by decide))
  rw [small, small] at digits
  exact Text.numeral_inj (by decide) (by decide) (bound first) (bound first') digits

/-- **A dump loses nothing,** but it does not always show real addresses. Whatever the memory, the
first address and the number of bytes are, the dump has a line for each sixteen bytes, with the
bytes in hexadecimal and as characters, and no other dump has the same text. The addresses at the
beginning of the lines are counted on from the first one. They are the addresses of the first bytes
of the lines if and only if no line begins above the top of memory. -/
theorem dump_reads_back (m : Memory) (first : UInt16) (n : Nat) :
    (m.DumpsWith first n fun k => (first.toNat + 16 * k) % 0x100000000) ∧
      (∀ (m' : Memory) (first' : UInt16) (n' : Nat), m.dump first n = m'.dump first' n' →
        n = n' ∧ m.bytesFrom first n = m'.bytesFrom first' n' ∧ (0 < n → first = first')) ∧
      ((m.DumpsWith first n fun k => (first + UInt16.ofNat (16 * k)).toNat) ↔
        ∀ k < Text.lineCount n, first.toNat + 16 * k < 65536) :=
  ⟨m.dumpsWith first n, fun _ _ _ => dump_inj, dumpsWith_wrapped_iff⟩

/-- Seventeen bytes from sixteen below the top of memory on: the second line has the byte at the
bottom, but five digits for its address. -/
theorem not_dumpsWith_wrapped_blank :
    (Text.lines (blank.dump 0xFFF0 17))[1]? = some (Text.row (Text.ascii "10000") [0]) ∧
      (blank.rowBytes 0xFFF0 17 1 = [blank.read 0]) ∧
      ¬blank.DumpsWith 0xFFF0 17 fun k => (0xFFF0 + UInt16.ofNat (16 * k)).toNat := by
  refine ⟨?_, rfl, fun right => ?_⟩
  · rw [(blank.dumpsWith 0xFFF0 17).lines]
    decide +kernel
  · exact absurd (dumpsWith_wrapped_iff.1 right 1 (by decide)) (by decide)

end Memory

end Micro80
