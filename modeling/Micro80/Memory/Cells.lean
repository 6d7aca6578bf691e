/-!
# Cells

The storage behind a memory: one byte for each of the 65536 addresses. There are no holes, so
every address can be read and written, and two stores with the same byte everywhere are equal.

## Main definitions

* `Cells`: a byte for every address.
* `Cells.get`, `Cells.set`, `Cells.fill`.
-/

namespace Micro80

/-- **Cells.** A byte for every address. -/
structure Cells where
  /-- The bytes, by address. -/
  bytes : ByteArray
  /-- There is one for each address. -/
  size_bytes : bytes.size = 65536

namespace Cells

/-- An address is an index into the bytes. -/
theorem toNat_lt_size (c : Cells) (a : UInt16) : a.toNat < c.bytes.size :=
  c.size_bytes ▸ a.toNat_lt

/-- The byte at an address. -/
def get (c : Cells) (a : UInt16) : UInt8 :=
  c.bytes.get a.toNat (c.toNat_lt_size a)

/-- The cells with the byte at one address replaced. -/
def set (c : Cells) (a : UInt16) (b : UInt8) : Cells where
  bytes := c.bytes.set a.toNat b (c.toNat_lt_size a)
  size_bytes := by
    rw [← c.size_bytes]
    exact Array.size_set (c.toNat_lt_size a)

/-- Cells that all hold the same byte. -/
def fill (b : UInt8) : Cells where
  bytes := ⟨Array.replicate 65536 b⟩
  size_bytes := Array.size_replicate

/-- The byte at an address is the entry of the array at that index. -/
theorem getElem?_data (c : Cells) (a : UInt16) : c.bytes.data[a.toNat]? = some (c.get a) :=
  Array.getElem?_eq_getElem (c.toNat_lt_size a)

/-- A write is seen at its own address and nowhere else. -/
@[simp] theorem get_set (c : Cells) (a a' : UInt16) (b : UInt8) :
    (c.set a b).get a' = if a' = a then b else c.get a' := by
  apply Option.some.inj
  rw [← getElem?_data]
  have h : (c.set a b).bytes.data = c.bytes.data.set a.toNat b (c.toNat_lt_size a) := rfl
  rw [h, Array.getElem?_set]
  by_cases e : a' = a
  · simp [e]
  · rw [if_neg e, if_neg fun n => e (UInt16.toNat_inj.1 n.symm), getElem?_data]

theorem get_set_self (c : Cells) (a : UInt16) (b : UInt8) : (c.set a b).get a = b := by simp

theorem get_set_of_ne (c : Cells) {a a' : UInt16} (b : UInt8) (h : a' ≠ a) :
    (c.set a b).get a' = c.get a' := by simp [h]

@[simp] theorem get_fill (b : UInt8) (a : UInt16) : (fill b).get a = b := by
  apply Option.some.inj
  rw [← getElem?_data]
  have h : (fill b).bytes.data = Array.replicate 65536 b := rfl
  rw [h, Array.getElem?_replicate, if_pos a.toNat_lt]

/-- Cells are determined by what they hold. -/
@[ext] theorem ext {c d : Cells} (h : ∀ a, c.get a = d.get a) : c = d := by
  obtain ⟨⟨x⟩, hx⟩ := c
  obtain ⟨⟨y⟩, hy⟩ := d
  have hx' : x.size = 65536 := hx
  have hy' : y.size = 65536 := hy
  have : x = y := by
    apply Array.ext
    · rw [hx', hy']
    · intro i hi _
      have hi' : i < 65536 := hx' ▸ hi
      have n : (UInt16.ofNat i).toNat = i := by
        rw [UInt16.toNat_ofNat']
        omega
      have e := congrArg some (h (UInt16.ofNat i))
      rw [← getElem?_data, ← getElem?_data, n] at e
      apply Option.some.inj
      rw [← Array.getElem?_eq_getElem, ← Array.getElem?_eq_getElem]
      exact e
  subst this
  rfl

end Cells

end Micro80
