/-!
# Words and their halves

A word has sixteen bits and is made of a high and a low byte. Addresses, register pairs and
everything on the stack are words; their arithmetic wraps from `FFFF` to `0000`.

## Main definitions

* `word`: the word with the given halves.
* `highByte`, `lowByte`: the halves of a word.
-/

namespace Micro80

/-- What holds of the bytes with numbers below 256 holds of all bytes. -/
theorem forall_byte {p : UInt8 → Prop} (h : ∀ n < 256, p (UInt8.ofNat n)) (b : UInt8) : p b := by
  rw [← UInt8.ofNat_toNat (x := b)]
  exact h b.toNat b.toNat_lt

/-- **Words.** The word with the given high and low byte. -/
def word (high low : UInt8) : UInt16 := high.toUInt16 * 256 + low.toUInt16

/-- The high byte of a word. -/
def highByte (w : UInt16) : UInt8 := (w / 256).toUInt8

/-- The low byte of a word. -/
def lowByte (w : UInt16) : UInt8 := w.toUInt8

theorem toNat_word (high low : UInt8) : (word high low).toNat = high.toNat * 256 + low.toNat := by
  have := high.toNat_lt
  have := low.toNat_lt
  simp [word, UInt16.toNat_add, UInt16.toNat_mul]
  omega

theorem toNat_highByte (w : UInt16) : (highByte w).toNat = w.toNat / 256 := by
  have := w.toNat_lt
  simp [highByte, UInt16.toNat_div]
  omega

theorem toNat_lowByte (w : UInt16) : (lowByte w).toNat = w.toNat % 256 := by
  simp [lowByte]

@[simp] theorem highByte_word (high low : UInt8) : highByte (word high low) = high := by
  apply UInt8.toNat_inj.1
  have := low.toNat_lt
  rw [toNat_highByte, toNat_word]
  omega

@[simp] theorem lowByte_word (high low : UInt8) : lowByte (word high low) = low := by
  apply UInt8.toNat_inj.1
  have := low.toNat_lt
  rw [toNat_lowByte, toNat_word]
  omega

@[simp] theorem word_highByte_lowByte (w : UInt16) : word (highByte w) (lowByte w) = w := by
  apply UInt16.toNat_inj.1
  rw [toNat_word, toNat_highByte, toNat_lowByte]
  omega

end Micro80
