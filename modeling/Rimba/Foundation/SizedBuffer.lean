import Mathlib.Data.List.Basic

/-! # Buffers with a 32-bit length

A buffer whose length, and an offset into it, are 32-bit words. As long as a sum of an
offset and a length does not wrap, the words compare as the numbers do.
-/

namespace Foundation

theorem toNat_word {n : ℕ} (fits : n < UInt32.size) : (UInt32.ofNat n).toNat = n :=
  UInt32.toNat_ofNat_of_lt' fits

theorem word_add_octet (i : ℕ) (octet : UInt8) :
    UInt32.ofNat i + octet.toUInt32 = UInt32.ofNat (i + octet.toNat) := by
  have same : UInt32.ofNat octet.toUInt32.toNat = octet.toUInt32 := UInt32.ofNat_toNat
  rw [← same, UInt8.toNat_toUInt32, UInt32.ofNat_add]

theorem word_add_half (i : ℕ) (half : UInt16) :
    UInt32.ofNat i + half.toUInt32 = UInt32.ofNat (i + half.toNat) := by
  have same : UInt32.ofNat half.toUInt32.toNat = half.toUInt32 := UInt32.ofNat_toNat
  rw [← same, UInt16.toNat_toUInt32, UInt32.ofNat_add]

/-- A buffer with its length in a `uint32_t`. -/
structure SizedBuffer where
  bytes : List UInt8
  fits : bytes.length < UInt32.size

namespace SizedBuffer

variable (buffer : SizedBuffer)

/-- The length as it is stored. -/
def len : UInt32 := UInt32.ofNat buffer.bytes.length

theorem toNat_len : buffer.len.toNat = buffer.bytes.length := toNat_word buffer.fits

/-- An offset inside is read. -/
theorem get_word {i : ℕ} (inside : i < buffer.bytes.length) :
    buffer.bytes[(UInt32.ofNat i).toNat]? = some buffer.bytes[i] := by
  rw [toNat_word (Nat.lt_trans inside buffer.fits), List.getElem?_eq_getElem]

/-- An offset behind the end is not. -/
theorem get_word_outside {i : ℕ} (word : i < UInt32.size) (outside : buffer.bytes.length ≤ i) :
    buffer.bytes[(UInt32.ofNat i).toNat]? = none := by
  rw [toNat_word word, List.getElem?_eq_none outside]

/-- What is behind a front is read at its offset from there. -/
theorem get_behind {front behind : List UInt8} (whole : buffer.bytes = front ++ behind) (index : ℕ)
    {octet : UInt8} (held : behind[index]? = some octet) :
    buffer.bytes[(UInt32.ofNat front.length + UInt32.ofNat index).toNat]? = some octet := by
  obtain ⟨inside, _⟩ := List.getElem?_eq_some_iff.mp held
  have fits := buffer.fits
  rw [whole, List.length_append] at fits
  rw [← UInt32.ofNat_add, toNat_word (by omega), whole,
    List.getElem?_append_right (Nat.le_add_right _ _), Nat.add_sub_cancel_left, held]

theorem word_le_len {n : ℕ} (word : n < UInt32.size) :
    UInt32.ofNat n ≤ buffer.len ↔ n ≤ buffer.bytes.length := by
  rw [UInt32.le_iff_toNat_le, toNat_word word, toNat_len]

theorem len_lt_word {n : ℕ} (word : n < UInt32.size) :
    buffer.len < UInt32.ofNat n ↔ buffer.bytes.length < n := by
  rw [UInt32.lt_iff_toNat_lt, toNat_word word, toNat_len]

end SizedBuffer

end Foundation
