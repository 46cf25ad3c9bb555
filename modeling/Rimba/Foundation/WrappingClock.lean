import Mathlib.Data.UInt

/-! # Ages read off a wrapping 32-bit clock

The clock shows the time modulo `2 ^ 32`. The unsigned difference of two of its
readings is the true age as long as the earlier reading is at most `2 ^ 32 - 1`
old (`Foundation.WrappingClock.age_of_le`). A reading taken *after* the one it
is subtracted from wraps to just below `2 ^ 32`
(`Foundation.WrappingClock.age_of_lt`). The sign of the difference orders two
readings that are less than half a revolution apart
(`Foundation.WrappingClock.signed_neg_iff`).
-/

namespace Foundation.WrappingClock

/-- What the clock shows at a time. -/
def reading (time : ℕ) : UInt32 := UInt32.ofNat time

/-- The age of a reading, as unsigned subtraction computes it. -/
def age (now last : UInt32) : ℕ := (now - last).toNat

theorem age_reading (now last : ℕ) :
    age (reading now) (reading last) = (2 ^ 32 - last % 2 ^ 32 + now % 2 ^ 32) % 2 ^ 32 := by
  simp only [age, reading, UInt32.toNat_sub, UInt32.toNat_ofNat']

/-- The difference of two readings in order is the time between them. -/
theorem age_of_le {now last : ℕ} (order : last ≤ now) (short : now - last < 2 ^ 32) :
    age (reading now) (reading last) = now - last := by
  rw [age_reading]
  omega

/-- A reading from the future looks almost `2 ^ 32` old. -/
theorem age_of_lt {now last : ℕ} (order : now < last) (short : last - now ≤ 2 ^ 32) :
    age (reading now) (reading last) = 2 ^ 32 - (last - now) := by
  rw [age_reading]
  omega

theorem toInt32_neg_iff (difference : UInt32) :
    difference.toInt32 < 0 ↔ 2 ^ 31 ≤ difference.toNat := by
  rw [Int32.lt_iff_toInt_lt, Int32.toInt_zero]
  change difference.toInt32.toBitVec.toInt < 0 ↔ _
  rw [UInt32.toBitVec_toInt32, BitVec.toInt_neg_iff, UInt32.toNat_toBitVec]
  omega

/-- Less than half a revolution apart, the signed difference of two readings is
negative exactly when the first is the earlier one. -/
theorem signed_neg_iff {first second : ℕ} (early : second < first + 2 ^ 31)
    (late : first < second + 2 ^ 31) :
    (reading first - reading second).toInt32 < 0 ↔ first < second := by
  rw [toInt32_neg_iff]
  change 2 ^ 31 ≤ age (reading first) (reading second) ↔ _
  by_cases order : second ≤ first
  · rw [age_of_le order (by omega)]
    omega
  · rw [age_of_lt (by omega) (by omega)]
    omega

end Foundation.WrappingClock
