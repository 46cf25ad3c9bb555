import Mathlib.Data.Nat.Digits.Defs
import Mathlib.Tactic.NormNum
import Mathlib.Tactic.Ring

/-! # Numbers as octets

A number is written as a fixed count of octets, the least significant first or
last. Reading back what was written gives the number when it fits
(`Foundation.ofLittle_little`, `Foundation.ofBig_big`), and any octets are what
writing their number gives (`Foundation.little_ofLittle`).
-/

namespace Foundation

/-- The lowest octets of a number, the least significant first. -/
def little : ℕ → ℕ → List UInt8
  | 0, _ => []
  | width + 1, n => UInt8.ofNat (n % 256) :: little width (n / 256)

/-- The number of octets whose first is the least significant. -/
def ofLittle (octets : List UInt8) : ℕ := Nat.ofDigits 256 (octets.map UInt8.toNat)

/-- The lowest octets of a number, the most significant first. -/
def big (width n : ℕ) : List UInt8 := (little width n).reverse

/-- The number of octets whose first is the most significant. -/
def ofBig (octets : List UInt8) : ℕ := ofLittle octets.reverse

@[simp] theorem ofLittle_nil : ofLittle [] = 0 := rfl

@[simp] theorem ofLittle_cons (octet : UInt8) (octets : List UInt8) :
    ofLittle (octet :: octets) = octet.toNat + 256 * ofLittle octets :=
  Nat.ofDigits_cons

@[simp] theorem length_little (width n : ℕ) : (little width n).length = width := by
  induction width generalizing n with
  | zero => rfl
  | succ width ih => rw [little, List.length_cons, ih]

@[simp] theorem length_big (width n : ℕ) : (big width n).length = width := by
  rw [big, List.length_reverse, length_little]

theorem ofLittle_lt (octets : List UInt8) : ofLittle octets < 256 ^ octets.length := by
  have digits : ∀ digit ∈ octets.map UInt8.toNat, digit < 256 := by
    intro digit member
    obtain ⟨octet, _, rfl⟩ := List.mem_map.mp member
    exact octet.toNat_lt
  have bound := Nat.ofDigits_lt_base_pow_length (by norm_num : 1 < 256) digits
  rwa [List.length_map] at bound

/-- What was written is read back up to the octets it was written with. -/
theorem ofLittle_little_mod (width n : ℕ) : ofLittle (little width n) = n % 256 ^ width := by
  induction width generalizing n with
  | zero => rw [little, ofLittle_nil, pow_zero, Nat.mod_one]
  | succ width ih =>
      have lowest : (UInt8.ofNat (n % 256)).toNat = n % 256 := by
        rw [UInt8.toNat_ofNat']
        exact Nat.mod_mod _ _
      rw [little, ofLittle_cons, ih, lowest, pow_succ', Nat.mod_mul]

theorem ofLittle_little {width n : ℕ} (fits : n < 256 ^ width) :
    ofLittle (little width n) = n := by
  rw [ofLittle_little_mod, Nat.mod_eq_of_lt fits]

theorem ofBig_big {width n : ℕ} (fits : n < 256 ^ width) : ofBig (big width n) = n := by
  rw [ofBig, big, List.reverse_reverse, ofLittle_little fits]

/-- Octets are what writing their number gives. -/
theorem little_ofLittle (octets : List UInt8) :
    little octets.length (ofLittle octets) = octets := by
  induction octets with
  | nil => rfl
  | cons octet octets ih =>
      have bound : octet.toNat < 256 := octet.toNat_lt
      have lowest : (octet.toNat + 256 * ofLittle octets) % 256 = octet.toNat := by omega
      have others : (octet.toNat + 256 * ofLittle octets) / 256 = ofLittle octets := by omega
      rw [List.length_cons, little, ofLittle_cons, lowest, others, ih, UInt8.ofNat_toNat]

/-- Octets of a known count are what writing their number gives. -/
theorem little_of_length {width : ℕ} {octets : List UInt8} (size : octets.length = width) :
    little width (ofLittle octets) = octets := by
  rw [← size, little_ofLittle]

/-- The order of the octets of a number. -/
inductive Endian where
  | little
  | big
  deriving DecidableEq

namespace Endian

/-- The lowest octets of a number. -/
def octets : Endian → ℕ → ℕ → List UInt8
  | .little => Foundation.little
  | .big => Foundation.big

/-- The number of octets. -/
def number : Endian → List UInt8 → ℕ
  | .little => ofLittle
  | .big => ofBig

variable (endian : Endian)

@[simp] theorem length_octets (width n : ℕ) : (endian.octets width n).length = width := by
  cases endian with
  | little => exact length_little width n
  | big => exact length_big width n

theorem number_octets {width n : ℕ} (fits : n < 256 ^ width) :
    endian.number (endian.octets width n) = n := by
  cases endian with
  | little => exact ofLittle_little fits
  | big => exact ofBig_big fits

theorem number_lt (octets : List UInt8) : endian.number octets < 256 ^ octets.length := by
  cases endian with
  | little => exact ofLittle_lt octets
  | big =>
      have bound := ofLittle_lt octets.reverse
      rwa [List.length_reverse] at bound

theorem octets_number {width : ℕ} {octets : List UInt8} (size : octets.length = width) :
    endian.octets width (endian.number octets) = octets := by
  cases endian with
  | little => exact little_of_length size
  | big =>
      have same : octets.reverse.length = width := List.length_reverse.trans size
      have reversed := little_of_length same
      exact (congrArg List.reverse reversed).trans (List.reverse_reverse octets)

end Endian

example : little 2 0x1234 = [0x34, 0x12] ∧ big 2 0x1234 = [0x12, 0x34] := ⟨rfl, rfl⟩

end Foundation
