import Mathlib.Algebra.Order.Round
import Mathlib.Data.Rat.Floor
import Rimba.Foundation.Json.Basic

/-! # Numbers with one decimal

A number rounded to one decimal, half to even, and its text.
-/

namespace Foundation

/-- The nearest integer, and the even one of two. -/
def roundHalfEven (x : ℚ) : ℤ :=
  let rest := x - ⌊x⌋
  if rest < 1 / 2 ∨ (rest = 1 / 2 ∧ ⌊x⌋ % 2 = 0) then ⌊x⌋ else ⌊x⌋ + 1

theorem digitChar_eq_zero : ∀ n < 10, Nat.digitChar n = '0' → n = 0 := by decide

/-- Digits start with a zero only when there is no other. -/
theorem toDigits_head (n : ℕ) :
    ∃ c rest, Nat.toDigits 10 n = c :: rest ∧ (c = '0' → n = 0 ∧ rest = []) := by
  induction n using Nat.strong_induction_on with
  | _ n ih =>
      by_cases small : n < 10
      · exact ⟨n.digitChar, [], Nat.toDigits_of_lt_base small, fun zero =>
          ⟨digitChar_eq_zero n small zero, rfl⟩⟩
      · obtain ⟨c, rest, front, zero⟩ := ih (n / 10) (by omega)
        refine ⟨c, rest ++ [(n % 10).digitChar], ?_, fun is_zero => ?_⟩
        · rw [Nat.toDigits_of_base_le (by decide) (by omega), front, List.cons_append]
        · have := (zero is_zero).1
          omega

theorem isDigit_digitChar : ∀ n < 10, (Nat.digitChar n).isDigit = true := by decide

theorem isBareChar_of_digit {c : Char} (digit : c.isDigit = true) : isBareChar c = true := by
  simp only [isBareChar, Char.isAlphanum, digit, Bool.or_true, Bool.true_or]

/-- The text of a number of tenths. -/
def tenthsText (negative : Bool) (n : ℕ) : List Char :=
  (if negative then ['-'] else []) ++ (Nat.toDigits 10 (n / 10) ++ ['.', (n % 10).digitChar])

/-- The digits of a number are read as an integer, up to what is no digit. -/
theorem behindInteger_digits (n : ℕ) {rest : List Char}
    (stop : ∀ c ∈ rest.head?, c.isDigit = false) :
    behindInteger (Nat.toDigits 10 n ++ rest) = some rest := by
  obtain ⟨c, others, digits, zero⟩ := toDigits_head n
  have digit : ∀ e ∈ c :: others, e.isDigit = true := fun e member =>
    Nat.isDigit_of_mem_toDigits (by decide) (le_refl 10) (digits ▸ member)
  rw [digits, List.cons_append]
  by_cases is_zero : c = '0'
  · obtain ⟨-, rfl⟩ := zero is_zero
    rw [is_zero]
    rfl
  · obtain ⟨here, later⟩ := List.forall_mem_cons.mp digit
    have stopped : rest.dropWhile Char.isDigit = rest := by
      cases rest with
      | nil => rfl
      | cons d rest => rw [List.dropWhile_cons_of_neg (Bool.eq_false_iff.mp (stop d rfl))]
    unfold behindInteger
    split
    · next same => exact absurd (List.cons.inj same).1 is_zero
    · simp only [behindDigits, here, ↓reduceIte, List.dropWhile_append_of_pos later, stopped]

/-- A minus sign in front of digits makes no difference. -/
theorem isNumber_minus (n : ℕ) (rest : List Char) :
    isNumber ('-' :: (Nat.toDigits 10 n ++ rest)) = isNumber (Nat.toDigits 10 n ++ rest) := by
  obtain ⟨c, others, digits, -⟩ := toDigits_head n
  have digit : c.isDigit = true :=
    Nat.isDigit_of_mem_toDigits (by decide) (le_refl 10)
      (digits ▸ List.mem_cons_self : c ∈ Nat.toDigits 10 n)
  rw [digits, List.cons_append, eq_comm]
  unfold isNumber
  split
  · next same =>
      cases (List.cons.inj same).1
      exact absurd digit (by decide)
  · rfl

theorem isBareChar_toDigits {n : ℕ} {c : Char} (member : c ∈ Nat.toDigits 10 n) :
    isBareChar c = true :=
  isBareChar_of_digit (Nat.isDigit_of_mem_toDigits (by decide) (le_refl 10) member)

theorem isBare_tenths (negative : Bool) (n : ℕ) : isBare (tenthsText negative n) = true := by
  have last : (Nat.digitChar (n % 10)).isDigit = true :=
    isDigit_digitChar _ (Nat.mod_lt _ (by decide))
  have bare : (tenthsText negative n).all isBareChar = true := by
    rw [List.all_eq_true]
    intro c member
    simp only [tenthsText, List.mem_append, List.mem_cons, List.not_mem_nil, or_false] at member
    rcases member with sign | digit | rfl | rfl
    · cases negative
      · cases sign
      · cases List.mem_singleton.mp sign
        decide
    · exact isBareChar_toDigits digit
    · decide
    · exact isBareChar_of_digit last
  have integer := @behindInteger_digits (n / 10) ['.', (n % 10).digitChar] (by rintro _ ⟨⟩; rfl)
  have number : isNumber ('-' :: (Nat.toDigits 10 (n / 10) ++ ['.', (n % 10).digitChar])) =
      true := by
    simp only [isNumber, integer, Option.bind_some, behindFraction, behindDigits, last,
      ↓reduceIte, List.dropWhile_nil, behindExponent, decide_true]
  rw [isBare, bare, Bool.true_and, Bool.or_eq_true]
  refine .inr ?_
  cases negative with
  | false => exact (isNumber_minus (n / 10) _).symm.trans number
  | true => exact number

/-- A number rounded to one decimal, as it is written. -/
def roundTenths (x : ℚ) : Bare :=
  ⟨tenthsText (x < 0) (roundHalfEven (|x| * 10)).toNat, isBare_tenths _ _⟩

theorem isBare_digits (n : ℕ) : isBare (Nat.toDigits 10 n) = true := by
  have bare : (Nat.toDigits 10 n).all isBareChar = true :=
    List.all_eq_true.mpr fun c member => isBareChar_toDigits member
  have integer := @behindInteger_digits n [] (by rintro _ ⟨⟩)
  have number : isNumber ('-' :: (Nat.toDigits 10 n ++ [])) = true := by
    simp only [isNumber, integer, Option.bind_some, behindFraction, behindExponent, decide_true]
  rw [isNumber_minus, List.append_nil] at number
  rw [isBare, bare, number, Bool.or_true, Bool.and_true]

/-- A natural number, as it is written. -/
def natText (n : ℕ) : Bare := ⟨Nat.toDigits 10 n, isBare_digits n⟩

example : (roundTenths (5 / 4)).1 = "1.2".toList := by decide +kernel

/-- The value of some digits. -/
def digitsValue (digits : List Char) : ℕ :=
  digits.foldl (fun n digit => 10 * n + (digit.toNat - '0'.toNat)) 0

/-- The value of an exponent, which is empty when there is none. -/
def exponentValue : List Char → ℤ
  | '-' :: digits => -(digitsValue digits : ℤ)
  | '+' :: digits => digitsValue digits
  | digits => digitsValue digits

/-- The value of a number's text. -/
def numberValue (text : List Char) : ℚ :=
  let unsigned := text.dropWhile (· = '-')
  let behind := unsigned.dropWhile Char.isDigit
  let fraction := (behind.drop 1).takeWhile Char.isDigit
  let exponent := exponentValue ((behind.dropWhile fun c => c ≠ 'e' && c ≠ 'E').drop 1)
  let (digits, places) :=
    if behind.head? = some '.' then (unsigned.takeWhile Char.isDigit ++ fraction, fraction.length)
    else (unsigned.takeWhile Char.isDigit, 0)
  (if text.head? = some '-' then -1 else 1) * digitsValue digits * 10 ^ (exponent - places)

end Foundation
