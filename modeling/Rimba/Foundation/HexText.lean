import Mathlib.Data.Int.Bitwise
import Rimba.Foundation.Json.Basic
import Rimba.Foundation.Text

/-! # Numbers in base sixteen

An octet is written as two lower-case digits. Numbers are read as `int(text, 16)`
reads them, with a sign, a prefix, underscores and white space; two digits of either
case are read as an octet is written (`Foundation.intHex_octetText`).
-/

namespace Foundation

/-- An octet as two lower-case digits: `"%02x"`. -/
def octetText (octet : UInt8) : List Char :=
  [Nat.digitChar (octet.toNat / 16), Nat.digitChar (octet.toNat % 16)]

/-- A text as a number is read from it, with the white space and the decimal digits
of Unicode replaced by those of ASCII. -/
def asciiText (text : List Char) : List Char :=
  text.map fun c =>
    if c.toNat < 127 then c
    else if isSpace c then ' '
    else match decimalValue c with
      | some digit => Nat.digitChar digit
      | none => '?'

/-- The white space around a number. -/
def isNumberSpace (c : Char) : Bool := c ∈ ['\t', '\n', '\x0b', '\x0c', '\r', ' ']

/-- The digits behind some of a number; an underscore stands between two of them. -/
def hexDigits (n : ℕ) (apart : Bool) : List Char → Option ℕ
  | [] => if apart then none else some n
  | c :: rest =>
      if c = '_' then if apart then none else hexDigits n true rest
      else (hexValue c).bind fun digit => hexDigits (16 * n + digit) false rest

/-- A number without its sign: behind `0x` one underscore is left out. -/
def unsignedHex (text : List Char) : Option ℕ :=
  match text with
  | '0' :: c :: rest =>
      if c = 'x' ∨ c = 'X' then
        match rest with
        | '_' :: digits => hexDigits 0 true digits
        | digits => hexDigits 0 true digits
      else hexDigits 0 true text
  | _ => hexDigits 0 true text

/-- `int(text, 16)` -/
def intHex (text : List Char) : Option ℤ :=
  match (((asciiText text).dropWhile isNumberSpace).reverse.dropWhile isNumberSpace).reverse with
  | '+' :: rest => (unsignedHex rest).map Int.ofNat
  | '-' :: rest => (unsignedHex rest).map fun n => -(n : ℤ)
  | rest => (unsignedHex rest).map Int.ofNat

/-- `f"{n:02x}"` -/
def hexText (n : ℤ) : List Char :=
  if n < 0 then '-' :: Nat.toDigits 16 n.natAbs else (Nat.toDigits 16 n.natAbs).leftpad 2 '0'

/-- The digits of base sixteen, of either case. -/
def hexAlphabet : List Char := "0123456789abcdefABCDEF".toList

theorem mem_hexAlphabet {c : Char} {value : ℕ} (digit : hexValue c = some value) :
    c ∈ hexAlphabet := by
  have range (first count : ℕ) (inside : ∀ n < count, Char.ofNat (first + n) ∈ hexAlphabet)
      (above : first ≤ c.toNat) (below : c.toNat < first + count) : c ∈ hexAlphabet := by
    have member := inside (c.toNat - first) (by omega)
    rwa [Nat.add_sub_cancel' above, Char.ofNat_toNat] at member
  rw [hexValue] at digit
  by_cases decimal : '0' ≤ c ∧ c ≤ '9'
  · exact range 48 10 (by decide) (UInt32.le_iff_toNat_le.mp decimal.1)
      (Nat.lt_succ_of_le (UInt32.le_iff_toNat_le.mp decimal.2))
  · by_cases lower : 'a' ≤ c ∧ c ≤ 'f'
    · exact range 97 6 (by decide) (UInt32.le_iff_toNat_le.mp lower.1)
        (Nat.lt_succ_of_le (UInt32.le_iff_toNat_le.mp lower.2))
    · by_cases upper : 'A' ≤ c ∧ c ≤ 'F'
      · exact range 65 6 (by decide) (UInt32.le_iff_toNat_le.mp upper.1)
          (Nat.lt_succ_of_le (UInt32.le_iff_toNat_le.mp upper.2))
      · rw [if_neg decimal, if_neg lower, if_neg upper] at digit
        cases digit

/-- What holds of each of the 22 digits. -/
theorem forall_hexDigit {holds : Char → Prop} [DecidablePred holds]
    (all : (hexAlphabet.all fun c => holds c) = true) : ∀ c ∈ hexAlphabet, holds c := by
  intro c member
  exact of_decide_eq_true (List.all_eq_true.mp all c member)

/-- What the readers of a number look for is no digit. -/
theorem hexDigit_plain : ∀ c ∈ hexAlphabet, c.toNat < 127 ∧ isNumberSpace c = false ∧
    c ≠ '+' ∧ c ≠ '-' ∧ c ≠ '_' ∧ ¬ (c = 'x' ∨ c = 'X') :=
  forall_hexDigit (by decide)

theorem hexDigit_solid : ∀ c ∈ hexAlphabet, isSpace c = false ∧ c ≠ ':' :=
  forall_hexDigit (by decide)

theorem hexValue_lower : ∀ c ∈ hexAlphabet,
    (hexValue c).getD 0 < 16 ∧ Nat.digitChar ((hexValue c).getD 0) = c.toLower :=
  forall_hexDigit (by decide)

theorem hexDigits_digit {c : Char} {value : ℕ} (digit : hexValue c = some value) (n : ℕ)
    (apart : Bool) (rest : List Char) :
    hexDigits n apart (c :: rest) = hexDigits (16 * n + value) false rest := by
  obtain ⟨_, _, _, _, underscore, _⟩ := hexDigit_plain c (mem_hexAlphabet digit)
  rw [hexDigits, if_neg underscore, digit, Option.bind_some]

/-- Two digits are a number. -/
theorem intHex_pair {c d : Char} {high low : ℕ} (first : hexValue c = some high)
    (second : hexValue d = some low) : intHex [c, d] = some ((16 * high + low : ℕ) : ℤ) := by
  obtain ⟨firstAscii, firstSolid, plus, minus, _, _⟩ := hexDigit_plain c (mem_hexAlphabet first)
  obtain ⟨secondAscii, secondSolid, _, _, _, unmarked⟩ := hexDigit_plain d (mem_hexAlphabet second)
  have trimmed : (((asciiText [c, d]).dropWhile isNumberSpace).reverse.dropWhile
      isNumberSpace).reverse = [c, d] := by
    simp only [asciiText, List.map_cons, List.map_nil, firstAscii, secondAscii, ↓reduceIte,
      List.dropWhile_cons, firstSolid, secondSolid, Bool.false_eq_true, List.reverse_cons,
      List.reverse_nil, List.nil_append, List.cons_append]
  have digits : hexDigits 0 true [c, d] = some (16 * high + low) := by
    rw [hexDigits_digit first, hexDigits_digit second, Nat.mul_zero, Nat.zero_add]
    rfl
  have unsigned : unsignedHex [c, d] = some (16 * high + low) := by
    rw [← digits, unsignedHex.eq_def]
    split
    · next same =>
        cases same
        exact if_neg unmarked
    · rfl
  rw [intHex, trimmed]
  split
  · next same => exact absurd (List.cons.inj same).1 plus
  · next same => exact absurd (List.cons.inj same).1 minus
  · rw [unsigned]
    rfl

/-- An octet is read as it was written. -/
theorem intHex_octetText (octet : UInt8) : intHex (octetText octet) = some (octet.toNat : ℤ) := by
  have small : octet.toNat < 256 := octet.toNat_lt
  have high := hexValue_digitChar (octet.toNat / 16) (by omega)
  have low := hexValue_digitChar (octet.toNat % 16) (by omega)
  rw [octetText, intHex_pair high low, Nat.div_add_mod]

/-- Two digits of either case are those of an octet. -/
theorem exists_octet {c d : Char} (first : (hexValue c).isSome) (second : (hexValue d).isSome) :
    ∃ octet : UInt8, [c.toLower, d.toLower] = octetText octet ∧
      intHex [c, d] = some (octet.toNat : ℤ) := by
  obtain ⟨high, first⟩ := Option.isSome_iff_exists.mp first
  obtain ⟨low, second⟩ := Option.isSome_iff_exists.mp second
  have upper := hexValue_lower c (mem_hexAlphabet first)
  have lower := hexValue_lower d (mem_hexAlphabet second)
  rw [first, Option.getD_some] at upper
  rw [second, Option.getD_some] at lower
  have whole : (UInt8.ofNat (16 * high + low)).toNat = 16 * high + low :=
    UInt8.toNat_ofNat_of_lt' (by rw [UInt8.size]; omega)
  refine ⟨UInt8.ofNat (16 * high + low), ?_, ?_⟩
  · have quotient : (16 * high + low) / 16 = high := by omega
    have remainder : (16 * high + low) % 16 = low := by omega
    rw [octetText, whole, quotient, remainder, upper.2, lower.2]
  · rw [whole, intHex_pair first second]

theorem octetText_injective : Function.Injective octetText := by
  intro octet other same
  have read := intHex_octetText octet
  rw [same, intHex_octetText] at read
  exact UInt8.toNat_inj.mp (Int.ofNat.inj (Option.some.inj read)).symm

/-- The text of a number below 256 is that of the octet. -/
theorem hexText_octet (octet : UInt8) : hexText octet.toNat = octetText octet := by
  have small : octet.toNat < 256 := octet.toNat_lt
  have sign : ¬ (octet.toNat : ℤ) < 0 := Int.not_lt.mpr (Int.natCast_nonneg _)
  rw [hexText, if_neg sign, Int.natAbs_natCast, octetText]
  by_cases one : octet.toNat < 16
  · rw [Nat.toDigits_of_lt_base one, Nat.div_eq_of_lt one, Nat.mod_eq_of_lt one]
    rfl
  · rw [Nat.toDigits_of_base_le (by decide) (by omega), Nat.toDigits_of_lt_base (by omega)]
    rfl

theorem digitChar_mem {digit : ℕ} (small : digit < 16) : Nat.digitChar digit ∈ hexAlphabet :=
  mem_hexAlphabet (hexValue_digitChar digit small)

/-- An octet is written in digits. -/
theorem mem_octetText {octet : UInt8} {c : Char} (member : c ∈ octetText octet) :
    c ∈ hexAlphabet := by
  have small : octet.toNat < 256 := octet.toNat_lt
  rcases List.mem_pair.mp member with rfl | rfl
  · exact digitChar_mem (by omega)
  · exact digitChar_mem (by omega)

/-- Octets joined by colons come apart again. -/
theorem splitOn_octets {octets : List UInt8} (some : octets ≠ []) :
    ([':'].intercalate (octets.map octetText)).splitOn ':' = octets.map octetText := by
  apply List.splitOn_intercalate
  · intro piece member colon
    obtain ⟨octet, _, rfl⟩ := List.mem_map.mp member
    exact (hexDigit_solid ':' (mem_octetText colon)).2 rfl
  · exact fun nothing => some (List.map_eq_nil_iff.mp nothing)

theorem map_intercalate {Item Other : Type*} (f : Item → Other) (apart : List Item)
    (pieces : List (List Item)) :
    (apart.intercalate pieces).map f = (apart.map f).intercalate (pieces.map (List.map f)) := by
  induction pieces with
  | nil => rfl
  | cons piece pieces ih =>
      cases pieces with
      | nil => simp only [List.intercalate_singleton, List.map_cons, List.map_nil]
      | cons next pieces =>
          simp only [List.intercalate_cons_cons, List.map_append, List.map_cons] at ih ⊢
          rw [ih]

/-- What holds of the separator and of the pieces holds of the whole text. -/
theorem forall_mem_intercalate {Item : Type*} {holds : Item → Prop} {apart : List Item}
    {pieces : List (List Item)} (between : ∀ item ∈ apart, holds item)
    (inside : ∀ piece ∈ pieces, ∀ item ∈ piece, holds item) :
    ∀ item ∈ apart.intercalate pieces, holds item := by
  induction pieces with
  | nil => exact List.forall_mem_nil _
  | cons piece pieces ih =>
      obtain ⟨here, later⟩ := List.forall_mem_cons.mp inside
      by_cases last : pieces = []
      · rwa [last, List.intercalate_singleton]
      · rw [List.intercalate_cons_of_ne_nil last]
        exact List.forall_mem_append.mpr ⟨List.forall_mem_append.mpr ⟨here, between⟩, ih later⟩

end Foundation
