import Mathlib.Data.List.TakeWhile
import Mathlib.Data.Nat.Digits.Lemmas
import Mathlib.Tactic.IntervalCases

/-! # The commands of the trigger companion

`handle_line` takes a line apart with `strtok`, compares the first word without regard to
case and reads the second as a number. A number that was written in decimal is read back
(`Rimba.C6Trigger.strtoul_decimal`).
-/

namespace Rimba.C6Trigger

/-- The delimiters `" \t"`. -/
def isBlank (c : UInt8) : Bool := c = 32 ∨ c = 9

/-- `isspace` -/
def isspace (c : UInt8) : Bool := c = 32 ∨ (9 ≤ c ∧ c ≤ 13)

/-- `isdigit` -/
def isdigit (c : UInt8) : Bool := 48 ≤ c ∧ c ≤ 57

/-- `tolower` -/
def tolower (c : UInt8) : UInt8 := if 65 ≤ c ∧ c ≤ 90 then c + 32 else c

/-- The bytes of a text. -/
def bytes (text : String) : List UInt8 := text.toList.map fun c => UInt8.ofNat c.toNat

/-- The next token, and what the call after it goes on with. -/
def strtok (s : List UInt8) : Option (List UInt8 × List UInt8) :=
  let s := s.dropWhile isBlank
  if s = [] then none
  else some (s.takeWhile fun c => !isBlank c, (s.dropWhile fun c => !isBlank c).drop 1)

/-- `!strcasecmp(a, b)` -/
def sameWord (a b : List UInt8) : Bool := a.map tolower = b.map tolower

/-- The sign of a number, and what is behind it. -/
def takeSign : List UInt8 → Bool × List UInt8
  | 45 :: s => (true, s)
  | 43 :: s => (false, s)
  | s => (false, s)

/-- The number some digits are in decimal. -/
def decimal (digits : List UInt8) : ℕ := digits.foldl (fun n c => 10 * n + (c.toNat - 48)) 0

/-- `(uint32_t)strtoul(s, NULL, 10)`, where a `long` has 32 bits. -/
def strtoul (s : List UInt8) : UInt32 :=
  let (negative, s) := takeSign (s.dropWhile isspace)
  let n := decimal (s.takeWhile isdigit)
  if UInt32.size ≤ n then 0xffffffff
  else if negative then -UInt32.ofNat n
  else UInt32.ofNat n

/-- The commands. -/
inductive Command where
  | pulse
  | hiz
  | high
  | low
  | trigger
  | toggle
  | save
  | default
  | status
  | ping
  | unknown (tok : List UInt8)
  deriving DecidableEq, Repr

/-- The command a first token names. -/
def commandOf (tok : List UInt8) : Command :=
  if sameWord tok (bytes "pulse") then .pulse
  else if sameWord tok (bytes "hiz") then .hiz
  else if sameWord tok (bytes "high") then .high
  else if sameWord tok (bytes "low") then .low
  else if sameWord tok (bytes "trigger") then .trigger
  else if sameWord tok (bytes "toggle") then .toggle
  else if sameWord tok (bytes "save") then .save
  else if sameWord tok (bytes "default") then .default
  else if sameWord tok (bytes "status") then .status
  else if sameWord tok (bytes "ping") then .ping
  else .unknown tok

/-- The command on a line and its number, 0 without one; `none` when the line is blank.
The line ends at its first NUL. -/
def parseLine (line : List UInt8) : Option (Command × UInt32) := do
  let (tok, behind) ← strtok (line.takeWhile fun c => c ≠ 0)
  let n := match strtok behind with
    | none => 0
    | some (arg, _) => strtoul arg
  some (commandOf tok, n)

/-- The digits of a number in decimal, the most significant first. -/
def decimalDigits (n : ℕ) : List UInt8 :=
  (Nat.digits 10 n).reverse.map fun digit => UInt8.ofNat (48 + digit)

theorem decimal_append_digit (digits : List UInt8) {digit : ℕ} (small : digit < 10) :
    decimal (digits ++ [UInt8.ofNat (48 + digit)]) = 10 * decimal digits + digit := by
  have octet : (UInt8.ofNat (48 + digit)).toNat = 48 + digit :=
    UInt8.toNat_ofNat_of_lt' (by have size : UInt8.size = 256 := rfl; omega)
  rw [decimal, List.foldl_append, List.foldl_cons, List.foldl_nil, octet, Nat.add_sub_cancel_left]
  rfl

theorem decimal_decimalDigits (n : ℕ) : decimal (decimalDigits n) = n := by
  induction n using Nat.strongRecOn with
  | ind n ih =>
      rcases Nat.eq_zero_or_pos n with rfl | positive
      · rfl
      · have digits := Nat.digits_def' (by decide : 1 < 10) positive
        have smaller : n / 10 < n := Nat.div_lt_self positive (by decide)
        rw [decimalDigits, digits, List.reverse_cons, List.map_append, List.map_singleton,
          decimal_append_digit _ (Nat.mod_lt _ (by decide))]
        have before := ih (n / 10) smaller
        rw [decimalDigits] at before
        rw [before, Nat.div_add_mod]

theorem isdigit_of_mem {n : ℕ} {c : UInt8} (member : c ∈ decimalDigits n) :
    isdigit c = true ∧ isspace c = false ∧ c ≠ 45 ∧ c ≠ 43 := by
  obtain ⟨digit, place, rfl⟩ := List.mem_map.mp member
  have small : digit < 10 := Nat.digits_lt_base (by decide) (List.mem_reverse.mp place)
  interval_cases digit <;> decide

theorem takeSign_of_digits {n : ℕ} : takeSign (decimalDigits n) = (false, decimalDigits n) := by
  have digits := fun c => @isdigit_of_mem n c
  cases octets : decimalDigits n with
  | nil => rfl
  | cons c behind =>
      obtain ⟨-, -, minus, plus⟩ := digits c (octets ▸ List.mem_cons_self)
      unfold takeSign
      split
      · exact absurd (List.cons.inj ‹_›).1 minus
      · exact absurd (List.cons.inj ‹_›).1 plus
      · rfl

/-- A number that was written in decimal is read back when 32 bits hold it. -/
theorem strtoul_decimal {n : ℕ} (fits : n < UInt32.size) :
    strtoul (decimalDigits n) = UInt32.ofNat n := by
  have solid : (decimalDigits n).dropWhile isspace = decimalDigits n := by
    cases octets : decimalDigits n with
    | nil => rfl
    | cons c behind =>
        have space := (@isdigit_of_mem n c (octets ▸ List.mem_cons_self)).2.1
        exact List.dropWhile_cons_of_neg (by rw [space]; decide)
  have whole : (decimalDigits n).takeWhile isdigit = decimalDigits n :=
    List.takeWhile_eq_self_iff.mpr fun c member => (isdigit_of_mem member).1
  simp only [strtoul, solid, takeSign_of_digits, whole, decimal_decimalDigits]
  rw [if_neg (Nat.not_le.mpr fits), if_neg Bool.false_ne_true]

example : parseLine (bytes " Trigger\t12") = some (.trigger, 12) ∧
    parseLine (bytes "PULSE") = some (.pulse, 0) := by decide

end Rimba.C6Trigger
