import Mathlib.Data.List.Basic
import Rimba.Foundation.Text

/-! # Numbers in a text

What is printed as the decimal digits of a number is read as that number
(`Foundation.leadingNumber_toDigits`), and what ends a number ends it whatever follows
(`Foundation.leadingNumber_append`).
-/

namespace Foundation

theorem takeWhile_digits {digits : List Char} {c : Char}
    (all : ∀ d ∈ digits, (decimalValue d).isSome = true) (stops : (decimalValue c).isSome = false)
    (rest : List Char) :
    (digits ++ c :: rest).takeWhile (fun d => (decimalValue d).isSome) = digits := by
  have ends : (c :: rest).takeWhile (fun d => (decimalValue d).isSome) = [] :=
    List.takeWhile_cons_of_neg (Bool.eq_false_iff.mp stops)
  rw [List.takeWhile_append_of_pos all, ends, List.append_nil]

theorem decimalValue_digitChar : ∀ d < 10, decimalValue (Nat.digitChar d) = some d := by
  decide +kernel

/-- The digits of a number are read as the number. -/
theorem foldl_toDigits (n : ℕ) :
    (∀ c ∈ Nat.toDigits 10 n, (decimalValue c).isSome = true) ∧
      ((Nat.toDigits 10 n).filterMap decimalValue).foldl (fun n digit => 10 * n + digit) 0 = n := by
  induction n using Nat.strong_induction_on with
  | _ n ih =>
      by_cases small : n < 10
      · rw [Nat.toDigits_of_lt_base small]
        have value := decimalValue_digitChar n small
        refine ⟨List.forall_mem_singleton.mpr (by rw [value]; rfl), ?_⟩
        rw [List.filterMap_cons_some value]
        exact Nat.zero_add n
      · have value := decimalValue_digitChar (n % 10) (Nat.mod_lt n (by decide))
        obtain ⟨all, front⟩ := ih (n / 10) (by omega)
        rw [Nat.toDigits_of_base_le (by decide) (by omega)]
        refine ⟨List.forall_mem_append.mpr
          ⟨all, List.forall_mem_singleton.mpr (by rw [value]; rfl)⟩, ?_⟩
        rw [List.filterMap_append, List.foldl_append, front, List.filterMap_cons_some value]
        exact Nat.div_add_mod n 10

theorem leadingNumber_toDigits (n : ℕ) {c : Char} (stops : (decimalValue c).isSome = false)
    (rest : List Char) :
    leadingNumber (Nat.toDigits 10 n ++ c :: rest) = some (n, c :: rest) := by
  obtain ⟨all, value⟩ := foldl_toDigits n
  have digits := takeWhile_digits all stops rest
  rw [leadingNumber]
  simp only [digits]
  rw [if_neg Nat.toDigits_ne_nil, value, List.drop_left]

/-- What ends a number ends it whatever follows. -/
theorem leadingNumber_append {text rest : List Char} {n : ℕ} {c : Char}
    (stops : (decimalValue c).isSome = false) (read : leadingNumber text = some (n, c :: rest))
    (more : List Char) : leadingNumber (text ++ more) = some (n, c :: (rest ++ more)) := by
  rw [leadingNumber] at read
  split at read
  · cases read
  case isFalse some =>
  obtain ⟨value, behind⟩ := Prod.mk.inj (Option.some.inj read)
  obtain ⟨tail, cut⟩ := List.takeWhile_prefix (fun d => (decimalValue d).isSome) (l := text)
  have dropped (front : List Char) (whole : front ++ tail = text) :
      text.drop front.length = tail := by
    rw [← whole, List.drop_left]
  have ends : tail = c :: rest := (dropped _ cut).symm.trans behind
  have all : ∀ d ∈ text.takeWhile fun d => (decimalValue d).isSome,
      (decimalValue d).isSome = true := fun d member =>
      List.mem_takeWhile_imp (p := fun d => (decimalValue d).isSome) member
  have digits := takeWhile_digits all stops (rest ++ more)
  have whole : text ++ more = (text.takeWhile fun d => (decimalValue d).isSome) ++
      c :: (rest ++ more) := by
    conv_lhs => rw [← cut, ends]
    rw [List.append_assoc, List.cons_append]
  rw [whole, leadingNumber]
  simp only [digits]
  rw [if_neg some, value, List.drop_left]

end Foundation
