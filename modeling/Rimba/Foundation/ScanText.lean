import Rimba.Foundation.HexText

/-! # Numbers scanned from the front of a text

`%x` of `sscanf` reads a number in base sixteen off the front of a text and leaves
what is behind it. Octets written with colons between are scanned as they were
written, whatever is behind them (`Foundation.scanFields_octets`).
-/

namespace Foundation

/-- The digits at the front of a text. -/
def leadingHex (text : List Char) : List Char := text.takeWhile fun c => (hexValue c).isSome

/-- The number some digits write; one that does not fit is the greatest that does. -/
def hexNumber (digits : List Char) : UInt32 :=
  UInt32.ofNat <| min 0xffffffff <|
    digits.foldl (fun n c => 16 * n + (hexValue c).getD 0) 0

/-- The digits of a number and what is behind them. Without a digit there is none. -/
def scanDigits (text : List Char) : Option (UInt32 × List Char) :=
  if leadingHex text = [] then none
  else some (hexNumber (leadingHex text), text.drop (leadingHex text).length)

/-- A number without its sign; `0x` counts only before a digit. -/
def scanUnsigned (text : List Char) : Option (UInt32 × List Char) :=
  match text with
  | '0' :: c :: rest =>
      if (c = 'x' ∨ c = 'X') ∧ leadingHex rest ≠ [] then scanDigits rest else scanDigits text
  | _ => scanDigits text

/-- `%x` of `sscanf` -/
def scanHex (text : List Char) : Option (UInt32 × List Char) :=
  match text.dropWhile isNumberSpace with
  | '+' :: rest => scanUnsigned rest
  | '-' :: rest => (scanUnsigned rest).map fun scanned => (-scanned.1, scanned.2)
  | rest => scanUnsigned rest

/-- The numbers of the format `"%x:%x:…"`, when each is there. -/
def scanFields : ℕ → List Char → Option (List UInt32)
  | 0, _ => some []
  | 1, text => (scanHex text).map fun scanned => [scanned.1]
  | n + 2, text =>
      (scanHex text).bind fun scanned =>
        match scanned.2 with
        | ':' :: later => (scanFields (n + 1) later).map (scanned.1 :: ·)
        | _ => none

theorem scanUnsigned_pair {c d : Char} (unmarked : ¬ (d = 'x' ∨ d = 'X')) (rest : List Char) :
    scanUnsigned (c :: d :: rest) = scanDigits (c :: d :: rest) := by
  rw [scanUnsigned.eq_def]
  split
  · next same =>
      obtain ⟨-, same⟩ := List.cons.inj same
      obtain ⟨rfl, -⟩ := List.cons.inj same
      exact if_neg fun marked => unmarked marked.1
  · rfl

section

variable {rest : List Char} (stops : ∀ c ∈ rest.head?, hexValue c = none)

include stops

theorem leadingHex_octetText (octet : UInt8) :
    leadingHex (octetText octet ++ rest) = octetText octet := by
  have digits : ∀ c ∈ octetText octet, (hexValue c).isSome = true := by
    have small : octet.toNat < 256 := octet.toNat_lt
    intro c member
    rcases List.mem_pair.mp member with rfl | rfl
    · rw [hexValue_digitChar _ (by omega), Option.isSome_some]
    · rw [hexValue_digitChar _ (by omega), Option.isSome_some]
  have behind : rest.takeWhile (fun c => (hexValue c).isSome) = [] := by
    cases rest with
    | nil => rfl
    | cons c later =>
        have stop := stops c (Option.mem_some_self c)
        rw [List.takeWhile_cons, stop, Option.isSome_none, if_neg Bool.false_ne_true]
  rw [leadingHex, List.takeWhile_append_of_pos digits, behind, List.append_nil]

omit stops in
/-- The two digits write the octet. -/
theorem hexNumber_octetText (octet : UInt8) : hexNumber (octetText octet) = octet.toUInt32 := by
  have small : octet.toNat < 256 := octet.toNat_lt
  have high := hexValue_digitChar (octet.toNat / 16) (by omega)
  have low := hexValue_digitChar (octet.toNat % 16) (by omega)
  have whole : 16 * (16 * 0 + octet.toNat / 16) + octet.toNat % 16 = octet.toNat := by omega
  have fits : min 0xffffffff octet.toNat = octet.toNat := by omega
  simp only [hexNumber, octetText, List.foldl_cons, List.foldl_nil, high, low, Option.getD_some,
    whole, fits]
  exact UInt32.toNat_inj.mp (UInt32.toNat_ofNat_of_lt' (small.trans (by decide)))

theorem scanDigits_octetText (octet : UInt8) :
    scanDigits (octetText octet ++ rest) = some (octet.toUInt32, rest) := by
  have some : octetText octet ≠ [] := List.cons_ne_nil _ _
  rw [scanDigits, leadingHex_octetText stops, hexNumber_octetText, List.drop_left, if_neg some]

/-- An octet is scanned as it was written, up to what is no digit. -/
theorem scanHex_octetText (octet : UInt8) :
    scanHex (octetText octet ++ rest) = some (octet.toUInt32, rest) := by
  have plain : ∀ c ∈ octetText octet, _ := fun c member => hexDigit_plain c (mem_octetText member)
  obtain ⟨-, solid, plus, minus, -, -⟩ := plain _ List.mem_cons_self
  obtain ⟨-, -, -, -, -, unmarked⟩ := plain _ (List.mem_cons_of_mem _ List.mem_cons_self)
  have unsigned : scanUnsigned (octetText octet ++ rest) = some (octet.toUInt32, rest) :=
    (scanUnsigned_pair unmarked rest).trans (scanDigits_octetText stops octet)
  have start : (octetText octet ++ rest).dropWhile isNumberSpace = octetText octet ++ rest := by
    rw [octetText, List.cons_append, List.dropWhile_cons, solid, if_neg Bool.false_ne_true]
  rw [scanHex, start]
  split
  · next same => exact absurd (List.cons.inj same).1 plus
  · next same => exact absurd (List.cons.inj same).1 minus
  · exact unsigned

end

/-- Octets with colons between are scanned as they were written. -/
theorem scanFields_octets (octets : List UInt8) {rest : List Char}
    (stops : ∀ c ∈ rest.head?, hexValue c = none) :
    scanFields octets.length ([':'].intercalate (octets.map octetText) ++ rest) =
      some (octets.map UInt8.toUInt32) := by
  have colon : ∀ later : List Char, ∀ c ∈ (':' :: later).head?, hexValue c = none := by
    intro later c member
    cases member
    decide
  induction octets with
  | nil => rfl
  | cons octet octets ih =>
      cases octets with
      | nil =>
          rw [List.map_singleton, List.intercalate_singleton, List.length_singleton, scanFields,
            scanHex_octetText stops]
          rfl
      | cons next octets =>
          have apart : [':'].intercalate ((octet :: next :: octets).map octetText) ++ rest =
              octetText octet ++ ':' :: ([':'].intercalate ((next :: octets).map octetText) ++
                rest) := by
            rw [List.map_cons, List.map_cons, List.intercalate_cons_cons, List.append_assoc,
              List.append_assoc]
            rfl
          rw [List.length_cons] at ih
          rw [apart, List.length_cons, List.length_cons, scanFields,
            scanHex_octetText (colon _), Option.bind_some]
          exact congrArg (Option.map (octet.toUInt32 :: ·)) ih

end Foundation
