import Mathlib.Data.List.DropRight

/-! # Lines and white space of a Unicode text

White space, line boundaries, and the functions that split a text at its line
boundaries and strip the white space around a line, on lists of characters.
-/

namespace Foundation

/-- The Unicode white-space characters, with the four ASCII separators. -/
def isSpace (c : Char) : Bool :=
  c ∈ ['\t', '\n', '\x0b', '\x0c', '\r', ' ', '\x1c', '\x1d', '\x1e', '\x1f', '\u0085', '\u00a0',
    '\u1680', '\u2000', '\u2001', '\u2002', '\u2003', '\u2004', '\u2005', '\u2006', '\u2007',
    '\u2008', '\u2009', '\u200a', '\u2028', '\u2029', '\u202f', '\u205f', '\u3000']

/-- The characters that end a line. -/
def isLineBreak (c : Char) : Bool :=
  c ∈ ['\n', '\r', '\x0b', '\x0c', '\x1c', '\x1d', '\x1e', '\u0085', '\u2028', '\u2029']

/-- The zeros of the Unicode decimal digits; nine more follow each of them. -/
def decimalZeros : List ℕ :=
  [0x30, 0x660, 0x6f0, 0x7c0, 0x966, 0x9e6, 0xa66, 0xae6, 0xb66, 0xbe6, 0xc66, 0xce6, 0xd66, 0xde6,
    0xe50, 0xed0, 0xf20, 0x1040, 0x1090, 0x17e0, 0x1810, 0x1946, 0x19d0, 0x1a80, 0x1a90, 0x1b50,
    0x1bb0, 0x1c40, 0x1c50, 0xa620, 0xa8d0, 0xa900, 0xa9d0, 0xa9f0, 0xaa50, 0xabf0, 0xff10, 0x104a0,
    0x10d30, 0x11066, 0x110f0, 0x11136, 0x111d0, 0x112f0, 0x11450, 0x114d0, 0x11650, 0x116c0,
    0x11730, 0x118e0, 0x11950, 0x11c50, 0x11d50, 0x11da0, 0x11f50, 0x16a60, 0x16ac0, 0x16b50,
    0x1d7ce, 0x1d7d8, 0x1d7e2, 0x1d7ec, 0x1d7f6, 0x1e140, 0x1e2f0, 0x1e4f0, 0x1e950, 0x1fbf0]

/-- The value of a decimal digit. -/
def decimalValue (c : Char) : Option ℕ :=
  (decimalZeros.find? fun first => first ≤ c.toNat && c.toNat < first + 10).map fun first =>
    c.toNat - first

/-- The number at the head of a text and the text behind it. -/
def leadingNumber (text : List Char) : Option (ℕ × List Char) :=
  let digits := text.takeWhile fun c => (decimalValue c).isSome
  if digits = [] then none
  else some ((digits.filterMap decimalValue).foldl (fun n digit => 10 * n + digit) 0,
    text.drop digits.length)

/-- The lines of a text behind the start of one. -/
def splitlinesFrom (line : List Char) : List Char → List (List Char)
  | [] => if line = [] then [] else [line]
  | '\r' :: '\n' :: rest => line :: splitlinesFrom [] rest
  | c :: rest =>
      if isLineBreak c then line :: splitlinesFrom [] rest
      else splitlinesFrom (line ++ [c]) rest

/-- The lines of a text, without their breaks; a break at the very end starts no
further line. -/
def splitlines (text : List Char) : List (List Char) := splitlinesFrom [] text

/-- Drop the white space behind a text. -/
def rstrip (text : List Char) : List Char := (text.reverse.dropWhile isSpace).reverse

/-- Drop the white space around a text. -/
def strip (text : List Char) : List Char := rstrip (text.dropWhile isSpace)

/-- A character between quotes: the quote, the backslash and the ASCII control
characters are escaped. -/
def reprChar (quote c : Char) : List Char :=
  if c = quote || c = '\\' then ['\\', c]
  else if c = '\n' then "\\n".toList
  else if c = '\r' then "\\r".toList
  else if c = '\t' then "\\t".toList
  else if c.toNat < 0x20 || c.toNat = 0x7f then
    "\\x".toList ++ [Nat.digitChar (c.toNat / 16), Nat.digitChar (c.toNat % 16)]
  else [c]

/-- A text in quotes: single ones, unless it holds these and no double ones. -/
def reprText (text : List Char) : List Char :=
  let quote := if '\x27' ∈ text ∧ '"' ∉ text then '"' else '\x27'
  quote :: (text.flatMap (reprChar quote) ++ [quote])

theorem splitlinesFrom_cons {c : Char} (inLine : isLineBreak c = false) (line rest : List Char) :
    splitlinesFrom line (c :: rest) = splitlinesFrom (line ++ [c]) rest := by
  rw [splitlinesFrom.eq_def]
  split
  · next empty => cases empty
  · next same =>
      cases same
      exact absurd inLine (by decide)
  · next same =>
      cases same
      simp only [inLine, Bool.false_eq_true, ↓reduceIte]

theorem splitlinesFrom_line {text : List Char} (inLine : ∀ c ∈ text, isLineBreak c = false)
    (line rest : List Char) :
    splitlinesFrom line (text ++ rest) = splitlinesFrom (line ++ text) rest := by
  induction text generalizing line with
  | nil => rw [List.nil_append, List.append_nil]
  | cons c text ih =>
      rw [List.cons_append, splitlinesFrom_cons (inLine c List.mem_cons_self),
        ih fun other member => inLine other (List.mem_cons_of_mem _ member), List.append_assoc,
        List.singleton_append]

/-- A line break ends the first line. -/
theorem splitlines_line {text : List Char} (inLine : ∀ c ∈ text, isLineBreak c = false)
    (rest : List Char) : splitlines (text ++ '\n' :: rest) = text :: splitlines rest := by
  rw [splitlines, splitlinesFrom_line inLine, List.nil_append, splitlinesFrom.eq_def]
  rfl

/-- A text without line breaks is one line, unless it is empty. -/
theorem splitlines_last {text : List Char} (inLine : ∀ c ∈ text, isLineBreak c = false) :
    splitlines text = if text = [] then [] else [text] := by
  have whole := splitlinesFrom_line inLine [] []
  rw [List.append_nil, List.nil_append] at whole
  rw [splitlines, whole]
  rfl

/-- Stripping the white space behind a text leaves a prefix of it. -/
theorem rstrip_prefix (text : List Char) : rstrip text <+: text := by
  rw [← List.reverse_suffix, rstrip, List.reverse_reverse]
  exact List.dropWhile_suffix _

/-- A text that starts and ends with other characters has no white space around it. -/
theorem strip_solid {first last : Char} {middle : List Char} (starts : isSpace first = false)
    (ends : isSpace last = false) :
    strip (first :: (middle ++ [last])) = first :: (middle ++ [last]) := by
  rw [strip, List.dropWhile_cons_of_neg (by rw [starts]; decide), rstrip, ← List.cons_append,
    List.reverse_concat, List.dropWhile_cons_of_neg (by rw [ends]; decide), ← List.reverse_concat,
    List.reverse_reverse]

/-- Of a text that does not start with white space, stripping leaves a prefix. -/
theorem strip_prefix {first : Char} {rest : List Char} (starts : isSpace first = false) :
    strip (first :: rest) <+: first :: rest := by
  rw [strip, List.dropWhile_cons_of_neg (by rw [starts]; decide)]
  exact rstrip_prefix _

/-- A text without white space has none around it. -/
theorem strip_of_solid {text : List Char} (solid : ∀ c ∈ text, isSpace c = false) :
    strip text = text := by
  have front : text.dropWhile isSpace = text := by
    apply List.dropWhile_eq_self_iff.mpr
    intro some
    rw [solid _ (List.getElem_mem some)]
    exact Bool.false_ne_true
  rw [strip, front]
  apply List.rdropWhile_eq_self_iff.mpr
  intro some
  rw [solid _ (List.getLast_mem some)]
  exact Bool.false_ne_true

/-- A stripped text does not end with white space. -/
theorem strip_ne_append {text front : List Char} {c : Char} (space : isSpace c = true) :
    strip text ≠ front ++ [c] := by
  intro ends
  have some : strip text ≠ [] := by
    rw [ends]
    exact List.append_ne_nil_of_right_ne_nil front (List.cons_ne_nil c [])
  apply List.rdropWhile_last_not isSpace (text.dropWhile isSpace) some
  have last : (strip text).getLast some = c := by simp only [ends, List.getLast_append_singleton]
  rw [← space]
  exact congrArg isSpace last

theorem strip_strip (text : List Char) : strip (strip text) = strip text := by
  have before : strip text <+: text.dropWhile isSpace := rstrip_prefix _
  have front : (strip text).dropWhile isSpace = strip text := by
    apply List.dropWhile_eq_self_iff.mpr
    intro some
    rw [before.getElem some]
    exact List.dropWhile_get_zero_not isSpace text (some.trans_le before.length_le)
  rw [strip, front]
  exact List.rdropWhile_idempotent isSpace _

end Foundation
