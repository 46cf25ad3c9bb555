import Mathlib.Data.List.Basic
import Mathlib.Data.Nat.Notation
import Rimba.Foundation.Machine

/-! # JSON texts, written and read

Values are written with ASCII escapes, in a layout that puts white space around
items. They are read one character at a time by a machine with a stack of the
containers still open, so that what a reader has seen of a text that stops in
the middle is a state of its own.
-/

namespace Foundation

/-- The characters of numbers and of words such as `null`. -/
def isBareChar (c : Char) : Bool := c.isAlphanum || c = '+' || c = '-' || c = '.'

/-- What follows one or more digits. -/
def behindDigits : List Char → Option (List Char)
  | c :: rest => if c.isDigit then some (rest.dropWhile Char.isDigit) else none
  | [] => none

/-- What follows an integer without a leading zero. -/
def behindInteger : List Char → Option (List Char)
  | '0' :: rest => some rest
  | text => behindDigits text

/-- What follows an optional fraction. -/
def behindFraction : List Char → Option (List Char)
  | '.' :: rest => behindDigits rest
  | text => some text

/-- What follows an optional exponent. -/
def behindExponent : List Char → Option (List Char)
  | c :: rest =>
      if c = 'e' || c = 'E' then
        match rest with
        | '+' :: digits | '-' :: digits => behindDigits digits
        | digits => behindDigits digits
      else some (c :: rest)
  | [] => some []

/-- A number: an optional minus sign, an integer, a fraction and an exponent. -/
def isNumber (text : List Char) : Bool :=
  let unsigned := match text with
    | '-' :: rest => rest
    | rest => rest
  ((behindInteger unsigned).bind behindFraction).bind behindExponent = some []

/-- The words a value can be. -/
def bareWords : List (List Char) :=
  ["null".toList, "true".toList, "false".toList, "NaN".toList, "Infinity".toList,
    "-Infinity".toList]

/-- A text that is a number or a word. -/
def isBare (text : List Char) : Bool :=
  text.all isBareChar && (text ∈ bareWords || isNumber text)

theorem isBare_true : isBare "true".toList = true := rfl

theorem isBare_false : isBare "false".toList = true := rfl

/-- A number or a word, as it is written. -/
abbrev Bare := { text : List Char // isBare text = true }

/-- A JSON value; the members of an object are in order. -/
inductive Json where
  | bare (text : Bare)
  | str (text : List Char)
  | arr (items : List Json)
  | obj (members : List (List Char × Json))

/-- What an object has under a key. -/
def memberOf (key : String) : Json → Option Json
  | .obj members => members.lookup key.toList
  | _ => none

/-- The text an object has under a key. -/
def textOf (key : String) (v : Json) : Option (List Char) :=
  match memberOf key v with
  | some (.str text) => some text
  | _ => none

/-- Four hexadecimal digits behind `\u`. -/
def escapeUnit (unit : ℕ) : List Char :=
  ['\\', 'u', Nat.digitChar (unit / 4096 % 16), Nat.digitChar (unit / 256 % 16),
    Nat.digitChar (unit / 16 % 16), Nat.digitChar (unit % 16)]

/-- A character in a string: as it is, or escaped when it is not printable ASCII. -/
def escapeChar (c : Char) : List Char :=
  if c = '"' then ['\\', '"']
  else if c = '\\' then ['\\', '\\']
  else if c = '\n' then ['\\', 'n']
  else if c = '\r' then ['\\', 'r']
  else if c = '\t' then ['\\', 't']
  else if c = '\x0c' then ['\\', 'f']
  else if c = '\x08' then ['\\', 'b']
  else if 0x20 ≤ c.toNat ∧ c.toNat ≤ 0x7e then [c]
  else if c.toNat < 0x10000 then escapeUnit c.toNat
  else
    escapeUnit (0xd800 + (c.toNat - 0x10000) / 0x400) ++
      escapeUnit (0xdc00 + (c.toNat - 0x10000) % 0x400)

/-- A string in quotes. -/
def quote (text : List Char) : List Char := '"' :: (text.flatMap escapeChar ++ ['"'])

/-- The white space between values. -/
def isBlank (c : Char) : Bool := c = ' ' || c = '\t' || c = '\n' || c = '\r'

/-- The white space inside a container at a level of nesting, and behind a comma. -/
structure Layout where
  gap : ℕ → List Char
  itemGap : ℕ → List Char
  gap_blank : ∀ level, ∀ c ∈ gap level, isBlank c = true
  itemGap_blank : ∀ level, ∀ c ∈ itemGap level, isBlank c = true

/-- Everything on one line. -/
def Layout.compact : Layout where
  gap _ := []
  itemGap _ := [' ']
  gap_blank _ c member := by cases member
  itemGap_blank _ c member := by
    cases List.mem_singleton.mp member
    rfl

/-- Every member and item on a line of its own, indented by `width` a level. -/
def Layout.indented (width : ℕ) : Layout where
  gap level := '\n' :: List.replicate (width * level) ' '
  itemGap level := '\n' :: List.replicate (width * level) ' '
  gap_blank _ c member := by
    rcases List.mem_cons.mp member with rfl | space
    · rfl
    · cases List.eq_of_mem_replicate space
      rfl
  itemGap_blank _ c member := by
    rcases List.mem_cons.mp member with rfl | space
    · rfl
    · cases List.eq_of_mem_replicate space
      rfl

section

variable (layout : Layout)

mutual

/-- A value at a level of nesting. -/
def dumps (level : ℕ) : Json → List Char
  | .bare text => text.1
  | .str text => quote text
  | .arr [] => ['[', ']']
  | .arr (v :: rest) =>
      '[' :: (layout.gap (level + 1) ++ (dumps (level + 1) v ++
        (dumpsItems (level + 1) rest ++ (layout.gap level ++ [']']))))
  | .obj [] => ['{', '}']
  | .obj ((key, v) :: rest) =>
      '{' :: (layout.gap (level + 1) ++ (quote key ++ (':' :: ' ' :: (dumps (level + 1) v ++
        (dumpsMembers (level + 1) rest ++ (layout.gap level ++ ['}']))))))

/-- The items of an array behind its first. -/
def dumpsItems (level : ℕ) : List Json → List Char
  | [] => []
  | v :: rest => ',' :: (layout.itemGap level ++ (dumps level v ++ dumpsItems level rest))

/-- The members of an object behind its first. -/
def dumpsMembers (level : ℕ) : List (List Char × Json) → List Char
  | [] => []
  | (key, v) :: rest =>
      ',' :: (layout.itemGap level ++ (quote key ++ (':' :: ' ' :: (dumps level v ++
        dumpsMembers level rest))))

end

end

/-- Where a reader is inside a string: between characters, behind a backslash,
or in the digits of an escape. -/
inductive StringMode where
  | plain
  | escape
  | hex (value left : ℕ)
  deriving DecidableEq

/-- A string being read: its code points so far, and whether the last one is the
first half of an escaped surrogate pair. -/
structure StringState where
  points : List ℕ
  high : Bool
  mode : StringMode
  deriving DecidableEq

/-- The start of a string. -/
def StringState.start : StringState := ⟨[], false, .plain⟩

/-- The value of a hexadecimal digit. -/
def hexValue (c : Char) : Option ℕ :=
  if '0' ≤ c ∧ c ≤ '9' then some (c.toNat - 0x30)
  else if 'a' ≤ c ∧ c ≤ 'f' then some (c.toNat - 0x57)
  else if 'A' ≤ c ∧ c ≤ 'F' then some (c.toNat - 0x37)
  else none

theorem hexValue_digitChar : ∀ digit < 16, hexValue (Nat.digitChar digit) = some digit := by
  decide

theorem hexValue_mod (n : ℕ) : hexValue (Nat.digitChar (n % 16)) = some (n % 16) :=
  hexValue_digitChar _ (Nat.mod_lt _ (by decide))

/-- The character an escape of one letter stands for. -/
def shortEscape (c : Char) : Option Char :=
  if c = '"' || c = '\\' || c = '/' then some c
  else if c = 'b' then some '\x08'
  else if c = 'f' then some '\x0c'
  else if c = 'n' then some '\n'
  else if c = 'r' then some '\r'
  else if c = 't' then some '\t'
  else none

/-- A character is written as a letter behind a backslash, as itself, as its code unit or
as two surrogates. -/
theorem escapeChar_cases (c : Char) :
    (∃ letter, escapeChar c = ['\\', letter] ∧ shortEscape letter = some c ∧ letter ≠ 'u' ∧
        0x20 ≤ letter.toNat ∧ letter.toNat ≤ 0x7e) ∨
      (escapeChar c = [c] ∧ c ≠ '"' ∧ c ≠ '\\' ∧ 0x20 ≤ c.toNat ∧ c.toNat ≤ 0x7e) ∨
      (escapeChar c = escapeUnit c.toNat ∧ c.toNat < 0x10000) ∨
      (escapeChar c = escapeUnit (0xd800 + (c.toNat - 0x10000) / 0x400) ++
          escapeUnit (0xdc00 + (c.toNat - 0x10000) % 0x400) ∧ ¬ c.toNat < 0x10000) := by
  by_cases short : c = '"' ∨ c = '\\' ∨ c = '\n' ∨ c = '\r' ∨ c = '\t' ∨ c = '\x0c' ∨ c = '\x08'
  · left
    rcases short with rfl | rfl | rfl | rfl | rfl | rfl | rfl
    · exact ⟨'"', rfl, rfl, by decide⟩
    · exact ⟨'\\', rfl, rfl, by decide⟩
    · exact ⟨'n', rfl, rfl, by decide⟩
    · exact ⟨'r', rfl, rfl, by decide⟩
    · exact ⟨'t', rfl, rfl, by decide⟩
    · exact ⟨'f', rfl, rfl, by decide⟩
    · exact ⟨'b', rfl, rfl, by decide⟩
  · right
    simp only [not_or] at short
    obtain ⟨quote, backslash, newline, ret, tab, feed, back⟩ := short
    rw [escapeChar, if_neg quote, if_neg backslash, if_neg newline, if_neg ret, if_neg tab,
      if_neg feed, if_neg back]
    by_cases printable : 0x20 ≤ c.toNat ∧ c.toNat ≤ 0x7e
    · exact .inl ⟨if_pos printable, quote, backslash, printable⟩
    · rw [if_neg printable]
      by_cases basic : c.toNat < 0x10000
      · exact .inr (.inl ⟨if_pos basic, basic⟩)
      · exact .inr (.inr ⟨if_neg basic, basic⟩)

/-- The character of a code point; half a surrogate pair, which no text has,
becomes the replacement character. -/
def charOf (point : ℕ) : Char := if point.isValidChar then Char.ofNat point else '\ufffd'

/-- A string behind one more escaped code unit. -/
def StringState.unit (s : StringState) (unit : ℕ) : StringState :=
  if s.high ∧ 0xdc00 ≤ unit ∧ unit < 0xe000 then
    ⟨s.points.dropLast ++ [0x10000 + (s.points.getLastD 0 - 0xd800) * 0x400 + (unit - 0xdc00)],
      false, .plain⟩
  else ⟨s.points ++ [unit], 0xd800 ≤ unit ∧ unit < 0xdc00, .plain⟩

/-- A string behind one more character; the closing quote ends it. -/
def StringState.step (s : StringState) (c : Char) : Option (StringState ⊕ List Char) :=
  match s.mode with
  | .plain =>
      if c = '"' then some (.inr (s.points.map charOf))
      else if c = '\\' then some (.inl { s with mode := .escape })
      else if c < ' ' then none
      else some (.inl ⟨s.points ++ [c.toNat], false, .plain⟩)
  | .escape =>
      if c = 'u' then some (.inl { s with mode := .hex 0 4 })
      else (shortEscape c).map fun d => .inl ⟨s.points ++ [d.toNat], false, .plain⟩
  | .hex value left =>
      (hexValue c).map fun digit =>
        if left ≤ 1 then .inl (s.unit (value * 16 + digit))
        else .inl { s with mode := .hex (value * 16 + digit) (left - 1) }

/-- A container still open: what it holds so far. -/
inductive Frame where
  | arr (items : List Json)
  | obj (members : List (List Char × Json)) (key : List Char)

/-- What a reader expects next. -/
inductive Mode where
  /-- a value -/
  | value
  /-- the first item of an array, or its end -/
  | item
  /-- the first key of an object, or its end -/
  | firstKey
  /-- a key -/
  | key
  /-- the colon behind a key -/
  | colon
  /-- a comma, or the end of the container -/
  | more
  /-- more of a string -/
  | str (isKey : Bool) (s : StringState)
  /-- more of a number or a word -/
  | bare (text : List Char)
  /-- nothing -/
  | done (v : Json)

/-- A reader: what it expects, and the containers still open. -/
structure Reader where
  mode : Mode
  stack : List Frame

namespace Reader

/-- A value ends inside the containers still open. -/
def close (v : Json) : List Frame → Reader
  | [] => ⟨.done v, []⟩
  | .arr items :: rest => ⟨.more, .arr (items ++ [v]) :: rest⟩
  | .obj members key :: rest => ⟨.more, .obj (members ++ [(key, v)]) key :: rest⟩

/-- A value starts. -/
def start (stack : List Frame) (c : Char) : Option Reader :=
  if c = '"' then some ⟨.str false .start, stack⟩
  else if c = '[' then some ⟨.item, .arr [] :: stack⟩
  else if c = '{' then some ⟨.firstKey, .obj [] [] :: stack⟩
  else if isBareChar c then some ⟨.bare [c], stack⟩
  else none

/-- A comma, or the end of the innermost container. -/
def punctuate (stack : List Frame) (c : Char) : Option Reader :=
  match stack with
  | .arr items :: rest =>
      if c = ',' then some ⟨.value, stack⟩
      else if c = ']' then some (close (.arr items) rest)
      else none
  | .obj members _ :: rest =>
      if c = ',' then some ⟨.key, stack⟩
      else if c = '}' then some (close (.obj members) rest)
      else none
  | [] => none

/-- The key of the innermost object has been read. -/
def named (key : List Char) : List Frame → Option Reader
  | .obj members _ :: rest => some ⟨.colon, .obj members key :: rest⟩
  | _ => none

/-- A character that is not white space, where white space may stand. -/
def stepSolid (mode : Mode) (stack : List Frame) (c : Char) : Option Reader :=
  match mode with
  | .value => start stack c
  | .item => if c = ']' then punctuate stack c else start stack c
  | .firstKey =>
      if c = '"' then some ⟨.str true .start, stack⟩
      else if c = '}' then punctuate stack c
      else none
  | .key => if c = '"' then some ⟨.str true .start, stack⟩ else none
  | .colon => if c = ':' then some ⟨.value, stack⟩ else none
  | .more => punctuate stack c
  | _ => none

/-- A character where white space may stand. -/
def stepBetween (reader : Reader) (c : Char) : Option Reader :=
  if isBlank c then some reader else stepSolid reader.mode reader.stack c

/-- The reader behind one more character. -/
def step (reader : Reader) (c : Char) : Option Reader :=
  match reader.mode with
  | .str isKey s =>
      (s.step c).bind fun
        | .inl next => some ⟨.str isKey next, reader.stack⟩
        | .inr text =>
            if isKey then named text reader.stack else some (close (.str text) reader.stack)
  | .bare text =>
      if isBareChar c then some ⟨.bare (text ++ [c]), reader.stack⟩
      else if valid : isBare text = true then
        (close (.bare ⟨text, valid⟩) reader.stack).stepBetween c
      else none
  | _ => reader.stepBetween c

/-- What has been read when the text ends. -/
def finish (reader : Reader) : Option Json :=
  match reader.mode, reader.stack with
  | .done v, [] => some v
  | .bare text, [] => if valid : isBare text = true then some (.bare ⟨text, valid⟩) else none
  | _, _ => none

/-- The reader of a text. -/
def machine : Machine Reader Char where
  initial := ⟨.value, []⟩
  step := step

end Reader

/-- The value of a text. -/
def loads (text : List Char) : Option Json := (Reader.machine.run text).bind Reader.finish

end Foundation
