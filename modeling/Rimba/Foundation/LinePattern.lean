import Mathlib.Data.List.Basic
import Mathlib.Data.Nat.Notation

/-! # Searching a text for a pattern that stays in its line

A pattern is tried at every position of a text, unanchored. A pattern whose
matches never cross a line break and always run to the end of the line finds at
most one match in each line, so searching a whole text is searching its lines
one by one (`Foundation.Pattern.search_unlines`,
`Foundation.Pattern.findAll_unlines`).
-/

namespace Foundation

/-- Cut a tag off the front of a text. -/
def after : List Char → List Char → Option (List Char)
  | [], text => some text
  | _ :: _, [] => none
  | c :: tag, d :: text => if c = d then after tag text else none

theorem after_eq_some {tag text rest : List Char} :
    after tag text = some rest ↔ text = tag ++ rest := by
  induction tag generalizing text with
  | nil => simp only [after, Option.some.injEq, List.nil_append]
  | cons c tag ih =>
      cases text with
      | nil => simp only [after, reduceCtorEq, List.cons_append]
      | cons d text =>
          by_cases same : c = d
          · simp only [after, same, ↓reduceIte, ih, List.cons_append, List.cons.injEq, true_and]
          · simp only [after, same, ↓reduceIte, reduceCtorEq, List.cons_append, List.cons.injEq,
              false_iff, not_and]
            exact fun back => (same back.symm).elim

@[simp] theorem after_append (tag rest : List Char) : after tag (tag ++ rest) = some rest :=
  after_eq_some.mpr rfl

/-- A tag without a line break that a text does not start with is not completed
by a line break behind the text. -/
theorem after_line {tag text : List Char} (inLine : '\n' ∉ tag) (rest : List Char) :
    after tag (text ++ '\n' :: rest) = (after tag text).map (· ++ '\n' :: rest) := by
  induction tag generalizing text with
  | nil => rfl
  | cons c tag ih =>
      cases text with
      | nil =>
          have different : c ≠ '\n' := fun same => inLine (same ▸ List.mem_cons_self)
          simp only [List.nil_append, after, different, ↓reduceIte, Option.map_none]
      | cons d text =>
          by_cases same : c = d
          · simp only [List.cons_append, after, same, ↓reduceIte]
            exact ih fun member => inLine (List.mem_cons_of_mem _ member)
          · simp only [List.cons_append, after, same, ↓reduceIte, Option.map_none]

/-- A pattern tried at the head of a text: what it captures, and the number of
characters it takes. -/
abbrev Pattern (Capture : Type*) := List Char → Option (Capture × ℕ)

/-- Lines, each ended by a line break. -/
def unlines (lines : List (List Char)) : List Char := lines.flatMap fun line => line ++ ['\n']

namespace Pattern

variable {Capture : Type*}

/-- The leftmost match of a text. -/
def search (pattern : Pattern Capture) : List Char → Option Capture
  | [] => none
  | c :: rest =>
      match pattern (c :: rest) with
      | some (found, _) => some found
      | none => search pattern rest

/-- Every match of a text, left to right, each after the end of the one before;
`skip` characters belong to the match before. -/
def findAll (pattern : Pattern Capture) : ℕ → List Char → List Capture
  | _, [] => []
  | skip + 1, _ :: rest => findAll pattern skip rest
  | 0, c :: rest =>
      match pattern (c :: rest) with
      | some (found, taken) => found :: findAll pattern (taken - 1) rest
      | none => findAll pattern 0 rest

/-- Matches lie in one line and run to its end. -/
structure ToLineEnd (pattern : Pattern Capture) : Prop where
  lineBreak : ∀ rest, pattern ('\n' :: rest) = none
  inLine : ∀ text rest, '\n' ∉ text → pattern (text ++ '\n' :: rest) = pattern text
  taken : ∀ text found taken, '\n' ∉ text → pattern text = some (found, taken) →
    taken = text.length

variable {pattern : Pattern Capture}

theorem search_line (toLineEnd : pattern.ToLineEnd) {text : List Char} (line : '\n' ∉ text)
    (rest : List Char) :
    pattern.search (text ++ '\n' :: rest) = (pattern.search text).or (pattern.search rest) := by
  induction text with
  | nil => simp only [List.nil_append, search, toLineEnd.lineBreak, Option.none_or]
  | cons c text ih =>
      have later : '\n' ∉ text := fun member => line (List.mem_cons_of_mem _ member)
      have here := toLineEnd.inLine (c :: text) rest line
      rw [List.cons_append] at here ⊢
      simp only [search, here]
      cases pattern (c :: text) with
      | some found => simp only [Option.some_or]
      | none => exact ih later

/-- Searching lines is searching for the first line with a match, and then what is
left behind the last line break. -/
theorem search_unlines_append (toLineEnd : pattern.ToLineEnd) {lines : List (List Char)}
    (line : ∀ text ∈ lines, '\n' ∉ text) (tail : List Char) :
    pattern.search (unlines lines ++ tail) =
      (lines.findSome? pattern.search).or (pattern.search tail) := by
  induction lines with
  | nil => rfl
  | cons text lines ih =>
      have split : unlines (text :: lines) ++ tail = text ++ '\n' :: (unlines lines ++ tail) := by
        simp only [unlines, List.flatMap_cons, List.append_assoc, List.cons_append, List.nil_append]
      rw [split, search_line toLineEnd (line text List.mem_cons_self),
        ih fun other member => line other (List.mem_cons_of_mem _ member), List.findSome?_cons]
      cases pattern.search text <;> rfl

theorem search_unlines (toLineEnd : pattern.ToLineEnd) {lines : List (List Char)}
    (line : ∀ text ∈ lines, '\n' ∉ text) :
    pattern.search (unlines lines) = lines.findSome? pattern.search := by
  have searched := search_unlines_append toLineEnd line []
  rwa [List.append_nil, search, Option.or_none] at searched

theorem findAll_skip (text rest : List Char) :
    findAll pattern text.length (text ++ rest) = findAll pattern 0 rest := by
  induction text with
  | nil => rfl
  | cons c text ih => exact ih

theorem findAll_line (toLineEnd : pattern.ToLineEnd) {text : List Char} (line : '\n' ∉ text)
    (rest : List Char) :
    findAll pattern 0 (text ++ '\n' :: rest) =
      (pattern.search text).toList ++ findAll pattern 0 rest := by
  induction text with
  | nil => simp only [List.nil_append, findAll, search, toLineEnd.lineBreak, Option.toList_none]
  | cons c text ih =>
      have later : '\n' ∉ text := fun member => line (List.mem_cons_of_mem _ member)
      have here := toLineEnd.inLine (c :: text) rest line
      rw [List.cons_append] at here ⊢
      simp only [search, findAll, here]
      cases found : pattern (c :: text) with
      | none => exact ih later
      | some result =>
          obtain ⟨value, taken⟩ := result
          have whole := toLineEnd.taken (c :: text) value taken line found
          simp only [whole, List.length_cons, Nat.add_one_sub_one, findAll_skip,
            Option.toList_some, List.singleton_append, findAll, toLineEnd.lineBreak]

/-- The matches of lines are the first match of each line that has one. -/
theorem findAll_unlines (toLineEnd : pattern.ToLineEnd) {lines : List (List Char)}
    (line : ∀ text ∈ lines, '\n' ∉ text) :
    findAll pattern 0 (unlines lines) = lines.filterMap pattern.search := by
  induction lines with
  | nil => rfl
  | cons text lines ih =>
      have split : unlines (text :: lines) = text ++ '\n' :: unlines lines := by
        simp only [unlines, List.flatMap_cons, List.append_assoc, List.singleton_append]
      rw [split, findAll_line toLineEnd (line text List.mem_cons_self),
        ih fun other member => line other (List.mem_cons_of_mem _ member), List.filterMap_cons]
      cases pattern.search text <;> rfl

/-- The leftmost match is that of the longest suffix with one. -/
theorem search_eq_some {text : List Char} {found : Capture} :
    pattern.search text = some found ↔
      ∃ suffix taken, suffix <:+ text ∧ suffix ≠ [] ∧ pattern suffix = some (found, taken) ∧
        ∀ other, other <:+ text → other ≠ [] → pattern other ≠ none → other <:+ suffix := by
  induction text with
  | nil =>
      refine iff_of_false (by simp only [search, reduceCtorEq, not_false_eq_true]) ?_
      rintro ⟨suffix, taken, inside, nonempty, _⟩
      exact nonempty (List.suffix_nil.mp inside)
  | cons c text ih =>
      cases here : pattern (c :: text) with
      | some result =>
          simp only [search, here, Option.some.injEq]
          constructor
          · rintro rfl
            exact ⟨c :: text, result.2, List.suffix_refl _, List.cons_ne_nil _ _, here,
              fun other inside _ _ => inside⟩
          · rintro ⟨suffix, taken, inside, _, matched, longest⟩
            have whole : c :: text <:+ suffix := longest _ (List.suffix_refl _)
              (List.cons_ne_nil _ _) (by rw [here]; exact Option.some_ne_none _)
            rw [inside.eq_of_length_le whole.length_le, here, Option.some.injEq] at matched
            rw [matched]
      | none =>
          simp only [search, here, ih]
          refine exists₂_congr fun suffix taken => ?_
          constructor
          · rintro ⟨inside, nonempty, matched, longest⟩
            refine ⟨inside.trans (List.suffix_cons c text), nonempty, matched,
              fun other within solid reads => ?_⟩
            rcases List.suffix_cons_iff.mp within with rfl | deeper
            · exact (reads here).elim
            · exact longest other deeper solid reads
          · rintro ⟨inside, nonempty, matched, longest⟩
            refine ⟨?_, nonempty, matched, fun other within solid reads =>
              longest other (within.trans (List.suffix_cons c text)) solid reads⟩
            rcases List.suffix_cons_iff.mp inside with rfl | deeper
            · rw [here] at matched
              cases matched
            · exact deeper

/-- A search finds a match somewhere in the text. -/
theorem search_suffix {text : List Char} {found : Capture} (searched : pattern.search text =
    some found) : ∃ suffix taken, suffix <:+ text ∧ pattern suffix = some (found, taken) := by
  obtain ⟨suffix, taken, inside, _, matched, _⟩ := search_eq_some.mp searched
  exact ⟨suffix, taken, inside, matched⟩

/-- A match at the head of a text is its leftmost one. -/
theorem search_of_head {text : List Char} {found : Capture} {taken : ℕ} (nonempty : text ≠ [])
    (here : pattern text = some (found, taken)) : pattern.search text = some found := by
  cases text with
  | nil => exact (nonempty rfl).elim
  | cons c text => simp only [search, here]

end Pattern

/-- The first of some literals a text starts with, and the text behind it. -/
def firstWord {Value : Type*} (words : List (List Char × Value)) (text : List Char) :
    Option (Value × List Char) :=
  words.findSome? fun word => (after word.1 text).map fun rest => (word.2, rest)

theorem firstWord_line {Value : Type*} {words : List (List Char × Value)}
    (inLine : ∀ word ∈ words, '\n' ∉ word.1) (text rest : List Char) :
    firstWord words (text ++ '\n' :: rest) =
      (firstWord words text).map fun found => (found.1, found.2 ++ '\n' :: rest) := by
  induction words with
  | nil => rfl
  | cons word words ih =>
      simp only [firstWord, List.findSome?_cons, after_line (inLine word List.mem_cons_self),
        Option.map_map] at ih ⊢
      cases after word.1 text with
      | some behind => rfl
      | none => exact ih fun other member => inLine other (List.mem_cons_of_mem _ member)

theorem firstWord_eq_some {Value : Type*} {words : List (List Char × Value)} {text : List Char}
    {found : Value × List Char} (first : firstWord words text = some found) :
    ∃ word, (word, found.1) ∈ words ∧ text = word ++ found.2 := by
  obtain ⟨⟨word, value⟩, member, cut⟩ := List.exists_of_findSome?_eq_some first
  obtain ⟨rest, behind, rfl⟩ := Option.map_eq_some_iff.mp cut
  exact ⟨word, member, after_eq_some.mp behind⟩

theorem firstWord_eq_none {Value : Type*} {words : List (List Char × Value)} {text : List Char} :
    firstWord words text = none ↔ ∀ word ∈ words, ¬ word.1 <+: text := by
  rw [firstWord, List.findSome?_eq_none_iff]
  refine forall₂_congr fun word _ => ?_
  rw [Option.map_eq_none_iff, Option.eq_none_iff_forall_ne_some]
  constructor
  · rintro missed ⟨rest, rfl⟩
    exact missed rest (after_append ..)
  · rintro apart rest found
    exact apart ⟨rest, (after_eq_some.mp found).symm⟩

/-- The front of a pattern that ends with the rest of its line: what it captures
and the text behind it. -/
structure LineFront {Capture : Type*} (front : List Char → Option (Capture × List Char)) :
    Prop where
  lineBreak : ∀ rest, front ('\n' :: rest) = none
  inLine : ∀ text rest, '\n' ∉ text →
    front (text ++ '\n' :: rest) = (front text).map fun found => (found.1, found.2 ++ '\n' :: rest)
  behind : ∀ text found, front text = some found → found.2 <:+ text

/-- The pattern that captures, behind a front, the rest of the line. -/
def restOfLine {Capture : Type*} (front : List Char → Option (Capture × List Char)) :
    Pattern (Capture × List Char) := fun text =>
  (front text).map fun found =>
    let rest := found.2.takeWhile (· ≠ '\n')
    ((found.1, rest), text.length - found.2.length + rest.length)

theorem takeWhile_lineBreak {text : List Char} (line : '\n' ∉ text) (rest : List Char) :
    (text ++ '\n' :: rest).takeWhile (· ≠ '\n') = text := by
  induction text with
  | nil => simp only [List.nil_append, ne_eq, not_true_eq_false, decide_false, Bool.false_eq_true,
      not_false_eq_true, List.takeWhile_cons_of_neg]
  | cons c text ih =>
      obtain ⟨here, later⟩ := not_or.mp (List.mem_cons.not.mp line)
      rw [List.cons_append, List.takeWhile_cons_of_pos (by simpa using Ne.symm here), ih later]

theorem takeWhile_line {text : List Char} (line : '\n' ∉ text) :
    text.takeWhile (· ≠ '\n') = text := by
  induction text with
  | nil => rfl
  | cons c text ih =>
      obtain ⟨here, later⟩ := not_or.mp (List.mem_cons.not.mp line)
      rw [List.takeWhile_cons_of_pos (by simpa using Ne.symm here), ih later]

/-- Behind a front that stays in its line, the rest of the line is captured
whole. -/
theorem LineFront.restOfLine {Capture : Type*}
    {front : List Char → Option (Capture × List Char)} (inFront : LineFront front) :
    (restOfLine front).ToLineEnd where
  lineBreak rest := by simp only [Foundation.restOfLine, inFront.lineBreak, Option.map_none]
  inLine text rest line := by
    simp only [Foundation.restOfLine, inFront.inLine text rest line, Option.map_map]
    cases found : front text with
    | none => rfl
    | some found' =>
        have inside := inFront.behind text found' found
        have behindLine : '\n' ∉ found'.2 := fun member => line (inside.mem member)
        simp only [Option.map_some, Function.comp_apply, takeWhile_lineBreak behindLine,
          takeWhile_line behindLine, List.length_append, List.length_cons, Nat.add_sub_add_right]
  taken text found taken line here := by
    obtain ⟨cut, fronted, same⟩ := Option.map_eq_some_iff.mp here
    have inside := inFront.behind text cut fronted
    have behindLine : '\n' ∉ cut.2 := fun member => line (inside.mem member)
    simp only [takeWhile_line behindLine, Prod.mk.injEq] at same
    rw [← same.2, Nat.sub_add_cancel inside.length_le]

/-- A front at the head of a line makes the line's leftmost match. -/
theorem restOfLine_search {Capture : Type*} {front : List Char → Option (Capture × List Char)}
    {text detail : List Char} {found : Capture} (nonempty : text ≠ []) (line : '\n' ∉ detail)
    (here : front text = some (found, detail)) :
    (restOfLine front).search text = some (found, detail) := by
  have head : restOfLine front text =
      some ((found, detail), text.length - detail.length + detail.length) := by
    simp only [restOfLine, here, Option.map_some, takeWhile_line line]
  exact Pattern.search_of_head nonempty head

theorem filterMap_sublist {Item Value : Type*} {read expect : Item → Option Value}
    {items : List Item}
    (given : ∀ item ∈ items, ∀ value ∈ expect item, read item = some value) :
    (items.filterMap expect).Sublist (items.filterMap read) := by
  induction items with
  | nil => exact List.Sublist.refl _
  | cons item items ih =>
      have rest := ih fun other member => given other (List.mem_cons_of_mem _ member)
      cases expected : expect item with
      | none =>
          rw [List.filterMap_cons_none expected]
          cases readHere : read item with
          | none => rwa [List.filterMap_cons_none readHere]
          | some value =>
              rw [List.filterMap_cons_some readHere]
              exact rest.cons _
      | some value =>
          rw [List.filterMap_cons_some expected,
            List.filterMap_cons_some (given item List.mem_cons_self value expected)]
          exact rest.cons_cons _

/-- When every expected reading that some item can give is given by its own
item, reading a list gives what is expected of it only if every item does. -/
theorem filterMap_eq_iff_forall {Item Value : Type*} {read expect : Item → Option Value}
    {good : Value → Prop} {items : List Item}
    (readGood : ∀ item ∈ items, ∀ value ∈ read item, good value)
    (expectRead : ∀ item ∈ items, ∀ value ∈ expect item, good value → read item = some value) :
    items.filterMap read = items.filterMap expect ↔ ∀ item ∈ items, read item = expect item := by
  refine ⟨fun same => ?_, List.filterMap_congr⟩
  have given : ∀ item ∈ items, ∀ value ∈ expect item, read item = some value := by
    intro item member value expected
    refine expectRead item member value expected ?_
    have inRead : value ∈ items.filterMap read :=
      same ▸ List.mem_filterMap.mpr ⟨item, member, expected⟩
    obtain ⟨giver, inItems, gave⟩ := List.mem_filterMap.mp inRead
    exact readGood giver inItems value gave
  clear readGood expectRead
  induction items with
  | nil => simp only [List.not_mem_nil, false_imp_iff, implies_true]
  | cons item items ih =>
      have later := fun other member => given other (List.mem_cons_of_mem _ member)
      rw [List.forall_mem_cons]
      cases expected : expect item with
      | some value =>
          have readHere := given item List.mem_cons_self value expected
          rw [List.filterMap_cons_some expected, List.filterMap_cons_some readHere,
            List.cons.injEq] at same
          exact ⟨readHere, ih same.2 later⟩
      | none =>
          rw [List.filterMap_cons_none expected] at same
          cases readHere : read item with
          | none =>
              rw [List.filterMap_cons_none readHere] at same
              exact ⟨rfl, ih same later⟩
          | some value =>
              -- a reading nothing asked for makes the list too long
              rw [List.filterMap_cons_some readHere] at same
              have long := congrArg List.length same
              have short := (filterMap_sublist later).length_le
              rw [List.length_cons] at long
              omega

end Foundation
