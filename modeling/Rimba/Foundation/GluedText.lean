import Mathlib.Data.List.Infix
import Rimba.Foundation.LinePattern

/-! # Text that several writers glue together

Writers that share an output may print between one another's words, so that no text is
known to start or to end where a line does. A text is tame for a word between bars when
the word does not stand in it and its first bar closes the common mark of all writers:
then the word does not arise where the text is glued to others
(`Foundation.not_barred_append`). Searching such a text passes what stands before a tag
(`Foundation.Pattern.search_append_of_miss`, `Foundation.after_eq_none_of_absent`).
-/

namespace Foundation

section

variable {Symbol : Type*} {bar : Symbol} {mark word front text : List Symbol}

/-- The word stands in the text with a bar on both sides. -/
def Barred (bar : Symbol) (word text : List Symbol) : Prop := bar :: (word ++ [bar]) <:+: text

/-- A text that has the word nowhere between bars and closes the mark with its first bar. -/
structure Tame (bar : Symbol) (mark word text : List Symbol) : Prop where
  closes : ∀ before after, text = before ++ bar :: after → bar ∉ before → mark <:+ before
  absent : ¬ Barred bar word text

theorem not_barred_of_not_mem (plain : bar ∉ text) : ¬ Barred bar word text := fun stands =>
  plain (stands.subset List.mem_cons_self)

/-- Only a bar starts a word between bars. -/
theorem barred_append_iff (plain : bar ∉ front) :
    Barred bar word (front ++ text) ↔ Barred bar word text := by
  induction front with
  | nil => rfl
  | cons symbol front ih =>
      obtain ⟨here, later⟩ := not_or.mp (List.mem_cons.not.mp plain)
      rw [Barred, List.cons_append, List.infix_cons_iff, List.cons_prefix_cons]
      exact (or_iff_right fun starts => here starts.1).trans (ih later)

/-- The first bar of a text ends its first piece. -/
theorem eq_of_first_bar {piece rest : List Symbol} (plain : bar ∉ word) (other : bar ∉ piece)
    (split : word ++ bar :: rest = piece ++ bar :: text) : word = piece := by
  rcases List.append_eq_append_iff.mp split with ⟨more, longer, back⟩ | ⟨more, longer, back⟩
  · cases more with
    | nil => rw [longer, List.append_nil]
    | cons first more =>
        cases back
        exact absurd (longer ▸ List.mem_append_right word List.mem_cons_self) other
  · cases more with
    | nil => rw [longer, List.append_nil]
    | cons first more =>
        cases back
        exact absurd (longer ▸ List.mem_append_right piece List.mem_cons_self) plain

/-- The words between bars, from the front. -/
theorem barred_cons_iff {piece : List Symbol} (plain : bar ∉ word) (other : bar ∉ piece) :
    Barred bar word (bar :: (piece ++ bar :: text)) ↔
      piece = word ∨ Barred bar word (bar :: text) := by
  have whole : word ++ [bar] <+: piece ++ bar :: text ↔ piece = word := by
    refine ⟨fun starts => ?_, fun same => ⟨text, by rw [same, List.append_assoc]; rfl⟩⟩
    obtain ⟨rest, split⟩ := starts
    rw [List.append_assoc, List.singleton_append] at split
    exact (eq_of_first_bar plain other split).symm
  rw [Barred, List.infix_cons_iff, List.cons_prefix_cons, whole]
  exact or_congr (and_iff_right rfl) (barred_append_iff other)

/-- Pieces with a bar behind each, and a last piece. -/
def pieced (bar : Symbol) (pieces : List (List Symbol)) (last : List Symbol) : List Symbol :=
  pieces.flatMap (fun piece => piece ++ [bar]) ++ last

theorem not_mem_pieced {symbol : Symbol} {pieces : List (List Symbol)} {last : List Symbol}
    (other : symbol ≠ bar) (within : ∀ piece ∈ pieces, symbol ∉ piece) (ending : symbol ∉ last) :
    symbol ∉ pieced bar pieces last := by
  refine List.mem_append.not.mpr (not_or.mpr ⟨fun member => ?_, ending⟩)
  obtain ⟨piece, inside, here⟩ := List.mem_flatMap.mp member
  rcases List.mem_append.mp here with inPiece | inBar
  · exact within piece inside inPiece
  · exact other (List.mem_singleton.mp inBar)

theorem not_barred_pieced {pieces : List (List Symbol)} {last : List Symbol} (plain : bar ∉ word)
    (plains : ∀ piece ∈ pieces, bar ∉ piece) (ending : bar ∉ last) (other : word ∉ pieces) :
    ¬ Barred bar word (bar :: pieced bar pieces last) := by
  induction pieces with
  | nil =>
      rw [pieced, List.flatMap_nil, List.nil_append, Barred, List.infix_cons_iff,
        List.cons_prefix_cons]
      refine not_or.mpr ⟨fun starts => ending ?_, not_barred_of_not_mem ending⟩
      exact starts.2.subset (List.mem_append_right word (List.mem_singleton_self bar))
  | cons piece pieces ih =>
      obtain ⟨here, later⟩ := List.forall_mem_cons.mp plains
      have apart := not_or.mp (List.mem_cons.not.mp other)
      rw [pieced, List.flatMap_cons, List.append_assoc, List.append_assoc, List.singleton_append,
        barred_cons_iff plain here]
      exact not_or.mpr ⟨fun same => apart.1 same.symm, ih later apart.2⟩

/-- A text that starts with the mark and is tame for each word that is none of its
pieces. -/
theorem tame_pieced {pieces : List (List Symbol)} {last : List Symbol} (plain : bar ∉ word)
    (marked : bar ∉ mark) (plains : ∀ piece ∈ pieces, bar ∉ piece) (ending : bar ∉ last)
    (other : word ∉ pieces) : Tame bar mark word (mark ++ bar :: pieced bar pieces last) where
  closes before after split unbarred := by
    rw [eq_of_first_bar marked unbarred split]
  absent := by
    rw [barred_append_iff marked]
    exact not_barred_pieced plain plains ending other

theorem tame_of_not_mem (plain : bar ∉ text) : Tame bar mark word text where
  closes before after split _ := by
    rw [split] at plain
    exact absurd (List.mem_append_right before List.mem_cons_self) plain
  absent := not_barred_of_not_mem plain

/-- A word that does not end with the mark is not made by gluing a tame text on. -/
theorem not_barred_append (plain : bar ∉ word) (unmarked : ¬ mark <:+ word)
    (clear : ¬ Barred bar word front) (tame : Tame bar mark word text) :
    ¬ Barred bar word (front ++ text) := by
  rintro ⟨before, after, split⟩
  rw [List.append_assoc] at split
  rcases List.append_eq_append_iff.mp split with ⟨inner, here, rest⟩ | ⟨inner, rfl, rest⟩
  · -- the bar in front of the word is in the front, or the text starts with it
    cases inner with
    | nil => exact tame.absent ⟨[], after, rest⟩
    | cons first inner =>
        rw [List.cons_append, List.cons_append, List.cons.injEq] at rest
        obtain ⟨rfl, rest⟩ := rest
        rcases List.append_eq_append_iff.mp rest with ⟨more, whole, -⟩ | ⟨more, cut, back⟩
        · refine clear ⟨before, more, ?_⟩
          rw [here, whole, List.append_assoc, List.cons_append]
        · -- the bar behind it is the first one of the text
          rcases List.eq_nil_or_concat more with rfl | ⟨tail, last, rfl⟩
          · rw [List.append_nil] at cut
            exact clear ⟨before, [], by rw [here, ← cut, List.append_nil]⟩
          · rw [List.concat_eq_append, ← List.append_assoc] at cut
            obtain ⟨made, same⟩ := List.append_inj' cut rfl
            cases same
            rw [List.concat_eq_append, List.append_assoc] at back
            refine unmarked ((tame.closes tail after back ?_).trans ⟨inner, made.symm⟩)
            exact fun member => plain (made ▸ List.mem_append_right inner member)
  · exact tame.absent ⟨inner, after, by rw [List.append_assoc, rest]⟩

end

/-- A tag that no other occurrence of it can overlap does not begin in a text it does not
stand in, whether the tag follows it or not. -/
theorem after_eq_none_of_absent {tag front : List Char}
    (borderless : ∀ border ∈ tag.tails, border ≠ [] → border <+: tag → border = tag)
    (absent : ¬ tag <:+: front) {suffix : List Char} (inside : suffix <:+ front)
    (nonempty : suffix ≠ []) (rest : List Char) : after tag (suffix ++ (tag ++ rest)) = none := by
  refine Option.eq_none_iff_forall_ne_some.mpr fun behind found => ?_
  rcases List.append_eq_append_iff.mp (after_eq_some.mp found) with
    ⟨border, cut, overlap⟩ | ⟨more, whole, -⟩
  · rcases List.eq_nil_or_concat border with rfl | ⟨_, _, last⟩
    · rw [List.append_nil] at cut
      exact absent (cut ▸ inside.isInfix)
    · have ends : border <:+ tag := ⟨suffix, cut.symm⟩
      have starts : border <+: tag :=
        List.prefix_of_prefix_length_le ⟨behind, overlap.symm⟩ ⟨rest, rfl⟩ ends.length_le
      have filled : border ≠ [] := by
        rw [last, List.concat_eq_append]
        exact List.append_ne_nil_of_right_ne_nil _ (List.cons_ne_nil _ _)
      have same := borderless border ((List.mem_tails _ _).mpr ends) filled starts
      rw [same] at cut
      exact nonempty (List.append_left_eq_self.mp cut.symm)
  · exact absent (List.IsInfix.trans ⟨[], more, whole.symm⟩ inside.isInfix)

theorem after_eq_none_of_missing {tag front suffix : List Char} (absent : ¬ tag <:+: front)
    (inside : suffix <:+ front) : after tag suffix = none := by
  refine Option.eq_none_iff_forall_ne_some.mpr fun behind found => ?_
  exact absent (List.IsInfix.trans ⟨[], behind, (after_eq_some.mp found).symm⟩ inside.isInfix)

namespace Pattern

variable {Capture : Type*} {pattern : Pattern Capture} {front text : List Char}

/-- Searching passes a front in which no match begins. -/
theorem search_append_of_miss
    (miss : ∀ suffix, suffix <:+ front → suffix ≠ [] → pattern (suffix ++ text) = none) :
    pattern.search (front ++ text) = pattern.search text := by
  induction front with
  | nil => rfl
  | cons c front ih =>
      have here := miss (c :: front) (List.suffix_refl _) (List.cons_ne_nil _ _)
      rw [List.cons_append] at here ⊢
      simp only [search, here]
      exact ih fun suffix inside => miss suffix (inside.trans (List.suffix_cons c front))

theorem findAll_append_of_miss
    (miss : ∀ suffix, suffix <:+ front → suffix ≠ [] → pattern (suffix ++ text) = none) :
    pattern.findAll 0 (front ++ text) = pattern.findAll 0 text := by
  induction front with
  | nil => rfl
  | cons c front ih =>
      have here := miss (c :: front) (List.suffix_refl _) (List.cons_ne_nil _ _)
      rw [List.cons_append] at here ⊢
      simp only [findAll, here]
      exact ih fun suffix inside => miss suffix (inside.trans (List.suffix_cons c front))

section

variable {tag : List Char} (needs : ∀ text, after tag text = none → pattern text = none)

include needs

/-- A pattern that starts with a tag is not found where the tag does not stand. -/
theorem search_of_absent (absent : ¬ tag <:+: text) : pattern.search text = none := by
  have passed : pattern.search (text ++ []) = pattern.search [] :=
    search_append_of_miss fun suffix inside _ => by
      rw [List.append_nil]
      exact needs _ (after_eq_none_of_missing absent inside)
  rwa [List.append_nil] at passed

/-- A pattern that starts with a tag is found, or not, where the only tag stands. -/
theorem search_tag (borderless : ∀ border ∈ tag.tails, border ≠ [] → border <+: tag →
      border = tag) (nonempty : tag ≠ []) (before : ¬ tag <:+: front) (behind : ¬ tag <:+: text) :
    pattern.search (front ++ (tag ++ text)) = (pattern (tag ++ text)).map Prod.fst := by
  rw [search_append_of_miss fun suffix inside filled =>
    needs _ (after_eq_none_of_absent borderless before inside filled text)]
  cases here : pattern (tag ++ text) with
  | some found => exact search_of_head (List.append_ne_nil_of_left_ne_nil nonempty _) here
  | none =>
      refine (search_append_of_miss fun suffix inside filled => ?_).trans
        (search_of_absent needs behind)
      by_cases whole : suffix = tag
      · rwa [whole]
      · -- a shorter end of the tag that goes on as the tag would be a border of it
        refine needs _ (Option.eq_none_iff_forall_ne_some.mpr fun rest found => whole ?_)
        refine borderless suffix ((List.mem_tails _ _).mpr inside) filled ?_
        refine List.prefix_of_prefix_length_le ⟨text, rfl⟩ ⟨rest, ?_⟩ inside.length_le
        exact (after_eq_some.mp found).symm

end

/-- Behind a match at the head of a text, the search goes on behind its end. -/
theorem findAll_of_head {found : Capture} {taken rest : List Char} (nonempty : taken ≠ [])
    (here : pattern (taken ++ rest) = some (found, taken.length)) :
    pattern.findAll 0 (taken ++ rest) = found :: pattern.findAll 0 rest := by
  cases taken with
  | nil => exact absurd rfl nonempty
  | cons c taken =>
      rw [List.cons_append] at here ⊢
      simp only [findAll, here, List.length_cons, Nat.add_one_sub_one, findAll_skip]

end Pattern

/-- A front at the head of a text takes the rest of its line. -/
theorem restOfLine_search_head {Capture : Type*} {front : List Char → Option (Capture × List Char)}
    {text behind : List Char} {found : Capture} (nonempty : text ≠ [])
    (here : front text = some (found, behind)) :
    (restOfLine front).search text = some (found, behind.takeWhile (· ≠ '\n')) := by
  have head : restOfLine front text = some ((found, behind.takeWhile (· ≠ '\n')),
      text.length - behind.length + (behind.takeWhile (· ≠ '\n')).length) := by
    rw [restOfLine, here, Option.map_some]
  exact Pattern.search_of_head nonempty head

/-- What is found behind a front that takes the rest of its line. -/
theorem restOfLine_findAll {Capture : Type*} {front : List Char → Option (Capture × List Char)}
    {head behind : List Char} {found : Capture} (nonempty : head ≠ [])
    (here : front (head ++ behind) = some (found, behind)) :
    (restOfLine front).findAll 0 (head ++ behind) =
      (found, behind.takeWhile (· ≠ '\n')) ::
        (restOfLine front).findAll 0 (behind.dropWhile (· ≠ '\n')) := by
  have split : head ++ behind =
      (head ++ behind.takeWhile (· ≠ '\n')) ++ behind.dropWhile (· ≠ '\n') := by
    rw [List.append_assoc, List.takeWhile_append_dropWhile]
  have length : (head ++ behind).length - behind.length + (behind.takeWhile (· ≠ '\n')).length =
      (head ++ behind.takeWhile (· ≠ '\n')).length := by
    rw [List.length_append, Nat.add_sub_cancel, List.length_append]
  have matched : restOfLine front (head ++ behind) =
      some ((found, behind.takeWhile (· ≠ '\n')),
        (head ++ behind.takeWhile (· ≠ '\n')).length) := by
    rw [restOfLine, here, Option.map_some]
    dsimp only
    rw [length]
  rw [split] at matched
  conv_lhs => rw [split]
  exact Pattern.findAll_of_head (List.append_ne_nil_of_left_ne_nil nonempty _) matched

end Foundation
