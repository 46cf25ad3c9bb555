import Mathlib.Data.List.Infix
import Mathlib.Data.Nat.Notation

/-! # Words in a text that comes in pieces

A word in a line of a text (`Foundation.InLine`) is one that the text holds and that no
line feed is in but at its end. When the text is looked at piece by piece, a word is
seen exactly where no cut between two pieces crosses it (`Foundation.seen_iff`).
-/

namespace Foundation

/-- The lines of a text, each with its line feed. -/
def feedLines : List Char → List (List Char)
  | [] => []
  | c :: rest =>
      if c = '\n' then [c] :: feedLines rest
      else
        match feedLines rest with
        | [] => [[c]]
        | line :: lines => (c :: line) :: lines

/-- A line of the text holds the word. -/
def InLine (word text : List Char) : Prop := ∃ line ∈ feedLines text, word <:+: line

instance (word text : List Char) : Decidable (InLine word text) :=
  inferInstanceAs (Decidable (∃ line ∈ feedLines text, word <:+: line))

theorem feedLines_feed (rest : List Char) : feedLines ('\n' :: rest) = ['\n'] :: feedLines rest :=
  if_pos rfl

theorem feedLines_cons {c : Char} {rest line : List Char} {lines : List (List Char)}
    (inside : c ≠ '\n') (read : feedLines rest = line :: lines) :
    feedLines (c :: rest) = (c :: line) :: lines := by
  rw [feedLines, if_neg inside, read]

theorem flatten_feedLines (text : List Char) : (feedLines text).flatten = text := by
  induction text with
  | nil => rfl
  | cons c rest ih =>
      rw [feedLines]
      split
      · rw [List.flatten_cons, ih, List.singleton_append]
      · split
        · next empty =>
            rw [empty] at ih
            rw [← ih]
            rfl
        · next line lines read =>
            rw [read, List.flatten_cons] at ih
            rw [List.flatten_cons, List.cons_append, ih]

/-- A line feed is the last character of its line. -/
theorem line_of_feedLines {text line : List Char} (member : line ∈ feedLines text) :
    line ≠ [] ∧ '\n' ∉ line.dropLast := by
  induction text generalizing line with
  | nil => exact absurd member List.not_mem_nil
  | cons c rest ih =>
      rw [feedLines] at member
      split at member
      · rcases List.mem_cons.mp member with rfl | later
        · exact ⟨List.cons_ne_nil _ _, List.not_mem_nil⟩
        · exact ih later
      · next inside =>
          split at member
          · rw [List.mem_singleton.mp member]
            exact ⟨List.cons_ne_nil _ _, List.not_mem_nil⟩
          · next first lines read =>
              rcases List.mem_cons.mp member with rfl | later
              · obtain ⟨nonempty, single⟩ := ih (read ▸ List.mem_cons_self)
                refine ⟨List.cons_ne_nil _ _, ?_⟩
                rw [List.dropLast_cons_of_ne_nil nonempty]
                exact List.not_mem_cons_of_ne_of_not_mem (Ne.symm inside) single
              · exact ih (read ▸ List.mem_cons_of_mem _ later)

/-- What is in a text is, but for its end, in the text but for its end. -/
theorem infix_dropLast_subset {α : Type*} {word text : List α} (within : word <:+: text) :
    word.dropLast ⊆ text.dropLast := by
  obtain ⟨front, back, rfl⟩ := within
  rcases List.eq_nil_or_concat back with rfl | ⟨before, last, rfl⟩
  · rcases List.eq_nil_or_concat word with rfl | ⟨before, last, rfl⟩
    · exact List.nil_subset _
    · rw [List.concat_eq_append, List.append_nil, ← List.append_assoc, List.dropLast_concat,
        List.dropLast_concat]
      exact List.subset_append_right _ _
  · rw [List.concat_eq_append, ← List.append_assoc, List.dropLast_concat]
    intro c member
    exact List.mem_append_left _ (List.mem_append_right _ (List.dropLast_subset _ member))

/-- A word without a line feed but at its end is in the line it starts in. -/
theorem feedLines_word {word : List Char} (nonempty : word ≠ []) (single : '\n' ∉ word.dropLast)
    (back : List Char) :
    ∃ line lines, feedLines (word ++ back) = line :: lines ∧ word <+: line := by
  induction word with
  | nil => exact absurd rfl nonempty
  | cons c word ih =>
      by_cases ended : word = []
      · subst ended
        rw [List.singleton_append]
        by_cases feed : c = '\n'
        · subst feed
          exact ⟨_, _, feedLines_feed back, List.prefix_rfl⟩
        · cases read : feedLines back with
          | nil =>
              refine ⟨[c], [], ?_, List.prefix_rfl⟩
              rw [feedLines, if_neg feed, read]
          | cons line lines => exact ⟨_, _, feedLines_cons feed read, line, rfl⟩
      · rw [List.dropLast_cons_of_ne_nil ended, List.mem_cons, not_or] at single
        obtain ⟨line, lines, read, starts⟩ := ih ended single.2
        refine ⟨_, _, feedLines_cons (Ne.symm single.1) read, ?_⟩
        exact List.cons_prefix_cons.mpr ⟨rfl, starts⟩

theorem InLine.cons {word text : List Char} (inLine : InLine word text) (c : Char) :
    InLine word (c :: text) := by
  obtain ⟨line, member, within⟩ := inLine
  by_cases feed : c = '\n'
  · subst feed
    exact ⟨line, feedLines_feed text ▸ List.mem_cons_of_mem _ member, within⟩
  · cases read : feedLines text with
    | nil =>
        rw [read] at member
        exact absurd member List.not_mem_nil
    | cons first lines =>
        rw [read] at member
        rcases List.mem_cons.mp member with rfl | later
        · exact ⟨_, feedLines_cons feed read ▸ List.mem_cons_self, List.infix_cons within⟩
        · exact ⟨line, feedLines_cons feed read ▸ List.mem_cons_of_mem _ later, within⟩

/-- The words in the lines of a text. -/
theorem inLine_iff {word text : List Char} :
    InLine word text ↔ text ≠ [] ∧ '\n' ∉ word.dropLast ∧ word <:+: text := by
  constructor
  · rintro ⟨line, member, within⟩
    obtain ⟨nonempty, single⟩ := line_of_feedLines member
    have inText : line <:+: text := by
      have inLines := List.infix_of_mem_flatten member
      rwa [flatten_feedLines] at inLines
    refine ⟨?_, fun feed => single (infix_dropLast_subset within feed), within.trans inText⟩
    rintro rfl
    exact nonempty (List.infix_nil.mp inText)
  · rintro ⟨nonempty, single, front, back, rfl⟩
    by_cases empty : word = []
    · subst empty
      cases read : feedLines (front ++ [] ++ back) with
      | nil =>
          have flat := flatten_feedLines (front ++ [] ++ back)
          rw [read] at flat
          exact absurd flat.symm nonempty
      | cons line lines =>
          exact ⟨line, read ▸ List.mem_cons_self, List.nil_infix⟩
    · clear nonempty
      rw [List.append_assoc]
      induction front with
      | nil =>
          obtain ⟨line, lines, read, starts⟩ := feedLines_word empty single back
          exact ⟨line, read ▸ List.mem_cons_self, starts.isInfix⟩
      | cons c front ih => exact ih.cons c

theorem InLine.of_part {word part text : List Char} (inLine : InLine word part)
    (inside : part <:+: text) : InLine word text := by
  obtain ⟨nonempty, single, within⟩ := inLine_iff.mp inLine
  refine inLine_iff.mpr ⟨?_, single, within.trans inside⟩
  rintro rfl
  exact nonempty (List.infix_nil.mp inside)

variable {α : Type*}

/-- Where the text is cut behind some pieces, no word at this place is cut. -/
def Uncrossed (front word : List α) (cut : ℕ) : Prop :=
  cut ≤ front.length ∨ front.length + word.length ≤ cut

theorem length_flatten_take_le (count : ℕ) (pieces : List (List α)) :
    (pieces.take count).flatten.length ≤ pieces.flatten.length := by
  have whole : (pieces.take count).flatten ++ (pieces.drop count).flatten = pieces.flatten := by
    rw [← List.flatten_append, List.take_append_drop]
  rw [← whole, List.length_append]
  exact Nat.le_add_right _ _

/-- No cut crosses a word that is in a piece. -/
theorem uncrossed_of_piece (earlier later : List (List α)) (before word rest : List α)
    (count : ℕ) :
    Uncrossed (earlier.flatten ++ before) word
      ((earlier ++ (before ++ word ++ rest) :: later).take count).flatten.length := by
  rw [Uncrossed, List.length_append]
  by_cases inside : count ≤ earlier.length
  · left
    rw [List.take_append_of_le_length inside]
    exact Nat.le_add_right_of_le (length_flatten_take_le count earlier)
  · right
    obtain ⟨more, behind⟩ := Nat.exists_eq_add_of_lt (Nat.lt_of_not_le inside)
    have excess : count - earlier.length = more + 1 := by omega
    rw [List.take_append, List.take_of_length_le (by omega), excess, List.take_succ_cons,
      List.flatten_append, List.flatten_cons]
    simp only [List.length_append]
    omega

/-- A word that no cut crosses is in one of the pieces. -/
theorem exists_piece {word : List α} (nonempty : word ≠ []) {pieces : List (List α)}
    {front back : List α} (split : pieces.flatten = front ++ word ++ back)
    (uncrossed : ∀ count, Uncrossed front word (pieces.take count).flatten.length) :
    ∃ piece ∈ pieces, word <:+: piece := by
  induction pieces generalizing front with
  | nil =>
      rw [List.flatten_nil, List.append_assoc] at split
      have empty := (List.append_eq_nil_iff.mp (List.append_eq_nil_iff.mp split.symm).2).1
      exact absurd empty nonempty
  | cons piece pieces ih =>
      rw [List.flatten_cons] at split
      have first := uncrossed 1
      rw [List.take_succ_cons, List.take_zero, List.flatten_singleton] at first
      rcases first with short | long
      · -- The word is behind the first piece.
        obtain ⟨further, rfl⟩ : piece <+: front := by
          rw [List.append_assoc] at split
          exact List.prefix_of_prefix_length_le ⟨_, split⟩ (List.prefix_append _ _) short
        rw [List.append_assoc, List.append_assoc] at split
        have rest := List.append_cancel_left split
        rw [← List.append_assoc] at rest
        obtain ⟨seen, member, within⟩ := ih rest fun count => by
          have later := uncrossed (count + 1)
          rw [List.take_succ_cons, List.flatten_cons, Uncrossed, List.length_append,
            List.length_append] at later
          rw [Uncrossed]
          omega
        exact ⟨seen, List.mem_cons_of_mem _ member, within⟩
      · refine ⟨piece, List.mem_cons_self, ?_⟩
        have inside : front ++ word <+: piece := by
          apply List.prefix_of_prefix_length_le (List.prefix_append _ back)
          · rw [← split]
            exact List.prefix_append _ _
          · rwa [List.length_append]
        exact (List.suffix_append front word).isInfix.trans inside.isInfix

/-- **What is seen of a text in pieces.** A word is in a piece exactly when the text holds
it where no cut crosses it. -/
theorem seen_iff {word : List α} (nonempty : word ≠ []) {pieces : List (List α)} :
    (∃ piece ∈ pieces, word <:+: piece) ↔
      ∃ front back, pieces.flatten = front ++ word ++ back ∧
        ∀ count, Uncrossed front word (pieces.take count).flatten.length := by
  constructor
  · rintro ⟨piece, member, before, rest, rfl⟩
    obtain ⟨earlier, later, rfl⟩ := List.append_of_mem member
    refine ⟨earlier.flatten ++ before, rest ++ later.flatten, ?_, fun count =>
      uncrossed_of_piece earlier later before word rest count⟩
    simp only [List.flatten_append, List.flatten_cons, List.append_assoc]
  · rintro ⟨front, back, split, uncrossed⟩
    exact exists_piece nonempty split uncrossed

end Foundation
