import Mathlib.Data.List.Basic
import Mathlib.Data.List.TakeWhile

/-! # Lines of a text

A text split at a separator has its lines between the separators. A line that starts with
a word starts at the text's start or behind a separator
(`Foundation.exists_line_iff`), and the first such line splits the text in one way, into
the lines above and the text from it (`Foundation.FirstLine.unique`).
-/

namespace Foundation

variable {α : Type*} [DecidableEq α] {sep : α} {word text : List α}

/-- The first line starts the text, and every other one starts behind a separator. -/
theorem lines_start {line : List α} {lines : List (List α)}
    (split : text.splitOn sep = line :: lines) :
    line <+: text ∧ ∀ later ∈ lines, ∃ front behind, text = front ++ sep :: behind ∧
      later <+: behind := by
  induction text generalizing line lines with
  | nil =>
      cases split
      exact ⟨⟨[], rfl⟩, fun later member => absurd member List.not_mem_nil⟩
  | cons c text ih =>
      rw [List.splitOn_cons_eq_if_modifyHead] at split
      cases rest : text.splitOn sep with
      | nil => exact absurd rest (List.splitOn_ne_nil _ _)
      | cons first others =>
          obtain ⟨starts, behinds⟩ := ih rest
          rw [rest] at split
          by_cases ends : c = sep
          · subst ends
            rw [if_pos BEq.rfl] at split
            cases split
            refine ⟨⟨_, rfl⟩, fun later member => ?_⟩
            rcases List.mem_cons.mp member with rfl | member
            · exact ⟨[], text, rfl, starts⟩
            · obtain ⟨front, behind, rfl, start⟩ := behinds later member
              exact ⟨c :: front, behind, rfl, start⟩
          · rw [if_neg (by simpa using ends)] at split
            cases split
            refine ⟨List.cons_prefix_cons.mpr ⟨rfl, starts⟩, fun later member => ?_⟩
            obtain ⟨front, behind, rfl, start⟩ := behinds later member
            exact ⟨c :: front, behind, rfl, start⟩

/-- No line holds a separator. -/
theorem sep_notMem_line {line : List α} (member : line ∈ text.splitOn sep) : sep ∉ line := by
  induction text generalizing line with
  | nil =>
      rw [List.mem_singleton.mp member]
      exact List.not_mem_nil
  | cons c text ih =>
      rw [List.splitOn_cons_eq_if_modifyHead] at member
      by_cases ends : c = sep
      · subst ends
        rw [if_pos BEq.rfl] at member
        rcases List.mem_cons.mp member with rfl | later
        · exact List.not_mem_nil
        · exact ih later
      · rw [if_neg (by simpa using ends)] at member
        cases rest : text.splitOn sep with
        | nil => exact absurd rest (List.splitOn_ne_nil _ _)
        | cons first others =>
            rw [rest] at member ih
            rcases List.mem_cons.mp member with rfl | later
            · refine fun inside => (List.mem_cons.mp inside).elim (fun same => ends same.symm) ?_
              exact ih List.mem_cons_self
            · exact ih (List.mem_cons_of_mem _ later)

/-- Texts with the same lines are the same. -/
theorem splitOn_inj {other : List α} (same : text.splitOn sep = other.splitOn sep) :
    text = other := by
  have joined : [sep].intercalate (text.splitOn sep) = text := List.intercalate_splitOn sep
  rw [← joined, same, List.intercalate_splitOn]

/-- A text that starts with a word without a separator has it on its first line. -/
theorem first_line (solid : sep ∉ word) (starts : word <+: text) :
    ∃ line lines, text.splitOn sep = line :: lines ∧ word <+: line := by
  obtain ⟨behind, rfl⟩ := starts
  induction word with
  | nil =>
      cases split : behind.splitOn sep with
      | nil => exact absurd split (List.splitOn_ne_nil _ _)
      | cons line lines => exact ⟨line, lines, split, line, rfl⟩
  | cons c word ih =>
      obtain ⟨other, solid⟩ := not_or.mp fun inside => solid (List.mem_cons.mpr inside)
      obtain ⟨line, lines, split, starts⟩ := ih solid
      refine ⟨c :: line, lines, ?_, List.cons_prefix_cons.mpr ⟨rfl, starts⟩⟩
      rw [List.cons_append, List.splitOn_cons_eq_if_modifyHead, split,
        if_neg (by simpa using Ne.symm other)]
      rfl

/-- A line starts with a word when the text does, or what is behind a separator. -/
theorem exists_line_iff (solid : sep ∉ word) :
    (∃ line ∈ text.splitOn sep, word <+: line) ↔
      word <+: text ∨ ∃ front behind, text = front ++ sep :: behind ∧ word <+: behind := by
  constructor
  · rintro ⟨line, member, starts⟩
    cases split : text.splitOn sep with
    | nil => exact absurd split (List.splitOn_ne_nil _ _)
    | cons first others =>
        obtain ⟨begins, behinds⟩ := lines_start split
        rw [split] at member
        rcases List.mem_cons.mp member with rfl | later
        · exact .inl (starts.trans begins)
        · obtain ⟨front, behind, same, start⟩ := behinds line later
          exact .inr ⟨front, behind, same, starts.trans start⟩
  · rintro (starts | ⟨front, behind, rfl, starts⟩)
    · obtain ⟨line, lines, split, begins⟩ := first_line solid starts
      exact ⟨line, by rw [split]; exact List.mem_cons_self, begins⟩
    · obtain ⟨line, lines, split, begins⟩ := first_line solid starts
      refine ⟨line, ?_, begins⟩
      rw [List.splitOn_append_cons_self, split]
      exact List.mem_append_right _ List.mem_cons_self

omit [DecidableEq α] in
theorem intercalate_append {front back : List (List α)} (filled : front ≠ []) (more : back ≠ []) :
    [sep].intercalate (front ++ back) =
      [sep].intercalate front ++ sep :: [sep].intercalate back := by
  induction front with
  | nil => exact absurd rfl filled
  | cons line lines ih =>
      by_cases last : lines = []
      · subst last
        rw [List.singleton_append, List.intercalate_cons_of_ne_nil more, List.intercalate_singleton]
        simp only [List.append_assoc, List.singleton_append]
      · have behind := ih last
        have filled' : lines ++ back ≠ [] := List.append_ne_nil_of_left_ne_nil last _
        rw [List.cons_append, List.intercalate_cons_of_ne_nil filled',
          List.intercalate_cons_of_ne_nil last, behind]
        simp only [List.append_assoc]

/-- A text is lines that do not start with a word, and what is from the first on that
does. -/
structure FirstLine (sep : α) (word text front behind : List α) : Prop where
  whole : text = front ++ sep :: behind
  starts : word <+: behind
  others : ∀ line ∈ front.splitOn sep, ¬ word <+: line

/-- The line does not start with the word. -/
def startsOther (word line : List α) : Bool := !word.isPrefixOf line

theorem startsOther_iff {line : List α} : startsOther word line = true ↔ ¬ word <+: line := by
  rw [startsOther, Bool.not_eq_true', Bool.eq_false_iff, ne_eq, List.isPrefixOf_iff_prefix]

theorem startsOther_eq_false {line : List α} :
    startsOther word line = false ↔ word <+: line := by
  rw [startsOther, Bool.not_eq_false', List.isPrefixOf_iff_prefix]

namespace FirstLine

variable {front behind front' behind' : List α}

/-- The lines above it and those from it on. -/
theorem lines (first : FirstLine sep word text front behind) (solid : sep ∉ word) :
    (text.splitOn sep).takeWhile (startsOther word) = front.splitOn sep ∧
      (text.splitOn sep).dropWhile (startsOther word) = behind.splitOn sep := by
  obtain ⟨line, lines, split, begins⟩ := first_line solid first.starts
  have above : ∀ line ∈ front.splitOn sep, startsOther word line = true := by
    intro line member
    exact startsOther_iff.mpr (first.others line member)
  rw [first.whole, List.splitOn_append_cons_self, split]
  constructor
  · rw [List.takeWhile_append_of_pos above,
      List.takeWhile_cons_of_neg (by rw [startsOther_eq_false.mpr begins]; decide), List.append_nil]
  · rw [List.dropWhile_append_of_pos above,
      List.dropWhile_cons_of_neg (by rw [startsOther_eq_false.mpr begins]; decide)]

/-- The text is split in one way. -/
theorem unique (here : FirstLine sep word text front behind)
    (there : FirstLine sep word text front' behind') (solid : sep ∉ word) :
    front = front' ∧ behind = behind' := by
  obtain ⟨above, below⟩ := here.lines solid
  obtain ⟨above', below'⟩ := there.lines solid
  exact ⟨splitOn_inj (above.symm.trans above'), splitOn_inj (below.symm.trans below')⟩

/-- When there is such a line and it is not the first, the text is split there. -/
theorem exists_of_lines
    (above : (text.splitOn sep).takeWhile (startsOther word) ≠ [])
    (below : (text.splitOn sep).dropWhile (startsOther word) ≠ []) :
    ∃ front behind, FirstLine sep word text front behind := by
  have joined := @intercalate_append _ sep _ _ above below
  rw [List.takeWhile_append_dropWhile, List.intercalate_splitOn] at joined
  have solid (lines : List (List α)) (member : ∀ line ∈ lines, line ∈ text.splitOn sep) :
      ∀ line ∈ lines, sep ∉ line := fun line inside => sep_notMem_line (member line inside)
  have aboveLines := List.splitOn_intercalate sep
    (solid _ fun line inside => (List.takeWhile_sublist _).subset inside) above
  have belowLines := List.splitOn_intercalate sep
    (solid _ fun line inside => (List.dropWhile_sublist _).subset inside) below
  refine ⟨_, _, joined, ?_, ?_⟩
  · cases lines : (text.splitOn sep).dropWhile (startsOther word) with
    | nil => exact absurd lines below
    | cons first rest =>
        rw [lines] at belowLines
        have head := List.head_dropWhile_not (startsOther word) below
        simp only [lines, List.head_cons] at head
        exact (startsOther_eq_false.mp head).trans (lines_start belowLines).1
  · rw [aboveLines]
    exact fun line inside => startsOther_iff.mp (List.mem_takeWhile_imp inside)

end FirstLine

/-- A text without one separator at its end. -/
def dropFinal (sep : α) (text : List α) : List α :=
  if text.getLast? = some sep then text.dropLast else text

/-- Lines without an empty one at their end. -/
def dropEmptyLast (lines : List (List α)) : List (List α) :=
  if lines.getLast? = some [] then lines.dropLast else lines

/-- The last line of a text is empty when a separator ends it. -/
theorem dropEmptyLast_splitOn (filled : text ≠ []) :
    dropEmptyLast (text.splitOn sep) = (dropFinal sep text).splitOn sep := by
  obtain ⟨front, c, rfl⟩ : ∃ front c, text = front ++ [c] :=
    ⟨_, _, (List.dropLast_append_getLast filled).symm⟩
  by_cases ends : c = sep
  · subst ends
    rw [dropFinal, if_pos List.getLast?_concat, List.dropLast_concat,
      List.splitOn_append_cons_self, List.splitOn_nil, dropEmptyLast, if_pos List.getLast?_concat,
      List.dropLast_concat]
  · have solid : (front ++ [c]).getLast? ≠ some sep := by
      rw [List.getLast?_concat]
      exact fun same => ends (Option.some.inj same)
    rw [dropFinal, if_neg solid, dropEmptyLast, if_neg]
    intro empty
    obtain ⟨lines, split⟩ := List.getLast?_eq_some_iff.mp empty
    have joined : [sep].intercalate ((front ++ [c]).splitOn sep) = front ++ [c] :=
      List.intercalate_splitOn sep
    rw [split] at joined
    by_cases only : lines = []
    · rw [only, List.nil_append, List.intercalate_singleton] at joined
      exact filled joined.symm
    · rw [intercalate_append only (List.cons_ne_nil _ _), List.intercalate_singleton] at joined
      rw [← joined, List.getLast?_concat] at solid
      exact solid rfl

/-- Texts whose lines agree but for an empty one at their end agree but for a separator
there. -/
theorem dropEmptyLast_inj {other : List α} (filled : text ≠ []) (filled' : other ≠ []) :
    dropEmptyLast (text.splitOn sep) = dropEmptyLast (other.splitOn sep) ↔
      dropFinal sep text = dropFinal sep other := by
  rw [dropEmptyLast_splitOn filled, dropEmptyLast_splitOn filled']
  constructor
  · exact fun same => splitOn_inj same
  · exact fun same => congrArg (List.splitOn sep) same

end Foundation
