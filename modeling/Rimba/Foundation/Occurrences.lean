import Mathlib.Algebra.BigOperators.Group.List.Basic
import Mathlib.Algebra.Ring.Nat
import Mathlib.Data.List.Infix
import Mathlib.Data.Nat.Notation

/-! # How often a word stands in a text

The occurrences of a word in a text, overlaps included. What is read of a text in pieces
holds the word no more often than the text does (`Foundation.occurrences_pieces`), and a
symbol that the word does not hold keeps what is before it from what is behind it
(`Foundation.occurrences_bar`).
-/

namespace Foundation

variable {α : Type*} [DecidableEq α]

/-- How often the word begins in the text. -/
def occurrences (word : List α) : List α → ℕ
  | [] => 0
  | c :: rest => (word.isPrefixOf (c :: rest)).toNat + occurrences word rest

variable {word : List α}

theorem occurrences_nil : occurrences word [] = 0 := rfl

theorem occurrences_cons (c : α) (rest : List α) : occurrences word (c :: rest) =
    (word.isPrefixOf (c :: rest)).toNat + occurrences word rest := rfl

theorem toNat_isPrefixOf_le {text more : List α} (longer : text <+: more) :
    (word.isPrefixOf text).toNat ≤ (word.isPrefixOf more).toNat := by
  cases here : word.isPrefixOf text with
  | false => exact Nat.zero_le _
  | true =>
      have starts : word <+: more := (List.isPrefixOf_iff_prefix.mp here).trans longer
      rw [List.isPrefixOf_iff_prefix.mpr starts]

theorem occurrences_append_le (word front back : List α) :
    occurrences word front + occurrences word back ≤ occurrences word (front ++ back) := by
  induction front with
  | nil => rw [occurrences_nil, Nat.zero_add, List.nil_append]
  | cons c front ih =>
      have here : (word.isPrefixOf (c :: front)).toNat ≤
          (word.isPrefixOf (c :: (front ++ back))).toNat :=
        toNat_isPrefixOf_le ⟨back, rfl⟩
      rw [List.cons_append, occurrences_cons, occurrences_cons]
      omega

/-- Pieces of a text hold the word no more often than the text. -/
theorem occurrences_pieces (word : List α) {read pieces : List (List α)}
    (some : read.Sublist pieces) :
    (read.map (occurrences word)).sum ≤ occurrences word pieces.flatten := by
  induction some with
  | slnil => exact Nat.le_refl 0
  | @cons _ pieces piece _ ih =>
      have joined := occurrences_append_le word piece pieces.flatten
      rw [List.flatten_cons]
      exact (ih.trans (Nat.le_add_left _ _)).trans joined
  | @cons_cons _ pieces piece _ ih =>
      have joined := occurrences_append_le word piece pieces.flatten
      rw [List.flatten_cons, List.map_cons, List.sum_cons]
      exact (Nat.add_le_add_left ih _).trans joined

/-- A word that does not hold a symbol begins before it exactly when it ends before it. -/
theorem isPrefixOf_bar {c : α} (free : c ∉ word) (front back : List α) :
    word.isPrefixOf (front ++ c :: back) = word.isPrefixOf front := by
  rw [Bool.eq_iff_iff, List.isPrefixOf_iff_prefix, List.isPrefixOf_iff_prefix]
  refine ⟨fun starts => ?_, fun starts => starts.trans (List.prefix_append _ _)⟩
  rcases Nat.le_total word.length front.length with short | long
  · exact List.prefix_of_prefix_length_le starts (List.prefix_append _ _) short
  · rcases Nat.eq_or_lt_of_le long with same | longer
    · exact List.prefix_of_prefix_length_le starts (List.prefix_append _ _) same.ge
    · have reaches : front ++ [c] <+: word := by
        refine List.prefix_of_prefix_length_le ⟨back, ?_⟩ starts ?_
        · rw [List.append_assoc, List.singleton_append]
        · rw [List.length_append, List.length_singleton]
          exact longer
      exact absurd (reaches.subset (List.mem_append_right _ (List.mem_singleton_self _))) free

theorem occurrences_bar {c : α} (free : c ∉ word) (nonempty : word ≠ []) (front back : List α) :
    occurrences word (front ++ c :: back) = occurrences word front + occurrences word back := by
  induction front with
  | nil =>
      have apart : word.isPrefixOf (c :: back) = false := by
        have passed := isPrefixOf_bar free [] back
        rw [List.nil_append] at passed
        rw [passed, Bool.eq_false_iff, ne_eq, List.isPrefixOf_iff_prefix, List.prefix_nil]
        exact nonempty
      rw [List.nil_append, occurrences_cons, apart, occurrences_nil]
      rfl
  | cons d front ih =>
      have here := isPrefixOf_bar free (d :: front) back
      rw [List.cons_append] at here ⊢
      rw [occurrences_cons, occurrences_cons, here, ih, Nat.add_assoc]

/-- A word stands in a text no more often than its first symbol. -/
theorem occurrences_le_count (d : α) (behind text : List α) :
    occurrences (d :: behind) text ≤ text.count d := by
  induction text with
  | nil => exact Nat.le_refl 0
  | cons c text ih =>
      rw [occurrences_cons, List.count_cons]
      by_cases same : d = c
      · subst same
        have one := Bool.toNat_le ((d :: behind).isPrefixOf (d :: text))
        rw [beq_self_eq_true, if_pos rfl]
        omega
      · have apart : (d :: behind).isPrefixOf (c :: text) = false := by
          rw [Bool.eq_false_iff, ne_eq, List.isPrefixOf_iff_prefix, List.cons_prefix_cons]
          exact fun both => same both.1
        rw [apart, Bool.toNat_false, Nat.zero_add]
        exact ih.trans (Nat.le_add_right _ _)

/-- A word that stands in a text is counted. -/
theorem occurrences_pos {text : List α} (nonempty : word ≠ []) (stands : word <:+: text) :
    0 < occurrences word text := by
  obtain ⟨front, back, rfl⟩ := stands
  have here : 0 < occurrences word (word ++ back) := by
    cases word with
    | nil => exact absurd rfl nonempty
    | cons d behind =>
        have starts : (d :: behind).isPrefixOf (d :: (behind ++ back)) = true :=
          List.isPrefixOf_iff_prefix.mpr ⟨back, rfl⟩
        rw [List.cons_append, occurrences_cons, starts]
        exact Nat.lt_of_lt_of_le Nat.zero_lt_one (Nat.le_add_right _ _)
  have joined := occurrences_append_le word front (word ++ back)
  rw [← List.append_assoc] at joined
  omega

theorem infix_of_occurrences {text : List α} (counted : 0 < occurrences word text) :
    word <:+: text := by
  induction text with
  | nil => exact absurd counted (Nat.lt_irrefl 0)
  | cons c text ih =>
      rw [occurrences_cons] at counted
      cases here : word.isPrefixOf (c :: text) with
      | true => exact (List.isPrefixOf_iff_prefix.mp here).isInfix
      | false =>
          rw [here, Bool.toNat_false, Nat.zero_add] at counted
          exact (ih counted).trans (List.suffix_cons c text).isInfix

/-- A word that is not in a text is not counted. -/
theorem occurrences_eq_zero {text : List α} (absent : ¬ word <:+: text) :
    occurrences word text = 0 :=
  Nat.eq_zero_of_not_pos fun counted => absent (infix_of_occurrences counted)

/-- A word has no occurrence in a text that lacks a symbol of it. -/
theorem occurrences_of_lacking {d : α} {text : List α} (inWord : d ∈ word)
    (lacking : text.count d = 0) : occurrences word text = 0 :=
  occurrences_eq_zero fun stands => List.count_eq_zero.mp lacking (stands.subset inWord)

/-- A word that stands in a text only once has one text behind it. -/
theorem behind_unique {before behind before' behind' : List α} (nonempty : word ≠ [])
    (once : occurrences word (before ++ (word ++ behind)) ≤ 1)
    (same : before ++ (word ++ behind) = before' ++ (word ++ behind')) : behind = behind' := by
  -- a second place behind the first is a second occurrence
  have apart {front mid rest rest' : List α} (twice : word ++ rest = mid ++ (word ++ rest'))
      (few : occurrences word (front ++ (word ++ rest)) ≤ 1) : mid = [] := by
    have inside := occurrences_append_le word front (word ++ rest)
    cases mid with
    | nil => rfl
    | cons c mid =>
        have again : 0 < occurrences word (mid ++ (word ++ rest')) :=
          occurrences_pos nonempty ⟨mid, rest', List.append_assoc _ _ _⟩
        have starts : word.isPrefixOf (c :: (mid ++ (word ++ rest'))) = true :=
          List.isPrefixOf_iff_prefix.mpr ⟨rest, twice⟩
        rw [twice, List.cons_append, occurrences_cons, starts, Bool.toNat_true] at inside
        rw [twice, List.cons_append] at few
        omega
  rcases List.append_eq_append_iff.mp same with ⟨mid, rfl, twice⟩ | ⟨mid, rfl, twice⟩
  · obtain rfl := apart twice once
    exact List.append_cancel_left twice
  · rw [same] at once
    obtain rfl := apart twice once
    exact (List.append_cancel_left twice).symm

/-- What holds of the first item is counted with the others. -/
theorem countP_cons_toNat {Item : Type*} (holds : Item → Bool) (item : Item) (items : List Item) :
    (item :: items).countP holds = items.countP holds + (holds item).toNat := by
  rw [List.countP_cons]
  cases holds item <;> rfl

/-- When one word stands only in the front of a text and another only in its back, no cut
has the second before it and the first behind it. -/
theorem no_cut_between {first second front back before behind : List α}
    (same : front ++ back = before ++ behind) (early : occurrences second front = 0)
    (late : occurrences first back = 0) (secondBefore : 0 < occurrences second before) :
    occurrences first behind = 0 := by
  rcases List.append_eq_append_iff.mp same with ⟨middle, rfl, rfl⟩ | ⟨middle, rfl, rfl⟩
  · have joined := occurrences_append_le first middle behind
    omega
  · have joined := occurrences_append_le second before middle
    omega

end Foundation
