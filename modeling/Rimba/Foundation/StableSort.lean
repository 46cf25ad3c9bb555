import Mathlib.Data.List.Sort

/-! # Stable sorting by keys

A stable sort looks at the keys only to ask whether one is less than another, and rows
neither of which has the lesser key stay as they were. That puts the rows in order when
their keys are comparable; of other keys it says nothing. Merging is such a sort
(`Foundation.StableSort.merging`).
-/

namespace Foundation

variable {Row Key : Type*}

/-- The keys of some rows are in a weak order. -/
structure Comparable [LT Key] (key : Row → Key) (rows : List Row) : Prop where
  asymm : ∀ row ∈ rows, ∀ other ∈ rows, key row < key other → ¬ key other < key row
  trans : ∀ row ∈ rows, ∀ other ∈ rows, ∀ third ∈ rows,
    ¬ key other < key row → ¬ key third < key other → ¬ key third < key row

/-- Rows none of whose keys is less than another are comparable. -/
theorem Comparable.of_none [LT Key] {key : Row → Key} {rows : List Row}
    (none : ∀ row ∈ rows, ∀ other ∈ rows, ¬ key row < key other) : Comparable key rows where
  asymm row member other member' less := (none row member other member' less).elim
  trans row member _ _ third member' _ _ := none third member' row member

/-- A stable sort by keys. -/
structure StableSort (Row Key : Type*) [LT Key] where
  sort : (Row → Key) → List Row → List Row
  perm : ∀ key rows, (sort key rows).Perm rows
  sorted : ∀ {key rows}, Comparable key rows →
    (sort key rows).Pairwise fun row other => ¬ key other < key row
  stable : ∀ {key rows row other}, Comparable key rows → ¬ key other < key row →
    [row, other].Sublist rows → [row, other].Sublist (sort key rows)

namespace StableSort

section Merging

variable [LT Key] [DecidableLT Key]

/-- The row need not stand behind the other. -/
def inFront (key : Row → Key) (row other : Row) : Bool := !decide (key other < key row)

theorem inFront_iff {key : Row → Key} {row other : Row} :
    inFront key row other = true ↔ ¬ key other < key row := by
  rw [inFront, Bool.not_eq_true', decide_eq_false_iff_not]

/-- Merging rows is merging them as members of their list. -/
theorem mergeSort_attach (key : Row → Key) (rows : List Row) :
    (rows.attach.mergeSort fun row other => inFront key row.1 other.1).map Subtype.val =
      rows.mergeSort (inFront key) := by
  have merged := @List.map_mergeSort _ _ (fun row other : { row // row ∈ rows } =>
    inFront key row.1 other.1) (inFront key) Subtype.val rows.attach fun _ _ _ _ => rfl
  rw [merged, List.attach_map_subtype_val]

theorem trans_attach {key : Row → Key} {rows : List Row} (comparable : Comparable key rows)
    (row other third : { row // row ∈ rows }) (first : inFront key row.1 other.1 = true)
    (second : inFront key other.1 third.1 = true) : inFront key row.1 third.1 = true := by
  rw [inFront_iff] at first second ⊢
  exact comparable.trans row.1 row.2 other.1 other.2 third.1 third.2 first second

theorem total_attach {key : Row → Key} {rows : List Row} (comparable : Comparable key rows)
    (row other : { row // row ∈ rows }) :
    (inFront key row.1 other.1 || inFront key other.1 row.1) = true := by
  rw [Bool.or_eq_true, inFront_iff, inFront_iff]
  by_cases less : key other.1 < key row.1
  · exact .inr (comparable.asymm other.1 other.2 row.1 row.2 less)
  · exact .inl less

theorem pairwise_merging {key : Row → Key} {rows : List Row} (comparable : Comparable key rows) :
    (rows.mergeSort (inFront key)).Pairwise fun row other => ¬ key other < key row := by
  rw [← mergeSort_attach, List.pairwise_map]
  refine (List.pairwise_mergeSort (trans_attach comparable) (total_attach comparable) _).imp ?_
  intro row other before
  exact inFront_iff.mp before

theorem pair_sublist_merging {key : Row → Key} {rows : List Row} {row other : Row}
    (comparable : Comparable key rows) (before : ¬ key other < key row)
    (inside : [row, other].Sublist rows) :
    [row, other].Sublist (rows.mergeSort (inFront key)) := by
  have attached : [row, other].Sublist (rows.attach.map Subtype.val) := by
    rwa [List.attach_map_subtype_val]
  obtain ⟨pair, members, same⟩ := List.sublist_map_iff.mp attached
  obtain ⟨first, rest, rfl, rfl, more⟩ := List.map_eq_cons_iff.mp same.symm
  obtain ⟨second, last, rfl, rfl, nothing⟩ := List.map_eq_cons_iff.mp more
  rw [List.map_eq_nil_iff.mp nothing] at members
  rw [← mergeSort_attach]
  exact (List.pair_sublist_mergeSort (trans_attach comparable) (total_attach comparable)
    (inFront_iff.mpr before) members).map Subtype.val

/-- Merging is a stable sort. -/
def merging : StableSort Row Key where
  sort key rows := rows.mergeSort (inFront key)
  perm _ rows := List.mergeSort_perm rows _
  sorted := pairwise_merging
  stable := pair_sublist_merging

end Merging

end StableSort

end Foundation
