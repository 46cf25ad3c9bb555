import Mathlib.Algebra.Order.BigOperators.Group.List
import Mathlib.Algebra.Order.Floor.Semifield
import Mathlib.Data.List.Sort
import Mathlib.Data.Rat.Floor
import Mathlib.Tactic.Linarith

/-! # Order statistics of a sample

The entries of a sample in ascending order, of which there is at least one. Sorting a list gives
the only such arrangement of it (`Foundation.SortedSample.ofList_eq_some_iff`). A quantile is
the entry at a rank that is cut to an integer, and the median is the mean of the two entries
in the middle (`Foundation.SortedSample.median_eq`). A quantile of at most one half is no larger
than the median (`Foundation.SortedSample.quantile_le_median`). The median is no larger than
a quantile exactly when the upper entry in the middle is not
(`Foundation.SortedSample.median_le_quantile_iff`): cutting the rank can put a quantile of more
than one half below the median.
-/

namespace Foundation

/-- A share of a whole. -/
structure Share where
  value : ℚ
  nonneg : 0 ≤ value
  le_one : value ≤ 1

/-- Entries in ascending order, at least one. -/
structure SortedSample (α : Type*) [Preorder α] where
  entries : List α
  sorted : entries.SortedLE
  nonempty : entries ≠ []

namespace SortedSample

section Order

variable {α : Type*} [LinearOrder α]

theorem insertionSort_ne_nil {xs : List α} (nonempty : xs ≠ []) :
    xs.insertionSort (· ≤ ·) ≠ [] := fun empty =>
  nonempty (List.nil_perm.mp (empty ▸ List.perm_insertionSort (· ≤ ·) xs))

/-- The entries of a list in order, unless it has none. -/
def ofList (xs : List α) : Option (SortedSample α) :=
  if empty : xs = [] then none
  else some ⟨xs.insertionSort (· ≤ ·), List.sortedLE_insertionSort, insertionSort_ne_nil empty⟩

theorem ofList_eq_none_iff {xs : List α} : ofList xs = none ↔ xs = [] := by
  rw [ofList]
  split_ifs with empty
  · exact iff_of_true rfl empty
  · exact iff_of_false not_false empty

theorem exists_ofList {xs : List α} (nonempty : xs ≠ []) : ∃ sample, ofList xs = some sample :=
  Option.ne_none_iff_exists'.mp fun absent => nonempty (ofList_eq_none_iff.mp absent)

/-- A list has one arrangement in order. -/
theorem ofList_eq_some_iff {xs : List α} {sample : SortedSample α} :
    ofList xs = some sample ↔ sample.entries.Perm xs := by
  rw [ofList]
  split_ifs with empty
  · subst empty
    exact iff_of_false not_false fun same => sample.nonempty (List.perm_nil.mp same)
  · rw [Option.some_inj]
    constructor
    · intro same
      exact same ▸ List.perm_insertionSort (· ≤ ·) xs
    · intro same
      have entries : xs.insertionSort (· ≤ ·) = sample.entries :=
        ((List.perm_insertionSort (· ≤ ·) xs).trans same.symm).eq_of_sortedLE
          List.sortedLE_insertionSort sample.sorted
      cases sample
      congr

/-- The order of a list does not matter. -/
theorem ofList_perm {xs ys : List α} (same : xs.Perm ys) : ofList xs = ofList ys := by
  cases arranged : ofList ys with
  | none =>
      rw [ofList_eq_none_iff] at arranged ⊢
      exact List.perm_nil.mp (arranged ▸ same)
  | some sample =>
      rw [ofList_eq_some_iff] at arranged ⊢
      exact arranged.trans same.symm

variable (sample : SortedSample α)

def size : ℕ := sample.entries.length

theorem size_pos : 0 < sample.size := List.length_pos_of_ne_nil sample.nonempty

theorem size_of_perm {xs : List α} (same : sample.entries.Perm xs) : sample.size = xs.length :=
  same.length_eq

/-- The entry that as many entries stand before as the rank says. -/
def entry (rank : Fin sample.size) : α := sample.entries.get rank

variable {sample}

theorem entry_mem (rank : Fin sample.size) : sample.entry rank ∈ sample.entries :=
  List.get_mem _ _

theorem entry_mono {low high : Fin sample.size} (le : low ≤ high) :
    sample.entry low ≤ sample.entry high :=
  sample.sorted.monotone_get le

theorem entry_congr {rank rank' : Fin sample.size} (same : rank.val = rank'.val) :
    sample.entry rank = sample.entry rank' :=
  congrArg sample.entry (Fin.ext same)

variable (sample)

def smallest : α := sample.entry ⟨0, sample.size_pos⟩

def largest : α := sample.entry ⟨sample.size - 1, Nat.sub_one_lt sample.size_pos.ne'⟩

theorem smallest_le_entry (rank : Fin sample.size) : sample.smallest ≤ sample.entry rank :=
  entry_mono (Fin.mk_le_of_le_val (Nat.zero_le _))

theorem entry_le_largest (rank : Fin sample.size) : sample.entry rank ≤ sample.largest :=
  entry_mono (Nat.le_sub_one_of_lt rank.isLt)

theorem isLeast_of_perm {xs : List α} (same : sample.entries.Perm xs) :
    IsLeast {x | x ∈ xs} sample.smallest := by
  refine ⟨same.mem_iff.mp (entry_mem _), ?_⟩
  intro x member
  obtain ⟨rank, rfl⟩ := List.mem_iff_get.mp (same.mem_iff.mpr member)
  exact sample.smallest_le_entry rank

theorem isGreatest_of_perm {xs : List α} (same : sample.entries.Perm xs) :
    IsGreatest {x | x ∈ xs} sample.largest := by
  refine ⟨same.mem_iff.mp (entry_mem _), ?_⟩
  intro x member
  obtain ⟨rank, rfl⟩ := List.mem_iff_get.mp (same.mem_iff.mpr member)
  exact sample.entry_le_largest rank

/-- The lower one of the entries in the middle. -/
def lowerMiddle : α := sample.entry ⟨(sample.size - 1) / 2, by have := sample.size_pos; omega⟩

/-- The upper one of the entries in the middle. -/
def upperMiddle : α := sample.entry ⟨sample.size / 2, by have := sample.size_pos; omega⟩

theorem lowerMiddle_le_upperMiddle : sample.lowerMiddle ≤ sample.upperMiddle :=
  entry_mono (Nat.div_le_div_right (Nat.sub_le _ _))

/-- The share of the ranks, cut to an integer. -/
def rank (p : Share) : Fin sample.size where
  val := ⌊p.value * (sample.size - 1 : ℕ)⌋₊
  isLt := by
    have whole : p.value * (sample.size - 1 : ℕ) ≤ (sample.size - 1 : ℕ) :=
      mul_le_of_le_one_left (Nat.cast_nonneg _) p.le_one
    exact (Nat.floor_le_of_le whole).trans_lt (Nat.sub_one_lt sample.size_pos.ne')

/-- The entry at the rank of a share. -/
def quantile (p : Share) : α := sample.entry (sample.rank p)

theorem rank_val (p : Share) : (sample.rank p).val = ⌊p.value * (sample.size - 1 : ℕ)⌋₊ := rfl

/-- The rank of a fraction is computed by integer division. -/
theorem rank_of_fraction {p : Share} {a b : ℕ} (fraction : p.value = a / b) :
    (sample.rank p).val = a * (sample.size - 1) / b := by
  have product : p.value * (sample.size - 1 : ℕ) = ((a * (sample.size - 1) : ℕ) : ℚ) / b := by
    rw [fraction, Nat.cast_mul]
    exact div_mul_eq_mul_div _ _ _
  rw [rank_val, product, Nat.floor_div_eq_div]

theorem rank_mono {p q : Share} (le : p.value ≤ q.value) : sample.rank p ≤ sample.rank q :=
  Nat.floor_mono (mul_le_mul_of_nonneg_right le (Nat.cast_nonneg _))

theorem quantile_mono {p q : Share} (le : p.value ≤ q.value) :
    sample.quantile p ≤ sample.quantile q :=
  entry_mono (sample.rank_mono le)

/-- A share of at most one half stays in the lower half of the ranks. -/
theorem rank_le_half {p : Share} (low : p.value ≤ 1 / 2) :
    (sample.rank p).val ≤ (sample.size - 1) / 2 := by
  have half : p.value * (sample.size - 1 : ℕ) ≤ ((sample.size - 1 : ℕ) : ℚ) / (2 : ℕ) := by
    rw [Nat.cast_ofNat, div_eq_mul_one_div, mul_comm (Nat.cast _)]
    exact mul_le_mul_of_nonneg_right low (Nat.cast_nonneg _)
  rw [← Nat.floor_div_eq_div (K := ℚ)]
  exact Nat.floor_mono half

end Order

section Median

variable {α : Type*} [Field α] [LinearOrder α] [IsStrictOrderedRing α] (sample : SortedSample α)

/-- The entry in the middle, or the mean of the two. -/
def median : α :=
  if sample.size % 2 = 1 then sample.upperMiddle
  else (sample.lowerMiddle + sample.upperMiddle) / 2

/-- With an odd number of entries there is one entry in the middle. -/
theorem median_eq : sample.median = (sample.lowerMiddle + sample.upperMiddle) / 2 := by
  rw [median]
  split_ifs with odd
  · have middle : sample.lowerMiddle = sample.upperMiddle :=
      entry_congr (by change (sample.size - 1) / 2 = sample.size / 2; omega)
    rw [middle, add_self_div_two]
  · rfl

theorem lowerMiddle_le_median : sample.lowerMiddle ≤ sample.median := by
  have middle := sample.lowerMiddle_le_upperMiddle
  rw [median_eq]
  linarith

theorem median_le_upperMiddle : sample.median ≤ sample.upperMiddle := by
  have middle := sample.lowerMiddle_le_upperMiddle
  rw [median_eq]
  linarith

theorem smallest_le_median : sample.smallest ≤ sample.median :=
  (sample.smallest_le_entry _).trans sample.lowerMiddle_le_median

theorem median_le_largest : sample.median ≤ sample.largest :=
  sample.median_le_upperMiddle.trans (sample.entry_le_largest _)

/-- A quantile of at most one half is no larger than the median. -/
theorem quantile_le_median {p : Share} (low : p.value ≤ 1 / 2) :
    sample.quantile p ≤ sample.median := by
  have lower : sample.quantile p ≤ sample.lowerMiddle := entry_mono (sample.rank_le_half low)
  exact lower.trans sample.lowerMiddle_le_median

/-- The median lies at or below an entry exactly when the upper entry in the middle does. -/
theorem median_le_entry_iff {rank : Fin sample.size} :
    sample.median ≤ sample.entry rank ↔ sample.upperMiddle ≤ sample.entry rank := by
  constructor
  · intro below
    by_cases high : sample.size / 2 ≤ rank.val
    · exact entry_mono high
    · have lower : sample.entry rank ≤ sample.lowerMiddle :=
        entry_mono (by change rank.val ≤ (sample.size - 1) / 2; omega)
      rw [median_eq] at below
      linarith
  · intro above
    exact sample.median_le_upperMiddle.trans above

theorem median_le_quantile_iff {p : Share} :
    sample.median ≤ sample.quantile p ↔ sample.upperMiddle ≤ sample.quantile p :=
  sample.median_le_entry_iff

/-- A rank that reaches the upper half is no smaller than the median. -/
theorem median_le_quantile {p : Share} (high : sample.size / 2 ≤ (sample.rank p).val) :
    sample.median ≤ sample.quantile p :=
  sample.median_le_quantile_iff.mpr (entry_mono high)

end Median

end SortedSample

section Mean

variable {α : Type*} [Field α] [LinearOrder α] [IsStrictOrderedRing α]

/-- The mean of a list, which is zero where there is nothing to divide. -/
def mean (xs : List α) : α := xs.sum / xs.length

theorem mean_le {xs : List α} {bound : α} (nonempty : xs ≠ []) (bounded : ∀ x ∈ xs, x ≤ bound) :
    mean xs ≤ bound := by
  have positive : 0 < (xs.length : α) := Nat.cast_pos.mpr (List.length_pos_of_ne_nil nonempty)
  have total : xs.sum ≤ xs.length • bound := List.sum_le_card_nsmul xs bound bounded
  rw [nsmul_eq_mul] at total
  exact (div_le_iff₀' positive).mpr total

theorem le_mean {xs : List α} {bound : α} (nonempty : xs ≠ []) (bounded : ∀ x ∈ xs, bound ≤ x) :
    bound ≤ mean xs := by
  have positive : 0 < (xs.length : α) := Nat.cast_pos.mpr (List.length_pos_of_ne_nil nonempty)
  have total : xs.length • bound ≤ xs.sum := List.card_nsmul_le_sum xs bound bounded
  rw [nsmul_eq_mul] at total
  exact (le_div_iff₀' positive).mpr total

/-- The mean does not exceed every entry. -/
theorem exists_mean_le {xs : List α} (nonempty : xs ≠ []) : ∃ x ∈ xs, mean xs ≤ x := by
  obtain ⟨sample, arranged⟩ := SortedSample.exists_ofList nonempty
  have greatest := sample.isGreatest_of_perm (SortedSample.ofList_eq_some_iff.mp arranged)
  exact ⟨sample.largest, greatest.1, mean_le nonempty fun x member => greatest.2 member⟩

/-- The mean does not fall below every entry. -/
theorem exists_le_mean {xs : List α} (nonempty : xs ≠ []) : ∃ x ∈ xs, x ≤ mean xs := by
  obtain ⟨sample, arranged⟩ := SortedSample.exists_ofList nonempty
  have least := sample.isLeast_of_perm (SortedSample.ofList_eq_some_iff.mp arranged)
  exact ⟨sample.smallest, least.1, le_mean nonempty fun x member => least.2 member⟩

end Mean

end Foundation
