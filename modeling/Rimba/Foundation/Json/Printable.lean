import Rimba.Foundation.Json.Basic
import Rimba.Foundation.Text

/-! # What is written is printable

A value's compact text holds printable ASCII characters only
(`Foundation.dumps_printable`), and so no line break.
-/

namespace Foundation

/-- The printable ASCII characters. -/
def isPrintable (c : Char) : Bool := 0x20 ≤ c.toNat && c.toNat ≤ 0x7e

theorem isPrintable_iff {c : Char} : isPrintable c = true ↔ 0x20 ≤ c.toNat ∧ c.toNat ≤ 0x7e := by
  rw [isPrintable, Bool.and_eq_true, decide_eq_true_eq, decide_eq_true_eq]

theorem isPrintable_of_between {c : Char} (low high : Char)
    (within : low.val ≤ c.val ∧ c.val ≤ high.val)
    (printable : 0x20 ≤ low.toNat ∧ high.toNat ≤ 0x7e) : isPrintable c = true := by
  have lower : low.toNat ≤ c.toNat := UInt32.le_iff_toNat_le.mp within.1
  have upper : c.toNat ≤ high.toNat := UInt32.le_iff_toNat_le.mp within.2
  exact isPrintable_iff.mpr ⟨printable.1.trans lower, upper.trans printable.2⟩

theorem isPrintable_of_bare {c : Char} (bare : isBareChar c = true) : isPrintable c = true := by
  simp only [isBareChar, Bool.or_eq_true, decide_eq_true_eq] at bare
  rcases bare with ((letterOrDigit | rfl) | rfl) | rfl
  · rcases Bool.or_eq_true_iff.mp letterOrDigit with letter | digit
    · rcases Bool.or_eq_true_iff.mp letter with upper | lower
      · exact isPrintable_of_between 'A' 'Z' (of_decide_eq_true upper) (by decide)
      · obtain ⟨above, below⟩ := Bool.and_eq_true_iff.mp lower
        exact isPrintable_of_between 'a' 'z'
          ⟨of_decide_eq_true above, of_decide_eq_true below⟩ (by decide)
    · obtain ⟨above, below⟩ := Bool.and_eq_true_iff.mp digit
      exact isPrintable_of_between '0' '9'
        ⟨of_decide_eq_true above, of_decide_eq_true below⟩ (by decide)
  · decide
  · decide
  · decide

theorem isPrintable_digitChar : ∀ digit < 16, isPrintable (Nat.digitChar digit) = true := by
  decide

theorem escapeUnit_printable (unit : ℕ) : ∀ c ∈ escapeUnit unit, isPrintable c = true := by
  have digit : ∀ n, isPrintable (Nat.digitChar (n % 16)) = true := fun n =>
    isPrintable_digitChar _ (Nat.mod_lt _ (by decide))
  simp only [escapeUnit, List.forall_mem_cons, digit, true_and]
  exact ⟨by decide, by decide, fun c member => by cases member⟩

theorem escapeChar_printable (c : Char) : ∀ d ∈ escapeChar c, isPrintable d = true := by
  rcases escapeChar_cases c with ⟨letter, short, -, -, printable⟩ | ⟨itself, -, -, printable⟩ |
    ⟨unit, -⟩ | ⟨units, -⟩
  · rw [short]
    refine List.forall_mem_cons.mpr ⟨by decide, List.forall_mem_singleton.mpr ?_⟩
    exact isPrintable_iff.mpr printable
  · rw [itself]
    exact List.forall_mem_singleton.mpr (isPrintable_iff.mpr printable)
  · rw [unit]
    exact escapeUnit_printable _
  · rw [units]
    exact List.forall_mem_append.mpr ⟨escapeUnit_printable _, escapeUnit_printable _⟩

theorem quote_printable (text : List Char) : ∀ c ∈ quote text, isPrintable c = true := by
  intro c member
  simp only [quote, List.mem_cons, List.mem_append, List.mem_flatMap, List.not_mem_nil,
    or_false] at member
  rcases member with rfl | ⟨d, _, escaped⟩ | rfl
  · decide
  · exact escapeChar_printable d c escaped
  · decide

mutual

/-- On one line, a value is written in printable ASCII. -/
theorem dumps_printable (level : ℕ) : (v : Json) →
    ∀ c ∈ dumps .compact level v, isPrintable c = true
  | .bare text => by
      intro c member
      have valid := text.2
      rw [isBare, Bool.and_eq_true, List.all_eq_true] at valid
      exact isPrintable_of_bare (valid.1 c member)
  | .str text => quote_printable text
  | .arr [] => by
      rw [dumps]
      exact List.all_eq_true.mp rfl
  | .arr (v :: rest) => by
      intro c member
      simp only [dumps, Layout.compact, List.nil_append, List.mem_cons, List.mem_append,
        List.not_mem_nil, or_false] at member
      rcases member with rfl | inside | inside | rfl
      · decide
      · exact dumps_printable _ v c inside
      · exact dumpsItems_printable _ rest c inside
      · decide
  | .obj [] => by
      rw [dumps]
      exact List.all_eq_true.mp rfl
  | .obj ((key, v) :: rest) => by
      intro c member
      simp only [dumps, Layout.compact, List.nil_append, List.mem_cons, List.mem_append,
        List.not_mem_nil, or_false] at member
      rcases member with rfl | inside | rfl | rfl | inside | inside | rfl
      · decide
      · exact quote_printable key c inside
      · decide
      · decide
      · exact dumps_printable _ v c inside
      · exact dumpsMembers_printable _ rest c inside
      · decide

theorem dumpsItems_printable (level : ℕ) : (items : List Json) →
    ∀ c ∈ dumpsItems .compact level items, isPrintable c = true
  | [] => by
      intro c member
      cases member
  | v :: rest => by
      intro c member
      simp only [dumpsItems, Layout.compact, List.cons_append, List.nil_append, List.mem_cons,
        List.mem_append] at member
      rcases member with rfl | rfl | inside | inside
      · decide
      · decide
      · exact dumps_printable _ v c inside
      · exact dumpsItems_printable _ rest c inside

theorem dumpsMembers_printable (level : ℕ) : (members : List (List Char × Json)) →
    ∀ c ∈ dumpsMembers .compact level members, isPrintable c = true
  | [] => by
      intro c member
      cases member
  | (key, v) :: rest => by
      intro c member
      simp only [dumpsMembers, Layout.compact, List.cons_append, List.nil_append, List.mem_cons,
        List.mem_append] at member
      rcases member with rfl | rfl | inside | rfl | rfl | inside | inside
      · decide
      · decide
      · exact quote_printable key c inside
      · decide
      · decide
      · exact dumps_printable _ v c inside
      · exact dumpsMembers_printable _ rest c inside

end

theorem isLineBreak_of_printable {c : Char} (printable : isPrintable c = true) :
    isLineBreak c = false := by
  by_contra broken
  have member := of_decide_eq_true (Bool.not_eq_false _ ▸ broken)
  revert printable
  simp only [List.mem_cons, List.not_mem_nil, or_false] at member
  rcases member with rfl | rfl | rfl | rfl | rfl | rfl | rfl | rfl | rfl | rfl <;> decide

end Foundation
