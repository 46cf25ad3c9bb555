import Mathlib.Algebra.Order.BigOperators.Group.Finset
import Mathlib.Algebra.Order.Ring.Nat
import Mathlib.Logic.Relation

/-! # What one event sets off

Where every event ranks below the one it is caused by, and one event causes at most
so many others, the events that one event sets off are bounded by its rank
(`Foundation.Cascade.card_le`), and those of a kind that only its own kind causes by a
rank less (`Foundation.Cascade.card_le_of_kind`).
-/

namespace Foundation.Cascade

variable {Event : Type*} {causes : Event → Event → Prop}

/-- An event sets off itself, what it causes, what that causes, and so on. -/
def SetsOff (causes : Event → Event → Prop) (root event : Event) : Prop :=
  Relation.ReflTransGen causes root event

/-- One event causes at most so many others. -/
def FansOut (causes : Event → Event → Prop) (fan : ℕ) : Prop :=
  ∀ earlier (later : Finset Event), (∀ event ∈ later, causes earlier event) → later.card ≤ fan

/-- Every event ranks below the one it is caused by. -/
def Falls (causes : Event → Event → Prop) (rank : Event → ℕ) : Prop :=
  ∀ earlier later, causes earlier later → rank later < rank earlier

/-- The events that one event of a rank can set off, itself and so many below each. -/
def size (fan : ℕ) : ℕ → ℕ
  | 0 => 1
  | rank + 1 => 1 + fan * size fan rank

theorem SetsOff.eq_or_caused {root event : Event} (off : SetsOff causes root event) :
    event = root ∨ ∃ next, causes root next ∧ SetsOff causes next event := by
  rcases Relation.ReflTransGen.cases_head off with same | ⟨next, caused, rest⟩
  · exact .inl same.symm
  · exact .inr ⟨next, caused, rest⟩

/-- **One event settles.** What an event sets off is bounded by its rank and the fan-out. The
induction is on the rank: the events below the root split by the one the root causes. -/
theorem card_le {rank : Event → ℕ} {fan : ℕ} (falls : Falls causes rank)
    (fans : FansOut causes fan) {bound : ℕ} {root : Event} (low : rank root ≤ bound)
    (events : Finset Event) (off : ∀ event ∈ events, SetsOff causes root event) :
    events.card ≤ size fan bound := by
  classical
  induction bound generalizing root events with
  | zero =>
      have only : events ⊆ {root} := by
        intro event member
        rcases (off event member).eq_or_caused with same | ⟨next, caused, _⟩
        · exact Finset.mem_singleton.mpr same
        · exact absurd (falls _ _ caused) (by omega)
      exact (Finset.card_le_card only).trans (Finset.card_singleton root).le
  | succ bound ih =>
      -- each event of the set below the root is reached through one it causes
      have through : ∀ event ∈ events, ∃ next, event = root ∨
          causes root next ∧ SetsOff causes next event := by
        intro event member
        rcases (off event member).eq_or_caused with same | ⟨next, caused, rest⟩
        · exact ⟨root, .inl same⟩
        · exact ⟨next, .inr ⟨caused, rest⟩⟩
      choose! next reached using through
      have below : ∀ event ∈ events.erase root, causes root (next event) ∧
          SetsOff causes (next event) event := by
        intro event member
        obtain ⟨other, inside⟩ := Finset.mem_erase.mp member
        exact (reached event inside).resolve_left other
      have caused : ((events.erase root).image next).card ≤ fan := by
        apply fans root
        intro middle member
        obtain ⟨event, inside, rfl⟩ := Finset.mem_image.mp member
        exact (below event inside).1
      have each : ∀ middle ∈ (events.erase root).image next,
          ((events.erase root).filter fun event => next event = middle).card ≤ size fan bound := by
        intro middle member
        obtain ⟨first, inside, rfl⟩ := Finset.mem_image.mp member
        have lower : rank (next first) ≤ bound := by
          have fallen := falls _ _ (below first inside).1
          omega
        apply ih lower
        intro event within
        obtain ⟨there, same⟩ := Finset.mem_filter.mp within
        rw [← same]
        exact (below event there).2
      have rest : (events.erase root).card ≤ fan * size fan bound :=
        calc (events.erase root).card
            = ∑ middle ∈ (events.erase root).image next,
                ((events.erase root).filter fun event => next event = middle).card :=
              Finset.card_eq_sum_card_image next _
          _ ≤ ((events.erase root).image next).card • size fan bound :=
              Finset.sum_le_card_nsmul _ _ _ each
          _ ≤ fan * size fan bound := Nat.mul_le_mul_right _ caused
      have whole : events.card - 1 ≤ (events.erase root).card := Finset.pred_card_le_card_erase
      rw [size]
      omega

/-- The events of a kind that only its own kind causes, and that ranks at least one, are
bounded by a rank less. -/
theorem card_le_of_kind {rank : Event → ℕ} {fan : ℕ} {kind : Event → Prop}
    (falls : Falls causes rank) (fans : FansOut causes fan)
    (ranks : ∀ event, kind event → 0 < rank event)
    (only : ∀ earlier later, causes earlier later → kind later → kind earlier) {bound : ℕ}
    {root : Event} (low : rank root ≤ bound + 1) (events : Finset Event)
    (off : ∀ event ∈ events, SetsOff causes root event) (kinds : ∀ event ∈ events, kind event) :
    events.card ≤ size fan bound := by
  have fallsOfKind : Falls (fun earlier later => causes earlier later ∧ kind later)
      fun event => rank event - 1 := by
    intro earlier later caused
    have here := ranks later caused.2
    have lower := falls _ _ caused.1
    exact Nat.sub_lt_sub_right here lower
  have fansOfKind : FansOut (fun earlier later => causes earlier later ∧ kind later) fan :=
    fun earlier later caused => fans earlier later fun event member => (caused event member).1
  have offOfKind : ∀ event, SetsOff causes root event → kind event →
      SetsOff (fun earlier later => causes earlier later ∧ kind later) root event := by
    intro event path
    induction path with
    | refl => exact fun _ => .refl
    | tail _ caused ih =>
        exact fun here => .tail (ih (only _ _ caused here)) ⟨caused, here⟩
  exact card_le fallsOfKind fansOfKind (Nat.sub_le_of_le_add low) events fun event member =>
    offOfKind event (off event member) (kinds event member)

end Foundation.Cascade
