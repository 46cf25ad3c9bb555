import Mathlib.Data.Option.Basic
import Mathlib.Data.Nat.Notation
import Mathlib.Logic.Function.Basic

/-! # Maps whose bindings grow too old to answer

An unbounded map remembers, for each key, the value last learned and when. A
binding is removed by name, or stays and stops answering once it is older than
a limit. The map is the meaning of a bounded, lazily expiring table: a table
answers like it as long as it frees a binding only when the map has removed it
or `Foundation.ExpiringMap.answer` no longer gives it.
-/

namespace Foundation

/-- A value, and when it was learned. -/
structure Seen (Value : Type*) where
  value : Value
  seenAt : ℕ

/-- What was last learned for each key and not removed since. -/
abbrev ExpiringMap (Key Value : Type*) := Key → Option (Seen Value)

namespace ExpiringMap

variable {Key Value : Type*}

/-- The map that has learned nothing. -/
def empty : ExpiringMap Key Value := fun _ => none

/-- Bind a key, in place of what it was bound to. -/
def learn [DecidableEq Key] (map : ExpiringMap Key Value) (key : Key) (value : Value) (now : ℕ) :
    ExpiringMap Key Value :=
  Function.update map key (some ⟨value, now⟩)

/-- Remove the bindings a test picks. -/
def remove (map : ExpiringMap Key Value) (picked : Key → Value → Bool) : ExpiringMap Key Value :=
  fun key => (map key).filter fun seen => !picked key seen.value

/-- The value of a key learned at most `limit` ago. -/
def answer (map : ExpiringMap Key Value) (limit now : ℕ) (key : Key) : Option Value :=
  (map key).bind fun seen => if now ≤ seen.seenAt + limit then some seen.value else none

variable {map : ExpiringMap Key Value} {limit now : ℕ} {key other : Key} {seen : Seen Value}

@[simp] theorem learn_self [DecidableEq Key] (value : Value) :
    map.learn key value now key = some ⟨value, now⟩ := Function.update_self ..

theorem learn_of_ne [DecidableEq Key] (value : Value) (different : other ≠ key) :
    map.learn key value now other = map other := Function.update_of_ne different ..

theorem remove_eq_some_iff {picked : Key → Value → Bool} :
    map.remove picked key = some seen ↔ map key = some seen ∧ picked key seen.value = false := by
  simp only [remove, Option.filter_eq_some_iff, Bool.not_eq_true']

theorem answer_of_young (bound : map key = some seen) (young : now ≤ seen.seenAt + limit) :
    map.answer limit now key = some seen.value := by
  simp only [answer, bound, Option.bind_some, young, ↓reduceIte]

/-- A key whose binding, if it has one, is older than the limit has no answer. -/
theorem answer_of_old (old : ∀ seen ∈ map key, seen.seenAt + limit < now) :
    map.answer limit now key = none := by
  rw [answer, Option.bind_eq_none_iff]
  intro seen bound
  rw [if_neg (Nat.not_le.mpr (old seen bound))]

end ExpiringMap

end Foundation
