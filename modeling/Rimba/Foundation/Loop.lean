import Mathlib.Logic.Relation

/-! # Loops that may fault

A pass of a loop goes on in a next state, ends the loop with a result, or faults.
Where a loop ends and with what is then determined (`Foundation.Loop.EndsAt.unique`),
and a loop that ends does not fault on the way (`Foundation.Loop.EndsAt.faultless`). A loop
over items that may fault at each ends when it faults at none (`Foundation.foldlM_eq_ok`).
-/

namespace Foundation

/-- What one pass of a loop comes to. -/
inductive Pass (State Result : Type*) where
  | next (state : State)
  | done (result : Result)
  | fault

namespace Loop

variable {State Result : Type*} (body : State → Pass State Result)

/-- Passes of the loop lead from one state to another. -/
def Reaches : State → State → Prop :=
  Relation.ReflTransGen fun before after => body before = .next after

/-- Started in a state the loop ends in a last one, with a result. -/
structure EndsAt (start last : State) (result : Result) : Prop where
  reaches : Reaches body start last
  ends : body last = .done result

/-- Started in a state the loop comes to a fault. -/
def Faults (start : State) : Prop := ∃ last, Reaches body start last ∧ body last = .fault

variable {body} {start middle last last' : State} {result result' : Result}

theorem Reaches.refl (state : State) : Reaches body state state := Relation.ReflTransGen.refl

theorem Reaches.step (goes : body start = .next middle) (later : Reaches body middle last) :
    Reaches body start last :=
  Relation.ReflTransGen.head goes later

theorem Reaches.trans (first : Reaches body start middle) (later : Reaches body middle last) :
    Reaches body start last :=
  Relation.ReflTransGen.trans first later

/-- What a state that ends the loop or faults reaches is itself. -/
theorem Reaches.of_stopped (stopped : ∀ after, body start ≠ .next after)
    (reaches : Reaches body start last) : last = start := by
  induction reaches using Relation.ReflTransGen.head_induction_on with
  | refl => rfl
  | head goes _ _ => exact absurd goes (stopped _)

/-- Two states a loop comes to are on one way. -/
theorem Reaches.linear (here : Reaches body start middle) (there : Reaches body start last) :
    Reaches body middle last ∨ Reaches body last middle := by
  induction here using Relation.ReflTransGen.head_induction_on with
  | refl => exact .inl there
  | head goes later ih =>
      rcases Relation.ReflTransGen.cases_head there with rfl | ⟨next, goes', later'⟩
      · exact .inr (later.head goes)
      · cases goes.symm.trans goes'
        exact ih later'

/-- Both ways, the states that stop a loop are one. -/
theorem Reaches.stopped_unique (here : Reaches body start last) (there : Reaches body start last')
    (stopped : ∀ after, body last ≠ .next after) (stopped' : ∀ after, body last' ≠ .next after) :
    last = last' := by
  rcases here.linear there with onward | onward
  · exact (onward.of_stopped stopped).symm
  · exact onward.of_stopped stopped'

namespace EndsAt

theorem stopped (ended : EndsAt body start last result) : ∀ after, body last ≠ .next after := by
  intro after goes
  cases goes.symm.trans ended.ends

theorem unique (here : EndsAt body start last result) (there : EndsAt body start last' result') :
    last = last' ∧ result = result' := by
  obtain rfl := here.reaches.stopped_unique there.reaches here.stopped there.stopped
  cases here.ends.symm.trans there.ends
  exact ⟨rfl, rfl⟩

theorem faultless (ended : EndsAt body start last result) : ¬ Faults body start := by
  rintro ⟨other, reaches, faults⟩
  have stopped : ∀ after, body other ≠ .next after := by
    intro after goes
    cases goes.symm.trans faults
  obtain rfl := ended.reaches.stopped_unique reaches ended.stopped stopped
  cases ended.ends.symm.trans faults

end EndsAt

end Loop

/-- A loop that every item either stops or leads to its next state runs to its end when no
item stops it. -/
theorem foldlM_eq_ok {State Item Fault : Type*} {step : State → Item → Except Fault State}
    {next : State → Item → State} (Fine : Item → Prop)
    (goes : ∀ item, Fine item → ∀ state, step state item = .ok (next state item))
    (stops : ∀ item, ¬ Fine item → ∀ state result, step state item ≠ .ok result)
    {items : List Item} {state result : State} :
    items.foldlM step state = .ok result ↔
      (∀ item ∈ items, Fine item) ∧ items.foldl next state = result := by
  induction items generalizing state with
  | nil =>
      rw [List.foldlM_nil, List.foldl_nil, and_iff_right (List.forall_mem_nil _)]
      exact ⟨Except.ok.inj, congrArg Except.ok⟩
  | cons item items ih =>
      rw [List.foldlM_cons, List.foldl_cons, List.forall_mem_cons]
      by_cases fine : Fine item
      · rw [goes item fine, and_iff_right fine]
        exact ih
      · refine iff_of_false ?_ fun both => fine both.1.1
        cases stopped : step state item with
        | error fault =>
            intro same
            cases same
        | ok after => exact (stops item fine state after stopped).elim

end Foundation
