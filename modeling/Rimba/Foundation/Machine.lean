import Mathlib.Data.List.Basic
import Mathlib.Data.Option.Basic

/-! # Machines driven by labels

A machine steps by a partial function of its state and a label, so that every
choice a schedule makes is in the labels. An invariant of the machine holds at
the start and is kept by every step; it then holds in every state a run reaches
(`Foundation.Machine.Invariant.run`) and before every step a run takes
(`Foundation.Machine.Invariant.transitions`).
-/

namespace Foundation

/-- A labelled transition system with a partial step function. -/
structure Machine (State Label : Type*) where
  initial : State
  step : State → Label → Option State

/-- One step of a machine. -/
structure Transition (State Label : Type*) where
  before : State
  label : Label
  after : State

namespace Machine

variable {State Label : Type*} (M : Machine State Label)

/-- The state a list of labels leads to; `none` when one of them is refused. -/
def runFrom : State → List Label → Option State
  | state, [] => some state
  | state, label :: rest => (M.step state label).bind fun next => runFrom next rest

/-- The state a list of labels leads to from the initial state. -/
def run (labels : List Label) : Option State :=
  M.runFrom M.initial labels

/-- The steps taken along a list of labels, up to the first refused one. -/
def transitionsFrom : State → List Label → List (Transition State Label)
  | _, [] => []
  | state, label :: rest =>
      match M.step state label with
      | none => []
      | some next => ⟨state, label, next⟩ :: transitionsFrom next rest

/-- The steps taken along a list of labels from the initial state. -/
def transitions (labels : List Label) : List (Transition State Label) :=
  M.transitionsFrom M.initial labels

@[simp] theorem runFrom_nil (state : State) : M.runFrom state [] = some state := rfl

theorem runFrom_cons (state : State) (label : Label) (rest : List Label) :
    M.runFrom state (label :: rest) =
      (M.step state label).bind fun next => M.runFrom next rest := rfl

theorem runFrom_append (state : State) (front back : List Label) :
    M.runFrom state (front ++ back) =
      (M.runFrom state front).bind fun middle => M.runFrom middle back := by
  induction front generalizing state with
  | nil => rfl
  | cons label front ih =>
      simp only [List.cons_append, runFrom_cons, Option.bind_assoc]
      exact Option.bind_congr fun next _ => ih next

/-- A predicate that holds at the start and is kept by every step. -/
structure Invariant (predicate : State → Prop) : Prop where
  initial : predicate M.initial
  step : ∀ before label after, predicate before → M.step before label = some after →
    predicate after

variable {M} {predicate : State → Prop}

/-- What every step keeps, a run keeps. -/
theorem runFrom_of_step
    (kept : ∀ before label after, predicate before → M.step before label = some after →
      predicate after)
    {state final : State} {labels : List Label} (valid : predicate state)
    (reached : M.runFrom state labels = some final) : predicate final := by
  induction labels generalizing state with
  | nil =>
      cases reached
      exact valid
  | cons label rest ih =>
      obtain ⟨next, stepped, later⟩ := Option.bind_eq_some_iff.mp reached
      exact ih (kept state label next valid stepped) later

/-- An invariant holds in every state a run reaches. -/
theorem Invariant.run (invariant : M.Invariant predicate) {labels : List Label} {final : State}
    (reached : M.run labels = some final) : predicate final :=
  runFrom_of_step invariant.step invariant.initial reached

theorem run_concat {past : List Label} {before after : State} {label : Label}
    (ran : M.run past = some before) (stepped : M.step before label = some after) :
    M.run (past ++ [label]) = some after := by
  rw [run, runFrom_append, ← run, ran, Option.bind_some, runFrom_cons, stepped]
  rfl

/-- What holds before the first step and is carried along by every step, with the
labels so far, holds of a whole run. -/
theorem run_history {holds : List Label → State → Prop} (initial : holds [] M.initial)
    (step : ∀ past before label after, M.run past = some before → holds past before →
      M.step before label = some after → holds (past ++ [label]) after)
    {labels : List Label} {final : State} (reached : M.run labels = some final) :
    holds labels final := by
  have carried : ∀ back past state, M.run past = some state → holds past state →
      M.runFrom state back = some final → holds (past ++ back) final := by
    intro back
    induction back with
    | nil =>
        rintro past state - valid ⟨⟩
        rwa [List.append_nil]
    | cons label back ih =>
        intro past state ran valid continues
        obtain ⟨next, stepped, later⟩ := Option.bind_eq_some_iff.mp continues
        have continued := ih (past ++ [label]) next (run_concat ran stepped)
          (step past state label next ran valid stepped) later
        rwa [List.append_assoc, List.singleton_append] at continued
  exact carried labels [] M.initial rfl initial reached

/-- Every step taken along a list of labels is a step of the machine. -/
theorem step_of_mem_transitionsFrom {state : State} {labels : List Label}
    {taken : Transition State Label} (member : taken ∈ M.transitionsFrom state labels) :
    M.step taken.before taken.label = some taken.after := by
  induction labels generalizing state with
  | nil => cases member
  | cons label rest ih =>
      unfold Machine.transitionsFrom at member
      split at member
      · cases member
      · next next stepped =>
          rcases List.mem_cons.mp member with rfl | later
          · exact stepped
          · exact ih later

/-- A predicate the steps of one run keep holds before each of them. -/
theorem before_of_mem_transitionsFrom {state : State} {labels : List Label}
    (valid : predicate state)
    (kept : ∀ taken ∈ M.transitionsFrom state labels, predicate taken.before →
      predicate taken.after)
    {taken : Transition State Label} (member : taken ∈ M.transitionsFrom state labels) :
    predicate taken.before := by
  induction labels generalizing state with
  | nil => cases member
  | cons label rest ih =>
      unfold Machine.transitionsFrom at member kept
      split at member
      · cases member
      · next next stepped =>
          simp only [stepped, List.forall_mem_cons] at kept
          rcases List.mem_cons.mp member with rfl | later
          · exact valid
          · exact ih (kept.1 valid) kept.2 later

/-- A predicate the steps of one run keep holds where the run ends. -/
theorem runFrom_of_transitionsFrom {state final : State} {labels : List Label}
    (valid : predicate state)
    (kept : ∀ taken ∈ M.transitionsFrom state labels, predicate taken.before →
      predicate taken.after)
    (reached : M.runFrom state labels = some final) : predicate final := by
  induction labels generalizing state with
  | nil =>
      cases reached
      exact valid
  | cons label rest ih =>
      obtain ⟨next, stepped, later⟩ := Option.bind_eq_some_iff.mp reached
      simp only [Machine.transitionsFrom, stepped, List.forall_mem_cons] at kept
      exact ih (kept.1 valid) kept.2 later

/-- A run split at one of its labels. -/
theorem runFrom_split {state final : State} {front back : List Label} {label : Label}
    (reached : M.runFrom state (front ++ label :: back) = some final) :
    ∃ before after, M.runFrom state front = some before ∧ M.step before label = some after ∧
      M.runFrom after back = some final ∧
      M.transitionsFrom state (front ++ label :: back) =
        M.transitionsFrom state front ++
          ⟨before, label, after⟩ :: M.transitionsFrom after back := by
  induction front generalizing state with
  | nil =>
      obtain ⟨after, stepped, later⟩ := Option.bind_eq_some_iff.mp reached
      refine ⟨state, after, rfl, stepped, later, ?_⟩
      simp only [List.nil_append, Machine.transitionsFrom, stepped]
  | cons first front ih =>
      obtain ⟨next, stepped, rest⟩ := Option.bind_eq_some_iff.mp reached
      obtain ⟨before, after, early, taken, later, same⟩ := ih rest
      refine ⟨before, after, ?_, taken, later, ?_⟩
      · simp only [runFrom_cons, stepped, Option.bind_some, early]
      · simp only [List.cons_append, Machine.transitionsFrom, stepped, same]

theorem Invariant.transitionsFrom (invariant : M.Invariant predicate) {state : State}
    {labels : List Label} (valid : predicate state) {taken : Transition State Label}
    (member : taken ∈ M.transitionsFrom state labels) :
    predicate taken.before ∧ M.step taken.before taken.label = some taken.after :=
  ⟨before_of_mem_transitionsFrom valid
      (fun _ inRun holds => invariant.step _ _ _ holds (step_of_mem_transitionsFrom inRun)) member,
    step_of_mem_transitionsFrom member⟩

/-- Every step along a run is a step of the machine, from a state satisfying
the invariant. -/
theorem Invariant.transitions (invariant : M.Invariant predicate) {labels : List Label}
    {taken : Transition State Label} (member : taken ∈ M.transitions labels) :
    predicate taken.before ∧ M.step taken.before taken.label = some taken.after :=
  invariant.transitionsFrom invariant.initial member

end Machine

end Foundation
