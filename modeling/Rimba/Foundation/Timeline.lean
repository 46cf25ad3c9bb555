import Mathlib.Algebra.Order.BigOperators.Group.List
import Mathlib.Data.List.Chain

/-! # Actions and when they happen

A program does its actions one behind the other, each of which lasts at least a while. The
state that its actions have left at a time is the one behind the last of them
(`Foundation.Timeline.stateAt`), and it is held as long as the actions behind it keep it:
at least as long as they last (`Foundation.Timeline.stateAt_of_held`). Actions that last no longer
than they must are such a run (`Foundation.Timeline.timely_paced`).
-/

namespace Foundation

/-- An action, and when it happened. -/
structure Happened (Action Time : Type*) where
  action : Action
  time : Time

namespace Timeline

variable {Action State Time : Type*}

/-- The state that the actions up to a time have left. -/
def stateAt [LE Time] [DecidableLE Time] (step : State → Action → State) (start : State)
    (run : List (Happened Action Time)) (time : Time) : State :=
  ((run.takeWhile fun happened => happened.time ≤ time).map Happened.action).foldl step start

section

variable [LinearOrder Time] {step : State → Action → State} {start state : State} {time : Time}

theorem stateAt_append {front back : List (Happened Action Time)}
    (come : ∀ happened ∈ front, happened.time ≤ time) :
    stateAt step start (front ++ back) time =
      stateAt step ((front.map Happened.action).foldl step start) back time := by
  have all : ∀ happened ∈ front, decide (happened.time ≤ time) = true := fun happened member =>
    decide_eq_true (come happened member)
  rw [stateAt, List.takeWhile_append_of_pos all, List.map_append, List.foldl_append]
  rfl

/-- Actions that keep a state leave it, as long as nothing behind them has happened. -/
theorem stateAt_of_keeps {quiet rest : List (Happened Action Time)}
    (keeps : ∀ happened ∈ quiet, step state happened.action = state)
    (later : ∀ happened ∈ rest.head?, time < happened.time) :
    stateAt step state (quiet ++ rest) time = state := by
  induction quiet with
  | nil =>
      cases rest with
      | nil => rfl
      | cons next rest =>
          have behind : ¬ next.time ≤ time := not_le.mpr (later next rfl)
          rw [List.nil_append, stateAt, List.takeWhile_cons_of_neg (by rwa [decide_eq_true_eq])]
          rfl
  | cons happened quiet ih =>
      obtain ⟨here, others⟩ := List.forall_mem_cons.mp keeps
      by_cases come : happened.time ≤ time
      · have split : stateAt step state ([happened] ++ (quiet ++ rest)) time = _ :=
          stateAt_append (List.forall_mem_singleton.mpr come)
        rw [List.cons_append, ← List.singleton_append, split]
        rw [List.map_singleton, List.foldl_cons, List.foldl_nil, here]
        exact ih others
      · rw [List.cons_append, stateAt, List.takeWhile_cons_of_neg (by rwa [decide_eq_true_eq])]
        rfl

end

variable [AddCommGroup Time] [LinearOrder Time] [IsOrderedAddMonoid Time]

/-- How long some actions last at least. -/
def duration (lasts : Action → Time) (actions : List Action) : Time := (actions.map lasts).sum

/-- Every action happens when the one before it has lasted its while. -/
def Timely (lasts : Action → Time) (run : List (Happened Action Time)) : Prop :=
  run.IsChain fun first next => first.time + lasts first.action ≤ next.time

section

variable {lasts : Action → Time} {front back : List (Happened Action Time)}
  {first last : Happened Action Time}

/-- An action happens when all those before it have lasted their while. -/
theorem Timely.duration_le (timely : Timely lasts (first :: (back ++ [last]))) :
    first.time + duration lasts ((first :: back).map Happened.action) ≤ last.time := by
  induction back generalizing first with
  | nil =>
      rw [List.map_singleton, duration, List.map_singleton, List.sum_singleton]
      exact (List.isChain_cons_cons.mp timely).1
  | cons next back ih =>
      obtain ⟨here, later⟩ := List.isChain_cons_cons.mp timely
      rw [List.map_cons, duration, List.map_cons, List.sum_cons, ← add_assoc]
      exact (add_le_add_left here _).trans (ih later)

variable (long : ∀ action, 0 ≤ lasts action)

include long

theorem duration_nonneg (actions : List Action) : 0 ≤ duration lasts actions := by
  refine List.sum_nonneg fun while_ member => ?_
  obtain ⟨action, -, rfl⟩ := List.mem_map.mp member
  exact long action

/-- Nothing happens before what stands in front of it. -/
theorem Timely.le_of_mem (timely : Timely lasts (front ++ last :: back))
    (member : first ∈ front) : first.time ≤ last.time := by
  obtain ⟨before, between, rfl⟩ := List.append_of_mem member
  have inside : first :: (between ++ [last]) <:+: before ++ first :: between ++ last :: back :=
    ⟨before, back, by simp only [List.append_assoc, List.cons_append, List.nil_append]⟩
  have part := List.IsChain.infix timely inside
  have spaced := Timely.duration_le part
  exact (le_add_of_nonneg_right (duration_nonneg long _)).trans spaced

end

/-- **What is held.** Behind an action that leaves a state and actions that keep it, the
state is there from then on for as long as these actions last. -/
theorem stateAt_of_held {lasts : Action → Time} (long : ∀ action, 0 ≤ lasts action)
    {step : State → Action → State} {start : State} {time : Time}
    {front quiet rest : List (Happened Action Time)} {happened : Happened Action Time}
    (timely : Timely lasts (front ++ happened :: (quiet ++ rest)))
    (keeps : ∀ other ∈ happened :: quiet, step ((front.map Happened.action).foldl step start)
      other.action = (front.map Happened.action).foldl step start)
    (come : happened.time ≤ time)
    (early : rest = [] ∨
      time < happened.time + duration lasts ((happened :: quiet).map Happened.action)) :
    stateAt step start (front ++ happened :: (quiet ++ rest)) time =
      (front.map Happened.action).foldl step start := by
  rw [stateAt_append fun other member => (timely.le_of_mem long member).trans come,
    ← List.cons_append]
  refine stateAt_of_keeps keeps fun next member => ?_
  obtain ⟨behind, rfl⟩ : ∃ behind, rest = next :: behind := ⟨_, List.eq_cons_of_mem_head? member⟩
  rcases early with none | early
  · cases none
  have inside : happened :: (quiet ++ [next]) <:+: front ++ happened :: (quiet ++ next :: behind) :=
    ⟨front, behind, by simp only [List.append_assoc, List.cons_append, List.nil_append]⟩
  have part := List.IsChain.infix timely inside
  exact early.trans_le (Timely.duration_le part)

/-- Actions each of which lasts its while, and no longer. -/
def paced (lasts : Action → Time) : Time → List Action → List (Happened Action Time)
  | _, [] => []
  | time, action :: actions => ⟨action, time⟩ :: paced lasts (time + lasts action) actions

omit [LinearOrder Time] [IsOrderedAddMonoid Time] in
theorem map_paced (lasts : Action → Time) (time : Time) (actions : List Action) :
    (paced lasts time actions).map Happened.action = actions := by
  induction actions generalizing time with
  | nil => rfl
  | cons action actions ih => rw [paced, List.map_cons, ih]

omit [IsOrderedAddMonoid Time] in
theorem timely_paced (lasts : Action → Time) (time : Time) (actions : List Action) :
    Timely lasts (paced lasts time actions) := by
  induction actions generalizing time with
  | nil => exact List.isChain_nil
  | cons action actions ih =>
      cases actions with
      | nil => exact List.isChain_singleton _
      | cons next actions =>
          exact List.isChain_cons_cons.mpr ⟨le_refl _, ih (time + lasts action)⟩

end Timeline

end Foundation
