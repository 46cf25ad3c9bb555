import Mathlib.Data.Set.Function
import Mathlib.Order.Lattice
import Rimba.Regtest.Dscycle

/-! # The cycles that are counted

`_capture` keeps four counters: the reconnects it has read, the sleeps it has noted,
whether one of these is pending, and the cycles. At every point of a run a cycle more
would be one sleep too many, save between the two assignments that count one, and each
cycle has a sleep of its own behind the cycle before it
(`Rimba.Regtest.Dscycle.cycles_counted`). A negative number of cycles is not refused:
the loop then ends at once.
-/

namespace Rimba.Regtest.Dscycle

open Foundation (Machine)

/-- The loop of `_capture`, which goes on while `cycles < need`. -/
def captureFor (c6 : Bool) (tEnd : ℚ) (need : ℤ) : Machine CaptureState Pass :=
  captureMachine c6 tEnd need.toNat

theorem step_captureFor {c6 : Bool} {tEnd : ℚ} {need : ℤ} {before after : CaptureState}
    {pass : Pass} : (captureFor c6 tEnd need).step before pass = some after ↔
      (pass.begun < tEnd ∧ (before.cycles : ℤ) < need) ∧ before.pass pass.found = some after := by
  simp only [captureFor, captureMachine, Int.lt_toNat, Option.ite_none_right_eq_some]

/-- The variables right after a counter is assigned. -/
structure Point where
  vars : CaptureState
  /-- Between `cycles += 1` and `pending_gap = False`. -/
  counting : Bool

namespace CaptureState

/-- A sleep is noted when the port opens at `now`. -/
def notesSleep (state : CaptureState) (now : ℚ) : Bool :=
  state.goneSince.any fun since => state.sawDsMarker || deepsleepGapS ≤ now - since

/-- The assignments to the counters as the port opens. -/
def openPoints (state : CaptureState) (now : ℚ) : List Point :=
  if state.notesSleep now then
    [⟨{ state with deepSleeps := state.deepSleeps + 1 }, false⟩,
      ⟨{ state with deepSleeps := state.deepSleeps + 1, pendingGap := true }, false⟩]
  else []

/-- The assignments to the counters as a line is read. -/
def linePoints (state : CaptureState) (text : List Char) : List Point :=
  match reRecon.search text with
  | none => []
  | some ms =>
      let noted := { state with recons := state.recons ++ [ms] }
      if state.pendingGap then
        [⟨noted, false⟩, ⟨{ noted with cycles := noted.cycles + 1 }, true⟩,
          ⟨{ noted with cycles := noted.cycles + 1, pendingGap := false }, false⟩]
      else [⟨noted, false⟩]

def readPoints (state : CaptureState) : ReadOutcome → List Point
  | .line text => state.linePoints text
  | .silent | .raised _ => []

/-- The points of one pass, from its start to its end. -/
def passPoints (state after : CaptureState) : PortFound → List Point
  | .absent _ _ | .refused _ => [⟨state, false⟩, ⟨after, false⟩]
  | .opened now outcome =>
      ⟨state, false⟩ :: state.openPoints now ++
        (⟨state.portOpened now, false⟩ :: (state.portOpened now).readPoints outcome ++
          [⟨after, false⟩])
  | .held outcome => ⟨state, false⟩ :: state.readPoints outcome ++ [⟨after, false⟩]

end CaptureState

/-- The points of a run. -/
def points (c6 : Bool) (tEnd : ℚ) (need : ℤ) (passes : List Pass) : List Point :=
  ⟨(captureFor c6 tEnd need).initial, false⟩ ::
    ((captureFor c6 tEnd need).transitions passes).flatMap fun taken =>
      taken.before.passPoints taken.after taken.label.found

/-- A sleep that is noted, or a reconnect, counted or not. -/
inductive Mark where
  | slept
  | reconnected (counted : Bool)
  deriving DecidableEq, Repr

def Mark.isReconnect : Mark → Bool
  | .slept => false
  | .reconnected _ => true

namespace CaptureState

def openMarks (state : CaptureState) (now : ℚ) : List Mark :=
  if state.notesSleep now then [.slept] else []

def readMarks (state : CaptureState) : ReadOutcome → List Mark
  | .line text => if (reRecon.search text).isSome then [.reconnected state.pendingGap] else []
  | .silent | .raised _ => []

/-- The marks of one pass. -/
def passMarks (state : CaptureState) : PortFound → List Mark
  | .absent _ _ | .refused _ => []
  | .opened now outcome => state.openMarks now ++ (state.portOpened now).readMarks outcome
  | .held outcome => state.readMarks outcome

end CaptureState

/-- The marks of a run that goes on from a state. -/
def marksFrom (c6 : Bool) (tEnd : ℚ) (need : ℤ) (state : CaptureState) (passes : List Pass) :
    List Mark :=
  ((captureFor c6 tEnd need).transitionsFrom state passes).flatMap fun taken =>
    taken.before.passMarks taken.label.found

/-- The marks of a run. -/
def marks (c6 : Bool) (tEnd : ℚ) (need : ℤ) (passes : List Pass) : List Mark :=
  marksFrom c6 tEnd need (captureFor c6 tEnd need).initial passes

/-- The four counters. -/
structure Counters where
  recons : ℕ
  deepSleeps : ℕ
  cycles : ℕ
  pending : Bool

def CaptureState.counters (state : CaptureState) : Counters :=
  ⟨state.recons.length, state.deepSleeps, state.cycles, state.pendingGap⟩

/-- What a mark does to the counters. -/
def Counters.mark (counters : Counters) : Mark → Counters
  | .slept => { counters with deepSleeps := counters.deepSleeps + 1, pending := true }
  | .reconnected counted =>
      ⟨counters.recons + 1, counters.deepSleeps, counters.cycles + counted.toNat,
        counters.pending && !counted⟩

section

variable (state : CaptureState)

theorem counters_notePortMissing (now : ℚ) :
    (state.notePortMissing now).counters = state.counters := by
  rw [CaptureState.notePortMissing]
  split <;> rfl

theorem counters_portAbsent (now : ℚ) (outcome : PulseOutcome) :
    (state.portAbsent now outcome).counters = state.counters := by
  rw [CaptureState.portAbsent]
  split
  · cases outcome <;> rfl
  · exact counters_notePortMissing state now

theorem counters_portOpened (now : ℚ) : (state.portOpened now).counters =
    (state.openMarks now).foldl Counters.mark state.counters := by
  rw [CaptureState.openMarks, CaptureState.notesSleep]
  cases gone : state.goneSince with
  | none =>
      simp only [CaptureState.portOpened, gone]
      rfl
  | some since =>
      simp only [CaptureState.portOpened, gone, Option.any_some]
      split_ifs <;> rfl

theorem counters_readText (text : List Char) : (state.readText text).counters =
    (state.readMarks (.line text)).foldl Counters.mark state.counters := by
  simp only [CaptureState.readText, CaptureState.readMarks]
  cases (reSleep.search text).isSome <;> cases reRecon.search text <;>
    cases pending : state.pendingGap <;>
    simp [pending, CaptureState.counters, Counters.mark]

theorem counters_readLine (outcome : ReadOutcome) : (state.readLine outcome).counters =
    (state.readMarks outcome).foldl Counters.mark state.counters := by
  cases outcome with
  | line text => exact counters_readText state text
  | silent => rfl
  | raised now => rfl

end

/-- The counters after a pass are those before it, with its marks. -/
theorem counters_pass {state after : CaptureState} {found : PortFound}
    (passed : state.pass found = some after) :
    after.counters = (state.passMarks found).foldl Counters.mark state.counters := by
  cases found with
  | absent now outcome =>
      obtain ⟨-, rfl⟩ := CaptureState.pass_absent.mp passed
      exact counters_portAbsent state now outcome
  | refused now =>
      obtain ⟨-, rfl⟩ := CaptureState.pass_refused.mp passed
      exact counters_notePortMissing state now
  | opened now outcome =>
      obtain ⟨-, rfl⟩ := CaptureState.pass_opened.mp passed
      rw [CaptureState.passMarks, List.foldl_append, ← counters_portOpened, counters_readLine]
  | held outcome =>
      obtain ⟨-, rfl⟩ := CaptureState.pass_held.mp passed
      exact counters_readLine state outcome

/-- What holds of the counters at a point, `need` cycles being asked for. -/
structure Tallied (need : ℤ) (point : Point) : Prop where
  cycles_le_need : (point.vars.cycles : ℤ) ≤ max need 0
  cycles_le_recons : point.vars.cycles ≤ point.vars.recons.length
  cycles_le_deepSleeps : point.vars.cycles ≤ point.vars.deepSleeps
  cycles_add_pending : point.counting = false →
    point.vars.cycles + point.vars.pendingGap.toNat ≤ point.vars.deepSleeps

section

variable {need : ℤ} {state : CaptureState}

/-- Only the counters matter. -/
theorem Tallied.congr {other : CaptureState} (tallied : Tallied need ⟨state, false⟩)
    (same : other.counters = state.counters) : Tallied need ⟨other, false⟩ := by
  obtain ⟨recons, deepSleeps, cycles, pending⟩ := Counters.mk.inj same
  obtain ⟨le_need, le_recons, le_sleeps, add_pending⟩ := tallied
  constructor
  · rwa [cycles]
  · rwa [cycles, recons]
  · rwa [cycles, deepSleeps]
  · intro _
    rw [cycles, pending, deepSleeps]
    exact add_pending rfl

theorem Tallied.openPoints (tallied : Tallied need ⟨state, false⟩) (now : ℚ) :
    (∀ point ∈ state.openPoints now, Tallied need point) ∧
      Tallied need ⟨state.portOpened now, false⟩ := by
  obtain ⟨le_need, le_recons, le_sleeps, add_pending⟩ := tallied
  have opened := counters_portOpened state now
  rw [CaptureState.openMarks] at opened
  rw [CaptureState.openPoints]
  split_ifs at opened ⊢ with slept
  · have noted : Tallied need
        ⟨{ state with deepSleeps := state.deepSleeps + 1, pendingGap := true }, false⟩ :=
      ⟨le_need, le_recons, Nat.le_succ_of_le le_sleeps, fun _ => Nat.succ_le_succ le_sleeps⟩
    refine ⟨?_, noted.congr opened⟩
    rintro point (_ | ⟨_, _ | ⟨_, none⟩⟩)
    · exact ⟨le_need, le_recons, Nat.le_succ_of_le le_sleeps,
        fun _ => Nat.le_succ_of_le (add_pending rfl)⟩
    · exact noted
    · cases none
  · exact ⟨List.forall_mem_nil _, Tallied.congr ⟨le_need, le_recons, le_sleeps, add_pending⟩ opened⟩

/-- The loop is entered with `cycles < need`, and one pass counts one cycle. -/
theorem Tallied.readPoints (tallied : Tallied need ⟨state, false⟩)
    (fewer : (state.cycles : ℤ) < need) (outcome : ReadOutcome) :
    (∀ point ∈ state.readPoints outcome, Tallied need point) ∧
      Tallied need ⟨state.readLine outcome, false⟩ := by
  have read := counters_readLine state outcome
  cases outcome with
  | silent => exact ⟨List.forall_mem_nil _, tallied⟩
  | raised now => exact ⟨List.forall_mem_nil _, tallied.congr read⟩
  | line text =>
      obtain ⟨le_need, le_recons, le_sleeps, add_pending⟩ := tallied
      rw [CaptureState.readMarks] at read
      rw [CaptureState.readPoints, CaptureState.linePoints]
      cases found : reRecon.search text with
      | none =>
          rw [found] at read
          exact ⟨List.forall_mem_nil _,
            Tallied.congr ⟨le_need, le_recons, le_sleeps, add_pending⟩ read⟩
      | some ms =>
          rw [found] at read
          have longer : (state.recons ++ [ms]).length = state.recons.length + 1 := by
            rw [List.length_append, List.length_singleton]
          have noted : Tallied need ⟨{ state with recons := state.recons ++ [ms] }, false⟩ :=
            ⟨le_need, longer ▸ Nat.le_succ_of_le le_recons, le_sleeps, add_pending⟩
          by_cases pending : state.pendingGap = true
          · have more : ((state.cycles + 1 : ℕ) : ℤ) ≤ max need 0 := by omega
            have slept : state.cycles + 1 ≤ state.deepSleeps := by
              have behind := add_pending rfl
              rwa [pending, Bool.toNat_true] at behind
            have counted : Tallied need ⟨{ state with
                recons := state.recons ++ [ms]
                cycles := state.cycles + 1
                pendingGap := false }, false⟩ :=
              ⟨more, longer ▸ Nat.succ_le_succ le_recons, slept, fun _ => slept⟩
            simp only [if_pos pending]
            refine ⟨?_, counted.congr (read.trans ?_)⟩
            · rintro point (_ | ⟨_, _ | ⟨_, _ | ⟨_, none⟩⟩⟩)
              · exact noted
              · exact ⟨more, longer ▸ Nat.succ_le_succ le_recons, slept, nofun⟩
              · exact counted
              · cases none
            · simp [CaptureState.counters, Counters.mark, pending]
          · simp only [if_neg pending]
            refine ⟨List.forall_mem_singleton.mpr noted, noted.congr (read.trans ?_)⟩
            simp [CaptureState.counters, Counters.mark, pending]

/-- The points of one pass. -/
theorem Tallied.passPoints (tallied : Tallied need ⟨state, false⟩)
    (fewer : (state.cycles : ℤ) < need) {after : CaptureState} {found : PortFound}
    (passed : state.pass found = some after) :
    ∀ point ∈ state.passPoints after found, Tallied need point := by
  cases found with
  | absent now outcome =>
      obtain ⟨-, rfl⟩ := CaptureState.pass_absent.mp passed
      have ended := tallied.congr (counters_portAbsent state now outcome)
      exact List.forall_mem_cons.mpr ⟨tallied, List.forall_mem_singleton.mpr ended⟩
  | refused now =>
      obtain ⟨-, rfl⟩ := CaptureState.pass_refused.mp passed
      have ended := tallied.congr (counters_notePortMissing state now)
      exact List.forall_mem_cons.mpr ⟨tallied, List.forall_mem_singleton.mpr ended⟩
  | opened now outcome =>
      obtain ⟨-, rfl⟩ := CaptureState.pass_opened.mp passed
      obtain ⟨opening, opened⟩ := tallied.openPoints now
      obtain ⟨reading, ended⟩ :=
        opened.readPoints ((state.portOpened_cycles now).symm ▸ fewer) outcome
      refine List.forall_mem_cons.mpr ⟨tallied, List.forall_mem_append.mpr ⟨opening, ?_⟩⟩
      exact List.forall_mem_cons.mpr ⟨opened, List.forall_mem_append.mpr
        ⟨reading, List.forall_mem_singleton.mpr ended⟩⟩
  | held outcome =>
      obtain ⟨-, rfl⟩ := CaptureState.pass_held.mp passed
      obtain ⟨reading, ended⟩ := tallied.readPoints fewer outcome
      exact List.forall_mem_cons.mpr ⟨tallied, List.forall_mem_append.mpr
        ⟨reading, List.forall_mem_singleton.mpr ended⟩⟩

/-- A pass ends at a point of it. -/
theorem after_mem_passPoints (after : CaptureState) (found : PortFound) :
    ⟨after, false⟩ ∈ state.passPoints after found := by
  cases found <;> simp [CaptureState.passPoints]

end

theorem tallied_invariant (c6 : Bool) (tEnd : ℚ) (need : ℤ) :
    (captureFor c6 tEnd need).Invariant fun state => Tallied need ⟨state, false⟩ where
  initial := ⟨le_max_right _ _, Nat.le_refl 0, Nat.le_refl 0, fun _ => Nat.le_refl 0⟩
  step before pass after tallied stepped := by
    obtain ⟨⟨-, fewer⟩, passed⟩ := step_captureFor.mp stepped
    exact tallied.passPoints fewer passed _ (after_mem_passPoints after pass.found)

theorem tallied_points {c6 : Bool} {tEnd : ℚ} {need : ℤ} {passes : List Pass} :
    ∀ point ∈ points c6 tEnd need passes, Tallied need point := by
  rw [points, List.forall_mem_cons]
  refine ⟨(tallied_invariant c6 tEnd need).initial, fun point member => ?_⟩
  obtain ⟨taken, inRun, here⟩ := List.mem_flatMap.mp member
  obtain ⟨before, stepped⟩ := (tallied_invariant c6 tEnd need).transitions inRun
  obtain ⟨⟨-, fewer⟩, passed⟩ := step_captureFor.mp stepped
  exact before.passPoints fewer passed point here

/-- The mark at `sleep` is a sleep before the `i`th mark and after the cycles counted
before that one. -/
structure OwnSleep (marks : List Mark) (i sleep : ℕ) : Prop where
  before : sleep < i
  slept : marks[sleep]? = some Mark.slept
  behind : ∀ cycle < i, marks[cycle]? = some (Mark.reconnected true) → cycle < sleep

/-- A sleep has been noted since the last cycle that was counted before the `i`th mark. -/
def SleptSince (marks : List Mark) (i : ℕ) : Prop :=
  ∃ sleep, OwnSleep marks i sleep

/-- No cycle is counted before the `i`th mark. -/
def NoneCounted (marks : List Mark) (i : ℕ) : Prop :=
  ∀ cycle < i, marks[cycle]? ≠ some (Mark.reconnected true)

theorem noneCounted_cons {mark : Mark} {marks : List Mark} {i : ℕ} :
    NoneCounted (mark :: marks) (i + 1) ↔ mark ≠ .reconnected true ∧ NoneCounted marks i := by
  constructor
  · intro none
    exact ⟨fun first => none 0 i.succ_pos (congrArg some first),
      fun cycle before => none (cycle + 1) (Nat.succ_lt_succ before)⟩
  · rintro ⟨first, rest⟩ (_ | cycle) before
    · exact fun same => first (Option.some.inj same)
    · exact rest cycle (Nat.lt_of_succ_lt_succ before)

theorem sleptSince_cons {mark : Mark} {marks : List Mark} {i : ℕ} :
    SleptSince (mark :: marks) (i + 1) ↔
      SleptSince marks i ∨ mark = .slept ∧ NoneCounted marks i := by
  constructor
  · rintro ⟨_ | sleep, before, slept, behind⟩
    · refine .inr ⟨Option.some.inj slept, fun cycle within counted => ?_⟩
      exact Nat.not_lt_zero _ (behind (cycle + 1) (Nat.succ_lt_succ within) counted)
    · refine .inl ⟨sleep, Nat.lt_of_succ_lt_succ before, slept, fun cycle within counted => ?_⟩
      exact Nat.lt_of_succ_lt_succ (behind (cycle + 1) (Nat.succ_lt_succ within) counted)
  · rintro (⟨sleep, before, slept, behind⟩ | ⟨rfl, none⟩)
    · refine ⟨sleep + 1, Nat.succ_lt_succ before, slept, ?_⟩
      rintro (_ | cycle) within counted
      · exact sleep.succ_pos
      · exact Nat.succ_lt_succ (behind cycle (Nat.lt_of_succ_lt_succ within) counted)
    · refine ⟨0, i.succ_pos, rfl, ?_⟩
      rintro (_ | cycle) within counted
      · cases counted
      · exact absurd counted (none cycle (Nat.lt_of_succ_lt_succ within))

/-- A reconnect is counted when a sleep is pending. -/
def Honest : Bool → List Mark → Prop
  | _, [] => True
  | _, .slept :: rest => Honest true rest
  | pending, .reconnected counted :: rest => counted = pending ∧ Honest false rest

/-- A counted reconnect takes the last sleep before it, which no other has taken. -/
theorem Honest.counted_iff {pending : Bool} {marks : List Mark} (honest : Honest pending marks)
    {i : ℕ} {counted : Bool} (here : marks[i]? = some (.reconnected counted)) :
    counted = true ↔ SleptSince marks i ∨ pending = true ∧ NoneCounted marks i := by
  induction marks generalizing pending i with
  | nil => cases here
  | cons mark marks ih =>
      cases i with
      | zero =>
          cases Option.some.inj here
          obtain ⟨rfl, -⟩ := honest
          have noSleep : ¬ SleptSince (.reconnected counted :: marks) 0 :=
            fun ⟨_, own⟩ => Nat.not_lt_zero _ own.before
          have none : NoneCounted (.reconnected counted :: marks) 0 :=
            fun _ before => absurd before (Nat.not_lt_zero _)
          simp only [noSleep, none, and_true, false_or]
      | succ i =>
          rw [List.getElem?_cons_succ] at here
          rw [sleptSince_cons, noneCounted_cons]
          cases mark with
          | slept =>
              rw [ih honest here]
              simp only [true_and, ne_eq, reduceCtorEq, not_false_eq_true]
              tauto
          | reconnected earlier =>
              obtain ⟨rfl, rest⟩ := honest
              rw [ih rest here]
              cases earlier <;>
                simp only [reduceCtorEq, Bool.false_eq_true, false_and, or_false, ne_eq,
                  not_true_eq_false, and_false]

theorem honest_append {counters : Counters} {front back : List Mark}
    (early : Honest counters.pending front)
    (late : Honest (front.foldl Counters.mark counters).pending back) :
    Honest counters.pending (front ++ back) := by
  induction front generalizing counters with
  | nil => exact late
  | cons mark front ih =>
      cases mark with
      | slept => exact ih early late
      | reconnected counted =>
          obtain ⟨same, rest⟩ := early
          have taken : (counters.mark (.reconnected counted)).pending = false := by
            rw [Counters.mark, same, Bool.and_not_self]
          refine ⟨same, ?_⟩
          rw [← taken] at rest ⊢
          exact ih rest late

section

variable {state : CaptureState}

theorem honest_openMarks (now : ℚ) : Honest state.pendingGap (state.openMarks now) := by
  rw [CaptureState.openMarks]
  split_ifs <;> exact trivial

theorem honest_readMarks (outcome : ReadOutcome) :
    Honest state.pendingGap (state.readMarks outcome) := by
  cases outcome with
  | line text =>
      rw [CaptureState.readMarks]
      split_ifs
      · exact ⟨rfl, trivial⟩
      · exact trivial
  | silent => exact trivial
  | raised now => exact trivial

theorem honest_passMarks (found : PortFound) : Honest state.pendingGap (state.passMarks found) := by
  cases found with
  | absent now outcome => exact trivial
  | refused now => exact trivial
  | opened now outcome =>
      have opened := congrArg Counters.pending (counters_portOpened state now)
      have read : Honest (state.portOpened now).counters.pending _ := honest_readMarks outcome
      rw [opened] at read
      exact honest_append (honest_openMarks now) read
  | held outcome => exact honest_readMarks outcome

end

section

variable {c6 : Bool} {tEnd : ℚ} {need : ℤ}

theorem marksFrom_cons {state next : CaptureState} {pass : Pass} {passes : List Pass}
    (stepped : (captureFor c6 tEnd need).step state pass = some next) :
    marksFrom c6 tEnd need state (pass :: passes) =
      state.passMarks pass.found ++ marksFrom c6 tEnd need next passes := by
  simp only [marksFrom, Machine.transitionsFrom, stepped, List.flatMap_cons]

/-- The marks of a run are honest. -/
theorem honest_marksFrom (state : CaptureState) (passes : List Pass) :
    Honest state.pendingGap (marksFrom c6 tEnd need state passes) := by
  induction passes generalizing state with
  | nil => exact trivial
  | cons pass passes ih =>
      cases stepped : (captureFor c6 tEnd need).step state pass with
      | none =>
          simp only [marksFrom, Machine.transitionsFrom, stepped]
          exact trivial
      | some next =>
          have counted := counters_pass (step_captureFor.mp stepped).2
          rw [marksFrom_cons stepped]
          refine @honest_append state.counters _ _ (honest_passMarks pass.found) ?_
          rw [← counted]
          exact ih next

/-- The marks of a run add up to its counters. -/
theorem counters_runFrom {state final : CaptureState} {passes : List Pass}
    (reached : (captureFor c6 tEnd need).runFrom state passes = some final) :
    final.counters = (marksFrom c6 tEnd need state passes).foldl Counters.mark state.counters := by
  induction passes generalizing state with
  | nil =>
      cases reached
      rfl
  | cons pass passes ih =>
      obtain ⟨next, stepped, later⟩ := Option.bind_eq_some_iff.mp reached
      rw [ih later, marksFrom_cons stepped, List.foldl_append,
        counters_pass (step_captureFor.mp stepped).2]

end

/-- The counters are the numbers of the marks. -/
theorem foldl_mark (marks : List Mark) (counters : Counters) :
    (marks.foldl Counters.mark counters).recons = counters.recons + marks.countP Mark.isReconnect ∧
    (marks.foldl Counters.mark counters).deepSleeps = counters.deepSleeps + marks.count .slept ∧
    (marks.foldl Counters.mark counters).cycles =
      counters.cycles + marks.count (.reconnected true) := by
  induction marks generalizing counters with
  | nil => exact ⟨rfl, rfl, rfl⟩
  | cons mark marks ih =>
      obtain ⟨recons, deepSleeps, cycles⟩ := ih (counters.mark mark)
      rw [List.foldl_cons, recons, deepSleeps, cycles]
      cases mark with
      | slept => simp [Counters.mark, Mark.isReconnect, Nat.add_assoc, Nat.add_comm 1]
      | reconnected counted =>
          cases counted <;>
            simp [Counters.mark, Mark.isReconnect, List.countP_cons, Nat.add_assoc, Nat.add_comm 1]

/-- What the counting of a run comes to. -/
structure CyclesCounted (c6 : Bool) (tEnd : ℚ) (need : ℤ) (passes : List Pass) : Prop where
  tallied : ∀ point ∈ points c6 tEnd need passes, Tallied need point
  /-- The marks are the sleeps, the reconnects and the cycles of the counters. -/
  totals : ∀ final, (captureFor c6 tEnd need).run passes = some final →
    final.recons.length = (marks c6 tEnd need passes).countP Mark.isReconnect ∧
      final.deepSleeps = (marks c6 tEnd need passes).count .slept ∧
      final.cycles = (marks c6 tEnd need passes).count (.reconnected true)
  /-- Each cycle has its own sleep, after the cycle before it and before its reconnect. -/
  matched : ∃ sleepOf : ℕ → ℕ,
    (∀ i, (marks c6 tEnd need passes)[i]? = some (Mark.reconnected true) →
      OwnSleep (marks c6 tEnd need passes) i (sleepOf i)) ∧
    Set.InjOn sleepOf {i | (marks c6 tEnd need passes)[i]? = some (Mark.reconnected true)}
  /-- A reconnect adds a cycle only with a sleep since the last one. -/
  idle : ∀ i counted, (marks c6 tEnd need passes)[i]? = some (Mark.reconnected counted) →
    ¬ SleptSince (marks c6 tEnd need passes) i → counted = false

theorem cycles_counted (c6 : Bool) (tEnd : ℚ) (need : ℤ) (passes : List Pass) :
    CyclesCounted c6 tEnd need passes := by
  have honest : Honest false (marks c6 tEnd need passes) :=
    honest_marksFrom (captureFor c6 tEnd need).initial passes
  have counted_iff {i : ℕ} {counted : Bool}
      (here : (marks c6 tEnd need passes)[i]? = some (Mark.reconnected counted)) :
      counted = true ↔ SleptSince (marks c6 tEnd need passes) i := by
    rw [honest.counted_iff here]
    simp only [Bool.false_eq_true, false_and, or_false]
  have sleeps : ∀ i, (marks c6 tEnd need passes)[i]? = some (Mark.reconnected true) →
      ∃ sleep, OwnSleep (marks c6 tEnd need passes) i sleep :=
    fun i here => (counted_iff here).mp rfl
  choose! sleepOf own using sleeps
  refine ⟨tallied_points, ?_, ⟨sleepOf, own, ?_⟩, ?_⟩
  · intro final reached
    obtain ⟨recons, deepSleeps, cycles⟩ :=
      foldl_mark (marks c6 tEnd need passes) (captureFor c6 tEnd need).initial.counters
    have totals := counters_runFrom reached
    rw [← marks] at totals
    rw [← totals] at recons deepSleeps cycles
    exact ⟨recons.trans (Nat.zero_add _), deepSleeps.trans (Nat.zero_add _),
      cycles.trans (Nat.zero_add _)⟩
  · intro i first i' second same
    rcases Nat.lt_trichotomy i i' with before | rfl | before
    · have apart := (own i' second).behind i before first
      rw [← same] at apart
      exact absurd (own i first).before apart.asymm
    · rfl
    · have apart := (own i first).behind i' before second
      rw [same] at apart
      exact absurd (own i' second).before apart.asymm
  · intro i counted here none
    exact Bool.eq_false_iff.mpr fun isCounted => none ((counted_iff here).mp isCounted)

/-- The board logs that it sleeps, and reconnects when its port is back. -/
def sleepAndReturn : List Pass :=
  [⟨0, .opened 0 (.line "DEEP SLEEP\r\n".toList)⟩, ⟨1, .held (.raised 1)⟩,
    ⟨5, .opened 5 (.line "RECONNECTED in 812 ms\r\n".toList)⟩]

/-- A negative number of cycles is exceeded from the start, and between the two
assignments that count a cycle the sleep is counted and still pending. -/
theorem counting_overshoots :
    (¬ ∀ need passes, ∀ point ∈ points true 100 need passes, (point.vars.cycles : ℤ) ≤ need) ∧
    ¬ ∀ need passes, ∀ point ∈ points true 100 need passes,
      point.vars.cycles + point.vars.pendingGap.toNat ≤ point.vars.deepSleeps := by
  constructor
  · intro always
    exact absurd (always (-1) [] _ List.mem_cons_self) (by decide)
  · intro always
    have counting : ∃ point ∈ points true 100 1 sleepAndReturn,
        ¬ point.vars.cycles + point.vars.pendingGap.toNat ≤ point.vars.deepSleeps := by
      decide +kernel
    obtain ⟨point, member, exceeds⟩ := counting
    exact exceeds (always 1 sleepAndReturn point member)

end Rimba.Regtest.Dscycle
