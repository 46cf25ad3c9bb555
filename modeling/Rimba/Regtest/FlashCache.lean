import Mathlib.Data.Finmap
import Rimba.Foundation.Machine

/-! # The build configuration a flash inherits

`_flash` of the T2 tier keeps two files of a build directory in step: the
`CMakeCache.txt` that accumulates every `-D` a make is given, and a stamp of the
variables the last successful flash asked for. They are written at different
times, and a make can fail between them. Over any calls on a directory that
starts without a stamp, the cache a make finds was configured with exactly the
variables it is given (`Rimba.Regtest.flash_configures_exactly`).
-/

namespace Rimba.Regtest

/-- The build variables of a flash, one `-D` each. -/
abbrev MakeVars := Finmap fun _ : String => String

/-- What reading `.regtest_build_config` back gives: the variables it was
written from, or nothing usable when the write was cut short. -/
inductive Stamp where
  | config (vars : MakeVars)
  | unreadable
  deriving DecidableEq

/-- The two files of `build/<app>/<board>/`. -/
structure BuildDir where
  cache : Option MakeVars
  stamp : Option Stamp
  deriving DecidableEq

/-- What a make run does to the build. -/
inductive MakeOutcome where
  | flashed
  | failedUnconfigured
  | failedReconfigured
  deriving DecidableEq

/-- How the stamp write of a successful flash ends. -/
inductive StampWrite where
  | written
  | refused
  | cut
  deriving DecidableEq

/-- One call of `_flash`, with what its make and its stamp write do. -/
structure FlashCall where
  want : MakeVars
  outcome : MakeOutcome
  write : StampWrite

/-- A reconfigure merges the variables it is given into the cache it finds. -/
def reconfigured (cache : Option MakeVars) (want : MakeVars) : MakeVars :=
  cache.elim want fun found => want ∪ found

/-- The cache a make run leaves. -/
def MakeOutcome.leaves (outcome : MakeOutcome) (cache : Option MakeVars) (want : MakeVars) :
    Option MakeVars :=
  match outcome with
  | .flashed | .failedReconfigured => some (reconfigured cache want)
  | .failedUnconfigured => cache

/-- The configuration the stamp vouches for: `have`. -/
def BuildDir.haveVars (dir : BuildDir) : Option MakeVars :=
  dir.stamp.bind fun
    | .config vars => some vars
    | .unreadable => none

/-- `_flash` up to its make: both files go when the configuration changed. -/
def BuildDir.reset (dir : BuildDir) (want : MakeVars) : BuildDir :=
  if dir.cache.isSome && dir.haveVars ≠ some want then ⟨none, none⟩ else dir

/-- `_flash`: reset, make, and stamp what was asked for when the make succeeds. -/
def BuildDir.flash (dir : BuildDir) (call : FlashCall) : BuildDir :=
  let ready := dir.reset call.want
  { cache := call.outcome.leaves ready.cache call.want
    stamp :=
      match call.outcome, call.write with
      | .flashed, .written => some (.config call.want)
      | .flashed, .cut => some .unreadable
      | _, _ => ready.stamp }

/-- Calls on one build directory, from any cache and no stamp. -/
def flashMachine (cache : Option MakeVars) : Foundation.Machine BuildDir FlashCall where
  initial := ⟨cache, none⟩
  step dir call := some (dir.flash call)

/-- A stamp that reads back as a configuration stands beside a cache configured
with exactly that. -/
def BuildDir.Vouched (dir : BuildDir) : Prop :=
  ∀ vars, dir.stamp = some (.config vars) → dir.cache = some vars

theorem haveVars_eq_some {dir : BuildDir} {vars : MakeVars} :
    dir.haveVars = some vars ↔ dir.stamp = some (.config vars) := by
  simp only [BuildDir.haveVars, Option.bind_eq_some_iff]
  constructor
  · rintro ⟨stamp, stamped, read⟩
    cases stamp with
    | config found => exact stamped.trans (congrArg (fun v => some (Stamp.config v))
        (Option.some.inj read))
    | unreadable => cases read
  · exact fun stamped => ⟨_, stamped, rfl⟩

/-- A make given the configuration its cache has leaves the cache alone. -/
theorem reconfigured_self {cache : Option MakeVars} {want : MakeVars}
    (same : ∀ found ∈ cache, found = want) : reconfigured cache want = want := by
  cases cache with
  | none => rfl
  | some found =>
      cases same found rfl
      refine Finmap.ext_lookup fun name => ?_
      by_cases given : name ∈ want
      · exact Finmap.lookup_union_left given
      · exact Finmap.lookup_union_right given

namespace BuildDir.Vouched

variable {dir : BuildDir}

/-- Whatever cache survives the reset was configured with what is wanted. -/
theorem reset_cache (vouched : dir.Vouched) (want : MakeVars) :
    ∀ found ∈ (dir.reset want).cache, found = want := by
  intro found member
  unfold BuildDir.reset at member
  by_cases changed : (dir.cache.isSome && dir.haveVars ≠ some want) = true
  · simp only [changed, ↓reduceIte, Option.mem_def, reduceCtorEq] at member
  · simp only [changed, Bool.false_eq_true, ↓reduceIte, Option.mem_def] at member
    simp only [member, Option.isSome_some, Bool.true_and, decide_eq_true_eq, ne_eq,
      not_not] at changed
    exact Option.some.inj (member.symm.trans (vouched want (haveVars_eq_some.mp changed)))

theorem reset (vouched : dir.Vouched) (want : MakeVars) : (dir.reset want).Vouched := by
  intro vars stamped
  unfold BuildDir.reset at stamped ⊢
  by_cases changed : (dir.cache.isSome && dir.haveVars ≠ some want) = true
  · simp only [changed, ↓reduceIte, reduceCtorEq] at stamped
  · simp only [changed, Bool.false_eq_true, ↓reduceIte] at stamped ⊢
    exact vouched vars stamped

theorem flash (vouched : dir.Vouched) (call : FlashCall) : (dir.flash call).Vouched := by
  obtain ⟨want, outcome, write⟩ := call
  have configured := reconfigured_self (vouched.reset_cache want)
  have kept := vouched.reset want
  -- a stamp left from before the make stands beside a cache holding `want` already
  have survives : ∀ vars, (dir.reset want).stamp = some (.config vars) →
      some (reconfigured (dir.reset want).cache want) = some vars := by
    intro vars stamped
    rw [configured, vouched.reset_cache want vars (kept vars stamped)]
  intro vars stamped
  cases outcome with
  | flashed =>
      cases write with
      | written =>
          cases Option.some.inj stamped
          exact congrArg some configured
      | refused => exact survives vars stamped
      | cut => cases Option.some.inj stamped
  | failedUnconfigured => exact kept vars stamped
  | failedReconfigured => exact survives vars stamped

end BuildDir.Vouched

theorem vouched_invariant (cache : Option MakeVars) :
    (flashMachine cache).Invariant BuildDir.Vouched where
  initial _ stamped := by cases stamped
  step dir call after vouched stepped := by
    cases Option.some.inj stepped
    exact vouched.flash call

/-- **No variable of an earlier configuration reaches a flash.** In any calls
of `_flash`, whatever their makes and stamp writes do, a cache present when make
is invoked was configured with exactly the variables make is given, and a
successful flash leaves a cache configured with exactly those. -/
theorem flash_configures_exactly {cache : Option MakeVars} {calls : List FlashCall}
    {taken : Foundation.Transition BuildDir FlashCall}
    (member : taken ∈ (flashMachine cache).transitions calls) :
    (∀ found ∈ (taken.before.reset taken.label.want).cache, found = taken.label.want) ∧
      (taken.label.outcome = .flashed → taken.after.cache = some taken.label.want) := by
  obtain ⟨vouched, stepped⟩ := (vouched_invariant cache).transitions member
  have exactly := vouched.reset_cache taken.label.want
  refine ⟨exactly, fun flashed => ?_⟩
  rw [← Option.some.inj stepped]
  simp only [BuildDir.flash, flashed, MakeOutcome.leaves, reconfigured_self exactly]

/-- A flash after one that changed the configuration and failed late. -/
def afterLateFailure : Foundation.Transition BuildDir FlashCall where
  before := ⟨some (Finmap.singleton "NO_PING" "1"), none⟩
  label := ⟨∅, .flashed, .written⟩
  after := ⟨some ∅, some (.config ∅)⟩

theorem flash_after_late_failure :
    (afterLateFailure.before.reset ∅).cache = none ∧ afterLateFailure.after.cache = some ∅ := by
  have member : afterLateFailure ∈ (flashMachine none).transitions
      [⟨∅, .flashed, .written⟩, ⟨Finmap.singleton "NO_PING" "1", .failedReconfigured, .written⟩,
        ⟨∅, .flashed, .written⟩] := List.mem_of_getLast? rfl
  exact ⟨rfl, (flash_configures_exactly member).2 rfl⟩

end Rimba.Regtest
