import Mathlib.Data.Rat.Defs
import Rimba.Foundation.OrderedDict

/-! # Results and the reporter that writes them to a baseline

`Result` and `Reporter` of the harness's `common` module. A reporter collects
one run's results and rewrites the tier's baseline file after each of them;
with `--append` it carries forward the results of the baseline before it. The
meta data of a result is a parameter: nothing here looks at it.
-/

namespace Rimba.Regtest

/-- The statuses of a result. -/
inductive Status where
  | pass
  | fail
  | skip
  | inconclusive
  | xfail
  | xpass
  deriving DecidableEq, Repr

/-- A status as it is written. -/
def Status.text : Status → String
  | .pass => "PASS"
  | .fail => "FAIL"
  | .skip => "SKIP"
  | .inconclusive => "INCONCLUSIVE"
  | .xfail => "XFAIL"
  | .xpass => "XPASS"

/-- One recorded result. -/
structure Result (Meta : Type*) where
  tier : String
  name : String
  status : Status
  detail : String
  durationS : ℚ
  evidence : String
  info : Meta
  deriving DecidableEq

/-- What a baseline file records of the run that wrote it. -/
structure Baseline (Meta : Type*) where
  tier : String
  complete : Bool
  counts : Status → ℕ
  results : List (Result Meta)

/-- The collected results of a run, the results it was seeded with, and whether
it reached its end. -/
structure Reporter (Meta : Type*) where
  tier : String
  persist : Bool
  complete : Bool
  results : List (Result Meta)
  seed : Foundation.OrderedDict String (Result Meta)

namespace Reporter

variable {Meta : Type*}

/-- `Reporter(tier, persist)` -/
def new (tier : String) (persist : Bool) : Reporter Meta := ⟨tier, persist, false, [], .empty⟩

/-- `seed_from`: the last named result of each name. -/
def seedFrom (reporter : Reporter Meta) (prior : List (Result Meta)) : Reporter Meta :=
  { reporter with
    seed := prior.foldl (fun seed pr => if pr.name = "" then seed else seed.set pr.name pr)
      reporter.seed }

/-- What `add` does to the reporter, before it writes. -/
def collect (reporter : Reporter Meta) (r : Result Meta) : Reporter Meta :=
  { reporter with results := reporter.results ++ [r], seed := reporter.seed.erase r.name }

/-- `_merged`: this run's results, then the seeded ones not superseded. -/
def merged (reporter : Reporter Meta) : List (Result Meta) :=
  reporter.results ++ reporter.seed.values

def counts (reporter : Reporter Meta) (status : Status) : ℕ :=
  reporter.merged.countP fun r => r.status = status

/-- Only failures and unexpected passes gate. -/
def green (reporter : Reporter Meta) : Bool :=
  reporter.counts .fail = 0 && reporter.counts .xpass = 0

/-- What `write` puts in the baseline file. -/
def write (reporter : Reporter Meta) : Baseline Meta :=
  ⟨reporter.tier, reporter.complete, reporter.counts, reporter.merged⟩

/-- `finalize`: the reporter marked complete; its caller then writes it. -/
def finalize (reporter : Reporter Meta) : Reporter Meta := { reporter with complete := true }

variable {reporter : Reporter Meta} {r : Result Meta}

@[simp] theorem collect_complete : (reporter.collect r).complete = reporter.complete := rfl

@[simp] theorem seedFrom_complete (prior : List (Result Meta)) :
    (reporter.seedFrom prior).complete = reporter.complete := rfl

@[simp] theorem seedFrom_results (prior : List (Result Meta)) :
    (reporter.seedFrom prior).results = reporter.results := rfl

/-- What a reporter is seeded with comes from the prior results. -/
theorem mem_seedFrom {prior : List (Result Meta)}
    (member : r ∈ (reporter.seedFrom prior).seed.values) :
    r ∈ reporter.seed.values ∨ r ∈ prior := by
  unfold seedFrom at member
  generalize reporter.seed = seed at member ⊢
  induction prior generalizing seed with
  | nil => exact .inl member
  | cons pr prior ih =>
      rcases ih _ member with early | late
      · by_cases unnamed : pr.name = ""
        · simp only [unnamed, ↓reduceIte] at early
          exact .inl early
        · simp only [unnamed, ↓reduceIte] at early
          rcases Foundation.OrderedDict.mem_values_set early with rfl | before
          · exact .inr List.mem_cons_self
          · exact .inl before
      · exact .inr (List.mem_cons_of_mem _ late)

/-- Seeded results are kept under their own names. -/
def Keyed (reporter : Reporter Meta) : Prop :=
  ∀ entry ∈ reporter.seed.entries, entry.2.name = entry.1

theorem keyed_seedFrom (keyed : reporter.Keyed) (prior : List (Result Meta)) :
    (reporter.seedFrom prior).Keyed := by
  unfold Keyed seedFrom at *
  generalize reporter.seed = seed at keyed ⊢
  induction prior generalizing seed with
  | nil => exact keyed
  | cons pr prior ih =>
      apply ih
      by_cases unnamed : pr.name = ""
      · simp only [unnamed, ↓reduceIte]
        exact keyed
      · simp only [unnamed, ↓reduceIte]
        rintro ⟨key, held⟩ member
        rcases Foundation.OrderedDict.mem_set_iff.mp member with ⟨rfl, rfl⟩ | ⟨-, before⟩
        · rfl
        · exact keyed _ before

theorem Keyed.collect (keyed : reporter.Keyed) : (reporter.collect r).Keyed := by
  rintro ⟨key, held⟩ member
  exact keyed _ (Foundation.OrderedDict.mem_erase_iff.mp member).2

/-- What a run starts with is kept under its own names. -/
theorem keyed_start (tier : String) (persist : Bool) (prior : List (Result Meta)) :
    ((Reporter.new tier persist).seedFrom prior).Keyed := by
  apply keyed_seedFrom
  intro entry member
  cases member

/-- A seeded result is replaced by one of its own name only. -/
theorem Keyed.mem_merged_collect (keyed : reporter.Keyed) {old : Result Meta}
    (member : old ∈ reporter.merged) :
    old ∈ (reporter.collect r).merged ∨ old.name = r.name := by
  rcases List.mem_append.mp member with own | seeded
  · exact .inl (List.mem_append_left _ (List.mem_append_left _ own))
  · obtain ⟨⟨key, held⟩, inside, rfl⟩ := List.mem_map.mp seeded
    by_cases same : key = r.name
    · exact .inr ((keyed _ inside).trans same)
    · exact .inl (List.mem_append_right _
        (List.mem_map_of_mem (Foundation.OrderedDict.mem_erase_iff.mpr ⟨same, inside⟩)))

end Reporter

end Rimba.Regtest
