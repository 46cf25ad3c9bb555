import Rimba.Foundation.OrderedDict
import Rimba.Regtest.Ledger

/-! # The flake ledger

`summarize`, `flakes` and `broken` of the harness's `ledger` module: the records of a
history are gathered by test, and each test is flaky, broken or neither by the
statuses it has been recorded with. Which it is depends on what has been recorded and
not on when (`Rimba.Regtest.Ledger.flakes_classified`).
-/

namespace Rimba.Regtest.Ledger

open Foundation (Json OrderedDict textOf)

/-- What `summarize` reads of a record; a record can be without a name and without a
tier, and what else is missing is empty. -/
structure HistoryRecord where
  name : Option String
  tier : Option String
  ts : String
  git : String
  status : String
  runId : String
  halowGitlink : String
  deriving DecidableEq

/-- A record as it is loaded. -/
def HistoryRecord.ofJson (rec : Json) : HistoryRecord :=
  let get (key : String) : Option String := (textOf key rec).map String.ofList
  { name := get "name"
    tier := get "tier"
    ts := (get "ts").getD ""
    git := (get "git").getD ""
    status := (get "status").getD ""
    runId := (get "run_id").getD ""
    halowGitlink := (get "halow_gitlink").getD "" }

/-- What is read back of a record `append_result` has made. -/
theorem ofJson_record (call : Call) : HistoryRecord.ofJson call.record =
    { name := some call.result.name
      tier := some call.tier
      ts := call.ts
      git := call.git
      status := call.result.status.text
      runId := call.runId
      halowGitlink := call.halowGitlink } := by
  have read : ∀ text : String, some (String.ofList text.toList) = some text :=
    fun text => congrArg some String.ofList_toList
  simp only [HistoryRecord.ofJson, textOf, Call.record]
  refine (HistoryRecord.mk.injEq ..).mpr ⟨read _, read _, ?_, ?_, ?_, ?_, ?_⟩ <;>
    exact String.ofList_toList

/-- `_GOOD` -/
def goodStatuses : List String := ["PASS", "XFAIL"]

/-- `_BAD` -/
def badStatuses : List String := ["FAIL", "INCONCLUSIVE", "XPASS"]

/-- One entry of `runs`. -/
structure RecordedRun where
  ts : String
  git : String
  status : String
  runId : String
  halowGitlink : String
  deriving DecidableEq

/-- The run of a record. -/
def HistoryRecord.run (rec : HistoryRecord) : RecordedRun :=
  ⟨rec.ts, rec.git, rec.status, rec.runId, rec.halowGitlink⟩

/-- What the first loop of `summarize` keeps of a test. -/
structure TestHistory where
  tier : String
  total : ℕ
  byStatus : OrderedDict String ℕ
  runs : List RecordedRun

/-- What `summarize` says of a test. -/
structure TestSummary extends TestHistory where
  good : ℕ
  bad : ℕ
  flaky : Bool
  broken : Bool
  sameCodeFlake : Bool
  lastStatus : String
  recent : List String

/-- A test behind one more of its records. -/
def TestHistory.note (t : TestHistory) (rec : HistoryRecord) : TestHistory where
  tier := rec.tier.getD t.tier
  total := t.total + 1
  byStatus := t.byStatus.tally [rec.status]
  runs := t.runs ++ [rec.run]

/-- A test before its first record. -/
def TestHistory.start (rec : HistoryRecord) : TestHistory := ⟨rec.tier.getD "", 0, .empty, []⟩

/-- The body of the first loop; a record without a name is passed over. -/
def noteRecord (tests : OrderedDict String TestHistory) (rec : HistoryRecord) :
    OrderedDict String TestHistory :=
  match rec.name with
  | none => tests
  | some name =>
      if name = "" then tests
      else tests.set name (((tests.get? name).getD (.start rec)).note rec)

/-- `good_code` and `bad_code`: the code of the runs with one of the statuses. -/
def TestHistory.code (t : TestHistory) (statuses : List String) : List (String × String) :=
  (t.runs.filter fun run => run.status ∈ statuses).map fun run => (run.git, run.halowGitlink)

/-- How many of the records have one of the statuses. -/
def TestHistory.withStatus (t : TestHistory) (statuses : List String) : ℕ :=
  ((t.byStatus.entries.filter fun entry => entry.1 ∈ statuses).map Prod.snd).sum

/-- The body of the second loop of `summarize`. -/
def TestHistory.summary (t : TestHistory) : TestSummary :=
  let good := t.withStatus goodStatuses
  let bad := t.withStatus badStatuses
  let flaky : Bool := 0 < good && 0 < bad
  { t with
    good
    bad
    flaky
    broken := 0 < bad && good = 0
    sameCodeFlake := flaky && (t.code goodStatuses).any fun code => code ∈ t.code badStatuses
    lastStatus := (t.runs.getLast?.map RecordedRun.status).getD ""
    recent := (t.runs.drop (t.runs.length - 6)).map RecordedRun.status }

/-- `summarize` -/
def summarize (history : List HistoryRecord) : OrderedDict String TestSummary :=
  (history.foldl noteRecord .empty).mapValues TestHistory.summary

/-- `flakes` -/
def flakes (history : List HistoryRecord) : OrderedDict String TestSummary :=
  (summarize history).filterValues TestSummary.flaky

/-- `broken` -/
def broken (history : List HistoryRecord) : OrderedDict String TestSummary :=
  (summarize history).filterValues TestSummary.broken

/-- Some record of a test has one of the statuses. -/
def Recorded (history : List HistoryRecord) (name : String) (statuses : List String) : Prop :=
  ∃ rec ∈ history, rec.name = some name ∧ rec.status ∈ statuses

/-- A good and a bad record of a test share both the revision and the gitlink. -/
def RecordedAtOneCode (history : List HistoryRecord) (name : String) : Prop :=
  ∃ good ∈ history, ∃ bad ∈ history, (good.name = some name ∧ good.status ∈ goodStatuses) ∧
    (bad.name = some name ∧ bad.status ∈ badStatuses) ∧
    good.git = bad.git ∧ good.halowGitlink = bad.halowGitlink

/-- The flags of a test are what its records say. -/
structure Classified (history : List HistoryRecord) (name : String) (t : TestSummary) : Prop where
  flaky : t.flaky = true ↔
    Recorded history name goodStatuses ∧ Recorded history name badStatuses
  broken : t.broken = true ↔
    Recorded history name badStatuses ∧ ¬ Recorded history name goodStatuses
  sameCodeFlake : t.sameCodeFlake = true ↔ RecordedAtOneCode history name

/-- The records of a test, in order. -/
def recordsOf (history : List HistoryRecord) (name : String) : List HistoryRecord :=
  history.filter fun rec => rec.name = some name

/-- What is kept of a test are its records. -/
structure Gathers (records : List HistoryRecord) (t : TestHistory) : Prop where
  byStatus : t.byStatus = OrderedDict.empty.tally (records.map HistoryRecord.status)
  runs : t.runs = records.map HistoryRecord.run

theorem Gathers.note {records : List HistoryRecord} {t : TestHistory} (gathers : Gathers records t)
    (rec : HistoryRecord) : Gathers (records ++ [rec]) (t.note rec) where
  byStatus := by
    rw [TestHistory.note, gathers.byStatus, List.map_append, OrderedDict.tally, OrderedDict.tally,
      OrderedDict.tally, List.foldl_append]
    rfl
  runs := by
    rw [TestHistory.note, gathers.runs, List.map_append]
    rfl

theorem recordsOf_concat (history : List HistoryRecord) (rec : HistoryRecord) (name : String) :
    recordsOf (history ++ [rec]) name =
      recordsOf history name ++ if rec.name = some name then [rec] else [] := by
  rw [recordsOf, List.filter_append, recordsOf]
  by_cases same : rec.name = some name
  · simp only [same, decide_true, List.filter_cons_of_pos, List.filter_nil, ↓reduceIte]
  · simp only [same, decide_false, Bool.false_eq_true, not_false_eq_true, List.filter_cons_of_neg,
      List.filter_nil, ↓reduceIte]

theorem Gathers.start (rec : HistoryRecord) : Gathers [] (.start rec) := ⟨rfl, rfl⟩

/-- The first loop keeps, of every named test with a record, all of its records. -/
theorem get?_noteRecord (history : List HistoryRecord) {name : String} (named : name ≠ "") :
    ((history.foldl noteRecord .empty).get? name = none → recordsOf history name = []) ∧
    ∀ t, (history.foldl noteRecord .empty).get? name = some t →
      recordsOf history name ≠ [] ∧ Gathers (recordsOf history name) t := by
  induction history using List.reverseRecOn with
  | nil => exact ⟨fun _ => rfl, fun t kept => nomatch kept⟩
  | append_singleton history rec ih =>
      rw [List.foldl_concat, recordsOf_concat, noteRecord]
      cases called : rec.name with
      | none => simpa only [reduceCtorEq, ↓reduceIte, List.append_nil] using ih
      | some other =>
          by_cases unnamed : other = ""
          · have different : other ≠ name := fun same => named (same ▸ unnamed)
            simpa only [unnamed, ↓reduceIte, Option.some.injEq, named.symm, List.append_nil]
              using ih
          · simp only [unnamed, ↓reduceIte, OrderedDict.get?_set, Option.some.injEq]
            by_cases same : name = other
            · subst same
              simp only [↓reduceIte, reduceCtorEq, false_imp_iff, Option.some.injEq, true_and,
                forall_eq']
              refine ⟨List.append_ne_nil_of_right_ne_nil _ (List.cons_ne_nil rec []), ?_⟩
              cases kept : (history.foldl noteRecord .empty).get? name with
              | none =>
                  rw [ih.1 kept]
                  exact (Gathers.start rec).note rec
              | some t => exact (ih.2 t kept).2.note rec
            · have different : other ≠ name := fun equal => same equal.symm
              simpa only [same, different, ↓reduceIte, List.append_nil] using ih

/-- Nothing is kept under the empty name. -/
theorem get?_noteRecord_nameless (history : List HistoryRecord) :
    (history.foldl noteRecord .empty).get? "" = none := by
  induction history using List.reverseRecOn with
  | nil => rfl
  | append_singleton history rec ih =>
      rw [List.foldl_concat, noteRecord]
      cases called : rec.name with
      | none => exact ih
      | some other =>
          by_cases unnamed : other = ""
          · simpa only [unnamed, ↓reduceIte] using ih
          · have different : ¬ "" = other := fun same => unnamed same.symm
            simpa only [unnamed, ↓reduceIte, OrderedDict.get?_set, different] using ih

theorem mem_recordsOf {history : List HistoryRecord} {name : String} {rec : HistoryRecord} :
    rec ∈ recordsOf history name ↔ rec ∈ history ∧ rec.name = some name := by
  rw [recordsOf, List.mem_filter, decide_eq_true_eq]

/-- The tests that are listed: those with a record, and a name. -/
theorem isSome_summarize (history : List HistoryRecord) (name : String) :
    ((summarize history).get? name).isSome ↔
      name ≠ "" ∧ ∃ rec ∈ history, rec.name = some name := by
  rw [summarize, OrderedDict.get?_mapValues, Option.isSome_map]
  by_cases named : name = ""
  · rw [named, get?_noteRecord_nameless]
    simp only [Option.isSome_none, Bool.false_eq_true, ne_eq, not_true_eq_false, false_and]
  · cases kept : (history.foldl noteRecord .empty).get? name with
    | none =>
        have unrecorded := (get?_noteRecord history named).1 kept
        simp only [Option.isSome_none, Bool.false_eq_true, false_iff, not_and, not_exists]
        intro _ rec member called
        exact List.ne_nil_of_mem (mem_recordsOf.mpr ⟨member, called⟩) unrecorded
    | some t =>
        obtain ⟨recorded, -⟩ := (get?_noteRecord history named).2 t kept
        obtain ⟨rec, member⟩ := List.exists_mem_of_ne_nil _ recorded
        simp only [Option.isSome_some, true_iff]
        exact ⟨named, rec, mem_recordsOf.mp member⟩

/-- A summary is that of a test's records. -/
theorem get?_summarize {history : List HistoryRecord} {name : String} {t : TestSummary}
    (listed : (summarize history).get? name = some t) :
    ∃ kept : TestHistory, t = kept.summary ∧ Gathers (recordsOf history name) kept := by
  have named := ((isSome_summarize history name).mp (listed ▸ rfl)).1
  obtain ⟨kept, found, rfl⟩ := Option.map_eq_some_iff.mp
    ((OrderedDict.get?_mapValues TestHistory.summary).symm.trans listed)
  exact ⟨kept, rfl, ((get?_noteRecord history named).2 kept found).2⟩

section

variable {records : List HistoryRecord} {t : TestHistory} (gathers : Gathers records t)

include gathers

/-- The counts say how many records have one of the statuses. -/
theorem Gathers.withStatus (statuses : List String) :
    t.withStatus statuses = records.countP fun rec => rec.status ∈ statuses := by
  rw [TestHistory.withStatus, gathers.byStatus,
    OrderedDict.sum_tally (fun status => status ∈ statuses), List.countP_map]
  rfl

theorem Gathers.withStatus_pos (statuses : List String) :
    0 < t.withStatus statuses ↔ ∃ rec ∈ records, rec.status ∈ statuses := by
  rw [gathers.withStatus, List.countP_pos_iff]
  simp only [decide_eq_true_eq]

theorem Gathers.mem_code {statuses : List String} {code : String × String} :
    code ∈ t.code statuses ↔
      ∃ rec ∈ records, rec.status ∈ statuses ∧ (rec.git, rec.halowGitlink) = code := by
  rw [TestHistory.code, gathers.runs, List.mem_map]
  constructor
  · rintro ⟨run, member, rfl⟩
    obtain ⟨inRuns, status⟩ := List.mem_filter.mp member
    obtain ⟨rec, inside, rfl⟩ := List.mem_map.mp inRuns
    exact ⟨rec, inside, of_decide_eq_true status, rfl⟩
  · rintro ⟨rec, inside, status, rfl⟩
    exact ⟨rec.run, List.mem_filter.mpr
      ⟨List.mem_map_of_mem inside, decide_eq_true status⟩, rfl⟩

end

theorem recorded_iff {history : List HistoryRecord} {name : String} {statuses : List String} :
    (∃ rec ∈ recordsOf history name, rec.status ∈ statuses) ↔ Recorded history name statuses := by
  simp only [mem_recordsOf, Recorded, and_assoc]

theorem recordedAtOneCode_iff {history : List HistoryRecord} {name : String} {t : TestHistory}
    (gathers : Gathers (recordsOf history name) t) :
    (∃ code ∈ t.code goodStatuses, code ∈ t.code badStatuses) ↔
      RecordedAtOneCode history name := by
  simp only [gathers.mem_code, mem_recordsOf]
  constructor
  · rintro ⟨_, ⟨good, ⟨member, called⟩, status, rfl⟩, bad, ⟨inside, same⟩, worse, code⟩
    exact ⟨good, member, bad, inside, ⟨called, status⟩, ⟨same, worse⟩,
      (congrArg Prod.fst code).symm, (congrArg Prod.snd code).symm⟩
  · rintro ⟨good, member, bad, inside, ⟨called, status⟩, ⟨same, worse⟩, git, gitlink⟩
    exact ⟨_, ⟨good, ⟨member, called⟩, status, rfl⟩, bad, ⟨inside, same⟩, worse,
      Prod.ext git.symm gitlink.symm⟩

/-- The flags are what the records say. -/
theorem classified_of_listed {history : List HistoryRecord} {name : String} {t : TestSummary}
    (listed : (summarize history).get? name = some t) : Classified history name t := by
  obtain ⟨kept, rfl, gathers⟩ := get?_summarize listed
  have good := (gathers.withStatus_pos goodStatuses).trans recorded_iff
  have bad := (gathers.withStatus_pos badStatuses).trans recorded_iff
  refine ⟨?_, ?_, ?_⟩
  · simp only [TestHistory.summary, Bool.and_eq_true, decide_eq_true_eq, good, bad]
  · simp only [TestHistory.summary, Bool.and_eq_true, decide_eq_true_eq, bad, ← good, not_lt,
      Nat.le_zero]
  · simp only [TestHistory.summary, Bool.and_eq_true, decide_eq_true_eq, List.any_eq_true, good,
      bad, recordedAtOneCode_iff gathers, and_iff_right_iff_imp]
    rintro ⟨good, member, bad, inside, first, second, -⟩
    exact ⟨⟨good, member, first⟩, bad, inside, second⟩

/-- Two summaries with the same flags. -/
def SameFlags (t other : TestSummary) : Prop :=
  t.flaky = other.flaky ∧ t.broken = other.broken ∧ t.sameCodeFlake = other.sameCodeFlake

/-- The flags depend on which good and bad records there are. -/
theorem Classified.sameFlags {history others : List HistoryRecord} {name : String}
    {t other : TestSummary} (first : Classified history name t)
    (second : Classified others name other)
    (same : ∀ rec, rec.status ∈ goodStatuses ++ badStatuses → (rec ∈ history ↔ rec ∈ others)) :
    SameFlags t other := by
  have good : Recorded history name goodStatuses ↔ Recorded others name goodStatuses :=
    exists_congr fun rec => and_congr_left fun recorded =>
      same rec (List.mem_append_left _ recorded.2)
  have bad : Recorded history name badStatuses ↔ Recorded others name badStatuses :=
    exists_congr fun rec => and_congr_left fun recorded =>
      same rec (List.mem_append_right _ recorded.2)
  have code : RecordedAtOneCode history name ↔ RecordedAtOneCode others name := by
    refine exists_congr fun rec => ?_
    constructor
    · rintro ⟨member, worse, inside, first, second, agree⟩
      exact ⟨(same rec (List.mem_append_left _ first.2)).mp member, worse,
        (same worse (List.mem_append_right _ second.2)).mp inside, first, second, agree⟩
    · rintro ⟨member, worse, inside, first, second, agree⟩
      exact ⟨(same rec (List.mem_append_left _ first.2)).mpr member, worse,
        (same worse (List.mem_append_right _ second.2)).mpr inside, first, second, agree⟩
  refine ⟨Bool.eq_iff_iff.mpr ?_, Bool.eq_iff_iff.mpr ?_, Bool.eq_iff_iff.mpr ?_⟩
  · rw [first.flaky, second.flaky, good, bad]
  · rw [first.broken, second.broken, good, bad]
  · rw [first.sameCodeFlake, second.sameCodeFlake, code]

/-- A test with a record in both histories is listed in both. -/
theorem listed_of_subset {history others : List HistoryRecord} {name : String} {t : TestSummary}
    (listed : (summarize history).get? name = some t) (subset : history ⊆ others) :
    ∃ other, (summarize others).get? name = some other := by
  obtain ⟨named, rec, member, called⟩ := (isSome_summarize history name).mp (listed ▸ rfl)
  exact Option.isSome_iff_exists.mp
    ((isSome_summarize others name).mpr ⟨named, rec, subset member, called⟩)

/-- **What the flake ledger says.** A test is listed when it has a name and a record;
its flags are what its good and bad records say. They are the same in any order of
the records and with a SKIP record left out, and no further record makes a flaky test
one that is not. -/
theorem flakes_classified (history : List HistoryRecord) (name : String) :
    (((summarize history).get? name).isSome ↔
      name ≠ "" ∧ ∃ rec ∈ history, rec.name = some name) ∧
    ∀ t ∈ (summarize history).get? name,
      Classified history name t ∧
      ((flakes history).get? name = some t ↔ t.flaky = true) ∧
      ((broken history).get? name = some t ↔ t.broken = true) ∧
      (∀ others, others.Perm history →
        ∃ other ∈ (summarize others).get? name, SameFlags other t) ∧
      (∀ front skipped back, history = front ++ skipped :: back → skipped.status = "SKIP" →
        ∀ other ∈ (summarize (front ++ back)).get? name, SameFlags other t) ∧
      ∀ more, ∃ later ∈ (summarize (history ++ more)).get? name,
        (t.flaky = true → later.flaky = true) ∧
        (t.sameCodeFlake = true → later.sameCodeFlake = true) := by
  refine ⟨isSome_summarize history name, fun t listed => ?_⟩
  have classified := classified_of_listed listed
  refine ⟨classified, ?_, ?_, fun others perm => ?_, ?_, fun more => ?_⟩
  · rw [flakes, OrderedDict.get?_filterValues]
    exact and_iff_right listed
  · rw [broken, OrderedDict.get?_filterValues]
    exact and_iff_right listed
  · obtain ⟨other, again⟩ := listed_of_subset listed perm.symm.subset
    exact ⟨other, again, (classified_of_listed again).sameFlags classified
      fun rec _ => perm.mem_iff⟩
  · rintro front skipped back rfl skip other again
    refine (classified_of_listed again).sameFlags classified fun rec counted => ?_
    have different : rec ≠ skipped := by
      rintro rfl
      rw [skip] at counted
      exact absurd counted (by decide)
    simp only [List.mem_append, List.mem_cons, different, false_or]
  · obtain ⟨later, again⟩ := listed_of_subset listed (List.subset_append_left history more)
    have after := classified_of_listed again
    have stays : ∀ statuses, Recorded history name statuses →
        Recorded (history ++ more) name statuses := by
      rintro statuses ⟨rec, member, recorded⟩
      exact ⟨rec, List.mem_append_left more member, recorded⟩
    refine ⟨later, again, fun flaky => ?_, fun sameCode => ?_⟩
    · obtain ⟨good, bad⟩ := classified.flaky.mp flaky
      exact after.flaky.mpr ⟨stays _ good, stays _ bad⟩
    · obtain ⟨good, member, bad, inside, agree⟩ := classified.sameCodeFlake.mp sameCode
      exact after.sameCodeFlake.mpr
        ⟨good, List.mem_append_left more member, bad, List.mem_append_left more inside, agree⟩

end Rimba.Regtest.Ledger
