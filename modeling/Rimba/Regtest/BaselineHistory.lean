import Rimba.Foundation.Machine
import Rimba.Regtest.Reporter

/-! # What a complete baseline vouches for

T2 and dscycle runs follow one another on one baseline file, each fresh or
appending, each possibly killed. The flag `complete` is the writing run's own,
while the results beside it may come from runs before it that were killed: the
appending run seeds from a baseline without reading its flag. So a baseline can
say complete and carry results of a run that never finished
(`Rimba.Regtest.killedRun_vouchedFor`). It never does exactly when no run
finalizes while it still carries a seeded result of an unfinished run
(`Rimba.Regtest.vouches_iff_finalizesClean`).
-/

namespace Rimba.Regtest

/-- Runs are numbered in the order they start; a result's meta is the run that
added it. -/
abbrev RunId := ℕ

/-- The baseline file, the run in progress, and which runs reached `finalize`. -/
structure History where
  file : Option (Baseline RunId)
  running : Option (Reporter RunId)
  started : ℕ
  finalized : RunId → Bool

/-- What happens on one baseline file. -/
inductive HistoryStep where
  /-- A run starts, appending or fresh. -/
  | start (append : Bool)
  /-- The run in progress adds a result; the write after it can fail. -/
  | add (name : String) (status : Status) (written : Bool)
  /-- The run in progress reaches `finalize`. -/
  | finalize
  /-- The run in progress is killed. -/
  | kill
  deriving DecidableEq

/-- The reporter a run starts with. -/
def startReporter (file : Option (Baseline RunId)) (append : Bool) : Reporter RunId :=
  if append then
    match file with
    | some prior => (Reporter.new "T2" true).seedFrom prior.results
    | none => .new "T2" true
  else .new "T2" true

/-- The result a run adds. -/
def addedResult (run : RunId) (name : String) (status : Status) : Result RunId :=
  ⟨"T2", name, status, "", 0, "", run⟩

/-- The runs on one baseline file, which starts out absent. The run in progress
is the last one started. -/
def historyMachine : Foundation.Machine History HistoryStep where
  initial := ⟨none, none, 0, fun _ => false⟩
  step history
    | .start append =>
        if history.running.isSome then none
        else some
          { history with
            running := some (startReporter history.file append)
            started := history.started + 1 }
    | .add name status written =>
        history.running.map fun reporter =>
          let reporter := reporter.collect (addedResult history.started name status)
          { history with
            file := if written then some reporter.write else history.file
            running := some reporter }
    | .finalize =>
        history.running.map fun reporter =>
          { history with
            file := some reporter.finalize.write
            running := none
            finalized := fun run => run = history.started || history.finalized run }
    | .kill => some { history with running := none }

/-- A complete baseline carries only results of runs that reached `finalize`. -/
def History.Vouches (history : History) : Prop :=
  ∀ file ∈ history.file, file.complete = true → ∀ r ∈ file.results,
    history.finalized r.info = true

/-- The run in progress carries no seeded result of a run that never reached
`finalize`. -/
def History.CarriesFinalized (history : History) : Prop :=
  ∀ reporter ∈ history.running, ∀ r ∈ reporter.seed.values, history.finalized r.info = true

/-- A run in progress is not complete, has added its own results, and carries
results of runs before it. -/
structure History.Sorted (history : History) : Prop where
  file : ∀ file ∈ history.file, ∀ r ∈ file.results, r.info ≤ history.started
  unfinished : ∀ reporter ∈ history.running, reporter.complete = false
  own : ∀ reporter ∈ history.running, ∀ r ∈ reporter.results, r.info = history.started
  earlier : ∀ reporter ∈ history.running, ∀ r ∈ reporter.seed.values, r.info < history.started

theorem startReporter_complete (file : Option (Baseline RunId)) (append : Bool) :
    (startReporter file append).complete = false := by
  unfold startReporter
  split
  · split
    · rw [Reporter.seedFrom_complete, Reporter.new]
    · rfl
  · rfl

theorem startReporter_results (file : Option (Baseline RunId)) (append : Bool) :
    (startReporter file append).results = [] := by
  unfold startReporter
  split
  · split
    · rw [Reporter.seedFrom_results, Reporter.new]
    · rfl
  · rfl

theorem mem_startReporter {file : Option (Baseline RunId)} {append : Bool} {r : Result RunId}
    (member : r ∈ (startReporter file append).seed.values) : ∃ prior ∈ file, r ∈ prior.results := by
  unfold startReporter at member
  split at member
  · split at member
    · next prior =>
        rcases Reporter.mem_seedFrom member with fresh | seeded
        · cases fresh
        · exact ⟨prior, rfl, seeded⟩
    · cases member
  · cases member

theorem History.Sorted.idle {history : History} (idle : history.running = none)
    (file : ∀ file ∈ history.file, ∀ r ∈ file.results, r.info ≤ history.started) :
    history.Sorted where
  file := file
  unfinished reporter running := by
    rw [idle] at running
    cases running
  own reporter running := by
    rw [idle] at running
    cases running
  earlier reporter running := by
    rw [idle] at running
    cases running

/-- What a reporter writes is of its run or of an earlier one. -/
theorem merged_le {reporter : Reporter RunId} {run : RunId}
    (own : ∀ r ∈ reporter.results, r.info = run)
    (earlier : ∀ r ∈ reporter.seed.values, r.info < run) {r : Result RunId}
    (member : r ∈ reporter.results ++ reporter.seed.values) : r.info ≤ run := by
  rcases List.mem_append.mp member with mine | seeded
  · exact (own r mine).le
  · exact (earlier r seeded).le

/-- A run that starts has no result of its own, and carries those of earlier runs. -/
theorem History.Sorted.start {history : History} (sorted : history.Sorted) (append : Bool) :
    History.Sorted
      { history with
        running := some (startReporter history.file append)
        started := history.started + 1 } where
  file file member r inFile := (sorted.file file member r inFile).trans (Nat.le_succ _)
  unfinished reporter same := by
    cases same
    exact startReporter_complete ..
  own reporter same r member := by
    cases same
    rw [startReporter_results] at member
    cases member
  earlier reporter same r member := by
    cases same
    obtain ⟨prior, present, inFile⟩ := mem_startReporter member
    exact Nat.lt_succ_of_le (sorted.file prior present r inFile)

/-- The results of a run with one more. -/
theorem History.Sorted.own_collect {history : History} (sorted : history.Sorted)
    {reporter : Reporter RunId} (running : history.running = some reporter) (name : String)
    (status : Status) :
    ∀ r ∈ (reporter.collect (addedResult history.started name status)).results,
      r.info = history.started := by
  intro r member
  rcases List.mem_append.mp member with before | added
  · exact sorted.own reporter running r before
  · cases List.mem_singleton.mp added
    rfl

/-- What a run carries behind one more result. -/
theorem History.Sorted.earlier_collect {history : History} (sorted : history.Sorted)
    {reporter : Reporter RunId} (running : history.running = some reporter) (name : String)
    (status : Status) :
    ∀ r ∈ (reporter.collect (addedResult history.started name status)).seed.values,
      r.info < history.started :=
  fun r member => sorted.earlier reporter running r (Foundation.OrderedDict.mem_values_erase member)

theorem sorted_invariant : historyMachine.Invariant History.Sorted where
  initial := .idle rfl fun file absent => by cases absent
  step history label after sorted stepped := by
    cases label with
    | start append =>
        simp only [historyMachine, Option.ite_none_left_eq_some, Option.some.injEq] at stepped
        obtain ⟨_, rfl⟩ := stepped
        exact sorted.start append
    | add name status written =>
        simp only [historyMachine, Option.map_eq_some_iff] at stepped
        obtain ⟨reporter, running, rfl⟩ := stepped
        have own := sorted.own_collect running name status
        have earlier := sorted.earlier_collect running name status
        refine ⟨fun file member r inFile => ?_, fun next same => ?_, fun next same => ?_,
          fun next same => ?_⟩
        · cases written with
          | true =>
              cases member
              exact merged_le own earlier inFile
          | false => exact sorted.file file member r inFile
        · cases same
          exact sorted.unfinished reporter running
        · cases same
          exact own
        · cases same
          exact earlier
    | finalize =>
        simp only [historyMachine, Option.map_eq_some_iff] at stepped
        obtain ⟨reporter, running, rfl⟩ := stepped
        refine .idle rfl fun file member r inFile => ?_
        cases member
        exact merged_le (sorted.own reporter running) (sorted.earlier reporter running) inFile
    | kill =>
        obtain rfl := Option.some.inj stepped
        exact .idle rfl sorted.file

/-- A step other than `finalize` keeps a vouching baseline vouching. -/
theorem vouches_step {history after : History} {label : HistoryStep} (sorted : history.Sorted)
    (stepped : historyMachine.step history label = some after) (vouches : history.Vouches)
    (notFinal : label ≠ .finalize) : after.Vouches := by
  cases label with
  | start append =>
      simp only [historyMachine, Option.ite_none_left_eq_some, Option.some.injEq] at stepped
      obtain ⟨_, rfl⟩ := stepped
      exact vouches
  | add name status written =>
      simp only [historyMachine, Option.map_eq_some_iff] at stepped
      obtain ⟨reporter, running, rfl⟩ := stepped
      cases written with
      | true =>
          intro file member complete
          cases member
          have unfinished := sorted.unfinished reporter running
          exact absurd (unfinished.symm.trans complete) Bool.false_ne_true
      | false => exact vouches
  | finalize => exact (notFinal rfl).elim
  | kill =>
      obtain rfl := Option.some.inj stepped
      exact vouches

/-- A finalize leaves a vouching baseline exactly when the run carries no result
of an unfinished run. -/
theorem vouches_finalize_iff {history after : History} (sorted : history.Sorted)
    (stepped : historyMachine.step history .finalize = some after) :
    after.Vouches ↔ history.CarriesFinalized := by
  simp only [historyMachine, Option.map_eq_some_iff] at stepped
  obtain ⟨reporter, running, rfl⟩ := stepped
  constructor
  · intro vouches next same r seeded
    cases Option.some.inj (running.symm.trans same)
    have vouched := vouches _ rfl rfl r (List.mem_append_right _ seeded)
    simp only [Bool.or_eq_true, decide_eq_true_eq] at vouched
    have earlier := sorted.earlier reporter running r seeded
    exact vouched.resolve_left earlier.ne
  · rintro carries file member - r inFile
    cases member
    simp only [Bool.or_eq_true, decide_eq_true_eq]
    rcases List.mem_append.mp inFile with mine | seeded
    · exact .inl (sorted.own reporter running r mine)
    · exact .inr (carries reporter running r seeded)

/-- **When complete means complete.** Along any steps, a complete baseline
vouches for every run whose results it carries in every state reached, exactly
when each finalizing run carries seeded results of finalized runs only. -/
theorem vouches_iff_finalizesClean (steps : List HistoryStep) :
    (∀ taken ∈ historyMachine.transitions steps, taken.after.Vouches) ↔
      ∀ taken ∈ historyMachine.transitions steps, taken.label = .finalize →
        taken.before.CarriesFinalized := by
  constructor
  · intro vouches taken member finalizes
    obtain ⟨sorted, stepped⟩ := sorted_invariant.transitions member
    rw [finalizes] at stepped
    exact (vouches_finalize_iff sorted stepped).mp (vouches taken member)
  · intro clean
    have kept : ∀ taken ∈ historyMachine.transitions steps, taken.before.Vouches →
        taken.after.Vouches := by
      intro taken member vouches
      obtain ⟨sorted, stepped⟩ := sorted_invariant.transitions member
      by_cases finalizes : taken.label = .finalize
      · rw [finalizes] at stepped
        exact (vouches_finalize_iff sorted stepped).mpr (clean taken member finalizes)
      · exact vouches_step sorted stepped vouches finalizes
    intro taken member
    refine kept taken member (Foundation.Machine.before_of_mem_transitionsFrom ?_ kept member)
    intro file absent
    cases absent

/-- A fresh run is killed after its first result, and an appending run then adds
another one and finalizes. -/
def killedThenAppended : List HistoryStep :=
  [.start false, .add "mesh-gate" .pass true, .kill,
    .start true, .add "deepsleep-reconnect" .pass true, .finalize]

/-- The appending run's complete baseline carries the killed run's result. -/
theorem killedRun_vouchedFor :
    ¬ ∀ steps, ∀ taken ∈ historyMachine.transitions steps, taken.after.Vouches := by
  intro always
  have vouches := always killedThenAppended
    ((historyMachine.transitions killedThenAppended).get ⟨5, by decide⟩) (List.get_mem ..)
  exact absurd (vouches _ rfl rfl (addedResult 1 "mesh-gate" .pass) (by decide +kernel))
    (by decide +kernel)

end Rimba.Regtest
