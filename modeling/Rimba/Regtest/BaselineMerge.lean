import Rimba.Regtest.BaselineFile

/-! # Baselines that are appended to

A run with `--append` reads the results of the baseline before it as dictionaries,
and writes behind its own results those it has not superseded. A result without a
name is not among them (`Rimba.Regtest.nameless_dropped`); of every other name the
last one is, and a sequence of runs leaves the latest result of each
(`Rimba.Regtest.baseline_merges`).
-/

namespace Rimba.Regtest

open Foundation (Json OrderedDict dumps natText roundTenths textOf)

/-- The name of a result's dictionary, which is empty when there is none. -/
def entryName (entry : Json) : String := String.ofList ((textOf "name" entry).getD [])

/-- `entry["status"]` -/
def entryStatus (entry : Json) : Option String := (textOf "status" entry).map String.ofList

/-- A reporter that holds its seeded results as the dictionaries they were read as. -/
structure DictReporter where
  tier : String
  complete : Bool
  results : List (Result Json)
  seed : OrderedDict String Json

namespace DictReporter

/-- `Reporter(tier)` -/
def new (tier : String) : DictReporter := ⟨tier, false, [], .empty⟩

/-- `seed_from` -/
def seedFrom (reporter : DictReporter) (prior : List Json) : DictReporter :=
  { reporter with
    seed := prior.foldl (fun seed pr =>
      if entryName pr = "" then seed else seed.set (entryName pr) pr) reporter.seed }

/-- What `add` does to the reporter, before it writes. -/
def add (reporter : DictReporter) (r : Result Json) : DictReporter :=
  { reporter with results := reporter.results ++ [r], seed := reporter.seed.erase r.name }

def addAll (reporter : DictReporter) (added : List (Result Json)) : DictReporter :=
  added.foldl add reporter

section

variable (floatText : ℚ → Foundation.Bare) (reporter : DictReporter)

/-- `_merged` -/
def merged : List Json := reporter.results.map (asdict floatText) ++ reporter.seed.values

/-- What `counts` starts from. -/
def zeroCounts : OrderedDict String ℕ :=
  OrderedDict.empty.setAll (Status.all.map fun status => (status.text, 0))

/-- `counts`, which raises when a result has no status. -/
def counts : Option (OrderedDict String ℕ) :=
  if (reporter.merged floatText).all fun r => (entryStatus r).isSome then
    some (zeroCounts.tally ((reporter.merged floatText).filterMap entryStatus))
  else none

/-- `green` -/
def green : Option Bool :=
  (reporter.counts floatText).map fun c =>
    (c.get? Status.fail.text).getD 0 = 0 && (c.get? Status.xpass.text).getD 0 = 0

/-- The document `write` makes. -/
def document (header : BaselineHeader) : Option Json :=
  (reporter.counts floatText).map fun c => .obj
    [("tier".toList, .str reporter.tier.toList),
      ("generated".toList, .str header.generated.toList),
      ("git".toList, .str header.git.toList),
      ("halow_gitlink".toList, .str header.halowGitlink.toList),
      ("complete".toList, .bare (if reporter.complete then ⟨"true".toList, Foundation.isBare_true⟩
        else ⟨"false".toList, Foundation.isBare_false⟩)),
      ("counts".toList, .obj (c.entries.map fun count =>
        (count.1.toList, .bare (natText count.2)))),
      ("duration_s".toList, .bare (roundTenths header.durationS)),
      ("results".toList, .arr (reporter.merged floatText))]

/-- The text `write` puts into the file. -/
def text (header : BaselineHeader) : Option (List Char) :=
  (reporter.document floatText header).map fun document =>
    dumps (.indented 2) 0 document ++ ['\n']

end

/-- The results a run starts from: those of the file, when it parses. -/
def priorOf (file : Option (List Char)) : List Json := ((load file).map resultsOf).getD []

/-- A run of a tier on the results before it. -/
def run (tier : String) (prior : List Json) (added : List (Result Json)) : DictReporter :=
  ((new tier).seedFrom prior).addAll added

end DictReporter

/-- An entry under its name. -/
def named (entry : Json) : String × Json := (entryName entry, entry)

/-- The last entry of a name. -/
def latest (entries : List Json) (name : String) : Option Json :=
  OrderedDict.lastOf (entries.map named) name

/-- The prior entries that are written again: for each name that is not empty and
that no added result has, the last one. -/
def carried (prior : List Json) (added : List String) : List Json :=
  ((((prior.map entryName).filter fun name => name ≠ "").eraseDups).filter fun name =>
    name ∉ added).filterMap (latest prior)

section

variable (floatText : ℚ → Foundation.Bare)

@[simp] theorem entryName_asdict (r : Result Json) : entryName (asdict floatText r) = r.name :=
  String.ofList_toList

@[simp] theorem entryStatus_asdict (r : Result Json) :
    entryStatus (asdict floatText r) = some r.status.text :=
  congrArg some String.ofList_toList

theorem latest_append (front back : List Json) (name : String) :
    latest (front ++ back) name = (latest back name).or (latest front name) := by
  rw [latest, List.map_append, OrderedDict.lastOf_append]
  rfl

namespace DictReporter

theorem results_addAll (reporter : DictReporter) (added : List (Result Json)) :
    (reporter.addAll added).results = reporter.results ++ added := by
  induction added generalizing reporter with
  | nil => exact (List.append_nil _).symm
  | cons r added ih => rw [addAll, List.foldl_cons, ← addAll, ih, add, List.append_assoc,
      List.singleton_append]

theorem seed_addAll (reporter : DictReporter) (added : List (Result Json)) :
    (reporter.addAll added).seed = reporter.seed.eraseAll (added.map Result.name) := by
  induction added generalizing reporter with
  | nil => rfl
  | cons r added ih => rw [addAll, List.foldl_cons, ← addAll, ih]; rfl

/-- What a run is seeded with are the named results. -/
theorem seed_seedFrom (reporter : DictReporter) (prior : List Json) :
    (reporter.seedFrom prior).seed =
      reporter.seed.setAll ((prior.filter fun pr => entryName pr ≠ "").map named) := by
  simp only [seedFrom, OrderedDict.setAll, List.foldl_map, List.foldl_filter, named, ne_eq,
    decide_not, Bool.not_eq_true', decide_eq_false_iff_not, ite_not]

theorem seed_run (tier : String) (prior : List Json) (added : List (Result Json)) :
    (run tier prior added).seed =
      (OrderedDict.empty.setAll ((prior.filter fun pr => entryName pr ≠ "").map named)).eraseAll
        (added.map Result.name) := by
  rw [run, seed_addAll, seed_seedFrom]
  rfl

theorem results_run (tier : String) (prior : List Json) (added : List (Result Json)) :
    (run tier prior added).results = added := results_addAll _ added

end DictReporter

/-- The last named entry of a name is its last entry. -/
theorem lastOf_named (prior : List Json) {name : String} (some : name ≠ "") :
    OrderedDict.lastOf ((prior.filter fun pr => entryName pr ≠ "").map named) name =
      latest prior name := by
  induction prior using List.reverseRecOn with
  | nil => rfl
  | append_singleton prior pr ih =>
      rw [List.filter_append, List.map_append, OrderedDict.lastOf_append, ih, latest_append]
      by_cases unnamed : entryName pr = ""
      · have other : latest [pr] name = none := by
          rw [latest, List.map_singleton, named, OrderedDict.lastOf_singleton, if_neg]
          exact fun same => some (same.trans unnamed)
        simp only [unnamed, other, ne_eq, not_true_eq_false, decide_false, Bool.false_eq_true,
          not_false_eq_true, List.filter_cons_of_neg, List.filter_nil, List.map_nil,
          OrderedDict.lastOf_nil]
      · simp only [unnamed, ne_eq, not_false_eq_true, decide_true, List.filter_cons_of_pos,
          List.filter_nil, latest]

/-- The carried entries are those of the names that are left. -/
theorem values_seed (tier : String) (prior : List Json) (added : List (Result Json)) :
    (DictReporter.run tier prior added).seed.values = carried prior (added.map Result.name) := by
  have names : ((prior.filter fun pr => entryName pr ≠ "").map named).map Prod.fst =
      (prior.map entryName).filter fun name => name ≠ "" := by
    rw [List.filter_map, List.map_map]
    rfl
  rw [DictReporter.seed_run, OrderedDict.values_setAll_eraseAll, carried, names]
  refine List.filterMap_congr fun name member => lastOf_named prior ?_
  have kept := List.mem_filter.mp (List.mem_eraseDups.mp (List.mem_filter.mp member).1)
  exact of_decide_eq_true kept.2

theorem merged_run (tier : String) (prior : List Json) (added : List (Result Json)) :
    (DictReporter.run tier prior added).merged floatText =
      added.map (asdict floatText) ++ carried prior (added.map Result.name) := by
  rw [DictReporter.merged, DictReporter.results_run, values_seed]

/-- The carried entry of a name is the last prior one, unless the name was added. -/
theorem latest_carried (prior : List Json) (added : List (Result Json)) {name : String}
    (some : name ≠ "") : latest (carried prior (added.map Result.name)) name =
      if name ∈ added.map Result.name then none else latest prior name := by
  rw [← values_seed "T2" prior added]
  have keyed : ∀ entry ∈ (DictReporter.run "T2" prior added).seed.entries,
      named entry.2 = entry := by
    rintro ⟨key, held⟩ member
    rw [DictReporter.seed_run, OrderedDict.entries_eraseAll] at member
    have set := OrderedDict.get?_eq_some_iff.mpr (List.mem_filter.mp member).1
    rw [OrderedDict.get?_setAll] at set
    obtain ⟨item, found, rfl⟩ := Option.map_eq_some_iff.mp (Option.or_none.symm.trans set)
    rw [List.findRev?_eq_find?_reverse] at found
    have same := List.find?_some found
    rw [decide_eq_true_eq] at same
    obtain ⟨pr, -, rfl⟩ := List.mem_map.mp (List.mem_reverse.mp (List.mem_of_find?_eq_some found))
    rw [← same]
    rfl
  have entries : (DictReporter.run "T2" prior added).seed.values.map named =
      (DictReporter.run "T2" prior added).seed.entries := by
    rw [OrderedDict.values, List.map_map]
    exact (List.map_congr_left keyed).trans (List.map_id _)
  rw [latest, entries, OrderedDict.lastOf_entries, DictReporter.seed_run,
    OrderedDict.get?_eraseAll, OrderedDict.get?_setAll, lastOf_named prior some]
  simp only [OrderedDict.get?, OrderedDict.empty, List.find?_nil, Option.map_none, Option.or_none]

/-- What a run writes has the latest result of each name. -/
theorem latest_merged (tier : String) (prior : List Json) (added : List (Result Json))
    {name : String} (some : name ≠ "") :
    latest ((DictReporter.run tier prior added).merged floatText) name =
      latest (prior ++ added.map (asdict floatText)) name := by
  rw [merged_run, latest_append, latest_append, latest_carried prior added some]
  by_cases fresh : name ∈ added.map Result.name
  · have found : (latest (added.map (asdict floatText)) name).isSome := by
      rw [latest, OrderedDict.lastOf_isSome, List.map_map, List.map_map]
      simpa only [Function.comp_def, named, entryName_asdict] using fresh
    rw [if_pos fresh, Option.none_or, Option.or_of_isSome found]
  · have absent : latest (added.map (asdict floatText)) name = none := by
      rw [latest, OrderedDict.lastOf_eq_none, List.map_map, List.map_map]
      simpa only [Function.comp_def, named, entryName_asdict] using fresh
    rw [if_neg fresh, absent, Option.or_none, Option.none_or]

theorem getD_zeroCounts (status : String) : (DictReporter.zeroCounts.get? status).getD 0 = 0 := by
  rw [DictReporter.zeroCounts, OrderedDict.get?_setAll]
  cases set : OrderedDict.lastOf (Status.all.map fun status => (status.text, 0)) status with
  | none => rfl
  | some count =>
      obtain ⟨item, found, rfl⟩ := Option.map_eq_some_iff.mp set
      rw [List.findRev?_eq_find?_reverse] at found
      obtain ⟨_, -, rfl⟩ := List.mem_map.mp (List.mem_reverse.mp (List.mem_of_find?_eq_some found))
      rfl

/-- The counts are those of the merged results. -/
theorem getD_counts {reporter : DictReporter} {c : OrderedDict String ℕ}
    (counted : reporter.counts floatText = some c) (status : String) :
    (c.get? status).getD 0 =
      (reporter.merged floatText).countP fun entry => entryStatus entry = some status := by
  rw [DictReporter.counts] at counted
  split at counted
  · cases counted
    rw [OrderedDict.getD_tally, getD_zeroCounts, Nat.zero_add, List.count_filterMap]
    refine List.countP_congr fun entry _ => ?_
    rw [beq_iff_eq, decide_eq_true_eq]
  · cases counted

theorem isSome_counts (reporter : DictReporter) : (reporter.counts floatText).isSome ↔
    ∀ entry ∈ reporter.merged floatText, (entryStatus entry).isSome := by
  rw [DictReporter.counts, ← List.all_eq_true]
  cases (reporter.merged floatText).all fun r => (entryStatus r).isSome
  · simp only [Bool.false_eq_true, ↓reduceIte, Option.isSome_none]
  · simp only [↓reduceIte, Option.isSome_some]

/-- A run is green when none of the merged results is a failure or an unexpected
pass. -/
theorem green_iff {reporter : DictReporter} {isGreen : Bool}
    (green : reporter.green floatText = some isGreen) : isGreen = true ↔
      ∀ entry ∈ reporter.merged floatText, entryStatus entry ≠ some Status.fail.text ∧
        entryStatus entry ≠ some Status.xpass.text := by
  obtain ⟨c, counted, rfl⟩ := Option.map_eq_some_iff.mp green
  rw [getD_counts floatText counted, getD_counts floatText counted]
  simp only [Bool.and_eq_true, decide_eq_true_eq, List.countP_eq_zero]
  exact ⟨fun none entry member => ⟨none.1 entry member, none.2 entry member⟩,
    fun none => ⟨fun entry member => (none entry member).1,
      fun entry member => (none entry member).2⟩⟩

/-- A reporter with the dictionaries of its seeded results. -/
def DictReporter.ofReporter (reporter : Reporter Json) : DictReporter :=
  ⟨reporter.tier, reporter.complete, reporter.results, reporter.seed.mapValues (asdict floatText)⟩

theorem merged_ofReporter (reporter : Reporter Json) :
    (DictReporter.ofReporter floatText reporter).merged floatText =
      reporter.merged.map (asdict floatText) := by
  rw [DictReporter.merged, Reporter.merged, List.map_append]
  exact congrArg _ (OrderedDict.values_mapValues _ _)

theorem ofReporter_collect (reporter : Reporter Json) (r : Result Json) :
    DictReporter.ofReporter floatText (reporter.collect r) =
      (DictReporter.ofReporter floatText reporter).add r := by
  simp only [DictReporter.ofReporter, DictReporter.add, Reporter.collect,
    OrderedDict.mapValues_erase]

theorem ofReporter_seedFrom (reporter : Reporter Json) (prior : List (Result Json)) :
    DictReporter.ofReporter floatText (reporter.seedFrom prior) =
      (DictReporter.ofReporter floatText reporter).seedFrom (prior.map (asdict floatText)) := by
  simp only [DictReporter.ofReporter, DictReporter.seedFrom, Reporter.seedFrom,
    DictReporter.mk.injEq, true_and, List.foldl_map, entryName_asdict]
  generalize reporter.seed = seed
  induction prior generalizing seed with
  | nil => rfl
  | cons pr prior ih =>
      rw [List.foldl_cons, List.foldl_cons, ih]
      by_cases unnamed : pr.name = ""
      · simp only [unnamed, ↓reduceIte]
      · simp only [unnamed, ↓reduceIte, OrderedDict.mapValues_set]

theorem getD_counts_ofReporter {reporter : Reporter Json} {c : OrderedDict String ℕ}
    (counted : (DictReporter.ofReporter floatText reporter).counts floatText = some c)
    (status : Status) : (c.get? status.text).getD 0 = reporter.counts status := by
  rw [getD_counts floatText counted, merged_ofReporter, List.countP_map, Reporter.counts]
  refine List.countP_congr fun r _ => ?_
  simp only [Function.comp_apply, entryStatus_asdict, Option.some.injEq, decide_eq_true_eq]
  cases r.status <;> cases status <;> decide

/-- Both write the same document. -/
theorem document_ofReporter (reporter : Reporter Json) (header : BaselineHeader) :
    (DictReporter.ofReporter floatText reporter).document floatText header =
      some (.obj (reporter.payload floatText header)) := by
  have statuses : ∀ entry ∈ (DictReporter.ofReporter floatText reporter).merged floatText,
      ∃ status : Status, entryStatus entry = some status.text := by
    rw [merged_ofReporter]
    intro entry member
    obtain ⟨r, -, rfl⟩ := List.mem_map.mp member
    exact ⟨r.status, entryStatus_asdict floatText r⟩
  have counted : ((DictReporter.ofReporter floatText reporter).counts floatText).isSome := by
    refine (isSome_counts floatText _).mpr fun entry member => ?_
    obtain ⟨status, read⟩ := statuses entry member
    rw [read]
    rfl
  obtain ⟨c, counts⟩ := Option.isSome_iff_exists.mp counted
  have keys : c.keys = Status.all.map Status.text := by
    rw [DictReporter.counts] at counts
    split at counts
    · cases counts
      rw [OrderedDict.keys_tally_of_mem]
      · decide
      · intro text member
        obtain ⟨entry, inside, read⟩ := List.mem_filterMap.mp member
        obtain ⟨status, same⟩ := statuses entry inside
        cases Option.some.inj (read.symm.trans same)
        cases status <;> decide
    · cases counts
  rw [DictReporter.document, counts, Option.map_some, merged_ofReporter, OrderedDict.entries_eq,
    keys, List.map_map, List.map_map, Reporter.payload]
  simp only [Function.comp_def, getD_counts_ofReporter floatText counts]
  rfl

/-- The next run starts from what a run has written. -/
theorem priorOf_text {reporter : DictReporter} {header : BaselineHeader} {text : List Char}
    (written : reporter.text floatText header = some text) :
    DictReporter.priorOf (some text) = reporter.merged floatText := by
  obtain ⟨document, made, rfl⟩ := Option.map_eq_some_iff.mp written
  obtain ⟨c, -, rfl⟩ := Option.map_eq_some_iff.mp made
  rw [DictReporter.priorOf, load, Option.bind_some,
    Foundation.loads_dumps_blank _ _ (List.forall_mem_singleton.mpr rfl)]
  rfl

/-- What a run on prior results leaves. -/
structure Merges (prior : List Json) (added : List (Result Json)) (reporter : DictReporter) :
    Prop where
  merged : reporter.merged floatText =
    added.map (asdict floatText) ++ carried prior (added.map Result.name)
  latest : ∀ name ≠ "", latest (reporter.merged floatText) name =
    latest (prior ++ added.map (asdict floatText)) name
  counted : (reporter.counts floatText).isSome ↔
    ∀ entry ∈ reporter.merged floatText, (entryStatus entry).isSome
  counts : ∀ c ∈ reporter.counts floatText, ∀ status, (c.get? status).getD 0 =
    (reporter.merged floatText).countP fun entry => entryStatus entry = some status
  green : ∀ isGreen ∈ reporter.green floatText, isGreen = true ↔
    ∀ entry ∈ reporter.merged floatText, entryStatus entry ≠ some Status.fail.text ∧
      entryStatus entry ≠ some Status.xpass.text

/-- **Appending to a baseline.** A run writes its own results, in order, and behind
them the last prior one of every name it has not added; the counts are those of this
list, and it is green when there is no failure and no unexpected pass in it. A run
that reads the file back and adds results of its own leaves the latest result of
every name. -/
theorem baseline_merges (tier : String) (prior : List Json) (added : List (Result Json)) :
    Merges floatText prior added (DictReporter.run tier prior added) ∧
    ∀ header, ∀ text ∈ (DictReporter.run tier prior added).text floatText header,
      ∀ later : List (Result Json),
        Merges floatText ((DictReporter.run tier prior added).merged floatText) later
          (DictReporter.run tier (DictReporter.priorOf (some text)) later) ∧
        ∀ name ≠ "", latest ((DictReporter.run tier (DictReporter.priorOf (some text))
            later).merged floatText) name =
          latest (prior ++ added.map (asdict floatText) ++ later.map (asdict floatText)) name := by
  have merges : ∀ prior added, Merges floatText prior added (DictReporter.run tier prior added) :=
    fun prior added =>
      { merged := merged_run floatText tier prior added
        latest := fun name some => latest_merged floatText tier prior added some
        counted := isSome_counts floatText _
        counts := fun c counted => getD_counts floatText counted
        green := fun isGreen green => green_iff floatText green }
  refine ⟨merges prior added, fun header text written later => ?_⟩
  rw [priorOf_text floatText written]
  refine ⟨merges _ later, fun name some => ?_⟩
  rw [latest_merged floatText tier _ later some, latest_append, latest_append,
    latest_merged floatText tier prior added some]

/-- A failure without a name. -/
def namelessFailure : Json :=
  .obj [("name".toList, .str []), ("status".toList, .str Status.fail.text.toList)]

/-- A prior result without a name is not written again. -/
theorem nameless_dropped : ¬ ∀ (prior : List Json) (added : List (Result Json)) (entry : Json),
    latest prior (entryName entry) = some entry → entryName entry ∉ added.map Result.name →
      entry ∈ (DictReporter.run "T2" prior added).merged fun _ => natText 0 := by
  intro always
  cases always [namelessFailure] [] namelessFailure rfl List.not_mem_nil

end

end Rimba.Regtest
