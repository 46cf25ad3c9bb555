import Rimba.Foundation.Json.Decimal
import Rimba.Foundation.Json.Torn
import Rimba.Foundation.Machine
import Rimba.Regtest.Reporter

/-! # The baseline file of a run that is killed

`Reporter.add` collects a result and rewrites the tier's baseline file in place:
the file is emptied, and then filled with the new text. A process that is killed,
or a write that fails, in between leaves a file that no reader can parse, whatever
was in it before (`Rimba.Regtest.killedWriting_lost`). What readers get back is
the results after some `add` of the run, with everything that was persisted before,
exactly when the last write that was begun has left nothing but the final line feed
to be written (`Rimba.Regtest.keepsBaseline_iff`).
-/

namespace Rimba.Regtest

open Foundation (Json Layout Machine dumps loads natText roundTenths)

/-- What `write` looks up for the file's header. -/
structure BaselineHeader where
  generated : String
  git : String
  halowGitlink : String
  durationS : ℚ

/-- The statuses `counts` starts from. -/
def Status.all : List Status := [.pass, .fail, .skip, .inconclusive, .xfail, .xpass]

section

variable (floatText : ℚ → Foundation.Bare)

/-- `asdict` of a result. The text of a number that is no integer is a parameter. -/
def asdict (r : Result Json) : Json :=
  .obj [
    ("tier".toList, .str r.tier.toList),
    ("name".toList, .str r.name.toList),
    ("status".toList, .str r.status.text.toList),
    ("detail".toList, .str r.detail.toList),
    ("duration_s".toList, .bare (floatText r.durationS)),
    ("evidence".toList, .str r.evidence.toList),
    ("meta".toList, r.info)]

/-- The members of the document `write` makes. -/
def Reporter.payload (reporter : Reporter Json) (header : BaselineHeader) :
    List (List Char × Json) :=
  [("tier".toList, .str reporter.tier.toList),
    ("generated".toList, .str header.generated.toList),
    ("git".toList, .str header.git.toList),
    ("halow_gitlink".toList, .str header.halowGitlink.toList),
    ("complete".toList, .bare (if reporter.complete then ⟨"true".toList, rfl⟩
      else ⟨"false".toList, rfl⟩)),
    ("counts".toList, .obj (Status.all.map fun status =>
      (status.text.toList, .bare (natText (reporter.counts status))))),
    ("duration_s".toList, .bare (roundTenths header.durationS)),
    ("results".toList, .arr (reporter.merged.map (asdict floatText)))]

/-- The text `write` puts into the file. -/
def Reporter.text (reporter : Reporter Json) (header : BaselineHeader) : List Char :=
  dumps (.indented 2) 0 (.obj (reporter.payload floatText header)) ++ ['\n']

/-- `_load`: a file that is absent or does not parse has no baseline. -/
def load (file : Option (List Char)) : Option Json := file.bind loads

/-- `baseline.get("results", [])` -/
def resultsOf : Json → List Json
  | .obj members =>
      match members.lookup "results".toList with
      | some (.arr items) => items
      | _ => []
  | _ => []

/-- Where `add` is: outside, with its result collected, or inside `write_text`. -/
inductive AddPhase where
  | outside
  | collected
  | writing
  deriving DecidableEq

/-- A run's reporter and its baseline file, with the text the last write has yet to
put into the file, the merged results after each `add`, and which `add` was the
last to complete its write. -/
structure BaselineWriter where
  reporter : Reporter Json
  phase : AddPhase
  file : Option (List Char)
  unwritten : List Char
  added : List (List (Result Json))
  persisted : Option ℕ

/-- What happens to the file while results are added. -/
inductive WriterStep where
  /-- `add` appends a result and drops the seeded one of that name. -/
  | collect (r : Result Json)
  /-- `write_text` empties the file. -/
  | truncate (header : BaselineHeader)
  /-- One more character reaches the file. -/
  | put
  /-- `write_text` returns. -/
  | written
  /-- `write` raises, and `add` goes on. -/
  | failed

/-- The baseline file of one run, seeded with the results of an earlier one. The
process can be killed in every state. -/
def writerMachine (tier : String) (persist : Bool) (prior : List (Result Json))
    (file : Option (List Char)) : Machine BaselineWriter WriterStep where
  initial := ⟨(Reporter.new tier persist).seedFrom prior, .outside, file, [], [], none⟩
  step writer
    | .collect r =>
        if writer.phase = .outside then
          let reporter := writer.reporter.collect r
          some { writer with
            reporter
            phase := if reporter.persist then .collected else .outside
            added := writer.added ++ [reporter.merged] }
        else none
    | .truncate header =>
        if writer.phase = .collected then
          some { writer with
            phase := .writing
            file := some []
            unwritten := writer.reporter.text floatText header }
        else none
    | .put =>
        match writer.phase, writer.unwritten with
        | .writing, c :: rest =>
            some { writer with file := writer.file.map (· ++ [c]), unwritten := rest }
        | _, _ => none
    | .written =>
        if writer.phase = .writing ∧ writer.unwritten = [] then
          some { writer with phase := .outside, persisted := some (writer.added.length - 1) }
        else none
    | .failed =>
        if writer.phase = .outside then none else some { writer with phase := .outside }

/-- Every name of the one list of results is in the other. -/
def Covers (later earlier : List (Result Json)) : Prop :=
  ∀ r ∈ earlier, ∃ kept ∈ later, kept.name = r.name

/-- Once an `add` has completed its write, the file parses, its results are those
after that `add` or a later one, and none that was persisted is missing. -/
def KeepsBaseline (writer : BaselineWriter) : Prop :=
  ∀ last, writer.persisted = some last → ∃ baseline, load writer.file = some baseline ∧
    ∃ n results, last ≤ n ∧ writer.added[n]? = some results ∧
      resultsOf baseline = results.map (asdict floatText) ∧
      ∀ persisted, writer.added[last]? = some persisted → Covers results persisted

theorem Covers.refl (results : List (Result Json)) : Covers results results :=
  fun r member => ⟨r, member, rfl⟩

theorem Covers.trans {first second third : List (Result Json)} (later : Covers third second)
    (earlier : Covers second first) : Covers third first := by
  intro r member
  obtain ⟨middle, between, same⟩ := earlier r member
  obtain ⟨kept, last, equal⟩ := later middle between
  exact ⟨kept, last, equal.trans same⟩

/-- No name is missing after one more `add`. -/
theorem covers_collect {reporter : Reporter Json} (keyed : reporter.Keyed) (r : Result Json) :
    Covers (reporter.collect r).merged reporter.merged := by
  intro old member
  rcases keyed.mem_merged_collect member with kept | same
  · exact ⟨old, kept, rfl⟩
  · exact ⟨r, List.mem_append_left _ (List.mem_append_right _ (List.mem_singleton_self r)),
      same.symm⟩

/-- The file and what is unwritten make up the document of the `add` whose write was
begun last, which is no earlier one than the last persisted. -/
def Documented (writer : BaselineWriter) : Prop :=
  ∃ (reporter : Reporter Json) (header : BaselineHeader) (text : List Char) (n : ℕ),
    writer.file = some text ∧
    text ++ writer.unwritten = reporter.text floatText header ∧
    writer.added[n]? = some reporter.merged ∧
    (∀ last, writer.persisted = some last → last ≤ n) ∧
    (writer.phase = .writing → n + 1 = writer.added.length)

/-- The merged results only grow, and the file holds a document once one was begun. -/
structure Tracks (writer : BaselineWriter) : Prop where
  keyed : writer.reporter.Keyed
  grows : writer.added.Pairwise fun earlier later => Covers later earlier
  covers : ∀ results ∈ writer.added, Covers writer.reporter.merged results
  current : writer.phase ≠ .outside → writer.added.getLast? = some writer.reporter.merged
  bounded : ∀ last, writer.persisted = some last → last < writer.added.length
  document : writer.persisted ≠ none ∨ writer.phase = .writing → Documented floatText writer

section

variable {floatText} {writer after : BaselineWriter}

theorem Tracks.collect (tracks : Tracks floatText writer) (r : Result Json) :
    Tracks floatText { writer with
      reporter := writer.reporter.collect r
      phase := if (writer.reporter.collect r).persist then .collected else .outside
      added := writer.added ++ [(writer.reporter.collect r).merged] } where
  keyed := tracks.keyed.collect
  grows := by
    refine List.pairwise_append.mpr ⟨tracks.grows, List.pairwise_singleton _ _, ?_⟩
    intro earlier member later single
    rw [List.mem_singleton.mp single]
    exact (covers_collect tracks.keyed r).trans (tracks.covers earlier member)
  covers := by
    intro results member
    rcases List.mem_append.mp member with before | single
    · exact (covers_collect tracks.keyed r).trans (tracks.covers results before)
    · rw [List.mem_singleton.mp single]
      exact Covers.refl _
  current := fun _ => List.getLast?_concat
  bounded := by
    intro last persisted
    rw [List.length_append]
    exact Nat.lt_add_right _ (tracks.bounded last persisted)
  document := by
    intro started
    have before : writer.persisted ≠ none := by
      rcases started with persisted | writing
      · exact persisted
      · simp only at writing
        split_ifs at writing
    obtain ⟨reporter, header, text, n, file, whole, place, later, -⟩ :=
      tracks.document (.inl before)
    refine ⟨reporter, header, text, n, file, whole, ?_, later, ?_⟩
    · exact (List.getElem?_append_left (List.getElem?_eq_some_iff.mp place).1).trans place
    · intro writing
      simp only at writing
      split_ifs at writing

theorem Tracks.truncate (tracks : Tracks floatText writer) (collected : writer.phase = .collected)
    (header : BaselineHeader) : Tracks floatText { writer with
      phase := .writing
      file := some []
      unwritten := writer.reporter.text floatText header } where
  keyed := tracks.keyed
  grows := tracks.grows
  covers := tracks.covers
  current := fun _ => tracks.current (by rw [collected]; exact nofun)
  bounded := tracks.bounded
  document := by
    intro _
    have place := tracks.current (by rw [collected]; exact nofun)
    rw [List.getLast?_eq_getElem?] at place
    have some := (List.getElem?_eq_some_iff.mp place).1
    refine ⟨writer.reporter, header, [], writer.added.length - 1, rfl, rfl, place, ?_, ?_⟩
    · intro last persisted
      exact Nat.le_sub_one_of_lt (tracks.bounded last persisted)
    · exact fun _ => Nat.sub_add_cancel (Nat.one_le_of_lt some)

theorem Tracks.put (tracks : Tracks floatText writer) (writing : writer.phase = .writing)
    {c : Char} {rest : List Char} (next : writer.unwritten = c :: rest) :
    Tracks floatText { writer with
      file := writer.file.map (· ++ [c])
      unwritten := rest } where
  keyed := tracks.keyed
  grows := tracks.grows
  covers := tracks.covers
  current := tracks.current
  bounded := tracks.bounded
  document := by
    intro _
    obtain ⟨reporter, header, text, n, file, whole, place, later, newest⟩ :=
      tracks.document (.inr writing)
    refine ⟨reporter, header, text ++ [c], n, ?_, ?_, place, later, newest⟩
    · rw [file, Option.map_some]
    · rw [List.append_assoc, List.singleton_append, ← next, whole]

theorem Tracks.written (tracks : Tracks floatText writer) (writing : writer.phase = .writing) :
    Tracks floatText { writer with
      phase := .outside
      persisted := some (writer.added.length - 1) } where
  keyed := tracks.keyed
  grows := tracks.grows
  covers := tracks.covers
  current := fun inside => absurd rfl inside
  bounded := by
    rintro last ⟨⟩
    obtain ⟨_, _, _, n, -, -, place, -, -⟩ := tracks.document (.inr writing)
    have some := (List.getElem?_eq_some_iff.mp place).1
    exact Nat.sub_one_lt_of_lt some
  document := by
    intro _
    obtain ⟨reporter, header, text, n, file, whole, place, -, newest⟩ :=
      tracks.document (.inr writing)
    refine ⟨reporter, header, text, n, file, whole, place, ?_, fun outside => nomatch outside⟩
    rintro last ⟨⟩
    rw [← newest writing, Nat.add_sub_cancel]

theorem Tracks.failed (tracks : Tracks floatText writer) :
    Tracks floatText { writer with phase := .outside } where
  keyed := tracks.keyed
  grows := tracks.grows
  covers := tracks.covers
  current := fun inside => absurd rfl inside
  bounded := tracks.bounded
  document := by
    rintro (persisted | writing)
    · obtain ⟨reporter, header, text, n, file, whole, place, later, -⟩ :=
        tracks.document (.inl persisted)
      exact ⟨reporter, header, text, n, file, whole, place, later, fun outside => nomatch outside⟩
    · cases writing

variable {tier : String} {persist : Bool} {prior : List (Result Json)}
  {file : Option (List Char)}

/-- The invariant of a run. -/
theorem tracks_invariant :
    (writerMachine floatText tier persist prior file).Invariant (Tracks floatText) where
  initial := by
    constructor
    case keyed => exact Reporter.keyed_start tier persist prior
    case grows => exact .nil
    case covers => exact List.forall_mem_nil _
    case current => exact fun inside => absurd rfl inside
    case bounded => exact fun _ persisted => nomatch persisted
    case document =>
      rintro (persisted | writing)
      · exact absurd rfl persisted
      · cases writing
  step := by
    intro before label next tracks stepped
    cases label with
    | collect r =>
        simp only [writerMachine] at stepped
        split at stepped
        · cases stepped
          exact tracks.collect r
        · cases stepped
    | truncate header =>
        simp only [writerMachine] at stepped
        split_ifs at stepped with collected
        cases stepped
        exact tracks.truncate collected header
    | put =>
        simp only [writerMachine] at stepped
        split at stepped
        · next c rest writing unwritten =>
            cases stepped
            exact tracks.put writing unwritten
        · cases stepped
    | written =>
        simp only [writerMachine] at stepped
        split_ifs at stepped with done
        cases stepped
        exact tracks.written done.1
    | failed =>
        simp only [writerMachine] at stepped
        split_ifs at stepped
        cases stepped
        exact tracks.failed

end

/-- The results of a baseline are those it was written with. -/
theorem resultsOf_payload (reporter : Reporter Json) (header : BaselineHeader) :
    resultsOf (.obj (reporter.payload floatText header)) =
      reporter.merged.map (asdict floatText) := rfl

/-- A document of which more than the final line feed is missing does not parse. -/
theorem load_torn {reporter : Reporter Json} {header : BaselineHeader} {text unwritten : List Char}
    (whole : text ++ unwritten = reporter.text floatText header) (torn : 1 < unwritten.length) :
    load (some text) = none := by
  rcases List.eq_nil_or_concat unwritten with rfl | ⟨front, last, rfl⟩
  · cases torn
  · rw [List.concat_eq_append] at whole torn
    rw [Reporter.text, ← List.append_assoc] at whole
    obtain ⟨document, -⟩ := List.append_inj' whole rfl
    rw [List.length_append, List.length_singleton] at torn
    have unfinished : front ≠ [] := List.ne_nil_of_length_pos (Nat.lt_of_succ_lt_succ torn)
    exact Foundation.loads_cut document.symm unfinished

/-- A document of which at most the final line feed is missing does. -/
theorem load_whole {reporter : Reporter Json} {header : BaselineHeader} {text unwritten : List Char}
    (whole : text ++ unwritten = reporter.text floatText header) (most : unwritten.length ≤ 1) :
    load (some text) = some (.obj (reporter.payload floatText header)) := by
  rcases unwritten with _ | ⟨c, _ | ⟨d, rest⟩⟩
  · rw [List.append_nil] at whole
    rw [whole]
    exact Foundation.loads_dumps_blank _ _ (List.forall_mem_singleton.mpr rfl)
  · obtain ⟨document, -⟩ := List.append_inj' whole rfl
    rw [document]
    exact Foundation.loads_dumps _ _
  · exact absurd most (by simp only [List.length_cons]; omega)

variable {floatText} in
theorem Tracks.later_covers {writer : BaselineWriter} (tracks : Tracks floatText writer)
    {i j : ℕ} (order : i ≤ j) {earlier later : List (Result Json)}
    (before : writer.added[i]? = some earlier) (after : writer.added[j]? = some later) :
    Covers later earlier := by
  rcases order.eq_or_lt with rfl | less
  · cases before.symm.trans after
    exact Covers.refl _
  · obtain ⟨inside, rfl⟩ := List.getElem?_eq_some_iff.mp before
    obtain ⟨inside, rfl⟩ := List.getElem?_eq_some_iff.mp after
    exact List.pairwise_iff_getElem.mp tracks.grows i j _ _ less

/-- In every state a run reaches, what was persisted is kept exactly when nothing
was persisted yet or at most the final line feed of the last document is missing. -/
theorem keepsBaseline_iff {tier : String} {persist : Bool} {prior : List (Result Json)}
    {file : Option (List Char)} {steps : List WriterStep} {writer : BaselineWriter}
    (reached : (writerMachine floatText tier persist prior file).run steps = some writer) :
    KeepsBaseline floatText writer ↔
      (writer.persisted ≠ none → writer.unwritten.length ≤ 1) := by
  have tracks : Tracks floatText writer := tracks_invariant.run reached
  constructor
  · intro keeps persisted
    obtain ⟨last, isLast⟩ := Option.ne_none_iff_exists'.mp persisted
    obtain ⟨baseline, loaded, -⟩ := keeps last isLast
    obtain ⟨reporter, header, text, n, same, whole, -⟩ := tracks.document (.inl persisted)
    by_contra torn
    rw [same, load_torn floatText whole (not_le.mp torn)] at loaded
    cases loaded
  · intro most last isLast
    have persisted : writer.persisted ≠ none := by
      rw [isLast]
      exact nofun
    obtain ⟨reporter, header, text, n, same, whole, place, later, -⟩ :=
      tracks.document (.inl persisted)
    refine ⟨_, ?_, n, reporter.merged, later last isLast, place,
      resultsOf_payload floatText reporter header, ?_⟩
    · rw [same]
      exact load_whole floatText whole (most persisted)
    · intro earlier before
      exact tracks.later_covers (later last isLast) before place

section

variable {tier : String} {persist : Bool} {prior : List (Result Json)}
  {file : Option (List Char)}

/-- Character by character the rest of the document reaches the file. -/
theorem runFrom_put (writer : BaselineWriter) (writing : writer.phase = .writing) :
    (writerMachine floatText tier persist prior file).runFrom writer
        (List.replicate writer.unwritten.length .put) =
      some { writer with file := writer.file.map (· ++ writer.unwritten), unwritten := [] } := by
  obtain ⟨reporter, phase, contents, unwritten, added, persisted⟩ := writer
  cases writing
  induction unwritten generalizing contents with
  | nil =>
      simp only [List.length_nil, List.replicate_zero, Machine.runFrom_nil, List.append_nil,
        Option.map_id']
  | cons c rest ih =>
      rw [List.length_cons, List.replicate_succ, Machine.runFrom_cons]
      change ((writerMachine floatText tier persist prior file).runFrom _ _) = _
      rw [ih (contents.map (· ++ [c]))]
      simp only [Option.map_map, Function.comp_def, List.append_assoc, List.singleton_append]

/-- The first `add` of a run, with its document in the file. -/
def firstAdded (tier : String) (prior : List (Result Json)) (r : Result Json)
    (header : BaselineHeader) : BaselineWriter :=
  let reporter := ((Reporter.new tier true).seedFrom prior).collect r
  ⟨reporter, .outside, some (reporter.text floatText header), [], [reporter.merged], some 0⟩

/-- An `add` that is not interrupted leaves its document in the file. -/
theorem run_firstAdded (r : Result Json) (header : BaselineHeader) : ∃ steps,
    (writerMachine floatText tier true prior file).run steps =
      some (firstAdded floatText tier prior r header) := by
  let reporter := ((Reporter.new tier true).seedFrom prior).collect r
  let collected : BaselineWriter := ⟨reporter, .collected, file, [], [reporter.merged], none⟩
  let opened : BaselineWriter :=
    { collected with
      phase := .writing
      file := some []
      unwritten := reporter.text floatText header }
  have first : (writerMachine floatText tier true prior file).step
      (writerMachine floatText tier true prior file).initial (.collect r) = some collected := rfl
  have second : (writerMachine floatText tier true prior file).step collected
      (.truncate header) = some opened := rfl
  refine ⟨.collect r :: .truncate header ::
    (List.replicate opened.unwritten.length .put ++ [.written]), ?_⟩
  rw [Machine.run, Machine.runFrom_cons, first, Option.bind_some, Machine.runFrom_cons, second,
    Option.bind_some, Machine.runFrom_append, runFrom_put floatText opened rfl, Option.bind_some]
  rfl

end

def ampduPassed : Result Json := ⟨"T2", "ampdu", .pass, "", 0, "", .obj []⟩

def noHeader : BaselineHeader := ⟨"", "", "", 0⟩

/-- One result, written to its end. -/
theorem firstAdded_kept : ∃ steps,
    (writerMachine roundTenths "T2" true [] none).run steps =
        some (firstAdded roundTenths "T2" [] ampduPassed noHeader) ∧
      KeepsBaseline roundTenths (firstAdded roundTenths "T2" [] ampduPassed noHeader) := by
  obtain ⟨steps, reached⟩ := @run_firstAdded roundTenths "T2" [] none ampduPassed noHeader
  exact ⟨steps, reached, (keepsBaseline_iff roundTenths reached).mpr fun _ => Nat.zero_le 1⟩

/-- A run killed when its second `write` has emptied the file: the results of the
first `add`, which had been persisted, are gone. -/
theorem killedWriting_lost : ¬ ∀ (floatText : ℚ → Foundation.Bare) tier persist prior file steps
    writer, (writerMachine floatText tier persist prior file).run steps = some writer →
      KeepsBaseline floatText writer := by
  intro always
  obtain ⟨steps, one⟩ := @run_firstAdded roundTenths "T2" [] none ampduPassed noHeader
  let next : List WriterStep :=
    [.collect ⟨"T2", "fault", .pass, "", 0, "", .obj []⟩, .truncate noHeader]
  have two : (writerMachine roundTenths "T2" true [] none).run (steps ++ next) =
      (writerMachine roundTenths "T2" true [] none).runFrom
        (firstAdded roundTenths "T2" [] ampduPassed noHeader) next := by
    rw [Machine.run, Machine.runFrom_append, ← Machine.run, one, Option.bind_some]
  obtain ⟨baseline, loaded, -⟩ := always _ _ _ _ _ _ _ two 0 rfl
  cases loaded

end

end Rimba.Regtest
