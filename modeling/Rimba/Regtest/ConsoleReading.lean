import Rimba.Regtest.Console

/-! # What is read of a console

The regular expressions stay in their line, so each line of a console is read on its
own. A quoted RESULT or STEP is read like a reported one
(`Rimba.Regtest.infoLine_recorded`). The verdict and the failed steps are recorded as
reported exactly when no line before the RESULT line shadows it and every line reads
as what it is; a console without a RESULT line and several consoles are recorded as
their own RESULT lines make them exactly when the RESULT-shaped texts on their other
lines are harmless (`Rimba.Regtest.console_recorded_iff`).
-/

namespace Rimba.Regtest

open Foundation (after firstWord restOfLine unlines isSpace splitlines rstrip)

theorem resultFront_line : Foundation.LineFront resultFront where
  lineBreak rest := rfl
  inLine text rest line := by
    rw [resultFront, Foundation.after_line (by decide)]
    cases tagged : after resultTag text with
    | none => simp only [resultFront, tagged, Option.map_none, Option.bind_none]
    | some body =>
        simp only [resultFront, tagged, Option.map_some, Option.bind_some]
        exact Foundation.firstWord_line (by decide) body rest
  behind text found front := by
    obtain ⟨body, tagged, first⟩ := Option.bind_eq_some_iff.mp front
    obtain ⟨word, _, rfl⟩ := Foundation.firstWord_eq_some first
    rw [Foundation.after_eq_some.mp tagged, ← List.append_assoc]
    exact List.suffix_append ..

theorem stepName_line {text : List Char} (line : '\n' ∉ text) (rest : List Char) :
    stepName (text ++ '\n' :: rest) =
      (stepName text).map fun found => (found.1, found.2 ++ '\n' :: rest) := by
  induction text with
  | nil => rfl
  | cons c text ih =>
      have later : '\n' ∉ text := fun member => line (List.mem_cons_of_mem _ member)
      simp only [List.cons_append, stepName]
      by_cases space : isSpace c = true
      · simp only [space, ↓reduceIte, Option.map_none]
      · have outcome : ∀ word ∈ outcomeWords, '\n' ∉ word.1 := by decide
        simp only [space, Bool.false_eq_true, ↓reduceIte,
          Foundation.firstWord_line outcome text rest]
        cases firstWord outcomeWords text with
        | some found => rfl
        | none =>
            simp only [Option.map_none, ih later, Option.map_map]
            rfl

theorem mem_outcomeWords {word : List Char} {ok : Bool} :
    (word, ok) ∈ outcomeWords ↔ word = outcomeText ok := by
  cases ok <;> simp only [outcomeWords, outcomeText, List.mem_cons, Prod.mk.injEq,
    Bool.true_eq_false, Bool.false_eq_true, and_true, and_false, or_false, false_or,
    List.not_mem_nil, ↓reduceIte]

/-- No outcome begins inside a text that has none there when a bar follows. -/
theorem firstWord_bar {back : List Char} (nonempty : back ≠ [])
    (apart : firstWord outcomeWords (back ++ ['|']) = none) (rest : List Char) :
    firstWord outcomeWords (back ++ '|' :: rest) = none := by
  rw [Foundation.firstWord_eq_none] at apart ⊢
  rintro ⟨word, ok⟩ member ⟨tail, split⟩
  refine apart _ member ?_
  have barred : '|' ∉ word.tail.dropLast := by
    rw [mem_outcomeWords.mp member]
    cases ok <;> decide
  rcases List.append_eq_append_iff.mp split with ⟨more, inside, _⟩ | ⟨more, inside, behind⟩
  · exact ⟨more ++ ['|'], by rw [inside, List.append_assoc]⟩
  · cases more with
    | nil => exact ⟨['|'], by rw [inside, List.append_nil]⟩
    | cons bar more =>
        rw [List.cons_append, List.cons.injEq] at behind
        obtain ⟨rfl, _⟩ := behind
        cases more with
        | nil => exact ⟨[], by rw [inside, List.append_nil]⟩
        | cons c more =>
            obtain ⟨b, back, rfl⟩ := List.exists_cons_of_ne_nil nonempty
            refine (barred ?_).elim
            simp only at inside
            rw [inside, List.cons_append, List.tail_cons, List.dropLast_append_of_ne_nil
              (List.cons_ne_nil _ _), List.dropLast_cons_of_ne_nil (List.cons_ne_nil _ _)]
            exact List.mem_append_right _ List.mem_cons_self

/-- What the step expression captures: a readable name, then an outcome. -/
theorem stepName_eq_some {text name detail : List Char} {ok : Bool}
    (found : stepName text = some ((name, ok), detail)) :
    text = name ++ (outcomeText ok ++ detail) ∧ ReadableName name := by
  induction text generalizing name with
  | nil => cases found
  | cons c text ih =>
      by_cases space : isSpace c = true
      · simp only [stepName, space, ↓reduceIte, reduceCtorEq] at found
      rw [Bool.not_eq_true] at space
      cases outcome : firstWord outcomeWords text with
      | some read =>
          simp only [stepName, space, Bool.false_eq_true, ↓reduceIte, outcome, Option.some.injEq,
            Prod.mk.injEq] at found
          obtain ⟨⟨rfl, rfl⟩, rfl⟩ := found
          obtain ⟨word, member, rfl⟩ := Foundation.firstWord_eq_some outcome
          rw [mem_outcomeWords.mp member]
          refine ⟨rfl, List.cons_ne_nil _ _, ?_, fun rest inside => ?_⟩
          · simpa only [List.mem_singleton, forall_eq] using space
          · rcases List.suffix_cons_iff.mp inside with rfl | empty
            · rfl
            · rw [List.suffix_nil.mp empty]
              rfl
      | none =>
          simp only [stepName, space, Bool.false_eq_true, ↓reduceIte, outcome,
            Option.map_eq_some_iff, Prod.mk.injEq] at found
          obtain ⟨⟨⟨shorter, read⟩, behind⟩, inner, ⟨longer, same⟩, sameDetail⟩ := found
          simp only at longer same sameDetail
          subst longer same sameDetail
          obtain ⟨rfl, readable⟩ := ih inner
          refine ⟨rfl, List.cons_ne_nil _ _, ?_, fun rest inside => ?_⟩
          · exact List.forall_mem_cons.mpr ⟨space, readable.solid⟩
          · obtain ⟨d, shorter, rfl⟩ := List.exists_cons_of_ne_nil readable.nonempty
            rcases List.suffix_cons_iff.mp inside with rfl | deeper
            · rw [Foundation.firstWord_eq_none] at outcome ⊢
              intro word member cut
              refine outcome word member (cut.trans ?_)
              refine (List.prefix_append_right_inj (d :: shorter)).mpr ?_
              cases read <;> exact ⟨_, rfl⟩
            · exact readable.whole rest deeper

/-- A readable name is captured whole. -/
theorem ReadableName.stepName {name : List Char} (readable : ReadableName name) (ok : Bool)
    (detail : List Char) :
    stepName (name ++ (outcomeText ok ++ detail)) = some ((name, ok), detail) := by
  induction name with
  | nil => exact (readable.nonempty rfl).elim
  | cons c name ih =>
      obtain ⟨space, solid⟩ := List.forall_mem_cons.mp readable.solid
      cases name with
      | nil =>
          have outcome : firstWord outcomeWords (outcomeText ok ++ detail) = some (ok, detail) := by
            cases ok <;> rfl
          simp only [List.cons_append, List.nil_append, Regtest.stepName, space, Bool.false_eq_true,
            ↓reduceIte, outcome]
      | cons d name =>
          have outcome :
              firstWord outcomeWords (d :: name ++ (outcomeText ok ++ detail)) = none := by
            have apart := readable.whole _ (List.suffix_refl _)
            cases ok <;> exact firstWord_bar (List.cons_ne_nil _ _) apart _
          have inner := ih ⟨List.cons_ne_nil _ _, solid, fun rest inside =>
            readable.whole rest (inside.trans (List.suffix_cons ..))⟩
          simp only [List.cons_append] at outcome inner ⊢
          rw [Regtest.stepName]
          simp only [space, Bool.false_eq_true, ↓reduceIte, outcome, inner, Option.map_some]

theorem stepFront_line : Foundation.LineFront stepFront where
  lineBreak rest := rfl
  inLine text rest line := by
    rw [stepFront, Foundation.after_line (by decide)]
    cases tagged : after stepTag text with
    | none => simp only [stepFront, tagged, Option.map_none, Option.bind_none]
    | some body =>
        have inside : body <:+ text := ⟨stepTag, (Foundation.after_eq_some.mp tagged).symm⟩
        simp only [stepFront, tagged, Option.map_some, Option.bind_some]
        exact stepName_line (fun member => line (inside.mem member)) rest
  behind text found front := by
    obtain ⟨body, tagged, captured⟩ := Option.bind_eq_some_iff.mp front
    rw [Foundation.after_eq_some.mp tagged, (stepName_eq_some captured).1, ← List.append_assoc,
      ← List.append_assoc]
    exact List.suffix_append ..

theorem reResult_toLineEnd : reResult.ToLineEnd := resultFront_line.restOfLine

theorem reStep_toLineEnd : reStep.ToLineEnd := stepFront_line.restOfLine

/-- The text is what the macro of a RESULT line prints. -/
def ResultShaped (text : List Char) : Prop :=
  ∃ verdict detail, text = resultText verdict detail

/-- A line contains RESULT-shaped text, and the first of it has this verdict. -/
def QuotesResult (line : List Char) (verdict : ReportedVerdict) : Prop :=
  ∃ detail, resultText verdict detail <:+ line ∧
    ∀ other, other <:+ line → ResultShaped other → other <:+ resultText verdict detail

/-- The first of some lines that contains RESULT-shaped text says this verdict. -/
def FirstQuoted (lines : List (List Char)) (verdict : ReportedVerdict) : Prop :=
  ∃ earlier line later, lines = earlier ++ line :: later ∧ QuotesResult line verdict ∧
    ∀ other ∈ earlier, ∀ read, ¬ QuotesResult other read

theorem resultFront_eq_some {text detail : List Char} {verdict : ReportedVerdict} :
    resultFront text = some (verdict, detail) ↔ text = resultText verdict detail := by
  constructor
  · intro front
    obtain ⟨body, tagged, first⟩ := Option.bind_eq_some_iff.mp front
    obtain ⟨word, member, rfl⟩ := Foundation.firstWord_eq_some first
    have barred : word = verdict.word.toList ++ ['|'] := by
      revert member
      simp only [verdictWords, List.mem_cons, Prod.mk.injEq, List.not_mem_nil, or_false]
      rintro (⟨rfl, rfl⟩ | ⟨rfl, rfl⟩ | ⟨rfl, rfl⟩) <;> rfl
    rw [Foundation.after_eq_some.mp tagged, barred, resultText, List.append_assoc,
      List.singleton_append]
  · rintro rfl
    rw [resultFront, resultText, Foundation.after_append, Option.bind_some]
    cases verdict <;> rfl

theorem resultText_reads (verdict : ReportedVerdict) {detail : List Char} (line : '\n' ∉ detail) :
    reResult.search (resultText verdict detail) = some (verdict, detail) :=
  Foundation.restOfLine_search (by cases verdict <;> exact List.cons_ne_nil _ _) line
    (resultFront_eq_some.mpr rfl)

/-- In one line the result expression matches RESULT-shaped text whole. -/
theorem reResult_eq_some {text detail : List Char} {verdict : ReportedVerdict} {taken : ℕ}
    (line : '\n' ∉ text) :
    reResult text = some ((verdict, detail), taken) ↔
      text = resultText verdict detail ∧ taken = text.length := by
  constructor
  · intro matched
    have whole := reResult_toLineEnd.taken text _ _ line matched
    obtain ⟨front, fronted, same⟩ := Option.map_eq_some_iff.mp matched
    have inside := resultFront_line.behind text front fronted
    have behindLine : '\n' ∉ front.2 := fun member => line (inside.mem member)
    simp only [Foundation.takeWhile_line behindLine, Prod.mk.injEq] at same
    obtain ⟨⟨rfl, rfl⟩, _⟩ := same
    exact ⟨resultFront_eq_some.mp fronted, whole⟩
  · rintro ⟨rfl, rfl⟩
    have behindLine : '\n' ∉ detail := fun member => line <| by
      rw [resultText, List.mem_append, List.mem_append, List.mem_cons]
      exact .inr (.inr (.inr member))
    have front : resultFront (resultText verdict detail) = some (verdict, detail) :=
      resultFront_eq_some.mpr rfl
    have inside : detail <:+ resultText verdict detail :=
      resultFront_line.behind _ _ front
    simp only [reResult, restOfLine, front, Option.map_some, Foundation.takeWhile_line behindLine,
      Nat.sub_add_cancel inside.length_le]

theorem reResult_ne_none {text : List Char} (line : '\n' ∉ text) :
    reResult text ≠ none ↔ ResultShaped text := by
  rw [Option.ne_none_iff_exists']
  constructor
  · rintro ⟨⟨⟨verdict, detail⟩, taken⟩, matched⟩
    exact ⟨verdict, detail, ((reResult_eq_some line).mp matched).1⟩
  · rintro ⟨verdict, detail, shaped⟩
    exact ⟨_, (reResult_eq_some line).mpr ⟨shaped, rfl⟩⟩

/-- A line is read as the verdict of its first RESULT-shaped text. -/
theorem search_quotes {line : List Char} (inLine : '\n' ∉ line) (verdict : ReportedVerdict) :
    (reResult.search line).map Prod.fst = some verdict ↔ QuotesResult line verdict := by
  have within : ∀ {text}, text <:+ line → '\n' ∉ text := fun inside member =>
    inLine (inside.mem member)
  constructor
  · intro read
    obtain ⟨⟨same, detail⟩, searched, rfl⟩ := Option.map_eq_some_iff.mp read
    obtain ⟨suffix, taken, inside, _, matched, longest⟩ :=
      Foundation.Pattern.search_eq_some.mp searched
    obtain ⟨rfl, _⟩ := (reResult_eq_some (within inside)).mp matched
    refine ⟨detail, inside, fun other deeper shaped => longest other deeper ?_ ?_⟩
    · obtain ⟨read, text, rfl⟩ := shaped
      exact List.cons_ne_nil _ _
    · exact (reResult_ne_none (within deeper)).mpr shaped
  · rintro ⟨detail, inside, longest⟩
    have searched : reResult.search line = some (verdict, detail) :=
      Foundation.Pattern.search_eq_some.mpr ⟨resultText verdict detail, _, inside,
        List.cons_ne_nil _ _, (reResult_eq_some (within inside)).mpr ⟨rfl, rfl⟩,
        fun other deeper _ matched =>
          longest other deeper ((reResult_ne_none (within deeper)).mp matched)⟩
    rw [searched, Option.map_some]

theorem search_eq_none {line : List Char} (inLine : '\n' ∉ line) :
    reResult.search line = none ↔ ∀ verdict, ¬ QuotesResult line verdict := by
  rw [← Option.map_eq_none_iff (f := Prod.fst), Option.eq_none_iff_forall_ne_some]
  exact forall_congr' fun verdict => not_congr (search_quotes inLine verdict)

/-- Lines are read as the verdict of the first that contains RESULT-shaped text. -/
theorem findSome_quoted {lines : List (List Char)} (inLine : ∀ line ∈ lines, '\n' ∉ line)
    (verdict : ReportedVerdict) :
    (lines.findSome? reResult.search).map Prod.fst = some verdict ↔ FirstQuoted lines verdict := by
  have readOf : ∀ line ∈ lines, (reResult.search line).map Prod.fst = some verdict ↔
      QuotesResult line verdict := fun line member => search_quotes (inLine line member) verdict
  constructor
  · intro read
    obtain ⟨found, first, rfl⟩ := Option.map_eq_some_iff.mp read
    obtain ⟨earlier, line, later, rfl, searched, none⟩ := List.findSome?_eq_some_iff.mp first
    refine ⟨earlier, line, later, rfl, ?_, fun other member => ?_⟩
    · exact (readOf line (List.mem_append_right _ List.mem_cons_self)).mp (by rw [searched]; rfl)
    · exact (search_eq_none (inLine other (List.mem_append_left _ member))).mp (none other member)
  · rintro ⟨earlier, line, later, rfl, quotes, quiet⟩
    have searched := (readOf line (List.mem_append_right _ List.mem_cons_self)).mpr quotes
    obtain ⟨found, first, rfl⟩ := Option.map_eq_some_iff.mp searched
    refine Option.map_eq_some_iff.mpr ⟨found, ?_, rfl⟩
    refine List.findSome?_eq_some_iff.mpr ⟨earlier, line, later, rfl, first, fun other member => ?_⟩
    exact (search_eq_none (inLine other (List.mem_append_left _ member))).mpr (quiet other member)

/-- A step with a readable name reads as itself. -/
theorem ReadableName.stepReads {name : List Char} (readable : ReadableName name) (ok : Bool)
    {detail : List Char} (line : '\n' ∉ detail) :
    reStep.search (stepTag ++ (name ++ (outcomeText ok ++ detail))) =
      some ((name, ok), detail) := by
  refine Foundation.restOfLine_search (List.cons_ne_nil _ _) line ?_
  rw [stepFront, Foundation.after_append, Option.bind_some]
  exact readable.stepName ok detail

/-- Whatever reads as a step has a readable name. -/
theorem readable_of_search {text : List Char} {read : (List Char × Bool) × List Char}
    (found : reStep.search text = some read) : ReadableName read.1.1 := by
  obtain ⟨suffix, taken, _, matched⟩ := Foundation.Pattern.search_suffix found
  obtain ⟨front, fronted, same⟩ := Option.map_eq_some_iff.mp matched
  obtain ⟨body, _, captured⟩ := Option.bind_eq_some_iff.mp fronted
  have readable := (stepName_eq_some captured).2
  simp only [Prod.mk.injEq] at same
  rw [← same.1]
  exact readable

theorem ReportLine.text_inLine (line : ReportLine) : '\n' ∉ line.text := by
  have notIn : ∀ front back : List Char, '\n' ∉ front → '\n' ∉ back → '\n' ∉ front ++ back :=
    fun front back inFront inBack member =>
      (List.mem_append.mp member).elim inFront inBack
  cases line with
  | begin name rig =>
      exact notIn _ _ (notIn _ _ (notIn _ _ (by decide) name.2) (by decide)) rig.2
  | info text => exact notIn _ _ (by decide) text.2
  | step name ok detail =>
      refine notIn _ _ (by decide) (notIn _ _ name.2 (notIn _ _ ?_ detail.2))
      cases ok <;> decide
  | done name => exact notIn _ _ (by decide) name.2
  | other text plain => exact text.2

theorem ReportLine.failedStep_eq_some {line : ReportLine} {name : List Char}
    (failed : line.failedStep = some name) :
    ∃ detail, '\n' ∉ detail ∧ line.text = stepTag ++ (name ++ (outcomeText false ++ detail)) := by
  unfold ReportLine.failedStep at failed
  split at failed
  · next step detail =>
      cases failed
      exact ⟨detail.1, detail.2, rfl⟩
  · cases failed

namespace ReporterRun

variable {run : ReporterRun}

theorem resultText_inLine (run : ReporterRun) : '\n' ∉ resultText run.verdict run.detail.1 := by
  rw [resultText, List.mem_append, List.mem_append, List.mem_cons]
  rintro (member | member | member | member)
  · exact absurd member (by decide)
  · revert member
    cases run.verdict <;> decide
  · exact absurd member (by decide)
  · exact run.detail.2 member

theorem lines_inLine {line : List Char × Option (List Char)} (member : line ∈ run.lines) :
    '\n' ∉ line.1 := by
  rcases List.mem_append.mp member with before | here
  · obtain ⟨reported, _, rfl⟩ := List.mem_map.mp before
    exact reported.text_inLine
  rcases List.mem_cons.mp here with rfl | later
  · exact run.resultText_inLine
  · obtain ⟨reported, _, rfl⟩ := List.mem_map.mp later
    exact reported.text_inLine

theorem lines_failed {line : List Char × Option (List Char)} (member : line ∈ run.lines)
    {name : List Char} (failed : line.2 = some name) :
    ∃ detail, '\n' ∉ detail ∧ line.1 = stepTag ++ (name ++ (outcomeText false ++ detail)) := by
  rcases List.mem_append.mp member with before | here
  · obtain ⟨reported, _, rfl⟩ := List.mem_map.mp before
    exact ReportLine.failedStep_eq_some failed
  rcases List.mem_cons.mp here with rfl | later
  · cases failed
  · obtain ⟨reported, _, rfl⟩ := List.mem_map.mp later
    exact ReportLine.failedStep_eq_some failed

theorem texts_inLine (run : ReporterRun) : ∀ text ∈ run.lines.map Prod.fst, '\n' ∉ text := by
  intro text member
  obtain ⟨line, inLines, rfl⟩ := List.mem_map.mp member
  exact lines_inLine inLines

/-- **The recorded steps.** The failed steps are recorded as reported exactly
when every line is readable. -/
theorem failedSteps_eq_iff (run : ReporterRun) :
    failedSteps run.log = run.failed ↔ run.StepsReadable := by
  have read : failedSteps run.log =
      run.lines.filterMap fun line => (reStep.search line.1).bind failedName := by
    rw [failedSteps, log, Foundation.Pattern.findAll_unlines reStep_toLineEnd run.texts_inLine,
      List.filterMap_map, List.filterMap_filterMap]
    rfl
  have readGood : ∀ line ∈ run.lines,
      ∀ name ∈ (reStep.search line.1).bind failedName, ReadableName name := by
    intro line _ name member
    obtain ⟨found, searched, named⟩ := Option.bind_eq_some_iff.mp member
    unfold failedName at named
    split at named
    · cases named
    · cases named
      exact readable_of_search searched
  have expectRead : ∀ line ∈ run.lines, ∀ name ∈ line.2, ReadableName name →
      (reStep.search line.1).bind failedName = some name := by
    intro line member name expected readable
    obtain ⟨detail, inLine, text⟩ := lines_failed member expected
    rw [text, readable.stepReads false inLine]
    rfl
  rw [read, failed, Foundation.filterMap_eq_iff_forall readGood expectRead]
  refine forall₂_congr fun line member => ?_
  cases expected : line.2 with
  | some name =>
      exact ⟨readGood line member name, expectRead line member name expected⟩
  | none =>
      simp only [Option.bind_eq_none_iff, failedName]
      refine forall₂_congr fun found _ => ?_
      cases found.1.2 <;> simp only [Bool.false_eq_true, ↓reduceIte, reduceCtorEq]

/-- The verdict read from a run's console is the first one that a line before
its RESULT line reads as, or its own. -/
theorem search_log (run : ReporterRun) :
    reResult.search run.log =
      (run.before.findSome? fun line => reResult.search line.text).or
        (some (run.verdict, run.detail.1)) := by
  rw [log, Foundation.Pattern.search_unlines reResult_toLineEnd run.texts_inLine, lines,
    List.map_append, List.findSome?_append, List.map_map, List.findSome?_map, List.map_cons,
    List.findSome?_cons, resultText_reads run.verdict run.detail.2]
  rfl

/-- **The recorded status.** A run's own verdict is recorded exactly when no line
before its RESULT line shadows it. -/
theorem recordVerdict_status_iff {Meta : Type*} (run : ReporterRun) (slug : String) (dur : ℚ)
    (info : Meta) :
    (recordVerdict slug run.log dur info).status = run.verdict.status ↔ run.Unshadowed := by
  have distinct : ∀ first second : ReportedVerdict, first.status = second.status ↔
      first = second := by
    intro first second
    cases first <;> cases second <;> decide
  unfold recordVerdict Unshadowed
  rw [run.search_log]
  cases run.before.findSome? fun line => reResult.search line.text with
  | none => simp only [Option.none_or, Option.mem_def, reduceCtorEq, false_imp_iff, implies_true]
  | some read =>
      simp only [Option.some_or, distinct, Option.mem_def, Option.some.injEq, forall_eq']

end ReporterRun

/-- A verdict that says FAIL or is missing. -/
def Fails (verdict : Option ReportedVerdict) : Prop :=
  verdict = none ∨ verdict = some .fail

/-- The console of one reporter: a run that reported, or lines none of which is a
RESULT line, the last of them cut short. -/
inductive ReporterConsole where
  | reported (run : ReporterRun)
  | silent (ended : List LineText) (cut : LineText)
      (noResult : ∀ line ∈ ended ++ [cut], ¬ resultTag <+: line.1)

namespace ReporterConsole

/-- The lines ahead of a console's own RESULT line. -/
def ahead : ReporterConsole → List (List Char)
  | .reported run => run.before.map ReportLine.text
  | .silent ended cut _ => ended.map Subtype.val ++ [cut.1]

/-- The log captured from a console. -/
def log : ReporterConsole → List Char
  | .reported run => run.log
  | .silent ended cut _ => unlines (ended.map Subtype.val) ++ cut.1

/-- The verdict of the console's own RESULT line. -/
def own : ReporterConsole → Option ReportedVerdict
  | .reported run => some run.verdict
  | .silent .. => none

/-- The first RESULT-shaped text ahead of the console's own RESULT line has this
verdict. -/
def Quotes (console : ReporterConsole) (verdict : ReportedVerdict) : Prop :=
  FirstQuoted console.ahead verdict

/-- No line ahead of the console's own RESULT line contains RESULT-shaped text. -/
def QuotesNothing (console : ReporterConsole) : Prop :=
  ∀ verdict, ¬ console.Quotes verdict

/-- What is read of the lines ahead of the console's own RESULT line. -/
def quoted (console : ReporterConsole) : Option ReportedVerdict :=
  (console.ahead.findSome? reResult.search).map Prod.fst

theorem ahead_inLine (console : ReporterConsole) : ∀ line ∈ console.ahead, '\n' ∉ line := by
  intro line member
  cases console with
  | reported run =>
      obtain ⟨reported, _, rfl⟩ := List.mem_map.mp member
      exact reported.text_inLine
  | silent ended cut noResult =>
      rcases List.mem_append.mp member with inEnded | last
      · obtain ⟨text, _, rfl⟩ := List.mem_map.mp inEnded
        exact text.2
      · rw [List.mem_singleton.mp last]
        exact cut.2

theorem quoted_eq_some {console : ReporterConsole} {verdict : ReportedVerdict} :
    console.quoted = some verdict ↔ console.Quotes verdict :=
  findSome_quoted console.ahead_inLine verdict

/-- One verdict is quoted first. -/
theorem Quotes.unique {console : ReporterConsole} {first second : ReportedVerdict}
    (quotes : console.Quotes first) (other : console.Quotes second) : first = second := by
  have same := quoted_eq_some.mpr quotes
  rw [quoted_eq_some.mpr other, Option.some.injEq] at same
  exact same.symm

theorem quoted_eq_none {console : ReporterConsole} :
    console.quoted = none ↔ console.QuotesNothing := by
  rw [Option.eq_none_iff_forall_ne_some]
  exact forall_congr' fun verdict => not_congr quoted_eq_some

/-- A log is read as what is quoted ahead of the console's own RESULT line, or as
that line. -/
theorem search_log (console : ReporterConsole) :
    (reResult.search console.log).map Prod.fst = console.quoted.or console.own := by
  cases console with
  | reported run =>
      rw [log, run.search_log, Option.map_or, quoted, ahead, List.findSome?_map]
      rfl
  | silent ended cut noResult =>
      have inLine : ∀ text ∈ ended.map Subtype.val, '\n' ∉ text := by
        intro text member
        obtain ⟨line, _, rfl⟩ := List.mem_map.mp member
        exact line.2
      rw [log, Foundation.Pattern.search_unlines_append reResult_toLineEnd inLine, own,
        Option.or_none, quoted, ahead, List.findSome?_append, List.findSome?_singleton]

/-- A log is read as a verdict when it is quoted first, or nothing is and the
console's own RESULT line says it. -/
theorem read_eq_some {console : ReporterConsole} {verdict : ReportedVerdict} :
    console.quoted.or console.own = some verdict ↔
      console.Quotes verdict ∨ console.own = some verdict ∧ console.QuotesNothing := by
  rw [← quoted_eq_some, ← quoted_eq_none]
  cases console.quoted with
  | none => simp only [Option.none_or, reduceCtorEq, and_true, false_or]
  | some first => simp only [Option.some_or, reduceCtorEq, and_false, or_false]

/-- A log is read as FAIL or not at all when FAIL is quoted first, or nothing is
and the console's own RESULT line fails. -/
theorem read_fails {console : ReporterConsole} :
    Fails (console.quoted.or console.own) ↔
      console.Quotes .fail ∨ Fails console.own ∧ console.QuotesNothing := by
  rw [← quoted_eq_some, ← quoted_eq_none]
  cases console.quoted with
  | none => simp only [Option.none_or, reduceCtorEq, and_true, false_or]
  | some first => simp only [Fails, Option.some_or, reduceCtorEq, false_or, and_false, or_false]

end ReporterConsole

/-- The RESULT-shaped texts quoted on several consoles leave the verdict that the
consoles' own RESULT lines combine to. -/
structure QuotesHarmless (consoles : List ReporterConsole) : Prop where
  /-- When an own RESULT line fails, a console that is read as FAIL or not at all
  remains. -/
  failing : (∃ console ∈ consoles, Fails console.own) →
    ∃ console ∈ consoles, console.Quotes .fail ∨ Fails console.own ∧ console.QuotesNothing
  /-- When all own RESULT lines pass, nothing but PASS is quoted first. -/
  passing : (∀ console ∈ consoles, console.own = some .pass) →
    ∀ console ∈ consoles, ∀ verdict, console.Quotes verdict → verdict = .pass
  /-- When an own RESULT line is inconclusive and none fails, FAIL is quoted first
  nowhere, and an INCONCLUSIVE reading remains. -/
  doubtful : (∀ console ∈ consoles, ¬ Fails console.own) →
    (∃ console ∈ consoles, console.own = some .inconclusive) →
    (∀ console ∈ consoles, ¬ console.Quotes .fail) ∧
      ∃ console ∈ consoles, console.Quotes .inconclusive ∨
        console.own = some .inconclusive ∧ console.QuotesNothing

/-- Quotes that agree with the own RESULT line of their console are harmless. -/
theorem QuotesHarmless.of_own {consoles : List ReporterConsole}
    (agree : ∀ console ∈ consoles, ∀ verdict, console.Quotes verdict →
      console.own = some verdict) : QuotesHarmless consoles where
  failing := by
    rintro ⟨console, member, fails⟩
    refine ⟨console, member, ?_⟩
    by_cases quotes : console.Quotes .fail
    · exact .inl quotes
    · refine .inr ⟨fails, fun verdict other => ?_⟩
      have same := agree console member verdict other
      rcases fails with missing | failed
      · rw [missing] at same
        cases same
      · rw [failed, Option.some.injEq] at same
        exact quotes (same ▸ other)
  passing all console member verdict quotes := by
    have same := agree console member verdict quotes
    rw [all console member, Option.some.injEq] at same
    exact same.symm
  doubtful noFail doubt := by
    obtain ⟨console, member, unsure⟩ := doubt
    refine ⟨fun other inside quotes => noFail other inside (.inr (agree other inside _ quotes)),
      console, member, ?_⟩
    by_cases quotes : console.Quotes .inconclusive
    · exact .inl quotes
    · refine .inr ⟨unsure, fun verdict other => ?_⟩
      have same := agree console member verdict other
      rw [unsure, Option.some.injEq] at same
      exact quotes (same ▸ other)

/-- The log of a console without a RESULT line is recorded FAIL when nothing but
FAIL is quoted first. -/
theorem recordVerdict_fail_iff {Meta : Type*} {console : ReporterConsole}
    (missing : console.own = none) (slug : String) (dur : ℚ) (info : Meta) :
    (recordVerdict slug console.log dur info).status = .fail ↔
      ∀ verdict, console.Quotes verdict → verdict = .fail := by
  have read := console.search_log
  rw [missing, Option.or_none] at read
  simp only [← ReporterConsole.quoted_eq_some, ← read, recordVerdict]
  cases reResult.search console.log with
  | none => simp only [Option.map_none, reduceCtorEq, false_imp_iff, implies_true]
  | some found =>
      simp only [Option.map_some, Option.some.injEq, forall_eq']
      cases found.1 <;> simp only [ReportedVerdict.status, reduceCtorEq]

theorem combinedStatus_fail_iff {statuses : List (Option ReportedVerdict)} :
    combinedStatus statuses = .fail ↔ ∃ s ∈ statuses, s = none ∨ s = some .fail := by
  have failing : (statuses.any fun s => s = none || s = some .fail) = true ↔
      ∃ s ∈ statuses, s = none ∨ s = some .fail := by
    simp only [List.any_eq_true, Bool.or_eq_true, decide_eq_true_eq]
  rw [← failing, combinedStatus]
  split
  · next fails => simp only [fails]
  · next passes =>
      simp only [passes]
      split <;> simp only [reduceCtorEq]

theorem combinedStatus_pass_iff {statuses : List (Option ReportedVerdict)} :
    combinedStatus statuses = .pass ↔ ∀ s ∈ statuses, s = some .pass := by
  unfold combinedStatus
  constructor
  · intro passed s member
    split at passed
    · cases passed
    · next noFail =>
        split at passed
        · cases passed
        · next noDoubt =>
            simp only [List.any_eq_true, Bool.or_eq_true, decide_eq_true_eq, not_exists, not_and,
              not_or] at noFail noDoubt
            obtain ⟨reported, notFail⟩ := noFail s member
            have notDoubt := noDoubt s member
            rcases s with _ | _ | _ | _
            · exact (reported rfl).elim
            · rfl
            · exact (notFail rfl).elim
            · exact (notDoubt rfl).elim
  · intro all
    have noFail : (statuses.any fun s => s = none || s = some ReportedVerdict.fail) = false := by
      rw [List.any_eq_false]
      intro s member
      rw [all s member]
      decide
    have noDoubt : (statuses.any fun s => s = some ReportedVerdict.inconclusive) = false := by
      rw [List.any_eq_false]
      intro s member
      rw [all s member]
      decide
    simp only [noFail, noDoubt, Bool.false_eq_true, ↓reduceIte]

/-- The captures of several consoles, each under a role and a board. -/
def captureAll (consoles : List (String × String × ReporterConsole)) : List ReporterCapture :=
  consoles.map fun console => ⟨console.1, console.2.1, console.2.2.log⟩

theorem captureAll_statuses (consoles : List (String × String × ReporterConsole)) :
    (captureAll consoles).map ReporterCapture.status =
      consoles.map fun console => console.2.2.quoted.or console.2.2.own := by
  rw [captureAll, List.map_map]
  exact List.map_congr_left fun console _ => console.2.2.search_log

section Combining

variable {Item : Type*} {items : List Item} {verdicts : Item → Option ReportedVerdict}

/-- Items that all pass do not fail. -/
theorem not_fails_of_pass (all : ∀ item ∈ items, verdicts item = some .pass) :
    ¬ ∃ item ∈ items, Fails (verdicts item) := by
  rintro ⟨item, member, missing | failed⟩
  · exact absurd ((all item member).symm.trans missing) (by decide)
  · exact absurd ((all item member).symm.trans failed) (by decide)

/-- Where one is inconclusive not all pass. -/
theorem not_pass_of_inconclusive
    (doubt : ∃ item ∈ items, verdicts item = some .inconclusive) :
    ¬ ∀ item ∈ items, verdicts item = some .pass := by
  intro all
  obtain ⟨item, member, unsure⟩ := doubt
  exact absurd ((all item member).symm.trans unsure) (by decide)

/-- Items none of which fails or is inconclusive pass. -/
theorem pass_of_settled (noFail : ¬ ∃ item ∈ items, Fails (verdicts item))
    (noDoubt : ¬ ∃ item ∈ items, verdicts item = some .inconclusive) :
    ∀ item ∈ items, verdicts item = some .pass := by
  intro item member
  cases verdict : verdicts item with
  | none => exact (noFail ⟨item, member, .inl verdict⟩).elim
  | some stated =>
      cases stated with
      | pass => rfl
      | fail => exact (noFail ⟨item, member, .inr verdict⟩).elim
      | inconclusive => exact (noDoubt ⟨item, member, verdict⟩).elim

end Combining

/-- Two ways to give each item a verdict combine alike exactly when failing,
passing and doubt go from the one to the other. -/
theorem combines_alike_iff {Item : Type*} (items : List Item)
    (own read : Item → Option ReportedVerdict) :
    ((∀ item ∈ items, read item = some .pass) ↔ ∀ item ∈ items, own item = some .pass) ∧
        ((∃ item ∈ items, Fails (read item)) ↔ ∃ item ∈ items, Fails (own item)) ↔
      ((∃ item ∈ items, Fails (own item)) → ∃ item ∈ items, Fails (read item)) ∧
        ((∀ item ∈ items, own item = some .pass) → ∀ item ∈ items, read item = some .pass) ∧
        ((∀ item ∈ items, ¬ Fails (own item)) → (∃ item ∈ items, own item = some .inconclusive) →
          (∀ item ∈ items, ¬ Fails (read item)) ∧
            ∃ item ∈ items, read item = some .inconclusive) := by
  constructor
  · rintro ⟨passes, fails⟩
    refine ⟨fails.mpr, passes.mpr, fun noFail doubt => ?_⟩
    have noneRead : ¬ ∃ item ∈ items, Fails (read item) := by
      rw [fails]
      rintro ⟨item, member, failing⟩
      exact noFail item member failing
    refine ⟨fun item member failing => noneRead ⟨item, member, failing⟩, ?_⟩
    by_contra noDoubt
    exact not_pass_of_inconclusive doubt (passes.mp (pass_of_settled noneRead noDoubt))
  · rintro ⟨failing, passing, doubtful⟩
    by_cases ownFails : ∃ item ∈ items, Fails (own item)
    · have readFails := failing ownFails
      exact ⟨iff_of_false (fun all => not_fails_of_pass all readFails)
        (fun all => not_fails_of_pass all ownFails), iff_of_true readFails ownFails⟩
    by_cases doubt : ∃ item ∈ items, own item = some .inconclusive
    · obtain ⟨noneRead, readDoubt⟩ := doubtful
        (fun item member fails => ownFails ⟨item, member, fails⟩) doubt
      refine ⟨iff_of_false (not_pass_of_inconclusive readDoubt) (not_pass_of_inconclusive doubt),
        iff_of_false ?_ ownFails⟩
      rintro ⟨item, member, fails⟩
      exact noneRead item member fails
    · have ownPass := pass_of_settled ownFails doubt
      have readPass := passing ownPass
      exact ⟨iff_of_true readPass ownPass, iff_of_false (not_fails_of_pass readPass) ownFails⟩

/-- The readings of several consoles combine as their own RESULT lines do exactly
when the quotes are harmless. -/
theorem quotesHarmless_iff (consoles : List ReporterConsole) :
    ((∀ console ∈ consoles, console.quoted.or console.own = some .pass) ↔
          ∀ console ∈ consoles, console.own = some .pass) ∧
        ((∃ console ∈ consoles, Fails (console.quoted.or console.own)) ↔
          ∃ console ∈ consoles, Fails console.own) ↔
      QuotesHarmless consoles := by
  rw [combines_alike_iff]
  simp only [ReporterConsole.read_fails, ReporterConsole.read_eq_some]
  constructor
  · rintro ⟨failing, passing, doubtful⟩
    refine ⟨failing, fun all console member verdict quotes => ?_, fun noFail doubt => ?_⟩
    · rcases passing all console member with first | ⟨_, nothing⟩
      · exact quotes.unique first
      · exact (nothing verdict quotes).elim
    · obtain ⟨noneRead, readDoubt⟩ := doubtful noFail doubt
      exact ⟨fun console member quotes => noneRead console member (.inl quotes), readDoubt⟩
  · rintro ⟨failing, passing, doubtful⟩
    refine ⟨failing, fun all console member => ?_, fun noFail doubt => ?_⟩
    · by_cases quotes : console.Quotes .pass
      · exact .inl quotes
      · exact .inr ⟨all console member, fun verdict other =>
          quotes (passing all console member verdict other ▸ other)⟩
    · obtain ⟨noQuote, readDoubt⟩ := doubtful noFail doubt
      refine ⟨fun console member fails => ?_, readDoubt⟩
      rcases fails with quotes | ⟨own, _⟩
      · exact noQuote console member quotes
      · exact noFail console member own

/-- **When consoles are recorded as reported.** A run's verdict and failed steps
are recorded as it reports them exactly when no line before its RESULT line
shadows it and every line is readable; a console without a RESULT line is
recorded FAIL exactly when its first RESULT-shaped text, if it has any, says FAIL;
and several reporters combine as their own RESULT lines do exactly when what
their consoles quote is harmless. -/
theorem console_recorded_iff {Meta : Type*} (slug : String) (dur : ℚ) (info : Meta) :
    (∀ run : ReporterRun,
      ((recordVerdict slug run.log dur info).status = run.verdict.status ∧
          failedSteps run.log = run.failed) ↔
        run.Unshadowed ∧ run.StepsReadable) ∧
    (∀ console : ReporterConsole, console.own = none →
      ((recordVerdict slug console.log dur info).status = .fail ↔
        ∀ verdict, console.Quotes verdict → verdict = .fail)) ∧
    (∀ consoles : List (String × String × ReporterConsole),
      (((recordMultiVerdict slug (captureAll consoles) dur info).status = .pass ↔
          ∀ console ∈ consoles, console.2.2.own = some .pass) ∧
        ((recordMultiVerdict slug (captureAll consoles) dur info).status = .fail ↔
          ∃ console ∈ consoles, console.2.2.own = none ∨ console.2.2.own = some .fail)) ↔
      QuotesHarmless (consoles.map fun console => console.2.2)) := by
  refine ⟨fun run => ?_, fun console missing => recordVerdict_fail_iff missing slug dur info,
    fun consoles => ?_⟩
  · rw [run.recordVerdict_status_iff, run.failedSteps_eq_iff]
  · have status : (recordMultiVerdict slug (captureAll consoles) dur info).status =
        combinedStatus (consoles.map fun console => console.2.2.quoted.or console.2.2.own) := by
      rw [recordMultiVerdict, captureAll_statuses]
    rw [status, combinedStatus_pass_iff, combinedStatus_fail_iff, ← quotesHarmless_iff]
    simp only [List.mem_map, forall_exists_index, and_imp, forall_apply_eq_imp_iff₂,
      exists_exists_and_eq_and, Fails]

/-- A run that fails one step and its RESULT, with harmless lines around. -/
def failedRun : ReporterRun where
  before :=
    [.begin ⟨"mesh-gate".toList, by decide⟩ ⟨"2 boards".toList, by decide⟩,
      .other ⟨"I (312) halow: up".toList, by decide⟩ (by decide),
      .step ⟨"peered".toList, by decide⟩ false ⟨"peers=0".toList, by decide⟩]
  verdict := .fail
  detail := ⟨"no peer".toList, by decide⟩
  after := [.done ⟨"mesh-gate".toList, by decide⟩]

/-- A console cut short before its RESULT line. -/
def cutConsole : ReporterConsole :=
  .silent [⟨"I (312) halow: up".toList, by decide⟩] ⟨"TEST|BEG".toList, by decide⟩ (by decide)

theorem failedRun_recorded :
    ((recordVerdict "mesh-gate" failedRun.log 30 ()).status = .fail ∧
      failedSteps failedRun.log = ["peered".toList]) ∧
    (recordVerdict "mesh-gate" cutConsole.log 30 ()).status = .fail ∧
    (recordMultiVerdict "mesh-gate" (captureAll
      [("gate", "A", .reported failedRun), ("sta", "B", cutConsole)]) 30 ()).status = .fail := by
  have recorded := console_recorded_iff "mesh-gate" 30 ()
  have unquoted : ∀ console ∈ [ReporterConsole.reported failedRun, cutConsole],
      console.quoted = none := by decide +kernel
  refine ⟨(recorded.1 failedRun).mpr ⟨?_, ?_⟩, (recorded.2.1 cutConsole rfl).mpr ?_,
    ((recorded.2.2 _).mpr (QuotesHarmless.of_own ?_)).2.mpr ?_⟩
  · unfold ReporterRun.Unshadowed
    decide +kernel
  · refine (ReporterRun.failedSteps_eq_iff failedRun).mp ?_
    decide +kernel
  · intro verdict quotes
    have quiet := unquoted cutConsole (List.mem_cons_of_mem _ List.mem_cons_self)
    exact (ReporterConsole.quoted_eq_none.mp quiet verdict quotes).elim
  · intro console member verdict quotes
    exact (ReporterConsole.quoted_eq_none.mp (unquoted console member) verdict quotes).elim
  · exact ⟨_, List.mem_cons_self, .inr rfl⟩

/-- The same run, after a line of information that quotes a RESULT. -/
def quotingRun : ReporterRun :=
  { failedRun with
    before := .info ⟨"last run: TEST|RESULT|PASS|peers=1".toList, by decide⟩ :: failedRun.before }

/-- A quoted RESULT is recorded in place of the reported one. -/
theorem infoLine_recorded :
    ¬ ∀ run : ReporterRun, (recordVerdict "mesh-gate" run.log 30 ()).status = run.verdict.status ∧
      failedSteps run.log = run.failed := by
  intro always
  exact absurd (always quotingRun).1 (by decide +kernel)

end Rimba.Regtest
