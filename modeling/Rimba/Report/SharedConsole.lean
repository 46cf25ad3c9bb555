import Rimba.Foundation.GluedText
import Rimba.Regtest.ConsoleReading

/-! # A console that a reporter shares

The macros of `test_report.h` print a line with two calls, its text and its line break,
and other tasks print to the same console between any two calls, so lines of the
contract may be glued to other text. What the harness reads is nevertheless what the
reporter has printed: its first verdict (`Rimba.Report.search_console`) and its failed
steps in order (`Rimba.Report.failedSteps_console`), as long as the others print nothing
that looks like a verdict or a step (`Rimba.Report.QuietText`).
-/

namespace Rimba.Report

open Foundation
open Rimba.Regtest

/-- The words of the contract lines that the harness reads. -/
def readWords : List (List Char) := ["RESULT".toList, "STEP".toList]

/-- The word every line of the contract starts with. -/
def contractMark : List Char := "TEST".toList

/-- A text of one call that is no verdict and no step, whatever it is glued to. -/
structure QuietText where
  text : List Char
  inLine : '\n' ∉ text
  tame : ∀ word ∈ readWords, Tame '|' contractMark word text

/-- A text without line breaks and bars. -/
abbrev PlainText := { text : List Char // '\n' ∉ text ∧ '|' ∉ text }

/-- A name of a step, without white space and bars. -/
abbrev StepName :=
  { name : List Char // name ≠ [] ∧ name ∉ readWords ∧ ∀ c ∈ name, isSpace c = false ∧ c ≠ '|' }

/-- A text can name a step. -/
def namesStep (text : String) : Bool :=
  !text.toList.isEmpty &&
    (readWords.all (text.toList != ·) && text.toList.all fun c => !isSpace c && c != '|')

def StepName.of (text : String) (names : namesStep text = true) : StepName where
  val := text.toList
  property := by
    obtain ⟨nonempty, others⟩ := Bool.and_eq_true_iff.mp names
    obtain ⟨unread, solid⟩ := Bool.and_eq_true_iff.mp others
    rw [Bool.not_eq_true', List.isEmpty_eq_false_iff] at nonempty
    refine ⟨nonempty, fun read => ?_, fun c member => ?_⟩
    · exact absurd rfl (bne_iff_ne.mp (List.all_eq_true.mp unread _ read))
    have plain := List.all_eq_true.mp solid c member
    rwa [Bool.and_eq_true_iff, Bool.not_eq_true', bne_iff_ne] at plain

/-- A line that a reporter prints. -/
inductive Line where
  | begin (name rig : PlainText)
  | info (text : PlainText)
  /-- A line of information with a word of its own in front. -/
  | tagged (tag : PlainText) (unread : tag.1 ∉ readWords) (text : PlainText)
  | step (name : StepName) (ok : Bool) (detail : PlainText)
  | result (verdict : ReportedVerdict) (detail : PlainText)
  | done (name : PlainText)

/-- The word that the macro of a line prints behind the mark. -/
def Line.word : Line → List Char
  | .begin .. => "BEGIN".toList
  | .info .. => "INFO".toList
  | .tagged .. => "INFO".toList
  | .step .. => "STEP".toList
  | .result .. => "RESULT".toList
  | .done .. => "END".toList

/-- What it prints between the bars behind the word, and behind the last bar. -/
def Line.fields : Line → List (List Char) × List Char
  | .begin name rig => (["name=".toList ++ name.1], "rig=".toList ++ rig.1)
  | .info text => ([], text.1)
  | .tagged tag _ text => ([tag.1], text.1)
  | .step name ok detail => ([name.1, if ok then "PASS".toList else "FAIL".toList], detail.1)
  | .result verdict detail => ([verdict.word.toList], detail.1)
  | .done name => ([], "name=".toList ++ name.1)

/-- What the macro of a line prints in its first call. -/
def Line.text (line : Line) : List Char :=
  pieced '|' (contractMark :: line.word :: line.fields.1) line.fields.2

/-- A call that prints. -/
inductive Write where
  | own (line : Line)
  | other (text : QuietText)
  | lineBreak

def Write.text : Write → List Char
  | .own line => line.text
  | .other text => text.text
  | .lineBreak => ['\n']

/-- The console behind some calls. -/
def console (writes : List Write) : List Char := writes.flatMap Write.text

/-- The verdict a call prints. -/
def Write.verdict : Write → Option ReportedVerdict
  | .own (.result verdict _) => some verdict
  | _ => none

/-- The failed step a call prints. -/
def Write.failed : Write → Option (List Char)
  | .own (.step name false _) => some name.1
  | _ => none

/-- The reporter ends a line before it begins another; `inside` says whether it has one
to end. -/
def Separated (inside : Bool) : List Write → Prop
  | [] => True
  | .own _ :: writes => inside = false ∧ Separated true writes
  | .other _ :: writes => Separated inside writes
  | .lineBreak :: writes => Separated false writes

theorem readWords_plain : ∀ word ∈ readWords, '|' ∉ word ∧ ¬ contractMark <:+ word := by
  decide

theorem verdictWord_plain (verdict : ReportedVerdict) :
    '|' ∉ verdict.word.toList ∧ verdict.word.toList ∉ readWords := by
  cases verdict <;> decide

theorem outcomeWord_plain (ok : Bool) :
    '|' ∉ (if ok then "PASS".toList else "FAIL".toList) ∧
      (if ok then "PASS".toList else "FAIL".toList) ∉ readWords := by
  cases ok <;> decide

theorem Line.text_eq (line : Line) :
    line.text = contractMark ++ '|' :: pieced '|' (line.word :: line.fields.1) line.fields.2 := by
  rw [Line.text, pieced, List.flatMap_cons, List.append_assoc, List.append_assoc,
    List.singleton_append, pieced]

theorem not_mem_behind {tag text : List Char} {c : Char} (inTag : c ∉ tag) (inText : c ∉ text) :
    c ∉ tag ++ text := fun member => (List.mem_append.mp member).elim inTag inText

theorem Line.word_plain (line : Line) : '|' ∉ line.word := by
  cases line <;> (dsimp only [Line.word]; decide)

theorem Line.fields_plain (line : Line) :
    (∀ field ∈ line.fields.1, '|' ∉ field) ∧ '|' ∉ line.fields.2 := by
  cases line with
  | «begin» name rig =>
      exact ⟨List.forall_mem_singleton.mpr (not_mem_behind (by decide) name.2.2),
        not_mem_behind (by decide) rig.2.2⟩
  | info text => exact ⟨fun _ nothing => absurd nothing List.not_mem_nil, text.2.2⟩
  | tagged tag unread text => exact ⟨List.forall_mem_singleton.mpr tag.2.2, text.2.2⟩
  | step name ok detail =>
      have solid : '|' ∉ name.1 := fun member => (name.2.2.2 _ member).2 rfl
      exact ⟨List.forall_mem_cons.mpr
        ⟨solid, List.forall_mem_singleton.mpr (outcomeWord_plain ok).1⟩, detail.2.2⟩
  | result verdict detail =>
      exact ⟨List.forall_mem_singleton.mpr (verdictWord_plain verdict).1, detail.2.2⟩
  | done name =>
      exact ⟨fun _ nothing => absurd nothing List.not_mem_nil,
        not_mem_behind (by decide) name.2.2⟩

/-- Behind its word a line has none that the harness reads. -/
theorem Line.fields_unread (line : Line) : ∀ field ∈ line.fields.1, field ∉ readWords := by
  cases line with
  | «begin» name rig =>
      refine List.forall_mem_singleton.mpr fun member => ?_
      have first : some 'n' ∈ readWords.map List.head? := List.mem_map_of_mem member
      exact absurd first (by decide)
  | tagged tag unread text => exact List.forall_mem_singleton.mpr unread
  | step name ok detail =>
      exact List.forall_mem_cons.mpr
        ⟨name.2.2.1, List.forall_mem_singleton.mpr (outcomeWord_plain ok).2⟩
  | result verdict detail => exact List.forall_mem_singleton.mpr (verdictWord_plain verdict).2
  | _ => exact fun _ nothing => absurd nothing List.not_mem_nil

theorem Line.text_inLine (line : Line) : '\n' ∉ line.text := by
  have word : '\n' ∉ line.word := by
    cases line <;> (dsimp only [Line.word]; decide)
  have fields : (∀ field ∈ line.fields.1, '\n' ∉ field) ∧ '\n' ∉ line.fields.2 := by
    cases line with
    | «begin» name rig =>
        exact ⟨List.forall_mem_singleton.mpr (not_mem_behind (by decide) name.2.1),
          not_mem_behind (by decide) rig.2.1⟩
    | info text => exact ⟨fun _ nothing => absurd nothing List.not_mem_nil, text.2.1⟩
    | tagged tag unread text => exact ⟨List.forall_mem_singleton.mpr tag.2.1, text.2.1⟩
    | step name ok detail =>
        have solid : '\n' ∉ name.1 := fun member =>
          absurd (name.2.2.2 _ member).1 (by decide)
        have outcome : '\n' ∉ (if ok then "PASS".toList else "FAIL".toList) := by
          cases ok <;> decide
        exact ⟨List.forall_mem_cons.mpr ⟨solid, List.forall_mem_singleton.mpr outcome⟩,
          detail.2.1⟩
    | result verdict detail =>
        have outcome : '\n' ∉ verdict.word.toList := by
          cases verdict <;> decide
        exact ⟨List.forall_mem_singleton.mpr outcome, detail.2.1⟩
    | done name =>
        exact ⟨fun _ nothing => absurd nothing List.not_mem_nil,
          not_mem_behind (by decide) name.2.1⟩
  refine not_mem_pieced (by decide) ?_ fields.2
  exact List.forall_mem_cons.mpr ⟨by decide, List.forall_mem_cons.mpr ⟨word, fields.1⟩⟩

/-- A line is tame for a word that the harness reads and that is not its own. -/
theorem Line.tame {line : Line} {word : List Char} (read : word ∈ readWords)
    (other : line.word ≠ word) : Tame '|' contractMark word line.text := by
  obtain ⟨plains, ending⟩ := line.fields_plain
  have absent : word ∉ line.word :: line.fields.1 := by
    intro member
    rcases List.mem_cons.mp member with same | later
    · exact other same.symm
    · exact line.fields_unread word later read
  rw [line.text_eq]
  exact tame_pieced (readWords_plain word read).1 (by decide)
    (List.forall_mem_cons.mpr ⟨line.word_plain, plains⟩) ending absent

/-- A line of another task that is no verdict and no step. -/
def Line.quietText (line : Line) (unread : line.word ∉ readWords) : QuietText where
  text := line.text
  inLine := line.text_inLine
  tame _ read := Line.tame read fun same => unread (same ▸ read)

theorem Line.info_unread (text : PlainText) : (Line.info text).word ∉ readWords := by
  dsimp only [Line.word]
  decide

/-- A call that prints no verdict, or no step, is tame for it. -/
theorem Write.tame_result {write : Write} (silent : write.verdict = none) :
    Tame '|' contractMark "RESULT".toList write.text := by
  cases write with
  | own line =>
      refine Line.tame (by decide) ?_
      cases line with
      | result verdict detail => cases silent
      | _ => dsimp only [Line.word]; decide
  | other text => exact text.tame _ (by decide)
  | lineBreak => exact tame_of_not_mem (by decide)

theorem Write.tame_step {write : Write}
    (other : ∀ name ok detail, write ≠ .own (.step name ok detail)) :
    Tame '|' contractMark "STEP".toList write.text := by
  cases write with
  | own line =>
      refine Line.tame (by decide) ?_
      cases line with
      | step name ok detail => exact absurd rfl (other name ok detail)
      | _ => dsimp only [Line.word]; decide
  | other text => exact text.tame _ (by decide)
  | lineBreak => exact tame_of_not_mem (by decide)

theorem not_barred_write {word : List Char} (read : word ∈ readWords) {front : List Char}
    (clear : ¬ Barred '|' word front) {text : List Char} (tame : Tame '|' contractMark word text) :
    ¬ Barred '|' word (front ++ text) :=
  not_barred_append (readWords_plain word read).1 (readWords_plain word read).2 clear tame

theorem borderless : (∀ border ∈ resultTag.tails, border ≠ [] → border <+: resultTag →
      border = resultTag) ∧
    (∀ border ∈ stepTag.tails, border ≠ [] → border <+: stepTag → border = stepTag) := by
  decide

/-- A text that has the word nowhere between bars does not have the tag. -/
theorem resultTag_absent {front : List Char} (clear : ¬ Barred '|' "RESULT".toList front) :
    ¬ resultTag <:+: front := fun stands =>
  clear (List.IsInfix.trans ⟨contractMark, [], by decide⟩ stands)

theorem stepTag_absent {front : List Char} (clear : ¬ Barred '|' "STEP".toList front) :
    ¬ stepTag <:+: front := fun stands =>
  clear (List.IsInfix.trans ⟨contractMark, [], by decide⟩ stands)

theorem Line.result_text (verdict : ReportedVerdict) (detail : PlainText) :
    (Line.result verdict detail).text = resultTag ++ (verdict.word.toList ++ '|' :: detail.1) := by
  have tag : resultTag = contractMark ++ '|' :: ("RESULT".toList ++ ['|']) := by decide
  rw [tag]
  change pieced '|' [contractMark, "RESULT".toList, verdict.word.toList] detail.1 = _
  simp only [pieced, List.flatMap_cons, List.flatMap_nil, List.append_assoc, List.cons_append,
    List.append_nil, List.nil_append]

theorem Line.step_text (name : StepName) (ok : Bool) (detail : PlainText) :
    (Line.step name ok detail).text = stepTag ++ (name.1 ++ (outcomeText ok ++ detail.1)) := by
  have tag : stepTag = contractMark ++ '|' :: ("STEP".toList ++ ['|']) := by decide
  have outcome : ∀ ok, outcomeText ok =
      '|' :: ((if ok then "PASS".toList else "FAIL".toList) ++ ['|']) := by decide
  rw [tag, outcome]
  change pieced '|' [contractMark, "STEP".toList, name.1, _] detail.1 = _
  simp only [pieced, List.flatMap_cons, List.flatMap_nil, List.append_assoc, List.cons_append,
    List.append_nil, List.nil_append]

/-- A name without white space and bars is read whole. -/
theorem StepName.readable (name : StepName) : ReadableName name.1 where
  nonempty := name.2.1
  solid c member := (name.2.2.2 c member).1
  whole rest inside := by
    refine firstWord_eq_none.mpr fun word member starts => ?_
    have solid : '|' ∉ name.1 := fun bar => (name.2.2.2 _ bar).2 rfl
    have few : rest.count '|' ≤ 1 := by
      calc rest.count '|' ≤ (name.1 ++ ['|']).tail.count '|' := inside.sublist.count_le _
        _ ≤ (name.1 ++ ['|']).count '|' := (List.tail_sublist _).count_le _
        _ = 1 := by rw [List.count_append, List.count_eq_zero.mpr solid]; rfl
    have many : 2 ≤ rest.count '|' := by
      have bars : ∀ word ∈ outcomeWords, 2 ≤ word.1.count '|' := by decide
      exact (bars word member).trans (starts.sublist.count_le '|')
    exact absurd (many.trans few) (by decide)

/-- A RESULT line is read whatever follows it. -/
theorem resultFront_text (verdict : ReportedVerdict) (behind : List Char) :
    resultFront (resultTag ++ (verdict.word.toList ++ '|' :: behind)) = some (verdict, behind) := by
  rw [resultFront, after_append, Option.bind_some]
  cases verdict <;> rfl

theorem stepFront_text (name : StepName) (ok : Bool) (behind : List Char) :
    stepFront (stepTag ++ (name.1 ++ (outcomeText ok ++ behind))) =
      some ((name.1, ok), behind) := by
  rw [stepFront, after_append, Option.bind_some]
  exact name.readable.stepName ok behind

section

variable {front : List Char}

theorem dropWhile_line {text : List Char} (line : '\n' ∉ text) (behind : List Char) :
    (text ++ behind).dropWhile (· ≠ '\n') = behind.dropWhile (· ≠ '\n') :=
  List.dropWhile_append_of_pos fun _ member =>
    decide_eq_true fun same => line (same ▸ member)

/-- Nothing is read that begins before a RESULT line. -/
theorem miss_result (clear : ¬ Barred '|' "RESULT".toList front) (behind : List Char) :
    ∀ suffix, suffix <:+ front → suffix ≠ [] →
      reResult (suffix ++ (resultTag ++ behind)) = none := by
  intro suffix inside nonempty
  rw [reResult, restOfLine, resultFront, after_eq_none_of_absent borderless.1
    (resultTag_absent clear) inside nonempty]
  rfl

theorem miss_step (clear : ¬ Barred '|' "STEP".toList front) (behind : List Char) :
    ∀ suffix, suffix <:+ front → suffix ≠ [] →
      reStep (suffix ++ (stepTag ++ behind)) = none := by
  intro suffix inside nonempty
  rw [reStep, restOfLine, stepFront, after_eq_none_of_absent borderless.2
    (stepTag_absent clear) inside nonempty]
  rfl

/-- The first verdict that was printed is read, behind any text that has none. -/
theorem search_behind (clear : ¬ Barred '|' "RESULT".toList front) (writes : List Write) :
    (reResult.search (front ++ console writes)).map (fun read => read.1) =
      writes.findSome? Write.verdict := by
  induction writes generalizing front with
  | nil =>
      rw [console, List.flatMap_nil, Pattern.search_append_of_miss]
      · rfl
      · intro suffix inside nonempty
        rw [List.append_nil, reResult, restOfLine, resultFront,
          after_eq_none_of_missing (resultTag_absent clear) inside]
        rfl
  | cons write writes ih =>
      rw [console, List.flatMap_cons, List.findSome?_cons]
      cases printed : write.verdict with
      | none =>
          rw [← List.append_assoc]
          exact ih (not_barred_write (by decide) clear (Write.tame_result printed))
      | some verdict =>
          obtain ⟨detail, rfl⟩ : ∃ detail, write = .own (.result verdict detail) := by
            unfold Write.verdict at printed
            split at printed
            · cases printed
              exact ⟨_, rfl⟩
            · cases printed
          rw [Write.text, Line.result_text, List.append_assoc, List.append_assoc,
            List.cons_append, Pattern.search_append_of_miss (miss_result clear _)]
          have nonempty (behind : List Char) : resultTag ++ behind ≠ [] := List.cons_ne_nil _ _
          rw [reResult, restOfLine_search_head (nonempty _) (resultFront_text _ _)]
          rfl

/-- The failed steps that were printed are read in order, behind any text that has none;
and so they are behind a step, whose line may go on with other text. -/
theorem failed_behind {writes : List Write} {inside : Bool}
    (separated : Separated inside writes) {front : List Char}
    (clear : ¬ Barred '|' "STEP".toList front) :
    (reStep.findAll 0 (front ++ console writes)).filterMap failedName =
        writes.filterMap Write.failed ∧
      (inside = true → (reStep.findAll 0 ((console writes).dropWhile (· ≠ '\n'))).filterMap
        failedName = writes.filterMap Write.failed) := by
  induction writes generalizing inside front with
  | nil =>
      rw [console, List.flatMap_nil, Pattern.findAll_append_of_miss]
      · exact ⟨rfl, fun _ => rfl⟩
      · intro suffix within nonempty
        rw [List.append_nil, reStep, restOfLine, stepFront,
          after_eq_none_of_missing (stepTag_absent clear) within]
        rfl
  | cons write writes ih =>
      rw [console, List.flatMap_cons]
      cases write with
      | lineBreak =>
          have ended := not_barred_write (by decide) clear (Write.lineBreak.tame_step
            fun name ok detail same => by cases same)
          have fresh : ¬ Barred '|' "STEP".toList ['\n'] := not_barred_of_not_mem (by decide)
          refine ⟨?_, fun _ => ?_⟩
          · rw [← List.append_assoc]
            exact (ih separated ended).1
          · rw [Write.text, List.singleton_append, List.dropWhile_cons_of_neg (by decide),
              ← List.singleton_append]
            exact (ih separated fresh).1
      | other text =>
          have glued := not_barred_write (by decide) clear ((Write.other text).tame_step
            fun name ok detail same => by cases same)
          refine ⟨?_, fun on => ?_⟩
          · rw [← List.append_assoc]
            exact (ih separated glued).1
          · rw [Write.text, dropWhile_line text.inLine]
            exact (ih separated glued).2 on
      | own line =>
          obtain ⟨rfl, separated⟩ := separated
          refine ⟨?_, fun on => absurd on (by decide)⟩
          by_cases step : ∃ name ok detail, line = .step name ok detail
          · obtain ⟨name, ok, detail, rfl⟩ := step
            have text : (Line.step name ok detail).text ++ console writes =
                stepTag ++ (name.1 ++ (outcomeText ok ++ (detail.1 ++ console writes))) := by
              rw [Line.step_text, List.append_assoc, List.append_assoc, List.append_assoc]
            have here := stepFront_text name ok (detail.1 ++ console writes)
            rw [Write.text, ← console, text, Pattern.findAll_append_of_miss (miss_step clear _)]
            rw [← List.append_assoc name.1, ← List.append_assoc stepTag] at here ⊢
            have nonempty : stepTag ++ (name.1 ++ outcomeText ok) ≠ [] := List.cons_ne_nil _ _
            rw [reStep, restOfLine_findAll nonempty here, dropWhile_line detail.2.1]
            cases ok with
            | true => exact (ih separated clear).2 rfl
            | false => exact congrArg (name.1 :: ·) ((ih separated clear).2 rfl)
          · have other : ∀ name ok detail, Write.own line ≠ .own (.step name ok detail) := by
              intro name ok detail same
              exact step ⟨name, ok, detail, Write.own.inj same⟩
            have glued := not_barred_write (by decide) clear (Write.tame_step other)
            have silent : (Write.own line).failed = none := by
              cases line with
              | step name ok detail => exact absurd ⟨name, ok, detail, rfl⟩ step
              | _ => rfl
            rw [← List.append_assoc, List.filterMap_cons_none silent]
            exact (ih separated glued).1

end

/-- The harness reads the first verdict that the reporter has printed. -/
theorem search_console (writes : List Write) :
    (reResult.search (console writes)).map (fun read => read.1) =
      writes.findSome? Write.verdict := by
  have clear : ¬ Barred '|' "RESULT".toList [] := not_barred_of_not_mem List.not_mem_nil
  exact search_behind clear writes

/-- It reads the failed steps that the reporter has printed. -/
theorem failedSteps_console {writes : List Write} (separated : Separated false writes) :
    failedSteps (console writes) = writes.filterMap Write.failed := by
  have clear : ¬ Barred '|' "STEP".toList [] := not_barred_of_not_mem List.not_mem_nil
  exact (failed_behind separated clear).1

/-- **A shared console is recorded as reported.** Where a reporter prints at most one
verdict, it is recorded, or FAIL when there is none, and with the steps it has printed as
failed, whatever quiet texts other tasks print between its calls. -/
theorem recorded_of_separated {Meta : Type*} {writes : List Write}
    (separated : Separated false writes) {reported : Option ReportedVerdict}
    (verdict : writes.filterMap Write.verdict = reported.toList) (slug : String) (dur : ℚ)
    (info : Meta) :
    (recordVerdict slug (console writes) dur info).status =
        (reported.map ReportedVerdict.status).getD .fail ∧
      failedSteps (console writes) = writes.filterMap Write.failed := by
  refine ⟨?_, failedSteps_console separated⟩
  have read := search_console writes
  rw [← List.head?_filterMap, verdict] at read
  cases reported with
  | none => rw [recordVerdict, Option.map_eq_none_iff.mp read]; rfl
  | some verdict =>
      obtain ⟨found, searched, same⟩ := Option.map_eq_some_iff.mp read
      rw [recordVerdict, searched, ← same]
      rfl

end Rimba.Report
