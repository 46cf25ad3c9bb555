import Rimba.Foundation.LinePattern
import Rimba.Foundation.Text
import Rimba.Regtest.Reporter

/-! # The console contract

A test app reports on its console in the line format of `test_report.h`, and the
T2 tier reads the captured console back with two regular expressions that may
match anywhere in a line. A line of free text can then be read as a RESULT or a STEP:
`Rimba.Regtest.ReporterRun.Unshadowed` and `Rimba.Regtest.ReporterRun.StepsReadable`
say of a run's lines that none is.
-/

namespace Rimba.Regtest

open Foundation (after firstWord restOfLine unlines isSpace splitlines rstrip)

/-- The verdicts an app reports. -/
inductive ReportedVerdict where
  | pass
  | fail
  | inconclusive
  deriving DecidableEq, Repr

/-- The status a verdict is recorded as. -/
def ReportedVerdict.status : ReportedVerdict → Status
  | .pass => .pass
  | .fail => .fail
  | .inconclusive => .inconclusive

/-- `TEST|RESULT|` -/
def resultTag : List Char := "TEST|RESULT|".toList

/-- `TEST|STEP|` -/
def stepTag : List Char := "TEST|STEP|".toList

/-- `(PASS|FAIL|INCONCLUSIVE)` and the bar behind it. -/
def verdictWords : List (List Char × ReportedVerdict) :=
  [("PASS|".toList, .pass), ("FAIL|".toList, .fail), ("INCONCLUSIVE|".toList, .inconclusive)]

/-- `(PASS|FAIL)` between bars. -/
def outcomeWords : List (List Char × Bool) :=
  [("|PASS|".toList, true), ("|FAIL|".toList, false)]

/-- `RE_RESULT` up to its detail. -/
def resultFront (text : List Char) : Option (ReportedVerdict × List Char) :=
  (after resultTag text).bind (firstWord verdictWords)

/-- `RE_RESULT` -/
def reResult : Foundation.Pattern (ReportedVerdict × List Char) := restOfLine resultFront

/-- `(\S+?)\|(PASS|FAIL)\|`: the shortest name without white space that an
outcome follows. -/
def stepName : List Char → Option ((List Char × Bool) × List Char)
  | [] => none
  | c :: rest =>
      if isSpace c then none
      else
        match firstWord outcomeWords rest with
        | some (ok, detail) => some (([c], ok), detail)
        | none => (stepName rest).map fun found => ((c :: found.1.1, found.1.2), found.2)

/-- `RE_STEP` up to its detail. -/
def stepFront (text : List Char) : Option ((List Char × Bool) × List Char) :=
  (after stepTag text).bind stepName

/-- `RE_STEP` -/
def reStep : Foundation.Pattern ((List Char × Bool) × List Char) := restOfLine stepFront

/-- The name of a step read as failed. -/
def failedName (read : (List Char × Bool) × List Char) : Option (List Char) :=
  if read.1.2 then none else some read.1.1

/-- `failed_steps` -/
def failedSteps (log : List Char) : List (List Char) :=
  (reStep.findAll 0 log).filterMap failedName

/-- The contract lines of a console, without the white space behind them. -/
def contractLines (log : List Char) : List (List Char) :=
  ((splitlines log).filter fun line => "TEST|".toList.isPrefixOf line).map rstrip

/-- The lines joined by line breaks. -/
def joinLines (lines : List (List Char)) : String :=
  String.ofList ((lines.intersperse ['\n']).flatten)

/-- The evidence kept with a verdict: the contract lines, or the end of the log. -/
def consoleEvidence (log : List Char) : String :=
  let lines := splitlines log
  if joinLines (contractLines log) = "" then joinLines (lines.drop (lines.length - 12))
  else joinLines (contractLines log)

/-- `[failed steps: …]` behind some blanks, when there are any. -/
def failedNote (blanks : String) (failed : List (List Char)) : String :=
  if failed = [] then ""
  else blanks ++ "[failed steps: " ++ ", ".intercalate (failed.map String.ofList) ++ "]"

variable {Meta : Type*}

/-- `_record_verdict` -/
def recordVerdict (slug : String) (log : List Char) (dur : ℚ) (info : Meta) : Result Meta :=
  let failed := failedSteps log
  match reResult.search log with
  | none =>
      ⟨"T2", slug, .fail,
        "no TEST|RESULT line within the window -- the reporter hung, crashed, or never ran. " ++
          "Silence is not a pass." ++ failedNote " " failed, dur, consoleEvidence log, info⟩
  | some (verdict, detail) =>
      ⟨"T2", slug, verdict.status, String.ofList detail ++ failedNote "  " failed, dur,
        consoleEvidence log, info⟩

/-- One capture of a multi-reporter test: the role, the board and its log. -/
structure ReporterCapture where
  role : String
  handle : String
  log : List Char

/-- The word a verdict is reported with. -/
def ReportedVerdict.word : ReportedVerdict → String
  | .pass => "PASS"
  | .fail => "FAIL"
  | .inconclusive => "INCONCLUSIVE"

/-- The status several reporters' verdicts combine to; silence is not a pass. -/
def combinedStatus (statuses : List (Option ReportedVerdict)) : Status :=
  if statuses.any fun s => s = none || s = some .fail then .fail
  else if statuses.any fun s => s = some .inconclusive then .inconclusive
  else .pass

/-- The verdict read from one capture. -/
def ReporterCapture.status (capture : ReporterCapture) : Option ReportedVerdict :=
  (reResult.search capture.log).map Prod.fst

/-- `_record_multi_verdict` -/
def recordMultiVerdict (slug : String) (captures : List ReporterCapture) (dur : ℚ) (info : Meta) :
    Result Meta :=
  let statuses := captures.map ReporterCapture.status
  let nPass := statuses.countP fun s => s = some .pass
  let summary := "; ".intercalate <| captures.map fun capture =>
    capture.role ++ "@" ++ capture.handle ++ "=" ++
      (capture.status.map ReportedVerdict.word).getD "NO-RESULT"
  let evidence := captures.flatMap fun capture =>
    ("--- " ++ capture.role ++ "@" ++ capture.handle ++ " ---").toList ::
      contractLines capture.log
  ⟨"T2", slug, combinedStatus statuses,
    toString nPass ++ "/" ++ toString captures.length ++ " reporters INSTALLED concurrently: " ++
      summary, dur, joinLines evidence, info⟩

/-- Text without a line break. -/
abbrev LineText := { text : List Char // '\n' ∉ text }

/-- A line of a reporter's console other than its RESULT line. -/
inductive ReportLine where
  | begin (name rig : LineText)
  | info (text : LineText)
  | step (name : LineText) (ok : Bool) (detail : LineText)
  | done (name : LineText)
  /-- A line that is not the contract's. -/
  | other (text : LineText) (plain : ¬ "TEST|".toList <+: text.1)

/-- `(ok) ? "PASS" : "FAIL"` between the bars of `TEST_STEP`. -/
def outcomeText (ok : Bool) : List Char := if ok then "|PASS|".toList else "|FAIL|".toList

/-- What the macro of a line prints. -/
def ReportLine.text : ReportLine → List Char
  | .begin name rig => "TEST|BEGIN|name=".toList ++ name.1 ++ "|rig=".toList ++ rig.1
  | .info text => "TEST|INFO|".toList ++ text.1
  | .step name ok detail => stepTag ++ (name.1 ++ (outcomeText ok ++ detail.1))
  | .done name => "TEST|END|name=".toList ++ name.1
  | .other text _ => text.1

/-- What the macro of a RESULT line prints: `TEST_PASS`, `TEST_FAIL` and
`TEST_INCONCLUSIVE`. -/
def resultText (verdict : ReportedVerdict) (detail : List Char) : List Char :=
  resultTag ++ (verdict.word.toList ++ '|' :: detail)

/-- The step a line reports as failed. -/
def ReportLine.failedStep : ReportLine → Option (List Char)
  | .step name false _ => some name.1
  | _ => none

/-- A run of a reporter: its one RESULT line, and the lines before and after. -/
structure ReporterRun where
  before : List ReportLine
  verdict : ReportedVerdict
  detail : LineText
  after : List ReportLine

namespace ReporterRun

variable (run : ReporterRun)

/-- The lines a run prints, each with the step it reports as failed. -/
def lines : List (List Char × Option (List Char)) :=
  run.before.map (fun line => (line.text, line.failedStep)) ++
    (resultText run.verdict run.detail.1, none) ::
      run.after.map fun line => (line.text, line.failedStep)

/-- The console of a run. -/
def log : List Char := unlines (run.lines.map Prod.fst)

/-- The steps a run reports as failed, in order. -/
def failed : List (List Char) := run.lines.filterMap Prod.snd

end ReporterRun

/-- A step name the step expression reads whole: not empty, without white space,
and with no outcome in it or across the bar behind it. -/
structure ReadableName (name : List Char) : Prop where
  nonempty : name ≠ []
  solid : ∀ c ∈ name, isSpace c = false
  whole : ∀ rest, rest <:+ (name ++ ['|']).tail → firstWord outcomeWords rest = none

namespace ReporterRun

variable (run : ReporterRun)

/-- The first line before the RESULT line that reads as a RESULT says the same. -/
def Unshadowed : Prop :=
  ∀ read ∈ run.before.findSome? (fun line => reResult.search line.text), read.1 = run.verdict

/-- Failed steps have readable names, and no other line reads as a failed step. -/
def StepsReadable : Prop :=
  ∀ line ∈ run.lines,
    match line.2 with
    | some name => ReadableName name
    | none => ∀ read ∈ reStep.search line.1, read.1.2 = true

end ReporterRun

end Rimba.Regtest
