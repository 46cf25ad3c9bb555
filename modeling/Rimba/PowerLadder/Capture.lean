import Rimba.PowerLadder.Dut
import Rimba.Regtest.WindowStats

/-! # How the harness follows a ladder

`_capture_ladder` of the harness's `tp_power` module notes when it reads the line of a tier,
what the steps say, and the end of the ladder. Other tasks of the device may print in front
of a line and behind it; as long as what they print has no information and no step of the
contract, the line is read all the same (`Rimba.PowerLadder.readLine_piece`). What is
returned is made of the lines that are heard up to the end of the ladder
(`Rimba.PowerLadder.captureLadder_heard`).
-/

namespace Rimba.PowerLadder

open Foundation
open Rimba.Regtest (stepTag outcomeText outcomeWords)
open Rimba.Report

/-- White space, at least one. -/
def spaces (text : List Char) : Option (List Char) :=
  if text.takeWhile isSpace = [] then none else some (text.dropWhile isSpace)

/-- `_RE_PHASE` -/
def rePhase : Pattern (ℕ × List Char) := fun text => do
  let (phase, rest) ← (after "TEST|INFO|phase=".toList text).bind leadingNumber
  let word ← spaces rest
  let key := word.takeWhile fun c => !isSpace c
  let last ← if key = [] then none else spaces (word.drop key.length)
  let behind ← after "start".toList last
  return ((phase, key), text.length - behind.length)

/-- `_RE_STEP` up to its detail. -/
def stepFront (text : List Char) : Option ((List Char × Bool) × List Char) :=
  (after stepTag text).bind fun rest =>
    let name := rest.takeWhile (· ≠ '|')
    if name = [] then none
    else (firstWord outcomeWords (rest.drop name.length)).map fun found =>
      ((name, found.1), found.2)

/-- `_RE_STEP` -/
def reStep : Pattern ((List Char × Bool) × List Char) := restOfLine stepFront

/-- `_RE_DONE` -/
def reDone : Pattern Unit := fun text => do
  let word ← (after "TEST|INFO|phase=5".toList text).bind spaces
  let behind ← after "ladder-done".toList word
  return ((), text.length - behind.length)

/-- Digits, at least one, and the text behind them. -/
def digits (text : List Char) : Option (List Char × List Char) :=
  let number := text.takeWhile fun c => (decimalValue c).isSome
  if number = [] then none else some (number, text.drop number.length)

/-- `\d+\.\d+\.\d+`, as it is written, and the text behind it. -/
def version (text : List Char) : Option (List Char × List Char) := do
  let (major, rest) ← digits text
  let (minor, rest) ← (after ['.'] rest).bind digits
  let (patch, rest) ← (after ['.'] rest).bind digits
  return (major ++ '.' :: (minor ++ '.' :: patch), rest)

/-- The small letter that `re.I` takes a character for. -/
def folded (c : Char) : Char :=
  if c = '\u0130' || c = '\u0131' then 'i' else if c = '\u017f' then 's' else c.toLower

/-- The words of `_RE_FW`, whatever the case of their letters. -/
def fwWord (text : List Char) : Option (List Char) :=
  ["morse firmware", "chip firmware", "fw"].findSome? fun word =>
    if (text.take word.length).map folded = word.toList then some (text.drop word.length)
    else none

/-- `_RE_FW` -/
def reFw : Pattern (List Char) := fun text => do
  let rest ← fwWord text
  let (found, behind) ← version (rest.dropWhile fun c => (decimalValue c).isNone)
  return (found, text.length - behind.length)

/-- What `_capture_ladder` returns. -/
structure LadderCapture where
  phaseT : OrderedDict String ℚ
  steps : OrderedDict String Bool
  fw : String
  done : Bool

def LadderCapture.start : LadderCapture := ⟨.empty, .empty, "", false⟩

/-- A pass of the loop: the time when it checks, what `readline` comes to, if it does not
raise, and the time behind it. -/
structure LadderPass where
  clock : ℚ
  read : Option (List Char)
  now : ℚ

/-- A line of the console. -/
def LadderCapture.readLine (capture : LadderCapture) (line : List Char) (now : ℚ) :
    LadderCapture :=
  match rePhase.search line with
  | some (_, key) => { capture with phaseT := capture.phaseT.setDefault (String.ofList key) now }
  | none =>
      match reStep.search line with
      | some ((name, ok), _) =>
          { capture with steps := capture.steps.setDefault (String.ofList (strip name)) ok }
      | none =>
          let fw := if capture.fw = "" then ((reFw.search line).map String.ofList).getD ""
            else capture.fw
          { capture with fw := fw, done := capture.done || (reDone.search line).isSome }

/-- The passes that are left. -/
def captureFrom (timeoutS t0 : ℚ) (capture : LadderCapture) :
    List LadderPass → Option LadderCapture
  | [] => some capture
  | pass :: rest =>
      if pass.clock - t0 < timeoutS then
        match pass.read with
        | none => none
        | some line =>
            if line = [] then captureFrom timeoutS t0 capture rest
            else
              let next := capture.readLine line pass.now
              if next.done then some next else captureFrom timeoutS t0 next rest
      else some capture

/-- `_capture_ladder` -/
def captureLadder (timeoutS t0 : ℚ) (passes : List LadderPass) : Option LadderCapture :=
  captureFrom timeoutS t0 .start passes

/-- What the loop looks for stands between the bars behind the mark. -/
def lookedFor : List (List Char) := ["INFO".toList, "STEP".toList]

/-- What `readline` returns of the console: a line of the device, or none, with what other
tasks have printed before and behind it. -/
structure Piece where
  before : List Char
  own : Option DutLine
  behind : List Char
  clear : ∀ word ∈ lookedFor, ¬ Barred '|' word before
  tame : ∀ word ∈ lookedFor, Tame '|' contractMark word behind

def Piece.ownText (piece : Piece) : List Char := piece.own.elim [] fun own => own.line.text

def Piece.text (piece : Piece) : List Char := piece.before ++ (piece.ownText ++ piece.behind)

/-- The tier as the harness scores it. -/
def DutTier.powerTier : DutTier → Regtest.PowerTier
  | .noPs => Regtest.noPs
  | .dynPs => Regtest.dynPs
  | .twt => Regtest.twt
  | .wnmPowerdown => Regtest.wnmPowerdown

def DutTier.key (tier : DutTier) : String := tier.powerTier.key

theorem key_injective : Function.Injective DutTier.key := by
  intro tier other same
  cases tier <;> cases other <;> first | rfl | exact absurd same (by decide)

/-- The tier whose line it is. -/
def DutLine.tier : DutLine → Option DutTier
  | .phase tier .. => some tier
  | _ => none

/-- The step that it says, and whether it has passed. -/
def DutLine.step : DutLine → Option (String × Bool)
  | .associated connected .. => some ("associated", connected)
  | .twtInstalled inst => some ("twt-installed", inst = 1)
  | .wnmAccepted ret => some ("wnm-accepted", ret = 0)
  | _ => none

def DutLine.isDone : DutLine → Bool
  | .ladderDone _ => true
  | _ => false

/-- What the loop makes of a line of the device, or of none. -/
def LadderCapture.hear (capture : LadderCapture) (own : Option DutLine) (now : ℚ) :
    LadderCapture where
  phaseT := (own.bind DutLine.tier).elim capture.phaseT fun tier =>
    capture.phaseT.setDefault tier.key now
  steps := (own.bind DutLine.step).elim capture.steps fun step =>
    capture.steps.setDefault step.1 step.2
  fw := capture.fw
  done := capture.done || own.any DutLine.isDone

/-- What the macro of a line of information prints before its text. -/
def infoTag : List Char := "TEST|INFO|".toList

theorem infoTag_borderless : infoTag ≠ [] ∧
    ∀ border ∈ infoTag.tails, border ≠ [] → border <+: infoTag → border = infoTag := by
  decide

theorem infoTag_absent {text : List Char} (clear : ¬ Barred '|' "INFO".toList text) :
    ¬ infoTag <:+: text := fun stands =>
  clear (List.IsInfix.trans ⟨contractMark, [], by decide⟩ stands)

theorem lookedFor_plain : ∀ word ∈ lookedFor, '|' ∉ word ∧ ¬ contractMark <:+ word := by
  decide

/-- The words that the loop looks for do not arise where a piece is glued together. -/
theorem not_barred_glued {word : List Char} (looked : word ∈ lookedFor) {front text : List Char}
    (clear : ¬ Barred '|' word front) (tame : Tame '|' contractMark word text) :
    ¬ Barred '|' word (front ++ text) :=
  not_barred_append (lookedFor_plain word looked).1 (lookedFor_plain word looked).2 clear tame

/-- A line of the device that has none of its words between bars is passed over. -/
theorem Piece.absent {piece : Piece} {word : List Char} (looked : word ∈ lookedFor)
    (other : Tame '|' contractMark word piece.ownText) : ¬ Barred '|' word piece.text := by
  rw [Piece.text, ← List.append_assoc]
  exact not_barred_glued looked (not_barred_glued looked (piece.clear word looked) other)
    (piece.tame word looked)

/-- A tag with more behind it is not found where the tag is not. -/
theorem after_longer {tag text : List Char} (none : after tag text = none) (more : List Char) :
    after (tag ++ more) text = Option.none := by
  refine Option.eq_none_iff_forall_ne_some.mpr fun rest found => ?_
  rw [after_eq_some.mp found, List.append_assoc, after_append] at none
  cases none

theorem rePhase_needs (text : List Char) (none : after infoTag text = none) :
    rePhase text = Option.none := by
  have missed : after "TEST|INFO|phase=".toList text = Option.none :=
    after_longer none "phase=".toList
  rw [rePhase, missed]
  rfl

theorem reDone_needs (text : List Char) (none : after infoTag text = none) :
    reDone text = Option.none := by
  have missed : after "TEST|INFO|phase=5".toList text = Option.none :=
    after_longer none "phase=5".toList
  rw [reDone, missed]
  rfl

theorem reStep_needs (text : List Char) (none : after stepTag text = none) :
    reStep text = Option.none := by
  rw [reStep, restOfLine, stepFront, none]
  rfl

section

variable {piece : Piece}

/-- Nothing is read as information where the device says none. -/
theorem info_missed (tame : Tame '|' contractMark "INFO".toList piece.ownText) :
    rePhase.search piece.text = none ∧ reDone.search piece.text = none := by
  have absent := infoTag_absent (piece.absent (by decide) tame)
  exact ⟨Pattern.search_of_absent rePhase_needs absent,
    Pattern.search_of_absent reDone_needs absent⟩

theorem step_missed (tame : Tame '|' contractMark "STEP".toList piece.ownText) :
    reStep.search piece.text = none :=
  Pattern.search_of_absent reStep_needs (stepTag_absent (piece.absent (by decide) tame))

/-- A line of information is tried where its tag stands, and nowhere else. -/
theorem info_found {text : PlainText} (own : piece.ownText = (Line.info text).text) :
    rePhase.search piece.text = (rePhase (infoTag ++ (text.1 ++ piece.behind))).map Prod.fst ∧
      reDone.search piece.text = (reDone (infoTag ++ (text.1 ++ piece.behind))).map Prod.fst ∧
      reStep.search piece.text = none := by
  have looked : "INFO".toList ∈ lookedFor := List.mem_cons_self
  have tagged : (Line.info text).text = infoTag ++ text.1 := by
    have tag : infoTag = contractMark ++ '|' :: ("INFO".toList ++ ['|']) := by decide
    rw [tag]
    change pieced '|' [contractMark, "INFO".toList] text.1 = _
    simp only [pieced, List.flatMap_cons, List.flatMap_nil, List.append_assoc, List.cons_append,
      List.append_nil, List.nil_append]
  have before := infoTag_absent (piece.clear _ looked)
  have behind : ¬ infoTag <:+: text.1 ++ piece.behind :=
    infoTag_absent ((barred_append_iff text.2.2).not.mpr (piece.tame _ looked).absent)
  have step := step_missed (own ▸ Line.tame (by decide) (by dsimp only [Line.word]; decide))
  refine ⟨?_, ?_, step⟩
  · rw [Piece.text, own, tagged, List.append_assoc]
    exact Pattern.search_tag rePhase_needs infoTag_borderless.2 infoTag_borderless.1 before behind
  · rw [Piece.text, own, tagged, List.append_assoc]
    exact Pattern.search_tag reDone_needs infoTag_borderless.2 infoTag_borderless.1 before behind

/-- The name of a step ends before the bar behind it. -/
theorem stepFront_step (name : StepName) (ok : Bool) (behind : List Char) :
    stepFront (stepTag ++ (name.1 ++ (outcomeText ok ++ behind))) =
      some ((name.1, ok), behind) := by
  have solid : ∀ c ∈ name.1, decide (c ≠ '|') = true := fun c member =>
    decide_eq_true (name.2.2.2 c member).2
  have outcome : (outcomeText ok ++ behind).takeWhile (· ≠ '|') = [] := by
    cases ok <;> rfl
  have taken : (name.1 ++ (outcomeText ok ++ behind)).takeWhile (· ≠ '|') = name.1 := by
    rw [List.takeWhile_append_of_pos solid, outcome, List.append_nil]
  rw [stepFront, after_append, Option.bind_some]
  dsimp only
  rw [taken, if_neg name.2.1, List.drop_left]
  cases ok <;> rfl

/-- A step is read whatever follows it. -/
theorem step_found {name : StepName} {ok : Bool} {detail : PlainText}
    (own : piece.ownText = (Line.step name ok detail).text) :
    ∃ rest, reStep.search piece.text = some ((name.1, ok), rest) := by
  have nonempty (behind : List Char) : stepTag ++ behind ≠ [] :=
    List.append_ne_nil_of_left_ne_nil (by decide) _
  have absent := stepTag_absent (piece.clear "STEP".toList (by decide))
  rw [Piece.text, own, Line.step_text, List.append_assoc, List.append_assoc, List.append_assoc,
    Pattern.search_append_of_miss fun suffix inside filled =>
      reStep_needs _ (after_eq_none_of_absent borderless.2 absent inside filled _)]
  exact ⟨_, restOfLine_search_head (nonempty _) (stepFront_step name ok _)⟩

end

theorem plainText_append (front back : String) :
    (plainText (front ++ back)).1 = (plainText front).1 ++ (plainText back).1 := by
  change (front ++ back).toList.filter _ = front.toList.filter _ ++ back.toList.filter _
  rw [String.toList_append, List.filter_append]

/-- Information that does not start like the line of a tier is none. -/
theorem unphased {c : Char} (other : c ≠ 'p') (rest : List Char) :
    rePhase (infoTag ++ c :: rest) = none ∧ reDone (infoTag ++ c :: rest) = none := by
  have missed (more : List Char) :
      after (infoTag ++ 'p' :: more) (infoTag ++ c :: rest) = none := by
    refine Option.eq_none_iff_forall_ne_some.mpr fun behind found => other ?_
    have split := after_eq_some.mp found
    rw [List.append_assoc, List.append_cancel_left_eq, List.cons_append, List.cons.injEq] at split
    exact split.1
  have phase : after "TEST|INFO|phase=".toList (infoTag ++ c :: rest) = none :=
    missed "hase=".toList
  have done : after "TEST|INFO|phase=5".toList (infoTag ++ c :: rest) = none :=
    missed "hase=5".toList
  rw [rePhase, reDone, phase, done]
  exact ⟨rfl, rfl⟩

/-- The line of a tier has its key, whatever stands behind it. -/
theorem rePhase_tier (tier : DutTier) (rest : List Char) :
    let text := infoTag ++ ((plainText tier.lineFront).1 ++ rest)
    reDone text = none ∧ ∃ phase taken, rePhase text = some ((phase, tier.key.toList), taken) := by
  cases tier <;> exact ⟨rfl, _, _, rfl⟩

/-- The end of the ladder is not taken for a tier. -/
theorem reDone_ladderDone (rest : List Char) :
    let text := infoTag ++ ((plainText "phase=5 ladder-done uptime=").1 ++ rest)
    rePhase text = none ∧ ∃ taken, reDone text = some ((), taken) :=
  ⟨rfl, _, rfl⟩

/-- What the loop finds in a piece. -/
structure Piece.Finds (piece : Piece) : Prop where
  phase : (rePhase.search piece.text).map Prod.snd =
    (piece.own.bind DutLine.tier).map fun tier => tier.key.toList
  step : (reStep.search piece.text).map Prod.fst =
    (piece.own.bind DutLine.step).map fun step => (step.1.toList, step.2)
  done : (reDone.search piece.text).isSome = piece.own.any DutLine.isDone

section

variable {piece : Piece} {own : DutLine}

theorem finds_neither (silent : ∀ word ∈ lookedFor, Tame '|' contractMark word piece.ownText)
    (quiet : (piece.own.bind DutLine.tier) = none ∧ (piece.own.bind DutLine.step) = none ∧
      piece.own.any DutLine.isDone = false) : piece.Finds := by
  obtain ⟨phase, done⟩ := info_missed (silent _ (by decide))
  have step := step_missed (silent _ (by decide))
  exact ⟨by rw [phase, quiet.1]; rfl, by rw [step, quiet.2.1]; rfl, by rw [done, quiet.2.2]; rfl⟩

theorem ownText_some (said : piece.own = some own) : piece.ownText = own.line.text := by
  rw [Piece.ownText, said]
  rfl

/-- A line of the contract is tame for each word that it does not have. -/
theorem tame_line {line : Line} {word : List Char} (looked : word ∈ lookedFor)
    (other : word ∉ line.word :: line.fields.1) : Tame '|' contractMark word line.text := by
  obtain ⟨plains, ending⟩ := line.fields_plain
  rw [line.text_eq]
  exact tame_pieced (lookedFor_plain word looked).1 (by decide)
    (List.forall_mem_cons.mpr ⟨line.word_plain, plains⟩) ending other

/-- Information of the device that does not say a tier, nor the end. -/
theorem finds_aside {text : PlainText} {c : Char} {rest : List Char} (said : piece.own = some own)
    (line : own.line = .info text) (starts : text.1 = c :: rest) (other : c ≠ 'p')
    (quiet : own.tier = none ∧ own.step = none ∧ own.isDone = false) : piece.Finds := by
  obtain ⟨phase, done, step⟩ := info_found (line ▸ ownText_some said)
  rw [starts, List.cons_append] at phase done
  rw [(unphased other _).1] at phase
  rw [(unphased other _).2] at done
  exact ⟨by rw [phase, said, Option.bind_some, quiet.1]; rfl,
    by rw [step, said, Option.bind_some, quiet.2.1]; rfl,
    by rw [done, said, Option.any_some, quiet.2.2]; rfl⟩

/-- A step of the device. -/
theorem finds_step {name : StepName} {ok : Bool} {detail : PlainText} {step : String}
    (said : piece.own = some own) (line : own.line = .step name ok detail)
    (other : name.1 ≠ "INFO".toList) (named : name.1 = step.toList)
    (outcome : own.step = some (step, ok)) (quiet : own.tier = none ∧ own.isDone = false) :
    piece.Finds := by
  have ownText : piece.ownText = (Line.step name ok detail).text := line ▸ ownText_some said
  have absent : "INFO".toList ∉ (Line.step name ok detail).word ::
      (Line.step name ok detail).fields.1 := by
    have outcome : "INFO".toList ≠ if ok then "PASS".toList else "FAIL".toList := by
      cases ok <;> decide
    refine List.mem_cons.not.mpr (not_or.mpr ⟨by dsimp only [Line.word]; decide, ?_⟩)
    exact List.mem_cons.not.mpr (not_or.mpr ⟨other.symm, List.mem_singleton.not.mpr outcome⟩)
  have tame : Tame '|' contractMark "INFO".toList piece.ownText :=
    ownText ▸ tame_line List.mem_cons_self absent
  obtain ⟨phase, done⟩ := info_missed tame
  obtain ⟨rest, found⟩ := step_found ownText
  exact ⟨by rw [phase, said, Option.bind_some, quiet.1]; rfl,
    by rw [found, said, Option.bind_some, outcome, named]; rfl,
    by rw [done, said, Option.any_some, quiet.2]; rfl⟩

/-- **What is found in a piece of the console** is what the line of the device says, if it
has one, whatever other tasks print before it and behind it without a word looked for. -/
theorem finds (piece : Piece) : piece.Finds := by
  cases said : piece.own with
  | none =>
      have silent : piece.ownText = [] := by
        rw [Piece.ownText, said]
        rfl
      refine finds_neither (fun word _ => silent ▸ tame_of_not_mem List.not_mem_nil) ?_
      rw [said]
      exact ⟨rfl, rfl, rfl⟩
  | some own =>
      cases own with
      | started =>
          refine finds_neither (fun word looked => ?_) (by rw [said]; exact ⟨rfl, rfl, rfl⟩)
          have other : ∀ word ∈ lookedFor, word ∉ DutLine.started.line.word ::
              DutLine.started.line.fields.1 := by decide
          rw [ownText_some said]
          exact tame_line looked (other word looked)
      | guard => exact finds_aside said rfl rfl (by decide) ⟨rfl, rfl, rfl⟩
      | connecting => exact finds_aside said rfl rfl (by decide) ⟨rfl, rfl, rfl⟩
      | timedOut => exact finds_aside said rfl (plainText_append ..) (by decide) ⟨rfl, rfl, rfl⟩
      | lightSleep => exact finds_aside said rfl rfl (by decide) ⟨rfl, rfl, rfl⟩
      | idle => exact finds_aside said rfl rfl (by decide) ⟨rfl, rfl, rfl⟩
      | triggered up =>
          exact finds_aside said rfl (plainText_append ..) (by decide) ⟨rfl, rfl, rfl⟩
      | associated connected shown waited =>
          exact finds_step said rfl (by decide) rfl rfl ⟨rfl, rfl⟩
      | twtInstalled inst => exact finds_step said rfl (by decide) rfl rfl ⟨rfl, rfl⟩
      | wnmAccepted ret => exact finds_step said rfl (by decide) rfl rfl ⟨rfl, rfl⟩
      | phase tier up ret =>
          obtain ⟨phase, done, step⟩ := info_found (ownText_some said)
          have more := plainText_append tier.lineFront (toString up ++ tier.lineBack ret)
          obtain ⟨missed, number, taken, here⟩ := rePhase_tier tier
            ((plainText (toString up ++ tier.lineBack ret)).1 ++ piece.behind)
          rw [more, List.append_assoc, here] at phase
          rw [more, List.append_assoc, missed] at done
          exact ⟨by rw [phase, said]; rfl, by rw [step, said]; rfl, by rw [done, said]; rfl⟩
      | ladderDone up =>
          obtain ⟨phase, done, step⟩ := info_found (ownText_some said)
          have more := plainText_append "phase=5 ladder-done uptime=" s!"{up}s"
          obtain ⟨missed, taken, here⟩ := reDone_ladderDone
            ((plainText s!"{up}s").1 ++ piece.behind)
          rw [more, List.append_assoc, missed] at phase
          rw [more, List.append_assoc, here] at done
          exact ⟨by rw [phase, said]; rfl, by rw [step, said]; rfl, by rw [done, said]; rfl⟩

/-- A line says one thing at most. -/
theorem line_alone (own : DutLine) :
    (own.tier.isSome → own.step = none ∧ own.isDone = false) ∧
      (own.step.isSome → own.isDone = false) := by
  cases own with
  | phase tier up ret => exact ⟨fun _ => ⟨rfl, rfl⟩, fun none => absurd none Bool.false_ne_true⟩
  | ladderDone up =>
      exact ⟨fun none => absurd none Bool.false_ne_true, fun none => absurd none Bool.false_ne_true⟩
  | _ => exact ⟨fun none => absurd none Bool.false_ne_true, fun _ => rfl⟩

/-- The names of the steps have no white space around them. -/
theorem strip_step {step : String × Bool} (outcome : own.step = some step) :
    strip step.1.toList = step.1.toList := by
  have solid : ∀ name ∈ ["associated", "twt-installed", "wnm-accepted"],
      strip name.toList = name.toList := by decide +kernel
  cases own with
  | associated connected shown waited =>
      cases outcome
      exact solid _ (.head _)
  | twtInstalled inst =>
      cases outcome
      exact solid _ (.tail _ (.head _))
  | wnmAccepted ret =>
      cases outcome
      exact solid _ (.tail _ (.tail _ (.head _)))
  | _ => cases outcome

/-- **What the loop reads of a piece** is the line of the device in it. -/
theorem readLine_piece (capture : LadderCapture) (piece : Piece) (now : ℚ) :
    ∃ fw, capture.readLine piece.text now = { capture.hear piece.own now with fw := fw } := by
  obtain ⟨phase, step, done⟩ := finds piece
  rw [LadderCapture.readLine, LadderCapture.hear]
  cases said : piece.own with
  | none =>
      rw [said] at phase step done
      rw [Option.map_eq_none_iff.mp phase, Option.map_eq_none_iff.mp step]
      dsimp only
      rw [done]
      exact ⟨_, rfl⟩
  | some own =>
      obtain ⟨oneTier, oneStep⟩ := line_alone own
      rw [said, Option.bind_some] at phase step
      rw [said, Option.any_some] at done
      rw [Option.bind_some, Option.bind_some, Option.any_some]
      cases tier : own.tier with
      | some tier =>
          rw [tier] at phase oneTier
          obtain ⟨⟨number, key⟩, found, rfl⟩ := Option.map_eq_some_iff.mp phase
          rw [found, (oneTier rfl).1, (oneTier rfl).2, Bool.or_false]
          dsimp only
          rw [String.ofList_toList]
          exact ⟨capture.fw, rfl⟩
      | none =>
          rw [tier] at phase
          rw [Option.map_eq_none_iff.mp phase]
          cases outcome : own.step with
          | some said =>
              rw [outcome] at step oneStep
              obtain ⟨⟨⟨name, ok⟩, rest⟩, found, same⟩ := Option.map_eq_some_iff.mp step
              cases same
              rw [found, oneStep rfl, Bool.or_false]
              dsimp only
              rw [strip_step outcome, String.ofList_toList]
              exact ⟨capture.fw, rfl⟩
          | none =>
              rw [outcome] at step
              rw [Option.map_eq_none_iff.mp step]
              dsimp only
              rw [done]
              exact ⟨_, rfl⟩

end

/-- A pass of the loop whose `readline` returns a piece of the console, or raises. -/
structure HeardPass where
  clock : ℚ
  piece : Option Piece
  now : ℚ

def HeardPass.pass (heard : HeardPass) : LadderPass where
  clock := heard.clock
  read := heard.piece.map Piece.text
  now := heard.now

/-- A line of the device, and when it was printed or read. -/
abbrev TimedLine := DutLine × ℚ

/-- The line that a pass reads. -/
def HeardPass.line (heard : HeardPass) : Option TimedLine :=
  (heard.piece.bind Piece.own).map fun own => (own, heard.now)

def LadderCapture.hearAll (capture : LadderCapture) (lines : List TimedLine) : LadderCapture :=
  lines.foldl (fun capture line => capture.hear (some line.1) line.2) capture

theorem hearAll_fw (capture : LadderCapture) (fw : String) (lines : List TimedLine) :
    { capture with fw := fw }.hearAll lines = { capture.hearAll lines with fw := fw } := by
  induction lines generalizing capture with
  | nil => rfl
  | cons line lines ih => exact ih (capture.hear (some line.1) line.2)

/-- Where the loop has not come to the end of the ladder, it goes on. -/
def Unended (lines : List TimedLine) : Prop := ∀ line ∈ lines.dropLast, line.1.isDone = false

theorem Piece.own_of_empty {piece : Piece} (empty : piece.text = []) : piece.own = none := by
  cases said : piece.own with
  | none => rfl
  | some own =>
      obtain ⟨-, rest⟩ := List.append_eq_nil_iff.mp empty
      have nothing := (List.append_eq_nil_iff.mp rest).1
      rw [ownText_some said, Line.text_eq] at nothing
      exact absurd (List.append_eq_nil_iff.mp nothing).1 (by decide)

variable {timeoutS t0 : ℚ}

theorem unended_cons {line : TimedLine} {lines : List TimedLine} (open_ : line.1.isDone = false)
    (unended : Unended lines) : Unended (line :: lines) := by
  cases lines with
  | nil => exact fun _ none => absurd none List.not_mem_nil
  | cons next lines => exact List.forall_mem_cons.mpr ⟨open_, unended⟩

theorem hear_none (capture : LadderCapture) (now : ℚ) : capture.hear none now = capture := by
  cases capture
  rw [LadderCapture.hear, Option.any_none, Bool.or_false]
  rfl

/-- What a pass does that reads a piece: the time is over, or the loop ends, or it goes on. -/
theorem captureFrom_pass {heard : HeardPass} {piece : Piece} {rest : List LadderPass}
    {capture final : LadderCapture} (fresh : capture.done = false)
    (read : heard.piece = some piece)
    (captured : captureFrom timeoutS t0 capture (heard.pass :: rest) = some final) :
    final = capture ∨ ∃ fw, ∃ next : LadderCapture,
      next = { capture.hear piece.own heard.now with fw := fw } ∧
        (next.done = true ∧ final = next ∨
          next.done = false ∧ captureFrom timeoutS t0 next rest = some final) := by
  have text : heard.pass.read = some piece.text := by rw [HeardPass.pass, read]; rfl
  rw [captureFrom, text] at captured
  split_ifs at captured with time
  · dsimp only at captured
    split_ifs at captured with empty ended
    · refine .inr ⟨capture.fw, capture, ?_, .inr ⟨fresh, captured⟩⟩
      rw [Piece.own_of_empty empty, hear_none]
    · obtain ⟨fw, next⟩ := readLine_piece capture piece heard.now
      exact .inr ⟨fw, _, next, .inl ⟨ended, (Option.some.inj captured).symm⟩⟩
    · obtain ⟨fw, next⟩ := readLine_piece capture piece heard.now
      exact .inr ⟨fw, _, next, .inr ⟨Bool.eq_false_of_not_eq_true ended, captured⟩⟩
  · exact .inl (Option.some.inj captured).symm

/-- The loop has heard the lines of its passes, up to the end of the ladder. -/
theorem captureFrom_heard {passes : List HeardPass} {capture final : LadderCapture}
    (fresh : capture.done = false)
    (captured : captureFrom timeoutS t0 capture (passes.map HeardPass.pass) = some final) :
    ∃ lines fw, lines <+: passes.filterMap HeardPass.line ∧ Unended lines ∧
      final = { capture.hearAll lines with fw := fw } := by
  have nothing : Unended [] := fun _ none => absurd none List.not_mem_nil
  induction passes generalizing capture with
  | nil =>
      cases captured
      exact ⟨[], final.fw, List.prefix_rfl, nothing, rfl⟩
  | cons pass passes ih =>
      cases read : pass.piece with
      | none =>
          have text : pass.pass.read = none := by rw [HeardPass.pass, read]; rfl
          rw [List.map_cons, captureFrom, text] at captured
          split_ifs at captured with time
          cases captured
          exact ⟨[], final.fw, List.nil_prefix, nothing, rfl⟩
      | some piece =>
          rcases captureFrom_pass fresh read captured with rfl | ⟨fw, next, heard, step⟩
          · exact ⟨[], final.fw, List.nil_prefix, nothing, rfl⟩
          cases said : piece.own with
          | none =>
              have line : pass.line = none := by
                rw [HeardPass.line, read, Option.bind_some, said]
                rfl
              rw [List.filterMap_cons_none line]
              rw [said, hear_none] at heard
              rcases step with ⟨done, -⟩ | ⟨later, captured⟩
              · rw [heard] at done
                exact absurd (fresh.symm.trans done) Bool.false_ne_true
              · obtain ⟨lines, fw', inside, unended, same⟩ := ih later captured
                rw [heard, hearAll_fw] at same
                exact ⟨lines, fw', inside, unended, same⟩
          | some own =>
              have line : pass.line = some (own, pass.now) := by
                rw [HeardPass.line, read, Option.bind_some, said]
                rfl
              rw [List.filterMap_cons_some line]
              rw [said] at heard
              rcases step with ⟨-, ended⟩ | ⟨later, captured⟩
              · refine ⟨[(own, pass.now)], fw, List.cons_prefix_cons.mpr ⟨rfl, List.nil_prefix⟩,
                  nothing, ?_⟩
                rw [ended, heard]
                rfl
              · obtain ⟨lines, fw', inside, unended, same⟩ := ih later captured
                have here : own.isDone = false := by
                  rw [heard, LadderCapture.hear, fresh] at later
                  exact later
                refine ⟨(own, pass.now) :: lines, fw', List.cons_prefix_cons.mpr ⟨rfl, inside⟩,
                  unended_cons here unended, ?_⟩
                rw [same, heard, hearAll_fw]
                rfl

/-- The tiers that are heard, and when. -/
def heardTiers (lines : List TimedLine) : List (DutTier × ℚ) :=
  lines.filterMap fun line => line.1.tier.map fun tier => (tier, line.2)

/-- The steps that are heard. -/
def heardSteps (lines : List TimedLine) : List (String × Bool) :=
  lines.filterMap fun line => line.1.step

theorem hearAll_phaseT (capture : LadderCapture) (lines : List TimedLine) :
    (capture.hearAll lines).phaseT = (heardTiers lines).foldl
      (fun phaseT tier => phaseT.setDefault tier.1.key tier.2) capture.phaseT := by
  induction lines generalizing capture with
  | nil => rfl
  | cons line lines ih =>
      refine (ih (capture.hear (some line.1) line.2)).trans ?_
      rw [LadderCapture.hear, Option.bind_some, heardTiers, heardTiers]
      cases tier : line.1.tier with
      | none =>
          rw [List.filterMap_cons_none (by rw [tier]; rfl)]
          rfl
      | some tier' =>
          rw [List.filterMap_cons_some (b := (tier', line.2)) (by rw [tier]; rfl)]
          rfl

theorem hearAll_steps (capture : LadderCapture) (lines : List TimedLine) :
    (capture.hearAll lines).steps = (heardSteps lines).foldl
      (fun steps step => steps.setDefault step.1 step.2) capture.steps := by
  induction lines generalizing capture with
  | nil => rfl
  | cons line lines ih =>
      refine (ih (capture.hear (some line.1) line.2)).trans ?_
      dsimp only [LadderCapture.hear, Option.bind_some, heardSteps]
      cases step : line.1.step with
      | none =>
          rw [List.filterMap_cons_none (f := fun line : TimedLine => line.1.step) step]
          rfl
      | some step' =>
          rw [List.filterMap_cons_some (f := fun line : TimedLine => line.1.step) step]
          rfl

theorem hearAll_done (capture : LadderCapture) (lines : List TimedLine) :
    (capture.hearAll lines).done = (capture.done || lines.any fun line => line.1.isDone) := by
  induction lines generalizing capture with
  | nil => exact (Bool.or_false _).symm
  | cons line lines ih =>
      refine (ih (capture.hear (some line.1) line.2)).trans ?_
      rw [LadderCapture.hear, Option.any_some, List.any_cons, Bool.or_assoc]

/-- **What the harness makes of a ladder** is the first time of each tier and the first
outcome of each step among the lines that it hears up to the end of the ladder. -/
theorem captureLadder_heard {passes : List HeardPass} {capture : LadderCapture}
    (captured : captureLadder timeoutS t0 (passes.map HeardPass.pass) = some capture) :
    ∃ lines, lines <+: passes.filterMap HeardPass.line ∧ Unended lines ∧
      (∀ tier : DutTier, capture.phaseT.get? tier.key =
        ((heardTiers lines).find? fun heard => heard.1 = tier).map Prod.snd) ∧
      (∀ name, capture.steps.get? name =
        ((heardSteps lines).find? fun step => step.1 = name).map Prod.snd) ∧
      capture.done = lines.any fun line => line.1.isDone := by
  obtain ⟨lines, fw, inside, unended, rfl⟩ := captureFrom_heard rfl captured
  refine ⟨lines, inside, unended, fun tier => ?_, fun name => ?_, ?_⟩
  · change (LadderCapture.start.hearAll lines).phaseT.get? tier.key = _
    rw [hearAll_phaseT, OrderedDict.get?_foldl_setDefault]
    exact congrArg (fun same => ((heardTiers lines).find? same).map Prod.snd)
      (funext fun _ => decide_eq_decide.mpr key_injective.eq_iff)
  · change (LadderCapture.start.hearAll lines).steps.get? name = _
    rw [hearAll_steps, OrderedDict.get?_foldl_setDefault]
    rfl
  · exact hearAll_done _ _

end Rimba.PowerLadder
