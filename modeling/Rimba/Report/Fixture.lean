import Rimba.Foundation.Program
import Rimba.Report.SharedConsole

/-! # Fixtures that report

A fixture is a program that asks its board and prints lines, other tasks printing quiet
texts between its calls. Its lines are quiet up to the first verdict, and it ends with
a RESULT line and an END line, or without a verdict (`Rimba.Report.ReportsFrom`): one rule for
each way to build it. What the harness records of such a program is the verdict that it
returns (`Rimba.Report.ReportsFrom.recorded`).
-/

namespace Rimba.Report

open Foundation
open Rimba.Regtest

/-- What other tasks print, all of it quiet. -/
abbrev Others := { writes : List Write // ∀ line, Write.own line ∉ writes }

/-- Other tasks that print nothing. -/
def quietOthers : Others := ⟨[], fun _ => List.not_mem_nil⟩

/-- What a program asks: what other tasks have printed since it printed last, or a
question to its board. -/
inductive Ask (Question : Type) where
  | meanwhile
  | board (question : Question)

abbrev Ask.Response {Question : Type} (Answer : Question → Type) : Ask Question → Type
  | .meanwhile => Others
  | .board question => Answer question

/-- What a board has printed, and what a fixture keeps beside it. -/
structure BoardState (Memory : Type) where
  writes : List Write
  memory : Memory

variable {Question : Type} {Answer : Question → Type} {Memory Value Other : Type}

/-- A program of a fixture. -/
abbrev Reporting (Answer : Question → Type) (Memory Value : Type) :=
  Program (Ask.Response Answer) (BoardState Memory) Value

def ask (question : Question) : Reporting Answer Memory (Answer question) :=
  Program.call (Ask.board question)

/-- Print with one call, behind what other tasks have printed. -/
def print (writes : List Write) : Reporting Answer Memory Unit :=
  (Program.call Ask.meanwhile : Reporting Answer Memory Others) >>= fun others =>
    Program.update fun state => { state with writes := state.writes ++ (others.1 ++ writes) }

/-- `TEST_LINE` -/
def testLine (line : Line) : Reporting Answer Memory Unit :=
  print [.own line] >>= fun _ => print [.lineBreak]

/-- The characters of a text that has neither line breaks nor bars. -/
def plainText (text : String) : PlainText where
  val := text.toList.filter fun c => c ≠ '\n' && c ≠ '|'
  property := by
    simp only [List.mem_filter, ne_eq, not_true_eq_false, decide_false, Bool.false_and,
      Bool.and_false, Bool.false_eq_true, and_false, not_false_eq_true, and_self]

/-- `TEST_INFO` -/
def testInfo (text : String) : Reporting Answer Memory Unit := testLine (.info (plainText text))

/-- `TEST_INFO` with a word between bars in front of its text. -/
def testTagged (tag : String) (unread : (plainText tag).1 ∉ readWords) (text : String) :
    Reporting Answer Memory Unit := testLine (.tagged (plainText tag) unread (plainText text))

/-- `ESP_LOGI` and its like: a line that is not of the contract, printed with one call. -/
def espLog (text : String) : Reporting Answer Memory Unit :=
  print [.other ⟨(plainText text).1, (plainText text).2.1, fun _ _ =>
    tame_of_not_mem (plainText text).2.2⟩, .lineBreak]

/-- `TEST_PASS`, `TEST_FAIL` or `TEST_INCONCLUSIVE`, and `TEST_END` behind it. -/
def finish (name : String) (verdict : ReportedVerdict) (detail : String) :
    Reporting Answer Memory (Option ReportedVerdict) :=
  testLine (.result verdict (plainText detail)) >>= fun _ =>
    testLine (.done (plainText name)) >>= fun _ => pure (some verdict)

/-- Change what is kept beside the board. -/
def note (change : Memory → Memory) : Reporting Answer Memory Unit :=
  Program.update fun state => { state with memory := change state.memory }

/-- Ask until the answer is yes, at most a number of times. -/
def askUntil (question : Question) (yes : Answer question → Bool) : ℕ → Reporting Answer Memory Unit
  | 0 => pure ()
  | looks + 1 => do
      let answer ← ask question
      if yes answer then pure () else askUntil question yes looks

def Write.line : Write → Option Line
  | .own line => some line
  | _ => none

/-- The lines that are the reporter's own. -/
def ownLines (writes : List Write) : List Line := writes.filterMap Write.line

def Line.verdict : Line → Option ReportedVerdict
  | .result verdict _ => some verdict
  | _ => none

/-- Calls behind which no line of the reporter is left open. -/
def Whole (writes : List Write) : Prop :=
  ∀ rest, Separated false rest → Separated false (writes ++ rest)

/-- The board has printed whole lines, of which the reporter's own are as said. -/
def Prints (lines : List Line → Prop) (state final : BoardState Memory) : Prop :=
  ∃ more, final.writes = state.writes ++ more ∧ Whole more ∧ lines (ownLines more)

/-- Lines without a verdict. -/
def Silent (lines : List Line) : Prop := ∀ line ∈ lines, line.verdict = none

/-- Lines that end with a verdict: the only one, before the END line. -/
def Concludes (verdict : ReportedVerdict) (lines : List Line) : Prop :=
  ∃ quiet detail name, Silent quiet ∧ lines = quiet ++ [.result verdict detail, .done name]

/-- Lines that give a verdict, or none. -/
def Gives : Option ReportedVerdict → List Line → Prop
  | none => Silent
  | some verdict => Concludes verdict

theorem Separated.outside {inside : Bool} {writes : List Write}
    (separated : Separated inside writes) : Separated false writes := by
  induction writes generalizing inside with
  | nil => trivial
  | cons write writes ih =>
      cases write with
      | own line => exact ⟨rfl, separated.2⟩
      | other text =>
          have later : Separated inside writes := separated
          exact ih later
      | lineBreak => exact separated

theorem separated_others (others : Others) {inside : Bool} {rest : List Write}
    (separated : Separated inside rest) : Separated inside (others.1 ++ rest) := by
  obtain ⟨writes, foreign⟩ := others
  induction writes generalizing inside with
  | nil => exact separated
  | cons write writes ih =>
      have later : ∀ line, Write.own line ∉ writes := fun line member =>
        foreign line (List.mem_cons_of_mem write member)
      cases write with
      | own line => exact absurd List.mem_cons_self (foreign line)
      | other text => exact ih separated later
      | lineBreak => exact ih separated.outside later

theorem ownLines_others (others : Others) : ownLines others.1 = [] := by
  refine List.filterMap_eq_nil_iff.mpr fun write member => ?_
  cases write with
  | own line => exact absurd member (others.2 line)
  | other text => rfl
  | lineBreak => rfl

theorem Whole.append {front back : List Write} (first : Whole front) (second : Whole back) :
    Whole (front ++ back) := fun rest separated => by
  rw [List.append_assoc]
  exact first _ (second _ separated)

/-- A line, with what other tasks print before and between its calls. -/
theorem whole_line (before between : Others) (line : Line) :
    Whole ((before.1 ++ [.own line]) ++ (between.1 ++ [.lineBreak])) := by
  intro rest separated
  rw [List.append_assoc, List.append_assoc, List.append_assoc]
  refine separated_others before ⟨rfl, ?_⟩
  exact separated_others between separated

/-- The program returns, has printed no verdict, and has moved its memory so. -/
def Quietly (moves : Memory → Memory → Prop) (program : Reporting Answer Memory Value) : Prop :=
  ∀ state, program.Ensures state fun value final _ =>
    value.isSome ∧ Prints Silent state final ∧ moves state.memory final.memory

/-- The program returns, and has printed no verdict. -/
abbrev Quiet (program : Reporting Answer Memory Value) : Prop := Quietly (fun _ _ => True) program

/-- Run from a memory, the program returns a verdict that it has printed, or none, as the
memory that it leaves and its calls allow. -/
def ReportsFrom (memory : Memory)
    (allowed : Option ReportedVerdict → Memory → List (Called (Ask.Response Answer)) → Prop)
    (program : Reporting Answer Memory (Option ReportedVerdict)) : Prop :=
  ∀ writes, program.Ensures ⟨writes, memory⟩ fun value final calls =>
    ∃ reported, value = some reported ∧ allowed reported final.memory calls ∧
      Prints (Gives reported) ⟨writes, memory⟩ final

/-- The program returns a verdict that it has printed, or none, as its calls allow. -/
def Reports (allowed : Option ReportedVerdict → List (Called (Ask.Response Answer)) → Prop)
    (program : Reporting Answer Memory (Option ReportedVerdict)) : Prop :=
  ∀ memory, ReportsFrom memory (fun reported _ calls => allowed reported calls) program

/-- What is allowed behind calls is allowed behind more. -/
def Lasting (allowed : Option ReportedVerdict → List (Called (Ask.Response Answer)) → Prop) :
    Prop :=
  ∀ reported front back, allowed reported back → allowed reported (front ++ back)

theorem Prints.refl (state : BoardState Memory) : Prints Silent state state :=
  ⟨[], (List.append_nil _).symm, fun _ separated => separated, fun _ none =>
    absurd none List.not_mem_nil⟩

/-- What is printed behind quiet lines. -/
theorem Prints.behind {lines : List Line → Prop} {state middle final : BoardState Memory}
    (closed : ∀ front back, Silent front → lines back → lines (front ++ back))
    (quiet : Prints Silent state middle) (later : Prints lines middle final) :
    Prints lines state final := by
  obtain ⟨front, first, whole, silent⟩ := quiet
  obtain ⟨back, second, ends, holds⟩ := later
  refine ⟨front ++ back, by rw [second, first, List.append_assoc], whole.append ends, ?_⟩
  rw [ownLines, List.filterMap_append]
  exact closed _ _ silent holds

theorem Silent.append {front back : List Line} (first : Silent front) (second : Silent back) :
    Silent (front ++ back) := fun line member =>
  (List.mem_append.mp member).elim (first line) (second line)

theorem Gives.behind {reported : Option ReportedVerdict} {front back : List Line}
    (silent : Silent front) (gives : Gives reported back) : Gives reported (front ++ back) := by
  cases reported with
  | none => exact silent.append gives
  | some verdict =>
      obtain ⟨quiet, detail, name, before, rfl⟩ := gives
      exact ⟨front ++ quiet, detail, name, silent.append before, by rw [List.append_assoc]⟩

section

variable {moves : Memory → Memory → Prop}

theorem Quietly.bind_ensures {program : Reporting Answer Memory Value}
    {later : Value → Reporting Answer Memory Other} (quiet : Quietly moves program)
    {state : BoardState Memory}
    {post : Option Other → BoardState Memory → List (Called (Ask.Response Answer)) → Prop}
    (rest : ∀ value middle calls, Prints Silent state middle → moves state.memory middle.memory →
      (later value).Ensures middle fun result final more => post result final (calls ++ more)) :
    (program >>= later).Ensures state post := by
  refine Program.Ensures.bind ((quiet state).mono fun value middle calls printed => ?_)
  cases value with
  | none => exact absurd printed.1 Bool.false_ne_true
  | some value => exact rest value middle calls printed.2.1 printed.2.2

theorem Quietly.ite {condition : Prop} [Decidable condition]
    {program other : Reporting Answer Memory Value} (yes : Quietly moves program)
    (no : Quietly moves other) : Quietly moves (if condition then program else other) := by
  by_cases holds : condition
  · rwa [if_pos holds]
  · rwa [if_neg holds]

theorem Quietly.quiet {program : Reporting Answer Memory Value} (quiet : Quietly moves program) :
    Quiet program := fun state =>
  (quiet state).mono fun _ _ _ printed => ⟨printed.1, printed.2.1, trivial⟩

theorem Quietly.bind [IsTrans Memory moves] {program : Reporting Answer Memory Value}
    {later : Value → Reporting Answer Memory Other} (quiet : Quietly moves program)
    (rest : ∀ value, Quietly moves (later value)) : Quietly moves (program >>= later) := by
  refine fun state => quiet.bind_ensures fun value middle _ printed moved => ?_
  refine (rest value middle).mono fun result final _ after => ⟨after.1, ?_, ?_⟩
  · exact printed.behind (fun _ _ first second => first.append second) after.2.1
  · exact IsTrans.trans _ _ _ moved after.2.2

variable [Std.Refl moves]

theorem Quietly.pure (value : Value) :
    Quietly moves (Pure.pure value : Reporting Answer Memory Value) := fun state =>
  Program.Ensures.pure ⟨rfl, Prints.refl state, refl _⟩

theorem Quietly.ask (question : Question) :
    Quietly moves (ask question : Reporting Answer Memory _) := fun state =>
  Program.Ensures.call fun _ => ⟨rfl, Prints.refl state, refl _⟩

theorem Quietly.askUntil [IsTrans Memory moves] (question : Question)
    (yes : Answer question → Bool) (looks : ℕ) :
    Quietly moves (askUntil question yes looks : Reporting Answer Memory Unit) := by
  induction looks with
  | zero => exact Quietly.pure ()
  | succ looks ih =>
      exact (Quietly.ask question).bind fun answer => Quietly.ite (Quietly.pure ()) ih

end

instance refl_anyMove : Std.Refl (fun _ _ : Memory => True) := ⟨fun _ => trivial⟩

instance trans_anyMove : IsTrans Memory (fun _ _ : Memory => True) := ⟨fun _ _ _ _ _ => trivial⟩

section

variable {memory : Memory}
  {allowed : Option ReportedVerdict → Memory → List (Called (Ask.Response Answer)) → Prop}

/-- What is allowed looks at the calls behind a quiet program, and at its move. -/
theorem Quietly.bind_reportsFrom {moves : Memory → Memory → Prop}
    {program : Reporting Answer Memory Value}
    {later : Value → Reporting Answer Memory (Option ReportedVerdict)}
    (quiet : Quietly moves program)
    (lasting : ∀ reported final front back, allowed reported final back →
      allowed reported final (front ++ back))
    (rest : ∀ value middle, moves memory middle → ReportsFrom middle allowed (later value)) :
    ReportsFrom memory allowed (program >>= later) := by
  refine fun writes => quiet.bind_ensures fun value middle _ printed moved => ?_
  refine (rest value middle.memory moved middle.writes).mono fun result final _ after => ?_
  obtain ⟨reported, same, allows, gives⟩ := after
  exact ⟨reported, same, lasting _ _ _ _ allows,
    printed.behind (fun _ _ first second => second.behind first) gives⟩

/-- What is allowed may look at an answer. -/
theorem ReportsFrom.ask {question : Question}
    {later : Answer question → Reporting Answer Memory (Option ReportedVerdict)}
    (rest : ∀ answer, ReportsFrom memory (fun reported final calls =>
      allowed reported final (⟨.board question, answer⟩ :: calls)) (later answer)) :
    ReportsFrom memory allowed (Report.ask question >>= later) := fun writes =>
  Program.Ensures.bind (Program.Ensures.call fun answer => rest answer writes)

theorem ReportsFrom.note {change : Memory → Memory}
    {later : Unit → Reporting Answer Memory (Option ReportedVerdict)}
    (rest : ReportsFrom (change memory) allowed (later ())) :
    ReportsFrom memory allowed (Report.note change >>= later) := fun writes =>
  Program.Ensures.bind (Program.Ensures.update (rest writes))

theorem ReportsFrom.ite {condition : Prop} [Decidable condition]
    {program other : Reporting Answer Memory (Option ReportedVerdict)}
    (yes : condition → ReportsFrom memory allowed program)
    (no : ¬ condition → ReportsFrom memory allowed other) :
    ReportsFrom memory allowed (if condition then program else other) := by
  by_cases holds : condition
  · rw [if_pos holds]
    exact yes holds
  · rw [if_neg holds]
    exact no holds

theorem ReportsFrom.mono
    {weaker : Option ReportedVerdict → Memory → List (Called (Ask.Response Answer)) → Prop}
    {program : Reporting Answer Memory (Option ReportedVerdict)}
    (reports : ReportsFrom memory allowed program)
    (imp : ∀ reported final calls, allowed reported final calls → weaker reported final calls) :
    ReportsFrom memory weaker program := by
  refine fun writes => (reports writes).mono fun value final calls holds => ?_
  obtain ⟨reported, same, allows, gives⟩ := holds
  exact ⟨reported, same, imp _ _ _ allows, gives⟩

/-- A program without a verdict reports none. -/
theorem ReportsFrom.none (allows : allowed none memory []) :
    ReportsFrom memory allowed (pure none : Reporting Answer Memory _) := fun _ =>
  Program.Ensures.pure ⟨_, rfl, allows, Prints.refl _⟩

end

section

variable {allowed : Option ReportedVerdict → List (Called (Ask.Response Answer)) → Prop}

theorem Quietly.bind_reports {program : Reporting Answer Memory Value}
    {later : Value → Reporting Answer Memory (Option ReportedVerdict)} (quiet : Quiet program)
    (lasting : Lasting allowed) (rest : ∀ value, Reports allowed (later value)) :
    Reports allowed (program >>= later) := fun _ =>
  quiet.bind_reportsFrom (fun reported _ => lasting reported) fun value middle _ =>
    rest value middle

theorem Reports.ask {question : Question}
    {later : Answer question → Reporting Answer Memory (Option ReportedVerdict)}
    (rest : ∀ answer, Reports (fun reported calls =>
      allowed reported (⟨.board question, answer⟩ :: calls)) (later answer)) :
    Reports allowed (Report.ask question >>= later) := fun memory =>
  ReportsFrom.ask fun answer => rest answer memory

theorem Reports.ite {condition : Prop} [Decidable condition]
    {program other : Reporting Answer Memory (Option ReportedVerdict)}
    (yes : condition → Reports allowed program) (no : ¬ condition → Reports allowed other) :
    Reports allowed (if condition then program else other) := fun memory =>
  ReportsFrom.ite (fun holds => yes holds memory) fun fails => no fails memory

theorem Reports.mono {weaker : Option ReportedVerdict → List (Called (Ask.Response Answer)) → Prop}
    {program : Reporting Answer Memory (Option ReportedVerdict)} (reports : Reports allowed program)
    (imp : ∀ reported calls, allowed reported calls → weaker reported calls) :
    Reports weaker program := fun memory =>
  (reports memory).mono fun reported _ => imp reported

theorem Reports.none (allows : allowed none []) :
    Reports allowed (pure none : Reporting Answer Memory _) := fun _ => ReportsFrom.none allows

end

/-- Printing, behind what others have printed. -/
theorem print_ensures (writes : List Write) (state : BoardState Memory)
    {post : Option Unit → BoardState Memory → List (Called (Ask.Response Answer)) → Prop}
    (holds : ∀ (others : Others) calls, post (some ())
      { state with writes := state.writes ++ (others.1 ++ writes) } calls) :
    (print writes : Reporting Answer Memory Unit).Ensures state post := by
  refine Program.Ensures.bind (Program.Ensures.call fun others => ?_)
  exact Program.Ensures.update (holds others _)

theorem testLine_ensures (line : Line) (state : BoardState Memory) :
    (testLine line : Reporting Answer Memory Unit).Ensures state fun value final _ =>
      value = some () ∧ Prints (· = [line]) state final ∧ state.memory = final.memory := by
  refine Program.Ensures.bind (print_ensures _ _ fun before _ => ?_)
  refine print_ensures _ _ fun between _ => ⟨rfl, ⟨_, ?_, whole_line before between line, ?_⟩, rfl⟩
  · exact List.append_assoc _ _ _
  · simp only [ownLines, List.filterMap_append, List.filterMap_cons, List.filterMap_nil, Write.line]
    rw [← ownLines, ownLines_others, ← ownLines, ownLines_others]
    rfl

theorem Prints.mono {lines weaker : List Line → Prop} {state final : BoardState Memory}
    (printed : Prints lines state final) (imp : ∀ own, lines own → weaker own) :
    Prints weaker state final := by
  obtain ⟨more, added, whole, holds⟩ := printed
  exact ⟨more, added, whole, imp _ holds⟩

section

variable {moves : Memory → Memory → Prop} [Std.Refl moves]

theorem Quietly.testLine {line : Line} (silent : line.verdict = none) :
    Quietly moves (testLine line : Reporting Answer Memory Unit) := by
  refine fun state => (testLine_ensures line state).mono fun value final _ printed => ?_
  obtain ⟨rfl, lines, same⟩ := printed
  refine ⟨rfl, lines.mono fun _ own => ?_, same ▸ refl _⟩
  exact own ▸ List.forall_mem_singleton.mpr silent

theorem Quietly.testInfo (text : String) :
    Quietly moves (testInfo text : Reporting Answer Memory Unit) := Quietly.testLine rfl

theorem Quietly.testTagged (tag : String) (unread : (plainText tag).1 ∉ readWords)
    (text : String) : Quietly moves (testTagged tag unread text : Reporting Answer Memory Unit) :=
  Quietly.testLine rfl

theorem Quietly.espLog (text : String) :
    Quietly moves (espLog text : Reporting Answer Memory Unit) := by
  refine fun state => print_ensures _ _ fun others _ => ⟨rfl, ⟨_, rfl, ?_, ?_⟩, refl _⟩
  · intro rest separated
    rw [List.append_assoc]
    exact separated_others others separated
  · rw [ownLines, List.filterMap_append, ← ownLines, ownLines_others]
    exact fun _ none => absurd none List.not_mem_nil

end

/-- A verdict is printed with the END line behind it. -/
theorem ReportsFrom.finish {memory : Memory}
    {allowed : Option ReportedVerdict → Memory → List (Called (Ask.Response Answer)) → Prop}
    (name : String) (verdict : ReportedVerdict) (detail : String)
    (allows : ∀ calls, allowed (some verdict) memory calls) :
    ReportsFrom memory allowed (finish name verdict detail : Reporting Answer Memory _) := by
  refine fun writes => Program.Ensures.bind ((testLine_ensures _ _).mono ?_)
  rintro value middle _ ⟨rfl, result, kept⟩
  refine Program.Ensures.bind ((testLine_ensures _ middle).mono ?_)
  rintro value final _ ⟨rfl, done, same⟩
  have left : memory = final.memory := kept.trans same
  refine Program.Ensures.pure ⟨some verdict, rfl, left ▸ allows _, ?_⟩
  obtain ⟨front, first, whole, lines⟩ := result
  obtain ⟨back, second, ends, last⟩ := done
  refine ⟨front ++ back, by rw [second, first, List.append_assoc], whole.append ends, ?_⟩
  refine ⟨[], plainText detail, plainText name, fun _ none => absurd none List.not_mem_nil, ?_⟩
  rw [ownLines, List.filterMap_append, ← ownLines, ← ownLines, lines, last]
  rfl

theorem Reports.finish
    {allowed : Option ReportedVerdict → List (Called (Ask.Response Answer)) → Prop}
    (name : String) (verdict : ReportedVerdict) (detail : String)
    (allows : ∀ calls, allowed (some verdict) calls) :
    Reports allowed (finish name verdict detail : Reporting Answer Memory _) := fun _ =>
  ReportsFrom.finish name verdict detail allows

theorem verdicts_eq (writes : List Write) :
    writes.filterMap Write.verdict = (ownLines writes).filterMap Line.verdict := by
  rw [ownLines, List.filterMap_filterMap]
  refine List.filterMap_congr fun write _ => ?_
  cases write with
  | own line => cases line <;> rfl
  | other text => rfl
  | lineBreak => rfl

theorem Gives.verdicts {reported : Option ReportedVerdict} {lines : List Line}
    (gives : Gives reported lines) : lines.filterMap Line.verdict = reported.toList := by
  cases reported with
  | none => exact List.filterMap_eq_nil_iff.mpr gives
  | some verdict =>
      obtain ⟨quiet, detail, name, silent, rfl⟩ := gives
      rw [List.filterMap_append, List.filterMap_eq_nil_iff.mpr silent]
      rfl

/-- **What a fixture reports is recorded.** Whatever its board answers, and whatever quiet texts
other tasks print before, during and behind it, the harness records the verdict that the program
returns, or FAIL when it returns none, and the steps that it has printed as failed. -/
theorem ReportsFrom.recorded {Meta : Type*} {memory : Memory}
    {allowed : Option ReportedVerdict → Memory → List (Called (Ask.Response Answer)) → Prop}
    {program : Reporting Answer Memory (Option ReportedVerdict)}
    (reports : ReportsFrom memory allowed program) (outside : Outside (Ask.Response Answer))
    (later : Others) (slug : String) (dur : ℚ) (info : Meta) :
    let ended := program.run outside ⟨[], memory⟩
    let writes := ended.state.writes ++ later.1
    ∃ reported, ended.value = some reported ∧ allowed reported ended.state.memory ended.calls ∧
      (recordVerdict slug (console writes) dur info).status =
        (reported.map ReportedVerdict.status).getD .fail ∧
      failedSteps (console writes) = writes.filterMap Write.failed ∧
      Gives reported (ownLines writes) := by
  intro ended writes
  obtain ⟨reported, value, allows, more, added, whole, gives⟩ := (reports []).run outside
  have printed : writes = more ++ later.1 := by rw [← List.nil_append more, ← added]
  have own : ownLines writes = ownLines more := by
    rw [printed, ownLines, List.filterMap_append, ← ownLines, ← ownLines, ownLines_others,
      List.append_nil]
  have separated : Separated false writes := by
    rw [printed]
    exact whole _ (by rw [← List.append_nil later.1]; exact separated_others later trivial)
  have verdict : writes.filterMap Write.verdict = reported.toList := by
    rw [verdicts_eq, own, gives.verdicts]
  obtain ⟨status, failed⟩ := recorded_of_separated separated verdict slug dur info
  exact ⟨reported, value, allows, status, failed, own ▸ gives⟩

end Rimba.Report
