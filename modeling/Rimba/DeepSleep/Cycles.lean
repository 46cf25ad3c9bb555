import Rimba.DeepSleep.Console
import Rimba.Regtest.DscycleRun
import Rimba.Regtest.FreshBoot

/-! # What a passed deep-sleep gate has seen

The harness follows the port of the board through its boots and reads what it prints in
pieces. When it records a PASS on so many cycles, so many boots of the board behind the
first have reported that they associated again, and when none of them was a reset, each of
these came behind a boot that went to sleep (`Rimba.DeepSleep.pass_counts_wakes`).
-/

namespace Rimba.DeepSleep

open Foundation
open Rimba.Regtest (Status)
open Rimba.Regtest.Dscycle

/-- What `readline` returns, if it is a text. -/
def readText : ReadOutcome → Option (List Char)
  | .line text => some text
  | .silent | .raised _ => none

/-- The texts that passes read. -/
def readTexts (passes : List Pass) : List (List Char) :=
  passes.filterMap fun pass => readText pass.found.outcome

/-- The text is taken for a report. -/
def isReport (text : List Char) : Bool := (reRecon.search text).isSome

/-- The pass reads a report. -/
def reportsRead (pass : Pass) : Bool := (readText pass.found.outcome).any isReport

/-- A boot of the board as it is watched: the passes that find its port, missing or not, read
some pieces of its console, in their order. -/
structure Watched where
  boot : Boot
  console : Console boot.lines
  pieces : List (List Char)
  whole : pieces.flatten = console.text
  passes : List Pass
  read : (readTexts passes).Sublist pieces

theorem countP_reportsRead (passes : List Pass) :
    passes.countP reportsRead = (readTexts passes).countP isReport := by
  induction passes with
  | nil => rfl
  | cons pass passes ih =>
      rw [readTexts, List.filterMap_cons, List.countP_cons, ih, reportsRead]
      cases readText pass.found.outcome with
      | none => rfl
      | some text => exact (List.countP_cons).symm

theorem countP_le_occurrences (texts : List (List Char)) :
    texts.countP isReport ≤ (texts.map (occurrences reportTag)).sum := by
  induction texts with
  | nil => exact Nat.le_refl 0
  | cons text texts ih =>
      have here : (isReport text).toNat ≤ occurrences reportTag text := by
        cases found : isReport text with
        | false => exact Nat.zero_le _
        | true => exact occurrences_of_search (by decide) reRecon_needs found
      rw [countP_cons_toNat, List.map_cons, List.sum_cons]
      omega

/-- Of one boot at most one report is read, and none unless it reports. -/
theorem Watched.reports (watched : Watched) :
    watched.passes.countP reportsRead ≤ watched.boot.reassociated.toNat :=
  calc watched.passes.countP reportsRead
      = (readTexts watched.passes).countP isReport := countP_reportsRead _
    _ ≤ ((readTexts watched.passes).map (occurrences reportTag)).sum := countP_le_occurrences _
    _ ≤ occurrences reportTag watched.pieces.flatten := occurrences_pieces _ watched.read
    _ = occurrences reportTag watched.console.text := by rw [watched.whole]
    _ ≤ watched.boot.reassociated.toNat := watched.console.reports

/-- No report is read of a boot behind the announcement of its sleep. -/
theorem Watched.order (watched : Watched) {front back : List (List Char)} {text report : List Char}
    (split : readTexts watched.passes = front ++ report :: back) (earlier : text ∈ front)
    (announces : (reSleep.search text).isSome = true) : isReport report = false := by
  have read := watched.read
  rw [split] at read
  obtain ⟨before, behind, pieces, early, late⟩ := List.append_sublist_iff.mp read
  have cut : watched.console.text = before.flatten ++ behind.flatten := by
    rw [← watched.whole, pieces, List.flatten_append]
  have announced : 0 < occurrences sleepTag before.flatten := by
    have sum := occurrences_pieces sleepTag (List.singleton_sublist.mpr
      (early.subset earlier))
    have counted := occurrences_of_search (by decide) reSleep_needs announces
    rw [List.map_singleton, List.sum_singleton] at sum
    exact counted.trans_le sum
  have silent := watched.console.order cut announced
  have sum := occurrences_pieces reportTag late
  rw [List.map_cons, List.sum_cons, silent] at sum
  by_contra found
  have counted := occurrences_of_search (by decide) reRecon_needs (Bool.not_eq_false _ ▸ found)
  omega

section

variable {c6 : Bool} {tEnd : ℚ} {need : ℤ}

theorem readLine_cycles_le (state : CaptureState) (outcome : ReadOutcome) :
    (state.readLine outcome).cycles ≤ state.cycles + ((readText outcome).any isReport).toNat := by
  cases outcome with
  | line text =>
      have counted := state.readText_cycles text
      rw [CaptureState.readLine, counted, readText, Option.any_some, isReport]
      refine Nat.add_le_add_left ?_ _
      cases state.pendingGap with
      | false => exact Nat.zero_le _
      | true => rw [Bool.true_and]
  | silent => exact Nat.le_refl _
  | raised now => exact Nat.le_refl _

theorem pass_cycles_le {before after : CaptureState} {pass : Pass}
    (passed : before.pass pass.found = some after) :
    after.cycles ≤ before.cycles + (reportsRead pass).toNat := by
  rw [reportsRead]
  cases found : pass.found with
  | absent now outcome =>
      rw [found] at passed
      obtain ⟨-, rfl⟩ := CaptureState.pass_absent.mp passed
      exact (before.portAbsent_cycles now outcome).le.trans (Nat.le_add_right _ _)
  | refused now =>
      rw [found] at passed
      obtain ⟨-, rfl⟩ := CaptureState.pass_refused.mp passed
      exact (before.notePortMissing_cycles now).le.trans (Nat.le_add_right _ _)
  | opened now outcome =>
      rw [found] at passed
      obtain ⟨-, rfl⟩ := CaptureState.pass_opened.mp passed
      have few := readLine_cycles_le (before.portOpened now) outcome
      rwa [before.portOpened_cycles now] at few
  | held outcome =>
      rw [found] at passed
      obtain ⟨-, rfl⟩ := CaptureState.pass_held.mp passed
      exact readLine_cycles_le before outcome

theorem runFrom_cycles_le {state final : CaptureState} {passes : List Pass}
    (reached : (captureFor c6 tEnd need).runFrom state passes = some final) :
    final.cycles ≤ state.cycles + passes.countP reportsRead := by
  induction passes generalizing state with
  | nil =>
      cases reached
      exact Nat.le_refl _
  | cons pass passes ih =>
      obtain ⟨next, stepped, continues⟩ := Option.bind_eq_some_iff.mp reached
      have here := pass_cycles_le (step_captureFor.mp stepped).2
      have later := ih continues
      rw [countP_cons_toNat]
      omega

/-- Over some boots the cycles grow by no more than the number of those that report. -/
theorem boots_cycles_le {state final : CaptureState} (boots : List Watched)
    (reached : (captureFor c6 tEnd need).runFrom state (boots.flatMap Watched.passes) =
      some final) :
    final.cycles ≤ state.cycles + boots.countP fun watched => watched.boot.reassociated := by
  induction boots generalizing state with
  | nil =>
      cases reached
      exact Nat.le_refl _
  | cons watched boots ih =>
      rw [List.flatMap_cons, Machine.runFrom_append] at reached
      obtain ⟨middle, first, continues⟩ := Option.bind_eq_some_iff.mp reached
      have here := (runFrom_cycles_le first).trans (Nat.add_le_add_left watched.reports _)
      have later := ih continues
      rw [countP_cons_toNat]
      omega

end

/-- The port is never away for long: it opens less than `_DEEPSLEEP_GAP_S` after it was found
missing or lost, while it is only missing in between. -/
def PromptPort (events : List PortEvent) : Prop :=
  ∀ early away since gone again late,
    events = early ++ away :: (gone ++ PortEvent.opened again :: late) →
      away = .missing since ∨ away = .lost since →
        (∀ event ∈ gone, event.isMissing = true) → again - since < deepsleepGapS

theorem PromptPort.of_append {front : List PortEvent} (back : List PortEvent)
    (prompt : PromptPort (front ++ back)) :
    PromptPort front := by
  intro early away since gone again late split isAway missing
  refine prompt early away since gone again (late ++ back) ?_ isAway missing
  rw [split]
  simp only [List.append_assoc, List.cons_append]

/-- A line that a run of passes shows is one that they read. -/
theorem line_of_shown {passes : List Pass} {text : List Char}
    (member : PortEvent.line text ∈ shown passes) : text ∈ readTexts passes := by
  obtain ⟨pass, inRun, here⟩ := List.mem_flatMap.mp member
  refine List.mem_filterMap.mpr ⟨pass, inRun, ?_⟩
  rcases List.mem_append.mp here with before | read
  · cases found : pass.found <;> rw [found] at before <;>
      simp only [PortFound.eventsBefore, List.mem_singleton, List.not_mem_nil, reduceCtorEq]
        at before
  · cases outcome : pass.found.outcome <;> rw [outcome] at read <;>
      simp only [ReadOutcome.events, List.mem_singleton, List.not_mem_nil, reduceCtorEq,
        PortEvent.line.injEq] at read
    rw [read]
    rfl

theorem line_of_shownBefore {past : List Pass} (pass : Pass) {text : List Char}
    (member : PortEvent.line text ∈ shownBefore past pass) : text ∈ readTexts past := by
  rcases List.mem_append.mp member with earlier | before
  · exact line_of_shown earlier
  · cases found : pass.found <;> rw [found] at before <;>
      simp only [PortFound.eventsBefore, List.mem_singleton, List.not_mem_nil, reduceCtorEq]
        at before

/-- No cycle is counted in a boot through which the port is prompt. -/
theorem first_uncounted {c6 : Bool} {tEnd : ℚ} {need : ℤ} {watched : Watched}
    (prompt : PromptPort (shown watched.passes)) {final : CaptureState}
    (reached : (captureFor c6 tEnd need).run watched.passes = some final) : final.cycles = 0 := by
  refine @Machine.run_history _ _ (captureFor c6 tEnd need)
    (fun past state => ∀ later, watched.passes = past ++ later → state.cycles = 0)
    (fun _ _ => rfl) ?_ _ _ reached [] (List.append_nil _).symm
  intro past before pass after ran none stepped later split
  rw [List.append_assoc, List.singleton_append] at split
  obtain ⟨middle, rfl, same, shownSo, -⟩ := (follows_run ran).pass (pass_of_step stepped)
  have unmoved : middle.cycles = 0 := same.trans (none _ split)
  by_contra counted
  have more : middle.cycles < (middle.readLine pass.found.outcome).cycles := by
    rw [unmoved]
    exact Nat.pos_of_ne_zero counted
  obtain ⟨pending, report, isLine, isFound⟩ := (middle.readLine_counts _).mp more
  have promptBefore : PromptPort (shownBefore past pass) := by
    refine PromptPort.of_append (pass.found.outcome.events ++ shown later) ?_
    rw [shownBefore, List.append_assoc, ← List.append_assoc pass.found.eventsBefore]
    rwa [split, shown, List.flatMap_append, List.flatMap_cons] at prompt
  have texts : readTexts watched.passes = readTexts past ++ report :: readTexts later := by
    rw [split, readTexts, List.filterMap_append, List.filterMap_cons, isLine]
    rfl
  rcases shownSo.pending pending with lateOpen | slept
  · obtain ⟨since, gone, first, back, events, missing, long⟩ := lateOpen
    have soon := promptBefore [] _ since gone first back events (.inl rfl) missing
    exact absurd long (not_le.mpr soon)
  · obtain ⟨front, first, back, events, ⟨text, member, marked⟩ |
      ⟨early, since, gone, again, late, behind, missing, long⟩⟩ := slept
    · have earlier : text ∈ readTexts past := by
        refine line_of_shownBefore pass ?_
        rw [shownBefore, events]
        exact List.mem_append_right _ (List.mem_cons_of_mem _ member)
      have silent := watched.order texts earlier marked
      rw [isReport, isFound] at silent
      cases silent
    · have soon := promptBefore (front ++ .opened first :: early) _ since gone again late
        (by rw [shownBefore, events, behind]; simp only [List.append_assoc, List.cons_append])
        (.inr rfl) missing
      exact absurd long (not_le.mpr soon)

theorem verdict_pass {cycles : ℤ} {c6 : Bool} {captured : CaptureState} {durationS : ℚ}
    (passed : (verdict cycles c6 captured durationS).status = .pass) :
    cycles ≤ captured.cycles := by
  by_contra few
  have status : (verdict cycles c6 captured durationS).status ≠ .pass := by
    simp only [verdict]
    split_ifs <;> simp only [gateResult, ne_eq, reduceCtorEq, not_false_eq_true]
  exact status passed

/-- A PASS is recorded only with as many cycles captured. -/
theorem recorded_pass {cycles : ℤ} {answers : RunAnswers}
    {result : Rimba.Regtest.Result (Option DscycleMeta)}
    (found : recorded cycles answers = some result) (passed : result.status = .pass) :
    ∃ captured, answers.captured cycles = some captured ∧ cycles ≤ captured.cycles := by
  rw [recorded] at found
  split_ifs at found
  · cases found
    cases passed
  · cases found
    cases passed
  · cases found
    cases passed
  · cases found
    cases passed
  · cases found
    cases passed
  · obtain ⟨captured, ended, rfl⟩ := Option.map_eq_some_iff.mp found
    exact ⟨captured, ended, verdict_pass passed⟩

/-- The chip reports a wake from deep sleep only behind a boot that went to sleep. -/
def WokenBySleep (boots : List Watched) : Prop :=
  boots.IsChain fun earlier next =>
    next.boot.answers.cause.fromDeep = true → earlier.boot.slept = true

/-- Where every boot woke from deep sleep, the one before it went to sleep. -/
theorem countP_slept {first : Watched} {later : List Watched}
    (woken : WokenBySleep (first :: later))
    (deep : ∀ watched ∈ later, watched.boot.answers.cause.fromDeep = true) :
    ((first :: later).zip later).countP
        (fun pair => pair.1.boot.slept && pair.2.boot.reassociated) =
      later.countP fun watched => watched.boot.reassociated := by
  induction later generalizing first with
  | nil => rfl
  | cons watched later ih =>
      obtain ⟨here, behind⟩ := List.isChain_cons_cons.mp woken
      have slept := here (deep watched List.mem_cons_self)
      have rest := ih behind fun other member => deep other (List.mem_cons_of_mem _ member)
      rw [List.zip_cons_cons, List.countP_cons, List.countP_cons, rest, slept, Bool.true_and]

/-- A boot that connects at once and goes to sleep. -/
def promptBoot (cause : WakeCause) (ms : UInt32) : Boot where
  answers := ⟨cause, false, 0, 0, true, fun _ => rfl, ms⟩
  done := appMain ⟨cause, false, 0, 0, true, fun _ => rfl, ms⟩
  started := List.prefix_rfl

theorem foreign_dash : ∀ c ∈ ['\u2014'], 128 ≤ c.toNat :=
  List.forall_mem_singleton.mpr (Nat.le_of_ble_eq_true rfl)

def plainDash : Dash := ⟨['\u2014'], foreign_dash⟩

/-- A line with nothing before it. -/
def alone (line : BootLine) : List Char × LogLine := ([], ⟨0, line, plainDash, true⟩)

/-- The piece of the console that is the line. -/
def piece (line : BootLine) : List Char := glued [] [alone line]

theorem flatten_pieces (lines : List BootLine) :
    (lines.map piece).flatten = glued [] (lines.map alone) := by
  induction lines with
  | nil => rfl
  | cons line lines ih =>
      have joined := glued_append [] [alone line] (lines.map alone)
      rw [List.map_cons, List.flatten_cons, ih, List.map_cons]
      exact joined.symm

/-- A boot that prints nothing but its lines, and is read line by line. -/
def readByLine (boot : Boot) (passes : List Pass)
    (read : (readTexts passes).Sublist (boot.lines.map piece)) : Watched where
  boot := boot
  console :=
    { logged := boot.lines.map alone
      last := []
      same := by
        rw [List.map_map]
        exact List.map_id _
      quiet := by
        intro entry member
        obtain ⟨line, -, rfl⟩ := List.mem_map.mp member
        exact quiet_nil
      quietLast := quiet_nil }
  pieces := boot.lines.map piece
  whole := flatten_pieces boot.lines
  passes := passes
  read := read

/-- The board is flashed, associates and goes to sleep. -/
def flashed : Watched :=
  readByLine (promptBoot (.other 0) 812)
    [⟨0, .opened 0 (.line (piece .freshBoot))⟩,
      ⟨9, .held (.line (piece (.reconnected 812 (.other 0))))⟩,
      ⟨14, .held (.line (piece .deepSleep))⟩, ⟨15, .held (.raised 15)⟩]
    (List.Sublist.refl _)

/-- It is woken and associates again. -/
def wokenAgain : Watched :=
  readByLine (promptBoot .ext1 640)
    [⟨16, .absent 16 .sent⟩, ⟨18, .absent 18 .sent⟩,
      ⟨19, .opened 19 (.line (piece (.woke .ext1)))⟩,
      ⟨20, .held (.line (piece (.reconnected 640 .ext1)))⟩]
    (List.sublist_append_left _ [piece .deepSleep])

def oneCycle : RunAnswers where
  ready := true
  why := ""
  apPort := some "/dev/ttyACM0"
  c6Opened := true
  c6Rested := true
  apFlash := ⟨0, ""⟩
  apUp := true
  dutFlash := ⟨0, ""⟩
  tEnd := 100
  passes := flashed.passes ++ wokenAgain.passes
  durationS := 20

theorem oneCycle_recorded : (recorded 1 oneCycle).map (·.status) = some .pass := by
  decide +kernel

theorem flashed_prompt : PromptPort (shown flashed.passes) := by
  intro early away since gone again late split
  have behind : PortEvent.opened again ∈ (shown flashed.passes).tail := by
    rw [split]
    cases early with
    | nil => exact List.mem_append_right _ List.mem_cons_self
    | cons first early =>
        refine List.mem_append_right _ (List.mem_cons_of_mem _ ?_)
        exact List.mem_append_right _ List.mem_cons_self
  have never : (shown flashed.passes).tail = [.line (piece .freshBoot),
      .line (piece (.reconnected 812 (.other 0))), .line (piece .deepSleep), .lost 15] := rfl
  rw [never] at behind
  simp only [List.mem_cons, List.not_mem_nil, reduceCtorEq, or_self] at behind

/-- **A PASS counts wakes.** When the port is prompt through the first boot, which
associates after flashing, a PASS on so many cycles means that so many later boots have
reported that they associated; and when all of these woke from deep sleep, so many times a
boot has gone to sleep and the next has associated again. What is printed around the lines
of the log is quiet. -/
theorem pass_counts_wakes {cycles : ℤ} {answers : RunAnswers}
    {result : Rimba.Regtest.Result (Option DscycleMeta)} (first : Watched) (later : List Watched)
    (watched : answers.passes = first.passes ++ later.flatMap Watched.passes)
    (prompt : PromptPort (shown first.passes)) (woken : WokenBySleep (first :: later))
    (found : recorded cycles answers = some result) (passed : result.status = .pass) :
    cycles ≤ later.countP (fun watched => watched.boot.reassociated) ∧
      ((∀ watched ∈ later, watched.boot.answers.cause.fromDeep = true) →
        cycles ≤ ((first :: later).zip later).countP fun pair =>
          pair.1.boot.slept && pair.2.boot.reassociated) := by
  obtain ⟨captured, ended, enough⟩ := recorded_pass found passed
  rw [RunAnswers.captured, watched, Machine.run, Machine.runFrom_append] at ended
  obtain ⟨middle, start, continues⟩ := Option.bind_eq_some_iff.mp ended
  have none : middle.cycles = 0 := first_uncounted prompt start
  have counted := boots_cycles_le later continues
  rw [none, Nat.zero_add] at counted
  have wakes : cycles ≤ later.countP fun watched => watched.boot.reassociated :=
    enough.trans (Int.ofNat_le.mpr counted)
  refine ⟨wakes, fun deep => ?_⟩
  rwa [countP_slept woken deep]

/-- One cycle is asked for and passes. -/
theorem pass_counts_wakes_oneCycle : (recorded 1 oneCycle).map (·.status) = some .pass ∧
    (1 : ℤ) ≤ [wokenAgain].countP (fun watched => watched.boot.reassociated) ∧
      (1 : ℤ) ≤ ([flashed, wokenAgain].zip [wokenAgain]).countP fun pair =>
        pair.1.boot.slept && pair.2.boot.reassociated := by
  obtain ⟨result, found, passed⟩ := Option.map_eq_some_iff.mp oneCycle_recorded
  have woken : WokenBySleep [flashed, wokenAgain] :=
    List.isChain_cons_cons.mpr ⟨fun _ => by decide, List.isChain_singleton _⟩
  have counted := pass_counts_wakes flashed [wokenAgain] rfl flashed_prompt
    woken found passed
  have deep : ∀ watched ∈ [wokenAgain], watched.boot.answers.cause.fromDeep = true :=
    List.forall_mem_singleton.mpr rfl
  exact ⟨oneCycle_recorded, counted.1, counted.2 deep⟩

end Rimba.DeepSleep
