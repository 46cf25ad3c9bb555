import Rimba.Regtest.CycleCount
import Rimba.Regtest.Reporter

/-! # A run of the deep-sleep gate

`run` of the harness's `dscycle` module: what it records, from what it is answered and
what `_capture` returns. An exception that leaves it ends it before anything is
recorded. What its teardown does to the bench is left out.
-/

namespace Rimba.Regtest.Dscycle

/-- `_AP_BOARD` -/
def apBoard : String := "board0"

/-- `_AP_MARKER` -/
def apMarker : String := "ap-ready"

/-- The meta of a verdict. -/
structure DscycleMeta where
  cyclesTarget : ℤ
  wakeCycles : ℕ
  deepSleepGaps : ℕ
  reconnectsTotal : ℕ
  latenciesMs : List ℕ
  wake : String
  c6Lost : Option String
  deriving DecidableEq

/-- What a `make` that has ended leaves. -/
structure MakeEnded where
  returncode : ℤ
  stderr : String

/-- What `run` is answered, and what the port shows while it captures. -/
structure RunAnswers where
  /-- `_ensure_holder` -/
  ready : Bool
  why : String
  apPort : Option String
  /-- `_open_c6` has returned a companion. -/
  c6Opened : Bool
  /-- `hiz` has reached it. -/
  c6Rested : Bool
  apFlash : MakeEnded
  apUp : Bool
  dutFlash : MakeEnded
  tEnd : ℚ
  passes : List Pass
  durationS : ℚ

/-- `c6 is not None` when the capture begins. -/
def RunAnswers.c6 (answers : RunAnswers) : Bool := answers.c6Opened && answers.c6Rested

/-- What `_capture` has when it returns. -/
def RunAnswers.captured (answers : RunAnswers) (cycles : ℤ) : Option CaptureState :=
  (captureFor answers.c6 answers.tEnd cycles).run answers.passes

/-- A result of the gate. -/
def gateResult (status : Status) (durationS : ℚ) (detail : String) (info : Option DscycleMeta) :
    Result (Option DscycleMeta) :=
  ⟨"T2", "deepsleep-reconnect", status, detail, durationS, "", info⟩

/-- `stderr[-200:]` -/
def lastOfStderr (stderr : String) : String :=
  String.ofList (stderr.toList.drop (stderr.length - 200))

/-- `lat_str` -/
def latencies (recons : List ℕ) : String :=
  if recons.isEmpty then "none" else ", ".intercalate (recons.map fun ms => s!"{ms}ms")

/-- `fault` -/
def benchFault (c6Lost : String) : String :=
  if c6Lost ≠ "" then
    s!" [BENCH FAULT, not a DUT result: {c6Lost} — no wake could be commanded after that]"
  else ""

/-- The verdict on what was captured. -/
def verdict (cycles : ℤ) (c6 : Bool) (captured : CaptureState) (durationS : ℚ) :
    Result (Option DscycleMeta) :=
  let budget : ℤ := 45 + cycles * (if c6 then 55 else 130)
  let wakeCycles := captured.cycles
  let deepSleeps := captured.deepSleeps
  let reconnects := captured.recons.length
  let latStr := latencies captured.recons
  let fault := benchFault captured.c6Lost
  let lost := captured.c6Lost ≠ ""
  let info : DscycleMeta :=
    { cyclesTarget := cycles
      wakeCycles := wakeCycles
      deepSleepGaps := deepSleeps
      reconnectsTotal := reconnects
      latenciesMs := captured.recons
      wake := if !c6 || lost then "backup-timer" else "commanded-c6"
      c6Lost := if lost then some captured.c6Lost else none }
  if cycles ≤ wakeCycles then
    gateResult .pass durationS
      (s!"{wakeCycles}/{cycles} deep-sleep→wake→reassoc cycles " ++
        s!"({deepSleeps} long deep-sleep gaps >3s, {reconnects} reconnects, latencies {latStr})")
      (some info)
  else if 1 ≤ wakeCycles then
    let short := if lost then "cut short" else "a flaky link/wake"
    gateResult .inconclusive durationS
      (s!"only {wakeCycles}/{cycles} deep-sleep→wake→reassoc cycles within {budget}s " ++
        s!"({deepSleeps} deep-sleep gaps, {reconnects} reconnects) — {short} " ++
        s!"(latencies {latStr}){fault}")
      (some info)
  else if !captured.recons.isEmpty then
    let why := if lost then "cut short" else "did it deep-sleep and get woken?"
    gateResult .inconclusive durationS
      (s!"board2 associated ({reconnects} reconnect(s), latencies {latStr}) " ++
        s!"but completed 0/{cycles} deep-sleep→wake cycles ({deepSleeps} gaps) — {why}{fault}")
      (some info)
  else
    gateResult (if lost then .inconclusive else .fail) durationS
      (s!"0/{cycles} reconnects ({deepSleeps} deep-sleep gaps) — the leaf did not rejoin on " ++
        s!"wake. Is the AP up and the C6 wake reaching D5?{fault}")
      (some info)

/-- The result that `run` adds; `none` when the port cannot show what it is said to. -/
def recorded (cycles : ℤ) (answers : RunAnswers) : Option (Result (Option DscycleMeta)) :=
  if !answers.ready then some (gateResult .skip 0 answers.why none)
  else if answers.apPort.all fun port => port = "" then
    some (gateResult .skip 0 s!"AP board {apBoard} not enumerated" none)
  else if answers.apFlash.returncode ≠ 0 then
    let tail := lastOfStderr answers.apFlash.stderr
    some (gateResult .inconclusive 0 s!"AP flash failed: {tail}" none)
  else if !answers.apUp then
    some (gateResult .inconclusive 0 (s!"ESP AP never printed '" ++ apMarker ++ "'") none)
  else if answers.dutFlash.returncode ≠ 0 then
    let tail := lastOfStderr answers.dutFlash.stderr
    some (gateResult .inconclusive 0 s!"DUT flash failed: {tail}" none)
  else
    (answers.captured cycles).map fun captured =>
      verdict cycles answers.c6 captured answers.durationS

/-- `run`, with what the baseline before it holds. -/
def run (cycles : ℤ) (prior : List (Result (Option DscycleMeta))) (answers : RunAnswers) :
    Option (Reporter (Option DscycleMeta)) :=
  (recorded cycles answers).map ((Reporter.new "T2" true).seedFrom prior).collect

/-- A verdict is a failure only while the companion could command wakes. -/
theorem verdict_fail {cycles : ℤ} {c6 : Bool} {captured : CaptureState} {durationS : ℚ}
    (failed : (verdict cycles c6 captured durationS).status = .fail) : captured.c6Lost = "" := by
  by_contra lost
  have status : (verdict cycles c6 captured durationS).status ≠ .fail := by
    simp only [verdict]
    split_ifs <;> simp only [gateResult, ne_eq, reduceCtorEq, not_false_eq_true]
  exact status failed

/-- A failure is recorded only when the companion could command wakes to the end. -/
theorem run_fail {cycles : ℤ} {prior : List (Result (Option DscycleMeta))} {answers : RunAnswers}
    {reporter : Reporter (Option DscycleMeta)} (ran : run cycles prior answers = some reporter)
    {result : Result (Option DscycleMeta)} (member : result ∈ reporter.results)
    (failed : result.status = .fail) :
    ∃ captured, answers.captured cycles = some captured ∧ captured.c6Lost = "" := by
  obtain ⟨added, found, rfl⟩ := Option.map_eq_some_iff.mp ran
  obtain rfl := List.mem_singleton.mp member
  rw [recorded] at found
  split_ifs at found
  · cases found
    cases failed
  · cases found
    cases failed
  · cases found
    cases failed
  · cases found
    cases failed
  · cases found
    cases failed
  · obtain ⟨captured, ended, rfl⟩ := Option.map_eq_some_iff.mp found
    exact ⟨captured, ended, verdict_fail failed⟩

end Rimba.Regtest.Dscycle
