import Rimba.Regtest.Bench

/-! # Flash, boot, radio up

`run` of the harness's `t1_smoke` module: the candidates are flashed to one board and
captured, one after another, and the board is silenced at the end unless the radio
is to be kept on. A flash that raises ends the run where it is. What is recorded of
each app plays no part in this and is left out.
-/

namespace Rimba.Regtest

open Foundation (Program)

/-- An app of the manifest: the boards it is built for, and whether it sleeps. -/
structure App where
  name : String
  boards : List String
  sleeps : Bool

/-- A feature app of the on-air tier. -/
def App.isTest (app : App) : Bool := "test-".toList.isPrefixOf app.name.toList

/-- `T0_APPS` -/
def t0Apps (apps : List App) : List App := apps.filter fun app => !app.boards.isEmpty

/-- `_t1_apps` -/
def t1Apps (apps : List App) : List App :=
  (t0Apps apps).filter fun app => !app.sleeps && !app.isTest

/-- The arguments of a run, and what it reads of the manifest: its board when the
bench has it, and the apps asked for. -/
structure SmokeRun where
  manifestApps : List App
  benchBoard : String
  board : Option Board
  apps : List String
  includeSleepApps : Bool
  keepRadioOn : Bool

namespace SmokeRun

variable (smoke : SmokeRun)

/-- The apps a run flashes, in order. -/
def candidates : List App :=
  let chosen :=
    if !smoke.apps.isEmpty then
      (smoke.manifestApps.filter fun app => app.name ∈ smoke.apps).filter fun app => !app.isTest
    else if smoke.includeSleepApps then (t0Apps smoke.manifestApps).filter fun app => !app.isTest
    else t1Apps smoke.manifestApps
  chosen.filter fun app => smoke.benchBoard ∈ app.boards

end SmokeRun

/-- `_smoke_one` -/
def smokeOne (app : App) (board : Board) (port : String) : Bench Unit := do
  let cp ← make app.name board (some port)
  if cp.returncode ≠ 0 then
    pure ()
  else
    Program.orElse
      (do let _ ← orRaise (← Program.call (Command.captureSerial board port)))
      (pure ())

/-- `t1_smoke.run` -/
def SmokeRun.run (smoke : SmokeRun) : Bench Unit :=
  match smoke.board with
  | none => pure ()
  | some board => do
      match ← resolvePort board with
      | none => pure ()
      | some port =>
          Program.forEach smoke.candidates fun app => smokeOne app board port
          if !smoke.candidates.isEmpty && !smoke.keepRadioOn then
            let _ ← goRadioSilent [board]

/-- No candidate is the idle app, which is a test app. -/
theorem SmokeRun.candidate_ne_idle (smoke : SmokeRun) {app : App}
    (member : app ∈ smoke.candidates) : app.name ≠ idleApp := by
  have notTest : app.isTest = false := by
    have chosen := (List.mem_filter.mp member).1
    split at chosen
    · simpa using (List.mem_filter.mp chosen).2
    · split at chosen
      · simpa using (List.mem_filter.mp chosen).2
      · have both := (List.mem_filter.mp chosen).2
        simp only [Bool.and_eq_true, Bool.not_eq_true'] at both
        exact both.2
  intro idle
  rw [App.isTest, idle] at notTest
  exact absurd notTest (by decide)

end Rimba.Regtest
