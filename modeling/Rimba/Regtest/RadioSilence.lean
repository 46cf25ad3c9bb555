import Rimba.Regtest.OnAirSilence
import Rimba.Regtest.PowerSilence
import Rimba.Regtest.SmokeSilence

/-! # Silence for ESP boards

A tier that has flashed a board must flash the idle app to it before it ends. Each
tier does so under a condition of its own on what its calls come to, and this is
exact (`Rimba.Regtest.BenchRun.leftSilent_iff_silences`).
-/

namespace Rimba.Regtest

open Foundation (Outside)

/-- A run of a tier that has the bench to leave silent. -/
inductive BenchRun where
  | onAir (run : OnAirRun)
  /-- without `keep_radio_on` -/
  | smoke (run : SmokeRun) (silent : run.keepRadioOn = false)
  | power (run : PowerRun)

namespace BenchRun

/-- The calls a run makes when the bench answers as `outside` does. -/
def calls (run : BenchRun) (outside : Outside Command.Response) : List BenchCall :=
  match run with
  | .onAir run => (run.run.run outside .fresh).calls
  | .smoke run _ => (run.run.run outside .fresh).calls
  | .power run => (run.run.run outside .fresh).calls

/-- What the calls of a run must come to for a board it has flashed. -/
def Silences : BenchRun → List BenchCall → Board → Prop
  | .onAir _ => OnAirSilences
  | .smoke _ _ => SmokeSilences
  | .power _ => PowerSilences

/-- A run leaves every board silent exactly when its calls come to what its tier
demands for each board it has flashed. -/
theorem leftSilent_iff_silences (run : BenchRun) (outside : Outside Command.Response) :
    LeftSilent (run.calls outside) ↔ ∀ board,
      (run.calls outside).any (flashesOther board) = true →
        run.Silences (run.calls outside) board := by
  cases run with
  | onAir run =>
      obtain ⟨main, silencing, boards, made, used, silenced⟩ :=
        (onAirRun_ensures run).run outside
      rw [calls, made]
      exact onAir_leftSilent_iff used silenced
  | smoke run silent =>
      exact smoke_leftSilent_iff ((smokeRun_ensures run silent).run outside)
  | power run =>
      rcases (powerRun_ensures run).run outside with inert | ⟨main, ending, teardown, made,
        measured, torn⟩
      · exact leftSilent_of_inert inert _
      · rw [calls, made]
        exact power_leftSilent_iff measured torn

/-- A bench on which everything succeeds, but the access point never prints its marker. -/
def missedMarker : Outside Command.Response := fun _ command =>
  match command with
  | .resolvePort _ => some "/dev/ttyACM0"
  | .make _ _ _ => some ⟨0, ""⟩
  | .captureUntil _ _ _ => some ("boot:".toList, false)
  | .captureSerial _ _ => some []
  | .captureLadder _ _ => some []
  | .ssh _ _ => some ⟨0, ""⟩
  | .haveReference _ => true
  | .scp _ _ => some ⟨0, ""⟩
  | .findPpk2 => true
  | .importPpk2 => true
  | .ppk2 _ => some ()

/-- The access point is flashed, its marker missed, and its board left on the air. -/
theorem accessPoint_left_on :
    ¬ ∀ (run : BenchRun) (outside : Outside Command.Response),
      LeftSilent (run.calls outside) := by
  intro silent
  have silenced := silent (.power ⟨none, false⟩) missedMarker powerEspApBoard
    [⟨.findPpk2, true⟩, ⟨.importPpk2, true⟩, ⟨.ppk2 .takeOver, some ()⟩,
      ⟨.ppk2 .powerCycle, some ()⟩, ⟨.resolvePort powerDutBoard, some "/dev/ttyACM0"⟩,
      ⟨.resolvePort powerEspApBoard, some "/dev/ttyACM0"⟩]
    ⟨.make powerEspApApp powerEspApBoard (some "/dev/ttyACM0"), some ⟨0, ""⟩⟩
    [⟨.captureUntil powerEspApBoard (some "/dev/ttyACM0") powerEspApMarker,
        some ("boot:".toList, false)⟩,
      ⟨.ppk2 .stop, some ()⟩, ⟨.resolvePort powerDutBoard, some "/dev/ttyACM0"⟩,
      ⟨.make idleApp powerDutBoard (some "/dev/ttyACM0"), some ⟨0, ""⟩⟩, ⟨.ppk2 .close, some ()⟩]
    rfl (by decide)
  exact absurd silenced (by decide)

end BenchRun

end Rimba.Regtest
