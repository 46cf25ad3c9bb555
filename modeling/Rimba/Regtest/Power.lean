import Rimba.Regtest.LinuxPeer

/-! # The power ladder

`run` of the harness's `tp_power` module: the PPK2 is taken over and the DUT power
cycled, an access point is brought up, and the DUT is flashed and sampled. However
that ends, the sampler is stopped, the DUT silenced, the access point torn down and
the PPK2 released, in this order, and an exception of the silencing is not caught.
What is recorded and the scoring of the samples are left out.
-/

namespace Rimba.Regtest

open Foundation (Program)

/-- `POWER_DUT_BOARD` -/
def powerDutBoard : Board := .board2

/-- `POWER_DUT_APP` -/
def powerDutApp : String := "test-power"

/-- `POWER_ESP_AP_BOARD` -/
def powerEspApBoard : Board := .board0

/-- `POWER_ESP_AP_APP` -/
def powerEspApApp : String := "test-apsta-ap"

/-- `POWER_ESP_AP_MARKER` -/
def powerEspApMarker : String := "ap-ready"

/-- An operation of the sampler. -/
def ppk2 (operation : Ppk2) : Bench Unit := do
  orRaise (← Program.call (Command.ppk2 operation))

/-- Wait for the DUT to enumerate. -/
def awaitDut : ℕ → Bench (Option String)
  | 0 => pure none
  | tries + 1 => do
      match ← resolvePort powerDutBoard with
      | some port => return some port
      | none => awaitDut tries

def setApTeardown (teardown : Option ApTeardown) : Bench Unit :=
  Program.update fun suite => { suite with apTeardown := teardown }

/-- Bring up the ESP access point: whether it is up. -/
def bringUpEspAp : Bench Bool := do
  match ← resolvePort powerEspApBoard with
  | none => return false
  | some port =>
      let cp ← make powerEspApApp powerEspApBoard (some port)
      if cp.returncode ≠ 0 then
        return false
      else
        let (_, up) ← captureUntil powerEspApBoard (some port) powerEspApMarker
        if !up then
          return false
        else
          setApTeardown (some .esp)
          return true

/-- Bring up the Linux access point: whether it is up. -/
def bringUpLinuxAp (host : String) : Bench Bool := do
  let up ← bringUpAp host
  setApTeardown (up.teardown.map .linux)
  return up.ok

/-- The arguments of a run: the access point, an ESP board or a Linux host. -/
structure PowerRun where
  linuxAp : Option String
  dryRun : Bool

namespace PowerRun

variable (power : PowerRun)

def bringUpAccessPoint : Bench Bool :=
  match power.linuxAp with
  | none => bringUpEspAp
  | some host => bringUpLinuxAp host

/-- Flash the DUT and sample the ladder. -/
def sampleLadder (dutPort : String) : Bench Unit := do
  let cp ← make powerDutApp powerDutBoard (some dutPort)
  if cp.returncode ≠ 0 then
    pure ()
  else
    ppk2 .start
    let _ ← orRaise (← Program.call (Command.captureLadder powerDutBoard dutPort))
    ppk2 .stop

/-- What a run does before its teardown. -/
def measure : Bench Unit := do
  ppk2 .takeOver
  ppk2 .powerCycle
  match ← awaitDut 60 with
  | none => pure ()
  | some dutPort =>
      if ← power.bringUpAccessPoint then
        sampleLadder dutPort

/-- Invoke the access point's teardown, whatever it does. -/
def tearDownAp : Bench Unit := do
  let suite ← Program.current
  match suite.apTeardown with
  | none => pure ()
  | some .esp =>
      Program.orElse (do let _ ← goRadioSilent [powerEspApBoard]) (pure ())
  | some (.linux teardown) => Program.orElse teardown.invoke (pure ())

/-- The teardown of a run. -/
def tearDown : Bench Unit := do
  Program.orElse (ppk2 .stop) (pure ())
  let _ ← goRadioSilent [powerDutBoard]
  tearDownAp
  Program.orElse (ppk2 .close) (pure ())

/-- `tp_power.run` -/
def run : Bench Unit := do
  if power.dryRun then
    pure ()
  else if !(← Program.call Command.findPpk2) then
    pure ()
  else if !(← Program.call Command.importPpk2) then
    pure ()
  else
    setApTeardown none
    Program.ensuring power.measure tearDown

end PowerRun

end Rimba.Regtest
