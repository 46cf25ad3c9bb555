import Mathlib.Data.List.Infix
import Rimba.Foundation.Program
import Rimba.Regtest.Reporter

/-! # The bench

The operations by which the harness's tiers reach the bench: ports are resolved,
apps flashed, consoles captured, and Linux peers driven over ssh. Each may answer
anything, and all but the resolving of a port may raise. `goRadioSilent` is
`go_radio_silent` of the `common` module: it returns boards to the idle app, in
order, and stops where a flash raises (`Rimba.Regtest.goRadioSilent_ensures`).
-/

namespace Rimba.Regtest

open Foundation (Called Program)

/-- The ESP boards. -/
inductive Board where
  | board0
  | board1
  | board2
  deriving DecidableEq, Repr

/-- The boards by name. -/
def Board.sorted : List Board := [.board0, .board1, .board2]

def Board.name : Board → String
  | .board0 => "board0"
  | .board1 => "board1"
  | .board2 => "board2"

/-- `IDLE_APP`, the radio-free app. -/
def idleApp : String := "test-idle"

/-- The configurations a Linux peer needs at hand. -/
inductive PeerConfig where
  | mesh
  | ap
  deriving DecidableEq

/-- The commands run on a Linux peer. -/
inductive Remote where
  /-- `echo ok` -/
  | echoOk
  /-- whether the configuration is in `/tmp` -/
  | haveConfig (config : PeerConfig)
  /-- start `wpa_supplicant_s1g` in mesh mode -/
  | startMesh
  /-- poll for `type mesh`, then set the address -/
  | pollMesh (meshIp : String)
  /-- the end of the supplicant's log -/
  | tailMeshLog
  /-- the MAC of `wlan1` -/
  | wlan1Mac
  /-- set the gate's mesh parameters and read them back -/
  | setGate
  /-- start `hostapd_s1g` -/
  | startAp
  /-- poll for `type AP` -/
  | pollAp
  /-- the end of `hostapd_s1g`'s log -/
  | tailApLog
  /-- leave the mesh, kill the supplicant, `wlan1` down -/
  | silence
  /-- kill `hostapd_s1g`, `wlan1` down -/
  | stopAp
  deriving DecidableEq

/-- The operations of the PPK2 sampler. -/
inductive Ppk2 where
  | takeOver
  | powerCycle
  | start
  | stop
  | close
  deriving DecidableEq

/-- What a tier asks of the bench. A flash names the board whose port it was given. -/
inductive Command where
  | resolvePort (board : Board)
  | make (app : String) (board : Board) (port : Option String)
  | captureUntil (board : Board) (port : Option String) (marker : String)
  | captureSerial (board : Board) (port : String)
  | captureLadder (board : Board) (port : String)
  | ssh (host : String) (remote : Remote)
  | haveReference (config : PeerConfig)
  | scp (host : String) (config : PeerConfig)
  | findPpk2
  | importPpk2
  | ppk2 (operation : Ppk2)
  deriving DecidableEq

/-- A finished process. -/
structure CompletedProcess where
  returncode : ℤ
  stdout : String
  deriving DecidableEq

/-- What the bench answers; `none` where the call raises, except for a port, which
may be absent. -/
@[reducible] def Command.Response : Command → Type
  | .resolvePort _ => Option String
  | .make _ _ _ => Option CompletedProcess
  | .captureUntil _ _ _ => Option (List Char × Bool)
  | .captureSerial _ _ => Option (List Char)
  | .captureLadder _ _ => Option (List String)
  | .ssh _ _ => Option CompletedProcess
  | .haveReference _ => Bool
  | .scp _ _ => Option CompletedProcess
  | .findPpk2 => Bool
  | .importPpk2 => Bool
  | .ppk2 _ => Option Unit

/-- A call of the bench. -/
abbrev BenchCall := Called Command.Response

/-- What takes a Linux peer off the air again. -/
inductive Teardown where
  /-- `radio_silence(host)` -/
  | radioSilence (host : String)
  /-- kill `hostapd_s1g` -/
  | stopAp (host : String)
  deriving DecidableEq

/-- What takes the power tier's access point off the air again. -/
inductive ApTeardown where
  | esp
  | linux (teardown : Teardown)
  deriving DecidableEq

/-- What a run keeps: the results it has recorded, by name and status, the boards it
has flashed, the teardowns the test has been handed, and that of the access point. -/
structure Suite where
  results : List (String × Status)
  usedBoards : List Board
  linuxTeardowns : List Teardown
  apTeardown : Option ApTeardown

/-- A suite that has run nothing. -/
def Suite.fresh : Suite := ⟨[], [], [], none⟩

/-- A step of a run. -/
abbrev Bench (Value : Type) := Program Command.Response Suite Value

/-- `Reporter.add` -/
def add (name : String) (status : Status) : Bench Unit :=
  Program.update fun suite => { suite with results := suite.results ++ [(name, status)] }

/-- `used_boards.add` -/
def useBoard (board : Board) : Bench Unit :=
  Program.update fun suite => { suite with usedBoards := board :: suite.usedBoards }

/-- The value of a call that may raise. -/
def orRaise {Value : Type} : Option Value → Bench Value
  | some value => pure value
  | none => Program.raise

/-- `resolve_port` -/
def resolvePort (board : Board) : Bench (Option String) := Program.call (Command.resolvePort board)

/-- `make("flash", ...)` -/
def make (app : String) (board : Board) (port : Option String) : Bench CompletedProcess := do
  orRaise (← Program.call (Command.make app board port))

/-- `capture_until` -/
def captureUntil (board : Board) (port : Option String) (marker : String) :
    Bench (List Char × Bool) := do
  orRaise (← Program.call (Command.captureUntil board port marker))

/-- `go_radio_silent` -/
def goRadioSilent : List Board → Bench (List (String × Status))
  | [] => pure []
  | board :: rest => do
      let name := board.name ++ " -> " ++ idleApp
      match ← resolvePort board with
      | none => return (name, .skip) :: (← goRadioSilent rest)
      | some port =>
          let cp ← make idleApp board (some port)
          return (name, if cp.returncode = 0 then .pass else .fail) :: (← goRadioSilent rest)

theorem orRaise_ensures {Value : Type} {answer : Option Value} {suite : Suite}
    {post : Option Value → Suite → List BenchCall → Prop} (holds : post answer suite []) :
    (orRaise answer).Ensures suite post := by
  cases answer with
  | none => exact Program.Ensures.raise holds
  | some value => exact Program.Ensures.pure holds

/-- The suite is left alone, and every call satisfies a predicate. -/
def Untouched (holds : BenchCall → Prop) (before after : Suite) (calls : List BenchCall) : Prop :=
  after = before ∧ ∀ called ∈ calls, holds called

/-- A program that leaves the suite alone, and all of whose calls satisfy a predicate. -/
def Only (holds : BenchCall → Prop) {Value : Type} (program : Bench Value) : Prop :=
  program.Follows (Untouched holds)

namespace Only

variable {holds : BenchCall → Prop} {Value Other : Type}

theorem composes : Foundation.Composes (Untouched holds) where
  refl _ := ⟨rfl, List.forall_mem_nil _⟩
  trans _ _ _ _ _ first second :=
    ⟨second.1.trans first.1, List.forall_mem_append.mpr ⟨first.2, second.2⟩⟩

theorem pure (value : Value) : Only holds (Pure.pure value) := composes.pure value

theorem call {command : Command} (each : ∀ answer, holds ⟨command, answer⟩) :
    Only holds (Program.call command) := fun _ =>
  Program.Ensures.call fun answer => ⟨rfl, List.forall_mem_singleton.mpr (each answer)⟩

theorem bind {program : Bench Value} {later : Value → Bench Other} (first : Only holds program)
    (rest : ∀ value, Only holds (later value)) : Only holds (program >>= later) :=
  composes.bind first rest

theorem orElse {program handler : Bench Value} (first : Only holds program)
    (second : Only holds handler) : Only holds (program.orElse handler) :=
  composes.orElse first second

theorem orRaise (answer : Option Value) : Only holds (orRaise answer) := by
  cases answer with
  | none => exact composes.raise
  | some value => exact pure value

theorem current : Only holds (Program.current : Bench Suite) := fun _ =>
  Program.Ensures.current ⟨rfl, List.forall_mem_nil _⟩

theorem forEach {Item : Type} {items : List Item} {body : Item → Bench Unit}
    (each : ∀ item ∈ items, Only holds (body item)) : Only holds (Program.forEach items body) :=
  composes.forEach each

end Only

section

variable {holds : BenchCall → Prop}

theorem resolvePort_only {board : Board} (each : ∀ answer, holds ⟨.resolvePort board, answer⟩) :
    Only holds (resolvePort board) :=
  .call each

theorem captureUntil_only {board : Board} {port : Option String} {marker : String}
    (each : ∀ answer, holds ⟨.captureUntil board port marker, answer⟩) :
    Only holds (captureUntil board port marker) :=
  .bind (.call each) .orRaise

theorem make_only {app : String} {board : Board} {port : Option String}
    (each : ∀ answer, holds ⟨.make app board port, answer⟩) : Only holds (make app board port) :=
  .bind (.call each) .orRaise

end

end Rimba.Regtest
