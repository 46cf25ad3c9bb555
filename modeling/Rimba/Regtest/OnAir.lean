import Rimba.Regtest.Console
import Rimba.Regtest.LinuxPeer

/-! # On-air tests

`run` of the harness's `t2_onair` module and what it calls: each selected test is
dispatched to the orchestrator, to a single board, or skipped; the orchestrator
resolves its roles, brings the support roles up, flashes and captures the
reporters, and tears the Linux peers down however that ended. At the end of the
run the boards it has used are silenced. Details, evidence and durations of the
results are left out, as are the build variables of a flash.
-/

namespace Rimba.Regtest

open Foundation (Program)

/-- The Linux setups a role names. -/
inductive LinuxSetup where
  | meshPeer
  | meshGate
  | hostapdAp
  | unknown
  deriving DecidableEq

/-- The devices a role names: a Linux peer, any ESP board, or a board by name,
when the bench has it. -/
inductive Device where
  | linux
  | anyEsp
  | board (board : Option Board)
  deriving DecidableEq

/-- A role of a test. No role of the catalogue runs the idle app. -/
structure Role where
  name : String
  device : Device
  app : Option String
  reporter : Bool
  upMarker : Option String
  requireWired : Bool
  linuxSetup : LinuxSetup
  notIdle : app ≠ some idleApp

/-- A test of the catalogue. -/
structure T2Test where
  slug : String
  roles : List Role
  notIdle : "test-" ++ slug ≠ idleApp

/-- The single-app name. -/
def T2Test.app (t : T2Test) : String := "test-" ++ t.slug

def T2Test.automated (t : T2Test) : Bool := !t.roles.isEmpty

/-- What the tiers read of the manifest and of the bench it describes. -/
structure Manifest where
  apps : List String
  notImplemented : List String
  fullyWired : Board → Bool
  linuxNodes : LinuxNodes
  linuxKnown : Bool
  defaultLinuxPeer : String

/-- What a role has been resolved to. -/
inductive Assigned where
  | esp (board : Board)
  | linux (host : String)
  deriving DecidableEq

/-- `resolve_port` as a test calls it: it leaves the suite alone, and it may raise
where the device directory cannot be read. -/
class PortLookup where
  lookUp : Board → Bench (Option String)
  leaves : ∀ board, Only (fun _ => True) (lookUp board)

/-- On the bench a port is found or absent. -/
instance : PortLookup := ⟨resolvePort, fun _ => resolvePort_only fun _ => trivial⟩

variable (manifest : Manifest)

/-- `_flash`, as far as the bench sees it. -/
def flash (app : Option String) (board : Board) (port : Option String) : Bench CompletedProcess :=
  match app with
  | some app => make app board port
  | none => Program.raise

/-- The order in which a board is looked for. -/
def boardCandidates : List Board := [.board2, .board0, .board1]

/-- The first board that is enumerated. -/
def firstPresent [PortLookup] : List Board → Bench (Option Board)
  | [] => pure none
  | cand :: rest => do
      if (← PortLookup.lookUp cand).isSome then
        return some cand
      firstPresent rest

/-- `_run_single` -/
def runSingle [PortLookup] (t : T2Test) : Bench Unit := do
  match ← firstPresent boardCandidates with
  | none => add t.slug .skip
  | some board =>
      let port ← PortLookup.lookUp board
      let cp ← flash (some t.app) board port
      if cp.returncode ≠ 0 then
        add t.slug .fail
      else
        useBoard board
        let (log, _) ← captureUntil board port "TEST|END"
        add t.slug (recordVerdict t.slug log 0 ()).status

/-- The first free board that is enumerated and fits the role. -/
def anyEsp [PortLookup] (role : Role) (espUsed : List Board) : List Board → Bench (Option Assigned)
  | [] => pure none
  | cand :: rest => do
      if cand ∈ espUsed then
        anyEsp role espUsed rest
      else if (← PortLookup.lookUp cand).isSome &&
          (!role.requireWired || manifest.fullyWired cand) then
        return some (.esp cand)
      else
        anyEsp role espUsed rest

/-- `_resolve_role`; `none` when the role cannot run. -/
def resolveRole [PortLookup] (role : Role) (espUsed : List Board) : Bench (Option Assigned) :=
  match role.device with
  | .linux => do
      if ← reachable manifest.defaultLinuxPeer then
        return some (.linux manifest.defaultLinuxPeer)
      return none
  | .anyEsp => anyEsp manifest role espUsed boardCandidates
  | .board none => pure none
  | .board (some board) => do
      if role.requireWired && !manifest.fullyWired board then
        return none
      if (← PortLookup.lookUp board).isSome then
        return some (.esp board)
      return none

/-- The resolved roles by name; `none` when a role could not be resolved. -/
def resolveRoles [PortLookup] (assign : List (String × Assigned)) (espUsed : List Board) :
    List Role → Bench (Option (List (String × Assigned)))
  | [] => pure (some assign)
  | role :: rest => do
      match ← resolveRole manifest role espUsed with
      | none => return none
      | some (.esp board) =>
          resolveRoles ((role.name, .esp board) :: assign) (board :: espUsed) rest
      | some (.linux host) => resolveRoles ((role.name, .linux host) :: assign) espUsed rest

/-- `assign[role.name]` -/
def assigned (assign : List (String × Assigned)) (role : Role) : Bench Assigned :=
  orRaise (assign.lookup role.name)

/-- `_bring_up_esp_support`: whether the role came up. -/
def bringUpEspSupport [PortLookup] (role : Role) (board : Board) : Bench Bool := do
  let port ← PortLookup.lookUp board
  let cp ← flash role.app board port
  if cp.returncode ≠ 0 then
    return false
  useBoard board
  match role.upMarker with
  | some marker =>
      let (_, matched) ← captureUntil board port marker
      return matched
  | none => return true

/-- `_bring_up_linux` -/
def bringUpLinux (role : Role) (host : String) : Bench BroughtUp :=
  match role.linuxSetup with
  | .meshPeer => bringUpMesh manifest.linuxNodes host
  | .meshGate => bringUpGate manifest.linuxNodes host
  | .hostapdAp => bringUpAp host
  | .unknown => pure ⟨false, "unknown linux_setup", none⟩

/-- Keep a teardown the caller has been handed. -/
def keepTeardown (teardown : Option Teardown) : Bench Unit :=
  Program.update fun suite =>
    { suite with linuxTeardowns := suite.linuxTeardowns ++ teardown.toList }

/-- Bring up a Linux peer and keep the teardown it hands over. -/
def bringUpPeer (role : Role) (host : String) : Bench Bool := do
  let up ← bringUpLinux manifest role host
  keepTeardown up.teardown
  return up.ok

/-- Bring up one support role: whether it came up. -/
def bringUpSupport [PortLookup] (assign : List (String × Assigned)) (role : Role) : Bench Bool := do
  match ← assigned assign role with
  | .esp board => bringUpEspSupport role board
  | .linux host => bringUpPeer manifest role host

/-- Bring up the support roles, in declaration order: whether all came up. -/
def bringUpSupports [PortLookup] (slug : String) (assign : List (String × Assigned)) :
    List Role → Bench Bool
  | [] => pure true
  | role :: rest => do
      if ← bringUpSupport manifest assign role then
        bringUpSupports slug assign rest
      else
        add slug .fail
        return false

/-- Flash and capture the reporters, in declaration order; `none` when the test has
already been given its result. -/
def captureReporters [PortLookup] (slug : String) (assign : List (String × Assigned)) :
    List Role → Bench (Option (List ReporterCapture))
  | [] => pure (some [])
  | reporter :: rest => do
      match ← assigned assign reporter with
      | .linux _ =>
          add slug .skip
          return none
      | .esp board =>
          let port ← PortLookup.lookUp board
          let cp ← flash reporter.app board port
          if cp.returncode ≠ 0 then
            add slug .fail
            return none
          useBoard board
          let (log, _) ← captureUntil board port "TEST|END"
          match ← captureReporters slug assign rest with
          | none => return none
          | some captures => return some (⟨reporter.name, board.name, log⟩ :: captures)

/-- Record the verdict of one reporter, or of several. -/
def recordCaptures (slug : String) : List ReporterCapture → Bench Unit
  | [capture] => add slug (recordVerdict slug capture.log 0 ()).status
  | captures => add slug (recordMultiVerdict slug captures 0 ()).status

/-- What `_run_orchestrated` does once the roles are resolved, before its teardowns. -/
def runRoles [PortLookup] (t : T2Test) (assign : List (String × Assigned)) : Bench Unit := do
  if ← bringUpSupports manifest t.slug assign (t.roles.filter fun role => !role.reporter) then
    match ← captureReporters t.slug assign (t.roles.filter fun role => role.reporter) with
    | none => pure ()
    | some captures => recordCaptures t.slug captures

/-- Invoke the teardowns handed over, whatever each of them does. -/
def tearDownPeers : Bench Unit := do
  let suite ← Program.current
  Program.forEach suite.linuxTeardowns fun teardown => Program.orElse teardown.invoke (pure ())

/-- `_run_orchestrated` -/
def runOrchestrated [PortLookup] (t : T2Test) : Bench Unit := do
  if !t.roles.any (fun role => role.reporter) then
    add t.slug .fail
  else
    match ← resolveRoles manifest [] [] t.roles with
    | none => add t.slug .skip
    | some assign =>
        Program.update fun suite => { suite with linuxTeardowns := [] }
        Program.ensuring (runRoles manifest t assign) tearDownPeers

/-- `_dispatch` -/
def dispatch [PortLookup] (t : T2Test) : Bench Unit :=
  if t.automated then
    if t.roles.any fun role => role.app.any fun app => app ≠ "" && app ∉ manifest.apps then
      add t.slug .skip
    else
      runOrchestrated manifest t
  else if t.slug ∈ manifest.notImplemented then
    add t.slug .skip
  else if t.app ∈ manifest.apps then
    runSingle t
  else
    add t.slug .skip

/-- Silence the boards a run has used, in order, and record each. -/
def silenceUsed : Bench Unit := do
  let suite ← Program.current
  let silenced ← goRadioSilent (Board.sorted.filter (· ∈ suite.usedBoards))
  Program.forEach silenced fun (name, status) => add name status

/-- A run of the tier: the tests asked for, all when none is, on a catalogue. -/
structure OnAirRun where
  manifest : Manifest
  catalogue : List T2Test
  tests : List String
  dryRun : Bool
  linuxMac : Option String

namespace OnAirRun

variable (onAir : OnAirRun)

def selected : List T2Test :=
  onAir.catalogue.filter fun t => onAir.tests.isEmpty || t.slug ∈ onAir.tests

/-- The requested slugs no test has, sorted. -/
def unknown : List String :=
  (onAir.tests.eraseDups.filter fun slug => slug ∉ onAir.catalogue.map T2Test.slug).mergeSort
    fun a b => a ≤ b

/-- Whether a run needs a Linux peer that the manifest does not name. -/
def lacksLinux : Bool :=
  onAir.linuxMac.all (· = "") &&
    (onAir.selected.any fun t => t.roles.any fun role => role.device = .linux) &&
      !onAir.manifest.linuxKnown

/-- `t2_onair.run` -/
def run [PortLookup] : Bench Unit := do
  Program.forEach onAir.unknown fun slug => add slug .fail
  if onAir.dryRun then
    pure ()
  else if onAir.lacksLinux then
    Program.raise
  else
    Program.ensuring
      (Program.forEach onAir.selected fun t =>
        Program.orElse (dispatch onAir.manifest t) (add t.slug .inconclusive))
      silenceUsed

end OnAirRun

/-- A relation that the resolving of roles leads along. -/
structure ResolveSteps [PortLookup] (leads : Suite → Suite → List BenchCall → Prop) : Prop where
  composes : Foundation.Composes leads
  resolvePort : ∀ board, (PortLookup.lookUp board).Follows leads
  reachable : ∀ host, (reachable host).Follows leads

namespace ResolveSteps

variable [PortLookup] {manifest} {leads : Suite → Suite → List BenchCall → Prop}
  (steps : ResolveSteps leads)

include steps

theorem firstPresent (cands : List Board) : (firstPresent cands).Follows leads := by
  induction cands with
  | nil => exact steps.composes.pure none
  | cons cand rest ih =>
      refine steps.composes.bind (steps.resolvePort cand) fun port => ?_
      split
      · exact steps.composes.pure _
      · exact ih

theorem anyEsp (role : Role) (espUsed cands : List Board) :
    (anyEsp manifest role espUsed cands).Follows leads := by
  induction cands with
  | nil => exact steps.composes.pure none
  | cons cand rest ih =>
      unfold Regtest.anyEsp
      split
      · exact ih
      · refine steps.composes.bind (steps.resolvePort cand) fun port => ?_
        split
        · exact steps.composes.pure _
        · exact ih

theorem resolveRole (role : Role) (espUsed : List Board) :
    (resolveRole manifest role espUsed).Follows leads := by
  unfold Regtest.resolveRole
  split
  · refine steps.composes.bind (steps.reachable _) fun up => ?_
    split
    · exact steps.composes.pure _
    · exact steps.composes.pure none
  · exact steps.anyEsp role espUsed _
  · exact steps.composes.pure none
  · split
    · exact steps.composes.pure none
    · refine steps.composes.bind (steps.resolvePort _) fun port => ?_
      split
      · exact steps.composes.pure _
      · exact steps.composes.pure none

theorem resolveRoles (assign : List (String × Assigned)) (espUsed : List Board)
    (roles : List Role) : (resolveRoles manifest assign espUsed roles).Follows leads := by
  induction roles generalizing assign espUsed with
  | nil => exact steps.composes.pure _
  | cons role rest ih =>
      refine steps.composes.bind (steps.resolveRole role espUsed) fun handle => ?_
      rcases handle with _ | board | host
      · exact steps.composes.pure none
      · exact ih _ _
      · exact ih _ _

end ResolveSteps

/-- A relation that the parts of a test lead along: a flash with what follows it,
and a Linux peer with the keeping of its teardown. -/
structure OnAirSteps [PortLookup] (leads : Suite → Suite → List BenchCall → Prop) : Prop
    extends ResolveSteps leads where
  add : ∀ name status, (add name status).Follows leads
  captureUntil : ∀ board port marker, (captureUntil board port marker).Follows leads
  flash : ∀ {Value : Type} (app : Option String) (board : Board) (port : Option String)
    {failed next : Bench Value}, app ≠ some idleApp → failed.Follows leads → next.Follows leads →
      (do
        let cp ← flash app board port
        if cp.returncode ≠ 0 then failed
        else
          useBoard board
          next).Follows leads
  peer : ∀ role host, (bringUpPeer manifest role host).Follows leads

namespace OnAirSteps

variable [PortLookup] {manifest} {leads : Suite → Suite → List BenchCall → Prop}
  (steps : OnAirSteps manifest leads)

include steps

theorem orRaise {Value : Type} (answer : Option Value) :
    (orRaise answer : Bench Value).Follows leads := by
  cases answer with
  | none => exact steps.composes.raise
  | some value => exact steps.composes.pure value

theorem bringUpEspSupport (role : Role) (board : Board) :
    (bringUpEspSupport role board).Follows leads := by
  refine steps.composes.bind (steps.resolvePort board) fun port =>
    steps.flash _ _ _ role.notIdle (steps.composes.pure false) ?_
  split
  · exact steps.composes.bind (steps.captureUntil _ _ _) fun _ => steps.composes.pure _
  · exact steps.composes.pure true

theorem bringUpSupports (slug : String) (assign : List (String × Assigned)) (roles : List Role) :
    (bringUpSupports manifest slug assign roles).Follows leads := by
  induction roles with
  | nil => exact steps.composes.pure true
  | cons role rest ih =>
      refine steps.composes.bind (steps.composes.bind (steps.orRaise _) fun handle => ?_)
        fun up => ?_
      · cases handle with
        | esp board => exact steps.bringUpEspSupport role board
        | linux host => exact steps.peer role host
      · cases up with
        | true => exact ih
        | false => exact steps.composes.bind (steps.add _ _) fun _ => steps.composes.pure false

theorem captureReporters (slug : String) (assign : List (String × Assigned))
    (reporters : List Role) : (captureReporters slug assign reporters).Follows leads := by
  induction reporters with
  | nil => exact steps.composes.pure _
  | cons reporter rest ih =>
      refine steps.composes.bind (steps.orRaise _) fun handle => ?_
      cases handle with
      | linux host => exact steps.composes.bind (steps.add _ _) fun _ => steps.composes.pure none
      | esp board =>
          refine steps.composes.bind (steps.resolvePort board) fun port =>
            steps.flash _ _ _ reporter.notIdle
              (steps.composes.bind (steps.add _ _) fun _ => steps.composes.pure none) ?_
          refine steps.composes.bind (steps.captureUntil _ _ _) fun _ =>
            steps.composes.bind ih fun captures => ?_
          cases captures with
          | none => exact steps.composes.pure none
          | some captures => exact steps.composes.pure _

theorem runRoles (t : T2Test) (assign : List (String × Assigned)) :
    (runRoles manifest t assign).Follows leads := by
  refine steps.composes.bind (steps.bringUpSupports _ _ _) fun up => ?_
  cases up with
  | false => exact steps.composes.pure ()
  | true =>
      refine steps.composes.bind (steps.captureReporters _ _ _) fun captures => ?_
      cases captures with
      | none => exact steps.composes.pure ()
      | some captures =>
          dsimp only
          unfold recordCaptures
          split <;> exact steps.add _ _

theorem runSingle (t : T2Test) : (runSingle t).Follows leads := by
  refine steps.composes.bind (steps.firstPresent _) fun board => ?_
  cases board with
  | none => exact steps.add _ _
  | some board =>
      refine steps.composes.bind (steps.resolvePort board) fun port =>
        steps.flash _ _ _ (fun idle => t.notIdle (Option.some.inj idle)) (steps.add _ _) ?_
      exact steps.composes.bind (steps.captureUntil _ _ _) fun _ => steps.add _ _

end OnAirSteps

end Rimba.Regtest
