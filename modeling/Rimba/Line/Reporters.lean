import Rimba.Line.ForcedLine
import Rimba.Report.Fixture

/-! # What the boards of a line report

`app_main` of the five fixtures, as programs that ask their board and print. Whatever the
mesh answers and whatever the ping callbacks and the log print in between, the harness
records the verdict that a board's program has come to; and the only verdicts there are come
from the reporter's board, or say that the mesh did not start
(`Rimba.Line.lineApp_recorded`).
-/

namespace Rimba.Line

open Rimba.Gate (Mac macText)
open Rimba.Regtest
open Rimba.Report

inductive Question where
  /-- `mmwlan_mesh_start`, `MMWLAN_SUCCESS` being 0 -/
  | meshStart
  | netifFound
  | netifUp
  | addStaticArp
  /-- `mmwlan_mesh_peer_count` -/
  | peers
  | newSession
  /-- A read of `s_ping_done`. -/
  | pingDone
  /-- A read of `s_replies`. -/
  | replies
  | timeouts
  | ccmpFailures
  | hwRestartCounter
  /-- `mmwlan_mesh_gate_count` -/
  | gates
  | sendToGates
  /-- `mmwlan_mesh_ae_rx_probe` -/
  | aeRxProbe

abbrev Answer : Question → Type
  | .meshStart | .replies | .timeouts | .gates => ℕ
  | .netifFound | .netifUp | .addStaticArp | .newSession | .pingDone | .sendToGates => Bool
  | .peers => List Mac
  | .ccmpFailures => UInt32
  | .hwRestartCounter => UInt16
  | .aeRxProbe => UInt32 × Mac × Mac

/-- A program of a board. -/
abbrev BoardProgram (Value : Type) := Reporting Answer Unit Value

def macString (mac : Mac) : String := String.ofList (macText mac)

def ipString (mac : Mac) : String := String.ofList (meshIpOf mac)

/-- Look at the peers once a second until they are as wanted, and say how it goes every
few seconds; the peers of the last look. -/
def awaitPeers (wanted : List Mac → Bool) (every : ℕ) (waiting : ℕ → ℕ → String) :
    ℕ → ℕ → List Mac → BoardProgram (List Mac)
  | 0, _, last => pure last
  | left + 1, s, _ => do
      let peers : List Mac ← ask Question.peers
      if wanted peers then pure peers
      else do
        (if s % every = every - 1 then testInfo (waiting (s + 1) peers.length) else pure ())
        awaitPeers wanted every waiting left (s + 1) peers

/-- `setup_netif` -/
def setupNetif (macs : LineMacs) (own : Mac) (origin : Bool) : BoardProgram Unit := do
  let found : Bool ← ask Question.netifFound
  if !found then testInfo "mesh netif not found"
  else do
    askUntil .netifUp id 60
    let up : Bool ← ask Question.netifUp
    let ip := ipString own
    let flag := up.toNat
    let dest := ipString macs.dest
    testInfo s!"mesh static IP {ip} (up={flag})"
    if origin then do
      let added : Bool ← ask Question.addStaticArp
      if added then testInfo s!"static ARP {dest} -> dest MAC seeded" else pure ()
    else pure ()

/-- Start a session and wait for its end, a look a second; false when there is none. -/
def pingDest (macs : LineMacs) (count : ℕ) : BoardProgram Bool := do
  let created : Bool ← ask Question.newSession
  if !created then pure false
  else do
    let dest := ipString macs.dest
    testInfo s!"pinging dest {dest} x{count} via the relay..."
    askUntil .pingDone id (count + 12)
    pure true

/-- What `on_ping_success` prints, in the task that runs it. -/
def onPingSuccess (dest : String) (seqno ms : ℕ) : Others where
  val :=
    let line := Line.info (plainText s!"reply from {dest} seq={seqno} time={ms} ms (via relay)")
    [.other (line.quietText (Line.info_unread _)), .lineBreak]
  property line member := by
    rcases List.mem_cons.mp member with same | member
    · cases same
    · cases List.mem_singleton.mp member

/-- The steps of the fixtures. -/
inductive Step where
  | topology
  | delivery
  | crypto
  | peeringSurvives
  | forwardingBlocked
  | forwardingPath
  | noHwRestart

def Step.text : Step → String
  | .topology => "topology"
  | .delivery => "delivery"
  | .crypto => "crypto"
  | .peeringSurvives => "peering-survives"
  | .forwardingBlocked => "forwarding-blocked"
  | .forwardingPath => "forwarding-path"
  | .noHwRestart => "no-hw-restart"

def Step.name (step : Step) : StepName := .of step.text (by cases step <;> decide +kernel)

/-- `TEST_STEP` -/
def testStep (step : Step) (ok : Bool) (detail : String) : BoardProgram Unit :=
  testLine (.step step.name ok (plainText detail))

/-- `REPLY_FLOOR` -/
def replyFloor : ℕ := 8

/-- `PING_COUNT` -/
def pingCount : ℕ := 15

/-- `NAME` -/
def Fixture.name : Fixture → String
  | .relay => "mesh-relay"
  | .largeFrame => "mesh-large-frame"
  | .leaf => "mesh-leaf"
  | .relayNocrash => "mesh-relay-nocrash"
  | .gateRelay => "mesh-gate-relay"

/-- `RIG` -/
def Fixture.rig : Fixture → String
  | .relay => "origin(board0)+RELAY(board2)+dest(board1); forced line; origin reports"
  | .largeFrame =>
      "origin(board0)+RELAY(board2)+dest(board1); forced line; large payload; origin reports"
  | .leaf =>
      "origin(board0)+RELAY(board2, multihop OFF)+dest(board1); forced line; origin reports"
  | .relayNocrash =>
      "origin(board0)+RELAY(board2)+dest(board1); forced line; RELAY reports (no hw-restart)"
  | .gateRelay => "3-ESP forced line NODE<->RELAY<->GATE (S2 gate-learn + S3 + S4a-c)"

/-- The verdict of the relay's origin. The counts go on while it is printed: each use of
`s_replies` reads it again. -/
def judgeDelivery (name : String) : BoardProgram (Option ReportedVerdict) := do
  let ccmpFail : UInt32 ← ask Question.ccmpFailures
  let dominant : Bool := replyFloor ≤ ccmpFail.toNat
  let enough : ℕ ← ask Question.replies
  let replies : ℕ ← ask Question.replies
  let timeouts : ℕ ← ask Question.timeouts
  testStep .delivery (replyFloor ≤ enough) s!"replies={replies}/{pingCount} timeouts={timeouts}"
  testStep .crypto (!dominant)
    s!"datapath_rx_ccmp_failures={ccmpFail} (dominant>={replyFloor})"
  if dominant then do
    let last : ℕ ← ask Question.replies
    finish name .fail
      (s!"datapath_rx_ccmp_failures={ccmpFail} dominates (>= floor {replyFloor}) with only " ++
        s!"{last}/{pingCount} replies -- the known SW-CCMP forward MIC-fail regression " ++
        "(~99.6% drop)")
  else do
    let delivered : ℕ ← ask Question.replies
    if replyFloor ≤ delivered then do
      let last : ℕ ← ask Question.replies
      finish name .pass
        (s!"multi-hop forward OK: {last}/{pingCount} replies from dest via the relay " ++
          s!"(ccmp_failures={ccmpFail}, not dominant -- SW-CCMP intact)")
    else do
      let partly : ℕ ← ask Question.replies
      if 0 < partly then do
        let last : ℕ ← ask Question.replies
        finish name .inconclusive
          (s!"topology OK, forwarding delivers, but only {last}/{pingCount} replies (floor " ++
            s!"{replyFloor}) -- marginal RF over the 2-hop line, not a clear code regression " ++
            s!"(ccmp_failures={ccmpFail})")
      else
        finish name .fail
          (s!"0/{pingCount} replies through the relay -- forwarding did not deliver " ++
            s!"(ccmp_failures={ccmpFail})")

/-- The verdict of the leaf's origin: no reply may come through. -/
def judgeLeaf (name : String) (peerIsRelay : Bool) : BoardProgram (Option ReportedVerdict) := do
  testStep .peeringSurvives peerIsRelay "sole peer is the relay in leaf mode (no black-hole)"
  let blocked : ℕ ← ask Question.replies
  let replies : ℕ ← ask Question.replies
  testStep .forwardingBlocked (blocked = 0)
    s!"replies={replies}/{pingCount} (expect 0 with multihop OFF)"
  let leaked : ℕ ← ask Question.replies
  if leaked = 0 then
    finish name .pass
      ("leaf mode correct: the relay stayed 1-hop peered (sole peer) but forwarded nothing " ++
        s!"(0/{pingCount} replies over the forced line) -- neither relays nor black-holes")
  else do
    let last : ℕ ← ask Question.replies
    finish name .fail
      (s!"the relay forwarded {last}/{pingCount} replies with " ++
        "mmwlan_mesh_set_multihop(false) -- leaf / single-hop mode is BROKEN (relaying is " ++
        "still enabled)")

/-- The sole peer is the relay. -/
def soleRelay (macs : LineMacs) (peers : List Mac) : Bool := peers = [macs.relay]

/-- The origin of the relay, the large-frame and the leaf fixture. -/
def originReports (fixture : Fixture) (macs : LineMacs) (own : Mac) :
    BoardProgram (Option ReportedVerdict) := do
  setupNetif macs own true
  let peers ← awaitPeers (soleRelay macs) 5
    (fun s n => s!"waiting for relay plink... {s}s, peers={n}") 50 0 []
  let n := peers.length
  let flag := (soleRelay macs peers).toNat
  testStep .topology (soleRelay macs peers) s!"peers={n} sole_peer_is_relay={flag}"
  if !soleRelay macs peers then
    finish fixture.name .fail
      (s!"origin's sole mesh peer is not the relay (peers={n}) -- the forced line did not " ++
        "form, so a reply would not prove forwarding")
  else do
    let created ← pingDest macs pingCount
    if !created then finish fixture.name .fail "failed to create the ping session"
    else if fixture = .leaf then judgeLeaf fixture.name (soleRelay macs peers)
    else judgeDelivery fixture.name

/-- The relay of the nocrash fixture. -/
def relayReports (fixture : Fixture) (macs : LineMacs) (own : Mac) :
    BoardProgram (Option ReportedVerdict) := do
  setupNetif macs own false
  let peers ← awaitPeers (fun peers => 2 ≤ peers.length) 10
    (fun s n => s!"relay waiting for both endpoints... {s}s, peers={n}") 45 0 []
  let np := peers.length
  let bothPeered : Bool := 2 ≤ np
  testStep .forwardingPath bothPeered s!"peers={np} (need origin AND dest)"
  let restartsBefore : UInt16 ← ask Question.hwRestartCounter
  testInfo "relay forwarding window: 40s (origin driving traffic)..."
  let restarts : UInt16 ← ask Question.hwRestartCounter
  let noCrash : Bool := restarts = restartsBefore
  testStep .noHwRestart noCrash
    s!"hw_restart_counter={restarts} (was {restartsBefore} at window start)"
  if !bothPeered then
    finish fixture.name .inconclusive
      (s!"the relay never peered both endpoints (peers={np}) -- no forwarding load, so a " ++
        "crash-under-load cannot be judged (bench, not a code regression)")
  else if noCrash then
    finish fixture.name .pass
      ("relay forwarded for 40s with NO hw-restart (hw_restart_counter stayed " ++
        s!"{restarts}) -- the interrupt-WDT SPI-host-teardown crash did not fire under load")
  else
    finish fixture.name .fail
      (s!"relay hw_restart_counter climbed {restartsBefore}->{restarts} during forwarding -- " ++
        "the relay silently hw-restarted under load (interrupt-WDT SPI-host-teardown crash)")

/-- The origin of the nocrash fixture, which drives the load. -/
def originDrives (macs : LineMacs) (own : Mac) : BoardProgram Unit := do
  setupNetif macs own true
  let _ ← awaitPeers (soleRelay macs) 10
    (fun s n => s!"origin waiting for relay plink... {s}s, peers={n}") 150 0 []
  let created : Bool ← ask Question.newSession
  if created then testInfo "origin driving 90x pings to load the relay..." else pure ()

/-- `FINAL_DST` -/
def finalDst : Mac := #v[0x02, 0x00, 0x00, 0x00, 0x00, 0xcc]

/-- `SRC_HOST` -/
def srcHost : Mac := #v[0x02, 0x00, 0x00, 0x00, 0x00, 0xdd]

/-- `GATE_DEADLINE_S` -/
def gateDeadline : ℕ := 100

/-- The node's part of a round: whether it has announced the gate. -/
def nodeRound (s gates : ℕ) (announced : Bool) : BoardProgram Bool := do
  (if 0 < gates && !announced then
    espLog s!"==> NODE learned the 2-hop gate (known_gates={gates}); send_to_gates every 3s."
  else pure ())
  (if 0 < gates && s % 3 = 0 then do
    let ok : Bool ← ask Question.sendToGates
    let word := if ok then "sent" else "NO GATE/PATH"
    espLog s!"send_to_gates: {word} (known_gates={gates})"
  else pure ())
  pure (announced || 0 < gates)

/-- What the gate says at its deadline. -/
def gateDeadlineVerdict (name : String) (s : ℕ) (aeRx : UInt32) (ae1 : Mac) (peers : ℕ) :
    BoardProgram (Option ReportedVerdict) :=
  let text := macString ae1
  if 0 < aeRx then
    finish name .fail
      (s!"ae_rx={aeRx} but eaddr mismatch (eaddr1={text}) -- endpoints NOT preserved through " ++
        "the relay (S4c broke)")
  else if peers = 0 then
    finish name .inconclusive
      s!"no mesh peer within {s}s -- GATE never peered the RELAY (RF/rig?)"
  else
    finish name .fail
      (s!"no AE frame in {s}s (peers={peers}) -- RANN discovery / send_to_gates / relay chain " ++
        "did not deliver an AE frame to the gate")

/-- What every board of the gate's line logs every five seconds. -/
def logRound (role : String) (s peers gates : ℕ) (aeRx : UInt32) (ae1 ae2 : Mac) :
    BoardProgram Unit :=
  let text1 := macString ae1
  let text2 := macString ae2
  if s % 5 = 0 then do
    espLog s!"role={role} uptime={s}s peers={peers} gates={gates} ae_rx={aeRx}"
    if 0 < aeRx then espLog s!"  last AE: eaddr1(DA)={text1} eaddr2(SA)={text2}" else pure ()
  else pure ()

/-- The endless loop of the gate's line, for as many rounds as the harness listens. -/
def gateLoop (name : String) (macs : LineMacs) (own : Mac) (role : String) :
    ℕ → ℕ → Bool → BoardProgram (Option ReportedVerdict)
  | 0, _, _ => pure none
  | rounds + 1, s, announced => do
      let peers : List Mac ← ask Question.peers
      let gates : ℕ ← ask Question.gates
      let announced ←
        (if macs.isOrigin own then nodeRound (s + 1) gates announced else pure announced)
      let probe : UInt32 × Mac × Mac ← ask Question.aeRxProbe
      let n := peers.length
      if macs.isDest own && (0 < probe.1 && probe.2.1 = finalDst && probe.2.2 = srcHost) then
        let aeRx := probe.1
        finish name .pass
          (s!"ae_rx={aeRx} eaddr1(DA)=02:00:00:00:00:cc eaddr2(SA)=02:00:00:00:00:dd " ++
            s!"preserved through the 2-hop relay (S2+S3+S4a-c); peers={n}")
      else if macs.isDest own && gateDeadline ≤ s + 1 then
        gateDeadlineVerdict name (s + 1) probe.1 probe.2.1 n
      else do
        logRound role (s + 1) n gates probe.1 probe.2.1 probe.2.2
        gateLoop name macs own role rounds (s + 1) announced

/-- `role`, as the gate's line names it. -/
def gateRoleName (macs : LineMacs) (own : Mac) : String :=
  if macs.isOrigin own then "NODE" else if macs.isRelay own then "RELAY"
  else if macs.isDest own then "GATE" else "?"

/-- `app_main` of the gate's line. -/
def gateMain (fixture : Fixture) (macs : LineMacs) (own : Mac) (rounds : ℕ) :
    BoardProgram (Option ReportedVerdict) := do
  let role := gateRoleName macs own
  let text := macString own
  espLog s!"=== S4c multi-hop send-to-gates: role={role} mac={text} ==="
  let status : ℕ ← ask Question.meshStart
  if status ≠ 0 then do
    espLog "mesh_start FAILED"
    pure none
  else do
    (if macs.isDest own then do
      testLine (.begin (plainText fixture.name) (plainText fixture.rig))
      espLog "==> GATE up (RANN + gate). Watching for the AE frame relayed via the RELAY."
    else espLog s!"==> {role} up.")
    espLog s!"mesh-up: role={role}"
    gateLoop fixture.name macs own role rounds 0 false

/-- `role`, as the other fixtures name it. -/
def roleName (macs : LineMacs) (own : Mac) : String :=
  if macs.isOrigin own then "origin" else if macs.isRelay own then "RELAY" else "dest"

/-- The board's part once its mesh is up. -/
def meshUp (fixture : Fixture) (macs : LineMacs) (own : Mac) :
    BoardProgram (Option ReportedVerdict) :=
  if fixture = .relayNocrash then
    if macs.isRelay own then relayReports fixture macs own
    else if macs.isDest own then do
      setupNetif macs own false
      pure none
    else do
      originDrives macs own
      pure none
  else if macs.isOrigin own then originReports fixture macs own
  else do
    (if fixture = .leaf && macs.isRelay own then
      testInfo "LEAF MODE: relay multihop DISABLED (peers but will not forward)"
    else pure ())
    setupNetif macs own false
    pure none

/-- `app_main` of a fixture, up to where it parks or the harness stops listening. -/
def appMain (fixture : Fixture) (macs : LineMacs) (own : Mac) (rounds : ℕ) :
    BoardProgram (Option ReportedVerdict) :=
  if fixture = .gateRelay then gateMain fixture macs own rounds
  else do
    let role := roleName macs own
    let text := macString own
    testLine (.begin (plainText fixture.name) (plainText fixture.rig))
    let status : ℕ ← ask Question.meshStart
    if status ≠ 0 then
      finish fixture.name .fail
        (s!"mmwlan_mesh_start ({role}) failed status={status} (country not set / radio not " ++
          "booted?)")
    else do
      testInfo s!"mesh-up: role={role} as {text} on ch27"
      meshUp fixture macs own

theorem quiet_awaitPeers (wanted : List Mac → Bool) (every : ℕ) (waiting : ℕ → ℕ → String)
    (left s : ℕ) (last : List Mac) : Quiet (awaitPeers wanted every waiting left s last) := by
  induction left generalizing s last with
  | zero => exact Quietly.pure last
  | succ left ih =>
      refine (Quietly.ask Question.peers).bind fun peers => Quietly.ite (Quietly.pure _) ?_
      exact (Quietly.ite (Quietly.testInfo _) (Quietly.pure ())).bind fun _ => ih _ _

theorem quiet_setupNetif (macs : LineMacs) (own : Mac) (origin : Bool) :
    Quiet (setupNetif macs own origin) := by
  refine (Quietly.ask Question.netifFound).bind fun found => Quietly.ite (Quietly.testInfo _) ?_
  refine (Quietly.askUntil _ _ _).bind fun _ => (Quietly.ask Question.netifUp).bind fun up => ?_
  refine (Quietly.testInfo _).bind fun _ => Quietly.ite ?_ (Quietly.pure ())
  exact (Quietly.ask Question.addStaticArp).bind fun added =>
    Quietly.ite (Quietly.testInfo _) (Quietly.pure ())

theorem quiet_pingDest (macs : LineMacs) (count : ℕ) : Quiet (pingDest macs count) := by
  refine (Quietly.ask Question.newSession).bind fun created => Quietly.ite (Quietly.pure false) ?_
  refine (Quietly.testInfo _).bind fun _ => (Quietly.askUntil _ _ _).bind fun _ => Quietly.pure true

theorem quiet_testStep (step : Step) (ok : Bool) (detail : String) :
    Quiet (testStep step ok detail) := Quietly.testLine rfl

theorem quiet_originDrives (macs : LineMacs) (own : Mac) : Quiet (originDrives macs own) := by
  refine (quiet_setupNetif _ _ _).bind fun _ => (quiet_awaitPeers _ _ _ _ _ _).bind fun _ => ?_
  exact (Quietly.ask Question.newSession).bind fun created =>
    Quietly.ite (Quietly.testInfo _) (Quietly.pure ())

theorem quiet_nodeRound (s gates : ℕ) (announced : Bool) :
    Quiet (nodeRound s gates announced) := by
  refine (Quietly.ite (Quietly.espLog _) (Quietly.pure ())).bind fun _ => ?_
  refine (Quietly.ite ?_ (Quietly.pure ())).bind fun _ => Quietly.pure _
  exact (Quietly.ask Question.sendToGates).bind fun ok => Quietly.espLog _

theorem quiet_logRound (role : String) (s peers gates : ℕ) (aeRx : UInt32) (ae1 ae2 : Mac) :
    Quiet (logRound role s peers gates aeRx ae1 ae2) := by
  refine Quietly.ite ?_ (Quietly.pure ())
  exact (Quietly.espLog _).bind fun _ => Quietly.ite (Quietly.espLog _) (Quietly.pure ())

/-- What a board has been asked, and what it answered. -/
abbrev BoardCall := Foundation.Called (Ask.Response Answer)

/-- A verdict is given. -/
def Given (reported : Option ReportedVerdict) (_ : List BoardCall) : Prop := reported.isSome

theorem lasting_given : Lasting Given := fun _ _ _ given => given

theorem finish_given (name : String) (verdict : ReportedVerdict) (detail : String) :
    Reports Given (finish name verdict detail : BoardProgram _) :=
  Reports.finish _ _ _ fun _ => rfl

theorem judgeDelivery_reports (name : String) : Reports Given (judgeDelivery name) := by
  refine (Quietly.ask Question.ccmpFailures).bind_reports lasting_given fun ccmpFail => ?_
  refine (Quietly.ask Question.replies).bind_reports lasting_given fun enough => ?_
  refine (Quietly.ask Question.replies).bind_reports lasting_given fun replies => ?_
  refine (Quietly.ask Question.timeouts).bind_reports lasting_given fun timeouts => ?_
  refine (quiet_testStep _ _ _).bind_reports lasting_given fun _ => ?_
  refine (quiet_testStep _ _ _).bind_reports lasting_given fun _ => ?_
  refine Reports.ite (fun _ => ?_) fun _ => ?_
  · exact (Quietly.ask Question.replies).bind_reports lasting_given fun last => finish_given _ _ _
  refine (Quietly.ask Question.replies).bind_reports lasting_given fun delivered => ?_
  refine Reports.ite (fun _ => ?_) fun _ => ?_
  · exact (Quietly.ask Question.replies).bind_reports lasting_given fun last => finish_given _ _ _
  refine (Quietly.ask Question.replies).bind_reports lasting_given fun partly => ?_
  refine Reports.ite (fun _ => ?_) fun _ => finish_given _ _ _
  exact (Quietly.ask Question.replies).bind_reports lasting_given fun last => finish_given _ _ _

theorem judgeLeaf_reports (name : String) (peerIsRelay : Bool) :
    Reports Given (judgeLeaf name peerIsRelay) := by
  refine (quiet_testStep _ _ _).bind_reports lasting_given fun _ => ?_
  refine (Quietly.ask Question.replies).bind_reports lasting_given fun blocked => ?_
  refine (Quietly.ask Question.replies).bind_reports lasting_given fun replies => ?_
  refine (quiet_testStep _ _ _).bind_reports lasting_given fun _ => ?_
  refine (Quietly.ask Question.replies).bind_reports lasting_given fun leaked => ?_
  refine Reports.ite (fun _ => finish_given _ _ _) fun _ => ?_
  exact (Quietly.ask Question.replies).bind_reports lasting_given fun last => finish_given _ _ _

theorem originReports_reports (fixture : Fixture) (macs : LineMacs) (own : Mac) :
    Reports Given (originReports fixture macs own) := by
  refine (quiet_setupNetif _ _ _).bind_reports lasting_given fun _ => ?_
  refine (quiet_awaitPeers _ _ _ _ _ _).bind_reports lasting_given fun peers => ?_
  refine (quiet_testStep _ _ _).bind_reports lasting_given fun _ => ?_
  refine Reports.ite (fun _ => finish_given _ _ _) fun _ => ?_
  refine (quiet_pingDest _ _).bind_reports lasting_given fun created => ?_
  refine Reports.ite (fun _ => finish_given _ _ _) fun _ => ?_
  exact Reports.ite (fun _ => judgeLeaf_reports _ _) fun _ => judgeDelivery_reports _

theorem relayReports_reports (fixture : Fixture) (macs : LineMacs) (own : Mac) :
    Reports Given (relayReports fixture macs own) := by
  refine (quiet_setupNetif _ _ _).bind_reports lasting_given fun _ => ?_
  refine (quiet_awaitPeers _ _ _ _ _ _).bind_reports lasting_given fun peers => ?_
  refine (quiet_testStep _ _ _).bind_reports lasting_given fun _ => ?_
  refine (Quietly.ask Question.hwRestartCounter).bind_reports lasting_given fun before => ?_
  refine (Quietly.testInfo _).bind_reports lasting_given fun _ => ?_
  refine (Quietly.ask Question.hwRestartCounter).bind_reports lasting_given fun restarts => ?_
  refine (quiet_testStep _ _ _).bind_reports lasting_given fun _ => ?_
  refine Reports.ite (fun _ => finish_given _ _ _) fun _ => ?_
  exact Reports.ite (fun _ => finish_given _ _ _) fun _ => finish_given _ _ _

theorem gateDeadlineVerdict_reports (name : String) (s : ℕ) (aeRx : UInt32) (ae1 : Mac)
    (peers : ℕ) : Reports Given (gateDeadlineVerdict name s aeRx ae1 peers) := by
  refine Reports.ite (fun _ => finish_given _ _ _) fun _ => ?_
  exact Reports.ite (fun _ => finish_given _ _ _) fun _ => finish_given _ _ _

/-- The board that reports, as `app_main` finds it. -/
def Fixture.reports (fixture : Fixture) (macs : LineMacs) (own : Mac) : Bool :=
  match fixture with
  | .relay | .largeFrame | .leaf => macs.isOrigin own
  | .relayNocrash => macs.isRelay own
  | .gateRelay => macs.isDest own

/-- The gate alone gives a verdict, and by its deadline it does. -/
theorem gateLoop_reports (name : String) (macs : LineMacs) (own : Mac) (role : String)
    (rounds s : ℕ) (announced : Bool) :
    Reports (fun reported _ => (reported.isSome → macs.isDest own = true) ∧
      (macs.isDest own = true → gateDeadline ≤ rounds + s → 0 < rounds → reported.isSome))
      (gateLoop name macs own role rounds s announced) := by
  induction rounds generalizing s announced with
  | zero =>
      exact Reports.none ⟨fun nothing => absurd nothing Bool.false_ne_true,
        fun _ _ positive => absurd positive (Nat.lt_irrefl 0)⟩
  | succ rounds ih =>
      have lasting : Lasting (fun (reported : Option ReportedVerdict) (_ : List BoardCall) =>
          (reported.isSome → macs.isDest own = true) ∧ (macs.isDest own = true →
            gateDeadline ≤ rounds + 1 + s → 0 < rounds + 1 → reported.isSome)) :=
        fun _ _ _ holds => holds
      refine (Quietly.ask Question.peers).bind_reports lasting fun peers => ?_
      refine (Quietly.ask Question.gates).bind_reports lasting fun gates => ?_
      refine (Quietly.ite (quiet_nodeRound _ _ _) (Quietly.pure _)).bind_reports lasting
        fun later => ?_
      refine (Quietly.ask Question.aeRxProbe).bind_reports lasting fun probe => ?_
      refine Reports.ite (fun received => ?_) fun _ => ?_
      · have gate := (Bool.and_eq_true_iff.mp received).1
        exact Reports.finish _ _ _ fun _ => ⟨fun _ => gate, fun _ _ _ => rfl⟩
      refine Reports.ite (fun deadline => ?_) fun before => ?_
      · have gate := (Bool.and_eq_true_iff.mp deadline).1
        exact (gateDeadlineVerdict_reports _ _ _ _ _).mono fun reported _ given =>
          ⟨fun _ => gate, fun _ _ _ => given⟩
      · refine (quiet_logRound _ _ _ _ _ _ _).bind_reports lasting fun _ => ?_
        refine (ih (s + 1) later).mono fun reported _ holds => ⟨holds.1, fun gate enough _ => ?_⟩
        -- were this the last round, the deadline would have come
        have early : s + 1 < gateDeadline := by
          rw [gate, Bool.true_and, decide_eq_true_eq] at before
          exact Nat.lt_of_not_le before
        exact holds.2 gate (by omega) (by omega)

/-- What `mmwlan_mesh_start` answered. -/
def startStatus : BoardCall → Option ℕ
  | ⟨.board .meshStart, status⟩ => some status
  | _ => none

/-- The mesh of the board did not start. -/
def StartFailed (calls : List BoardCall) : Prop :=
  ∃ status ∈ calls.filterMap startStatus, status ≠ 0

instance (calls : List BoardCall) : Decidable (StartFailed calls) :=
  inferInstanceAs (Decidable (∃ status ∈ calls.filterMap startStatus, status ≠ 0))

/-- Who gives a verdict: the reporter's board, which does so when it is listened to until
its deadline, and a board whose mesh did not start. -/
structure Entitled (fixture : Fixture) (macs : LineMacs) (own : Mac) (rounds : ℕ)
    (reported : Option ReportedVerdict) (calls : List BoardCall) : Prop where
  given : reported.isSome → fixture.reports macs own = true ∨ StartFailed calls
  gives : fixture.reports macs own = true → (fixture = .gateRelay → gateDeadline ≤ rounds) →
    reported.isSome ∨ StartFailed calls

section

variable {fixture : Fixture} {macs : LineMacs} {own : Mac} {rounds : ℕ}

theorem StartFailed.behind {back : List BoardCall} (failed : StartFailed back)
    (front : List BoardCall) : StartFailed (front ++ back) := by
  rw [StartFailed, List.filterMap_append]
  exact failed.imp fun _ called => ⟨List.mem_append_right _ called.1, called.2⟩

theorem lasting_entitled : Lasting (Entitled fixture macs own rounds) :=
  fun _ front _ entitled => ⟨fun given => (entitled.given given).imp_right (·.behind front),
    fun reporter enough => (entitled.gives reporter enough).imp_right (·.behind front)⟩

theorem Entitled.called {reported : Option ReportedVerdict} {calls : List BoardCall}
    (entitled : Entitled fixture macs own rounds reported calls) (call : BoardCall) :
    Entitled fixture macs own rounds reported (call :: calls) :=
  lasting_entitled reported [call] calls entitled

theorem entitled_of_failed {status : ℕ} (failed : status ≠ 0) (reported : Option ReportedVerdict)
    (calls : List BoardCall) :
    Entitled fixture macs own rounds reported (⟨.board .meshStart, status⟩ :: calls) :=
  have started : StartFailed (⟨.board .meshStart, status⟩ :: calls) :=
    ⟨status, List.mem_cons_self, failed⟩
  ⟨fun _ => .inr started, fun _ _ => .inr started⟩

theorem entitled_of_given (reporter : fixture.reports macs own = true)
    {reported : Option ReportedVerdict} {calls : List BoardCall} (given : Given reported calls) :
    Entitled fixture macs own rounds reported calls :=
  ⟨fun _ => .inl reporter, fun _ _ => .inl given⟩

theorem entitled_of_none (other : fixture.reports macs own ≠ true) (calls : List BoardCall) :
    Entitled fixture macs own rounds none calls :=
  ⟨fun given => absurd given Bool.false_ne_true, fun reporter => absurd reporter other⟩

theorem gateMain_reports (gate : fixture = .gateRelay) :
    Reports (Entitled fixture macs own rounds) (gateMain fixture macs own rounds) := by
  refine (Quietly.espLog _).bind_reports lasting_entitled fun _ => Reports.ask fun status => ?_
  refine Reports.ite (fun failed => ?_) fun _ => ?_
  · refine (Quietly.espLog _).bind_reports (fun reported _ calls _ => ?_) fun _ => ?_
    · exact entitled_of_failed failed reported _
    · exact Reports.none (entitled_of_failed failed none [])
  refine Reports.mono ?_ fun reported calls entitled => Entitled.called entitled _
  refine (Quietly.ite ?_ (Quietly.espLog _)).bind_reports lasting_entitled fun _ => ?_
  · exact (Quietly.testLine rfl).bind fun _ => Quietly.espLog _
  refine (Quietly.espLog _).bind_reports lasting_entitled fun _ => ?_
  refine (gateLoop_reports _ _ _ _ _ _ _).mono fun reported calls holds => ?_
  have reporter : fixture.reports macs own = macs.isDest own := by rw [gate, Fixture.reports]
  refine ⟨fun given => .inl (reporter.trans (holds.1 given)), fun here enough => .inl ?_⟩
  have listened : gateDeadline ≤ rounds := enough gate
  exact holds.2 (reporter.symm.trans here) listened (Nat.lt_of_lt_of_le (by decide) listened)

theorem meshUp_reports (other : fixture ≠ .gateRelay) :
    Reports (Entitled fixture macs own rounds) (meshUp fixture macs own) := by
  have silent (place : fixture.reports macs own ≠ true) :
      Reports (Entitled fixture macs own rounds) (pure none : BoardProgram _) :=
    Reports.none (entitled_of_none place [])
  refine Reports.ite (fun nocrash => ?_) fun crash => ?_
  · have reporter : fixture.reports macs own = macs.isRelay own := by rw [nocrash, Fixture.reports]
    refine Reports.ite (fun relay => ?_) fun apart => ?_
    · exact (relayReports_reports _ _ _).mono fun _ _ => entitled_of_given (reporter.trans relay)
    have place : fixture.reports macs own ≠ true := fun here => apart (reporter.symm.trans here)
    refine Reports.ite (fun _ => ?_) fun _ => ?_
    · exact (quiet_setupNetif _ _ _).bind_reports lasting_entitled fun _ => silent place
    · exact (quiet_originDrives _ _).bind_reports lasting_entitled fun _ => silent place
  · have reporter : fixture.reports macs own = macs.isOrigin own := by
      cases fixture with
      | relayNocrash => exact absurd rfl crash
      | gateRelay => exact absurd rfl other
      | _ => rfl
    refine Reports.ite (fun origin => ?_) fun apart => ?_
    · exact (originReports_reports _ _ _).mono fun _ _ => entitled_of_given (reporter.trans origin)
    have place : fixture.reports macs own ≠ true := fun here => apart (reporter.symm.trans here)
    refine (Quietly.ite (Quietly.testInfo _) (Quietly.pure ())).bind_reports lasting_entitled
      fun _ => ?_
    exact (quiet_setupNetif _ _ _).bind_reports lasting_entitled fun _ => silent place

theorem appMain_reports (fixture : Fixture) (macs : LineMacs) (own : Mac) (rounds : ℕ) :
    Reports (Entitled fixture macs own rounds) (appMain fixture macs own rounds) := by
  refine Reports.ite gateMain_reports fun other => ?_
  refine (Quietly.testLine rfl).bind_reports lasting_entitled fun _ => Reports.ask fun status => ?_
  refine Reports.ite (fun failed => ?_) fun _ => ?_
  · exact Reports.finish _ _ _ fun calls => entitled_of_failed failed _ calls
  refine Reports.mono ?_ fun reported calls entitled => Entitled.called entitled _
  exact (Quietly.testInfo _).bind_reports lasting_entitled fun _ => meshUp_reports other

end

/-- **What the boards of a line report is recorded.** On every board of every fixture,
whatever the mesh answers and whatever quiet texts other tasks print before, between and
behind the calls that print: the program comes to one verdict or none, which ends its lines;
the harness records that verdict, or FAIL without one, with the steps that were printed as
failed. The reporter's board gives a verdict when it is listened to until its deadline, and
only that board does, or one whose mesh did not start. -/
theorem lineApp_recorded {Meta : Type*} (fixture : Fixture) (macs : LineMacs) (own : Mac)
    (rounds : ℕ) (outside : Foundation.Outside (Ask.Response Answer)) (later : Others)
    (slug : String) (dur : ℚ) (info : Meta) :
    let ended := (appMain fixture macs own rounds).run outside ⟨[], ()⟩
    let writes := ended.state.writes ++ later.1
    ∃ reported, ended.value = some reported ∧
      Entitled fixture macs own rounds reported ended.calls ∧
      (recordVerdict slug (console writes) dur info).status =
        (reported.map ReportedVerdict.status).getD .fail ∧
      failedSteps (console writes) = writes.filterMap Write.failed ∧
      Gives reported (ownLines writes) :=
  (appMain_reports fixture macs own rounds ()).recorded outside later slug dur info

theorem reports_mac {macs : LineMacs} (distinct : Function.Injective macs.mac)
    (fixture : Fixture) (role : LineRole) :
    fixture.reports macs (macs.mac role) = decide (role = fixture.reporter) := by
  have is (place : LineRole) : decide (macs.mac role = macs.mac place) = decide (role = place) :=
    decide_eq_decide.mpr distinct.eq_iff
  cases fixture with
  | relayNocrash => exact is .relay
  | gateRelay => exact is .dest
  | _ => exact is .origin

/-- **One board gives the verdict.** On every accepted bench with unicast addresses,
however the resolving and the flashes before went: when the meshes of the three boards have
started, the reporter's board comes to a verdict and the others to none, and what each
console is recorded with says so. -/
theorem one_board_reports {Meta : Type*} {fixture : Fixture} (run : LineRun fixture)
    (unicast : run.Unicast) {rounds : ℕ} (listened : gateDeadline ≤ rounds) (role : LineRole)
    (outside : Foundation.Outside (Ask.Response Answer)) (later : Others)
    (slug : String) (dur : ℚ) (info : Meta) :
    let ended := (appMain fixture (run.macs role) (run.own role) rounds).run outside ⟨[], ()⟩
    ¬ StartFailed ended.calls →
      ∃ reported, ended.value = some reported ∧ (reported.isSome ↔ role = fixture.reporter) ∧
        (recordVerdict slug (console (ended.state.writes ++ later.1)) dur info).status =
          (reported.map ReportedVerdict.status).getD .fail := by
  intro ended started
  obtain ⟨reported, value, entitled, status, -⟩ :=
    (appMain_reports fixture (run.macs role) (run.own role) rounds ()).recorded outside later slug
      dur info
  have place : fixture.reports (run.macs role) (run.own role) = true ↔ role = fixture.reporter := by
    rw [run.own_eq_mac unicast role role, reports_mac (run.mac_injective role), decide_eq_true_eq]
  refine ⟨reported, value, ⟨fun given => ?_, fun reporter => ?_⟩, status⟩
  · exact place.mp ((entitled.given given).resolve_right started)
  · exact (entitled.gives (place.mpr reporter) fun _ => listened).resolve_right started

/-- A board whose mesh starts and that has no netif. -/
def bareBoard : Foundation.Outside (Ask.Response Answer) := fun _ question =>
  match question with
  | .meanwhile => quietOthers
  | .board .meshStart | .board .replies | .board .timeouts | .board .gates => (0 : ℕ)
  | .board .netifFound | .board .netifUp | .board .addStaticArp => false
  | .board .newSession | .board .pingDone | .board .sendToGates => false
  | .board .peers => ([] : List Mac)
  | .board .ccmpFailures => (0 : UInt32)
  | .board .hwRestartCounter => (0 : UInt16)
  | .board .aeRxProbe => ((0 : UInt32), finalDst, srcHost)

/-- The origin's board, when the relay is its sole peer and forwards every ping. -/
def forwardedBoard : Foundation.Outside (Ask.Response Answer) := fun _ question =>
  match question with
  | .meanwhile => quietOthers
  | .board .meshStart | .board .timeouts | .board .gates => (0 : ℕ)
  | .board .replies => pingCount
  | .board .netifFound | .board .netifUp | .board .addStaticArp => true
  | .board .newSession | .board .pingDone | .board .sendToGates => true
  | .board .peers => [(benchRun.macs .origin).relay]
  | .board .ccmpFailures => (0 : UInt32)
  | .board .hwRestartCounter => (0 : UInt16)
  | .board .aeRxProbe => ((0 : UInt32), finalDst, srcHost)

/-- A board at the far end comes to no verdict, and the origin's to one. -/
theorem bareBoard_reports :
    (let ended := (appMain .relay (benchRun.macs .dest) (benchRun.own .dest) 100).run bareBoard
        ⟨[], ()⟩
      ∃ reported, ended.value = some reported ∧ (reported.isSome ↔ LineRole.dest = .origin) ∧
        (recordVerdict "mesh-relay" (console (ended.state.writes ++ [])) 30 ()).status =
          (reported.map ReportedVerdict.status).getD .fail) ∧
    (let ended := (appMain .relay (benchRun.macs .origin) (benchRun.own .origin) 100).run
        forwardedBoard ⟨[], ()⟩
      ∃ reported, ended.value = some reported ∧ reported = some .pass ∧
        (recordVerdict "mesh-relay" (console (ended.state.writes ++ [])) 30 ()).status =
          .pass) := by
  constructor
  · refine one_board_reports benchRun benchRun_unicast (by decide) .dest bareBoard
      quietOthers "mesh-relay" 30 () ?_
    decide +kernel
  · have listened : gateDeadline ≤ 100 := le_rfl
    obtain ⟨reported, value, -, recorded⟩ := one_board_reports benchRun benchRun_unicast listened
      .origin forwardedBoard quietOthers "mesh-relay" 30 () (by decide +kernel)
    have passed : ((appMain .relay (benchRun.macs .origin) (benchRun.own .origin) 100).run
        forwardedBoard ⟨[], ()⟩).value = some (some .pass) := by decide +kernel
    cases value.symm.trans passed
    exact ⟨some .pass, value, rfl, recorded⟩

end Rimba.Line
