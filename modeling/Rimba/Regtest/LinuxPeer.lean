import Rimba.Foundation.Text
import Rimba.Regtest.Bench

/-! # Linux peers

The bring-ups of the harness's `linux_peer` module: the peer's configuration is
brought there, its radio started and polled for, and a teardown returned behind the
point where the peer has come up. What a bring-up calls is stated once for all later
use (`Rimba.Regtest.bringUpMesh_only` and its siblings).
-/

namespace Rimba.Regtest

open Foundation (Called Program)

/-- Whether a text holds another. -/
def contains (needle text : String) : Bool := needle.toList <:+: text.toList

/-- The end of a log, as a detail quotes it. -/
def logTail (size : ℕ) (stdout : String) : String :=
  let text := Foundation.strip stdout.toList
  if text = [] then "(empty)" else String.ofList (text.drop (text.length - size))

/-- A node of `LINUX_NODES`. -/
structure LinuxNode where
  meshIp : String
  meshMac : String

/-- `LINUX_NODES` -/
abbrev LinuxNodes := String → Option LinuxNode

/-- What a bring-up returns: whether the peer is up, why, and its teardown. -/
structure BroughtUp where
  ok : Bool
  detail : String
  teardown : Option Teardown

/-- `ssh_run` -/
def sshRun (host : String) (remote : Remote) : Bench CompletedProcess := do
  orRaise (← Program.call (Command.ssh host remote))

/-- `reachable` -/
def reachable (host : String) : Bench Bool :=
  Program.orElse
    (do
      let cp ← sshRun host .echoOk
      return cp.returncode = 0 && contains "ok" cp.stdout)
    (pure false)

/-- `_push_config` and `_push_ap_config` -/
def pushConfig (host : String) (config : PeerConfig) : Bench Bool := do
  if !(← Program.call (Command.haveReference config)) then
    return false
  match ← Program.call (Command.scp host config) with
  | some cp => return cp.returncode = 0
  | none => return false

/-- Whether the configuration is on the peer, or has been pushed to it. -/
def ensureConfig (host : String) (config : PeerConfig) : Bench Bool := do
  let chk ← sshRun host (.haveConfig config)
  if contains "HAVE" chk.stdout then
    return true
  pushConfig host config

/-- Start a radio and poll for it; when it is not up, the end of its log. -/
def startRadio (host : String) (start poll tail : Remote) (up : String) :
    Bench (Option CompletedProcess) := do
  let _ ← sshRun host start
  let polled ← sshRun host poll
  if contains up polled.stdout then
    return none
  return some (← sshRun host tail)

/-- `live_wlan1_mac` -/
def liveWlan1Mac (host : String) : Bench (Option (List Char)) := do
  let cp ← sshRun host .wlan1Mac
  let mac := (Foundation.strip cp.stdout.toList).map Char.toLower
  return if mac.length = 17 ∧ mac.count ':' = 5 then some mac else none

/-- `mesh_mac_matches` -/
def meshMacMatches (nodes : LinuxNodes) (host : String) : Bench (Bool × String) := do
  match nodes host with
  | none => return (true, host ++ ": no registry MAC to cross-check")
  | some node =>
      if node.meshMac = "" then
        return (true, host ++ ": no registry MAC to cross-check")
      match ← liveWlan1Mac host with
      | none => return (true, host ++ ": could not read live wlan1 MAC")
      | some live =>
          if live ≠ node.meshMac.toList.map Char.toLower then
            return (false, host ++ ": live wlan1 MAC " ++ String.ofList live ++
              " != registry/firmware MAC " ++ node.meshMac ++
              " -- the ESP interop app's hardcoded LINUX_MAC is stale for this node")
          return (true, host ++ ": MAC " ++ String.ofList live ++ " matches the registry")

/-- `bring_up_mesh` -/
def bringUpMesh (nodes : LinuxNodes) (host : String) : Bench BroughtUp := do
  if !(← reachable host) then
    return ⟨false, host ++ " not reachable over ssh", none⟩
  match nodes host with
  | none => return ⟨false, host ++ ": not in the LINUX_NODES registry (manifest.py)", none⟩
  | some node =>
      if !(← ensureConfig host .mesh) then
        return ⟨false, host ++ ": /tmp/wpa-smesh.conf absent and could not scp the reference " ++
          "config (docs/reference/captures/wpa-smesh.conf)", none⟩
      match ← startRadio host .startMesh (.pollMesh node.meshIp) .tailMeshLog "MESHUP" with
      | some log =>
          return ⟨false, host ++ ": mesh did not reach 'type mesh' within ~12s. wpa log tail: " ++
            logTail 200 log.stdout, none⟩
      | none =>
          let (matched, why) ← meshMacMatches nodes host
          let warn := if matched then "" else "  !! WARNING: " ++ why
          return ⟨true, host ++ ": rimba-smesh mesh point up, " ++ node.meshIp ++ warn,
            some (.radioSilence host)⟩

/-- `bring_up_gate` -/
def bringUpGate (nodes : LinuxNodes) (host : String) : Bench BroughtUp := do
  let up ← bringUpMesh nodes host
  if !up.ok then
    return up
  let gate ← sshRun host .setGate
  let flat := String.ofList (gate.stdout.toList.filter (· ≠ ' '))
  if !contains "rootmode=4" flat || !contains "gate_ann=1" flat then
    return ⟨false, host ++ ": mesh up but gate mode did not apply (readback: " ++
      String.ofList (Foundation.reprText ((Foundation.strip gate.stdout.toList).take 160)) ++ ")",
      up.teardown⟩
  return ⟨true, up.detail ++ " + PROACTIVE_RANN gate (rootmode 4 / gate_ann 1 / rann 5000)",
    up.teardown⟩

/-- `bring_up_ap` -/
def bringUpAp (host : String) : Bench BroughtUp := do
  if !(← reachable host) then
    return ⟨false, host ++ " not reachable over ssh", none⟩
  if !(← ensureConfig host .ap) then
    return ⟨false, host ++ ": /tmp/hostapd-rimba.conf absent and could not scp the reference " ++
      "config (docs/reference/captures/hostapd-rimba.conf)", none⟩
  match ← startRadio host .startAp .pollAp .tailApLog "APUP" with
  | some log =>
      return ⟨false, host ++ ": hostapd_s1g did not reach 'type AP' within ~12s. log tail: " ++
        logTail 220 log.stdout, none⟩
  | none =>
      return ⟨true, host ++ ": hostapd_s1g SoftAP 'rimba-ping' up (SAE, dtim1, PMF, ch27)",
        some (.stopAp host)⟩

/-- Invoke a teardown. -/
def Teardown.invoke : Teardown → Bench Unit
  | .radioSilence host => do let _ ← sshRun host .silence
  | .stopAp host => do let _ ← sshRun host .stopAp

theorem sshRun_ensures {host : String} {remote : Remote} {suite : Suite}
    {post : Option CompletedProcess → Suite → List BenchCall → Prop}
    (holds : ∀ answer, post answer suite [⟨.ssh host remote, answer⟩]) :
    (sshRun host remote).Ensures suite post :=
  Program.Ensures.bind (Program.Ensures.call fun answer => orRaise_ensures (holds answer))

section

variable {holds : BenchCall → Prop} {host : String}

theorem Only.sshRun {remote : Remote} (each : ∀ answer, holds ⟨.ssh host remote, answer⟩) :
    Only holds (sshRun host remote) :=
  fun _ => sshRun_ensures fun answer => ⟨rfl, List.forall_mem_singleton.mpr (each answer)⟩

theorem reachable_only (echo : ∀ answer, holds ⟨.ssh host .echoOk, answer⟩) :
    Only holds (reachable host) :=
  .orElse (.bind (.sshRun echo) fun _ => .pure _) (.pure _)

variable {config : PeerConfig} (reference : ∀ answer, holds ⟨.haveReference config, answer⟩)
  (scp : ∀ answer, holds ⟨.scp host config, answer⟩)

include reference scp

theorem pushConfig_only : Only holds (pushConfig host config) := by
  refine .bind (.call reference) fun found => ?_
  cases found with
  | false => exact .pure _
  | true =>
      refine .bind (.call scp) fun answer => ?_
      cases answer with
      | none => exact .pure _
      | some cp => exact .pure _

theorem ensureConfig_only (have_ : ∀ answer, holds ⟨.ssh host (.haveConfig config), answer⟩) :
    Only holds (ensureConfig host config) := by
  refine .bind (.sshRun have_) fun chk => ?_
  split
  · exact .pure _
  · exact pushConfig_only reference scp

end

section

variable {holds : BenchCall → Prop} {host : String}
  (ssh : ∀ remote answer, holds ⟨.ssh host remote, answer⟩)
  (reference : ∀ config answer, holds ⟨.haveReference config, answer⟩)
  (scp : ∀ config answer, holds ⟨.scp host config, answer⟩)

include ssh

theorem startRadio_only (start poll tail : Remote) (up : String) :
    Only holds (startRadio host start poll tail up) := by
  refine .bind (.sshRun (ssh _)) fun _ => .bind (.sshRun (ssh _)) fun polled => ?_
  split
  · exact .pure _
  · exact .bind (.sshRun (ssh _)) fun _ => .pure _

theorem meshMacMatches_only (nodes : LinuxNodes) : Only holds (meshMacMatches nodes host) := by
  unfold meshMacMatches
  cases nodes host with
  | none => exact .pure _
  | some node =>
      dsimp only
      split
      · exact .pure _
      · refine .bind (.bind (.sshRun (ssh _)) fun _ => .pure _) fun live => ?_
        cases live with
        | none => exact .pure _
        | some live =>
            dsimp only
            split
            · exact .pure _
            · exact .pure _

include reference scp

/-- A bring-up runs commands on its host, and copies a configuration to it. -/
theorem bringUpMesh_only (nodes : LinuxNodes) : Only holds (bringUpMesh nodes host) := by
  refine .bind (reachable_only (ssh _)) fun up => ?_
  split
  · exact .pure _
  · cases nodes host with
    | none => exact .pure _
    | some node =>
        refine .bind (ensureConfig_only (reference _) (scp _) (ssh _)) fun pushed => ?_
        split
        · exact .pure _
        · refine .bind (startRadio_only ssh _ _ _ _) fun log => ?_
          cases log with
          | some log => exact .pure _
          | none => exact .bind (meshMacMatches_only ssh nodes) fun _ => .pure _

theorem bringUpGate_only (nodes : LinuxNodes) : Only holds (bringUpGate nodes host) := by
  refine .bind (bringUpMesh_only ssh reference scp nodes) fun up => ?_
  split
  · exact .pure _
  · refine .bind (.sshRun (ssh _)) fun gate => ?_
    dsimp only
    split
    · exact .pure _
    · exact .pure _

theorem bringUpAp_only : Only holds (bringUpAp host) := by
  refine .bind (reachable_only (ssh _)) fun up => ?_
  split
  · exact .pure _
  · refine .bind (ensureConfig_only (reference _) (scp _) (ssh _)) fun pushed => ?_
    split
    · exact .pure _
    · refine .bind (startRadio_only ssh _ _ _ _) fun log => ?_
      cases log with
      | some log => exact .pure _
      | none => exact .pure _

end

end Rimba.Regtest
