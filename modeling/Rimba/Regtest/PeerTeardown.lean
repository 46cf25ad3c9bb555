import Rimba.Regtest.OnAir
import Rimba.Regtest.PeerBringUp

/-! # Silence for Linux peers

A bring-up that starts a radio hands its caller the teardown, and the orchestrator
invokes each teardown it has been handed exactly once, behind everything the test
has started. Together the radios a test starts are all torn down exactly when every
step of its bring-ups settles from the start of the radio on: it answers, and a
poll finds the peer up (`Rimba.Regtest.radios_torn_down_iff`).
-/

namespace Rimba.Regtest

open Foundation (Ended Outside Program)

/-- A bring-up's caller has the teardown of the radio it has started. -/
def Handed (ended : Ended Command.Response Suite BroughtUp) : Prop :=
  ∀ teardown ∈ ended.calls.filterMap startedRadio,
    ended.value.bind BroughtUp.teardown = some teardown

/-- The teardown of each radio that is started is invoked exactly once, behind all
that is started. -/
def TornDownOnce (calls : List BenchCall) : Prop :=
  ∃ front back, calls = front ++ back ∧ front.filterMap tornDown = [] ∧
    back.filterMap startedRadio = [] ∧ back.filterMap tornDown = front.filterMap startedRadio

/-- What some calls add to the teardowns handed over: those of the radios they
start when every step settles, and otherwise fewer. -/
structure Tracked (before after : List Teardown) (calls : List BenchCall) : Prop where
  untouched : calls.filterMap tornDown = []
  settled : calls.all settles = true → after = before ++ calls.filterMap startedRadio
  stranded : calls.all settles = false →
    after.length < before.length + (calls.filterMap startedRadio).length

theorem Tracked.of_quiet {teardowns : List Teardown} {calls : List BenchCall}
    (quiet : ∀ called ∈ calls, Quiet called) : Tracked teardowns teardowns calls := by
  obtain ⟨torn, started, settled⟩ := quiet_append quiet []
  rw [List.append_nil] at torn started settled
  refine ⟨torn, fun _ => ?_, fun some => ?_⟩
  · rw [started, List.filterMap_nil, List.append_nil]
  · cases some.symm.trans settled

theorem Tracked.append {before middle after : List Teardown} {front back : List BenchCall}
    (first : Tracked before middle front) (second : Tracked middle after back) :
    Tracked before after (front ++ back) := by
  refine ⟨?_, fun all => ?_, fun some => ?_⟩
  · rw [List.filterMap_append, first.untouched, second.untouched, List.append_nil]
  · rw [List.all_append, Bool.and_eq_true] at all
    rw [second.settled all.2, first.settled all.1, List.filterMap_append, List.append_assoc]
  · rw [List.all_append, Bool.and_eq_false_iff] at some
    rw [List.filterMap_append, List.length_append]
    by_cases frontSettles : front.all settles = true
    · have strict := second.stranded
        (some.resolve_left fun not => Bool.false_ne_true (not.symm.trans frontSettles))
      rw [first.settled frontSettles, List.length_append] at strict
      omega
    · have strict := first.stranded (Bool.eq_false_iff.mpr frontSettles)
      by_cases backSettles : back.all settles = true
      · rw [second.settled backSettles, List.length_append]
        omega
      · have more := second.stranded (Bool.eq_false_iff.mpr backSettles)
        omega

theorem bringUpLinux_hands (manifest : Manifest) (role : Role) (host : String) :
    Hands (bringUpLinux manifest role host) := by
  unfold bringUpLinux
  cases role.linuxSetup with
  | meshPeer => exact bringUpMesh_hands _ host
  | meshGate => exact bringUpGate_hands _ host
  | hostapdAp => exact bringUpAp_hands host
  | unknown => exact .refused _

/-- What calls lead along, of the teardowns handed over. -/
abbrev TracksTeardowns (before after : Suite) (calls : List BenchCall) : Prop :=
  Tracked before.linuxTeardowns after.linuxTeardowns calls

theorem tracksTeardowns_composes : Foundation.Composes TracksTeardowns where
  refl _ := .of_quiet (List.forall_mem_nil _)
  trans _ _ _ _ _ first second := first.append second

theorem Only.tracks {Value : Type} {program : Bench Value} (quiet : Only Quiet program) :
    program.Follows TracksTeardowns := fun suite =>
  (quiet suite).mono fun _ _ _ ⟨same, calls⟩ => by
    rw [same]
    exact .of_quiet calls

theorem update_tracks {change : Suite → Suite}
    (same : ∀ suite, (change suite).linuxTeardowns = suite.linuxTeardowns) :
    (Program.update change : Bench Unit).Follows TracksTeardowns := fun suite =>
  Program.Ensures.update (by
    rw [TracksTeardowns, same]
    exact .of_quiet (List.forall_mem_nil _))

theorem resolvePort_quiet (board : Board) : Only Quiet (resolvePort board) :=
  resolvePort_only fun _ => ⟨rfl, rfl, rfl⟩

theorem flash_quiet (app : Option String) (board : Board) (port : Option String) :
    Only Quiet (flash app board port) := by
  cases app with
  | none => exact Only.composes.raise
  | some app => exact make_only fun _ => ⟨rfl, rfl, rfl⟩

/-- A bring-up whose caller keeps the teardown it has been handed. -/
theorem bringUpPeer_tracks (manifest : Manifest) (role : Role) (host : String) :
    (bringUpPeer manifest role host).Follows TracksTeardowns := by
  intro suite
  refine Program.Ensures.bind ((bringUpLinux_hands manifest role host suite).mono
    fun value final calls ⟨same, hands, _⟩ => ?_)
  subst same
  have kept : Tracked final.linuxTeardowns
      (final.linuxTeardowns ++ (value.bind BroughtUp.teardown).toList) calls := by
    refine ⟨hands.untouched, fun all => ?_, fun some => ?_⟩
    · rw [hands.settled all]
    · obtain ⟨nothing, one⟩ := hands.stranded some
      rw [nothing, one, Option.toList_none, List.append_nil]
      exact Nat.lt_succ_self _
  cases value with
  | none =>
      rw [Option.bind_none, Option.toList_none, List.append_nil] at kept
      exact kept
  | some up =>
      refine Program.Ensures.bind (Program.Ensures.update (Program.Ensures.pure ?_))
      rw [List.append_nil, List.append_nil]
      exact kept

theorem resolves_quietly : ResolveSteps (Untouched Quiet) :=
  ⟨Only.composes, resolvePort_quiet, reachable_quiet⟩

theorem onAir_tracks (manifest : Manifest) : OnAirSteps manifest TracksTeardowns where
  composes := tracksTeardowns_composes
  resolvePort board := (resolvePort_quiet board).tracks
  reachable host := (reachable_quiet host).tracks
  add _ _ := update_tracks fun _ => rfl
  captureUntil _ _ _ := (captureUntil_only fun _ => ⟨rfl, rfl, rfl⟩).tracks
  flash app board port failed next _ fails goesOn := by
    refine tracksTeardowns_composes.bind (flash_quiet app board port).tracks fun cp => ?_
    split
    · exact fails
    · exact tracksTeardowns_composes.bind (update_tracks fun _ => rfl) fun _ => goesOn
  peer := bringUpPeer_tracks manifest

/-- Invoking a teardown is one command, whatever comes of it. -/
theorem invoke_ensures (teardown : Teardown) (suite : Suite) :
    (Program.orElse teardown.invoke (pure ())).Ensures suite fun value _ calls =>
      value = some () ∧ calls.filterMap tornDown = [teardown] ∧
        calls.filterMap startedRadio = [] ∧ calls.all settles = true := by
  refine Program.Ensures.orElse ?_
  cases teardown with
  | radioSilence host =>
      refine Program.Ensures.bind (sshRun_ensures fun answer => ?_)
      cases answer with
      | none => exact Program.Ensures.pure ⟨rfl, rfl, rfl, rfl⟩
      | some cp => exact Program.Ensures.pure ⟨rfl, rfl, rfl, rfl⟩
  | stopAp host =>
      refine Program.Ensures.bind (sshRun_ensures fun answer => ?_)
      cases answer with
      | none => exact Program.Ensures.pure ⟨rfl, rfl, rfl, rfl⟩
      | some cp => exact Program.Ensures.pure ⟨rfl, rfl, rfl, rfl⟩

theorem invokeAll_ensures (teardowns : List Teardown) (suite : Suite) :
    (Program.forEach teardowns fun teardown =>
      Program.orElse teardown.invoke (pure ())).Ensures suite fun _ _ calls =>
        calls.filterMap tornDown = teardowns ∧ calls.filterMap startedRadio = [] ∧
          calls.all settles = true := by
  induction teardowns generalizing suite with
  | nil => exact Program.Ensures.pure ⟨rfl, rfl, rfl⟩
  | cons teardown rest ih =>
      refine Program.Ensures.bind ((invoke_ensures teardown suite).mono
        fun value final calls ⟨returned, torn, started, settled⟩ => ?_)
      subst returned
      refine (ih final).mono fun _ _ more ⟨restTorn, restStarted, restSettled⟩ => ?_
      rw [List.filterMap_append, List.filterMap_append, List.all_append, torn, started, settled,
        restTorn, restStarted, restSettled]
      exact ⟨rfl, rfl, rfl⟩

/-- The teardowns kept are invoked, each once, in order. -/
theorem tearDownPeers_ensures (suite : Suite) :
    tearDownPeers.Ensures suite fun _ _ calls =>
      calls.filterMap tornDown = suite.linuxTeardowns ∧ calls.filterMap startedRadio = [] ∧
        calls.all settles = true :=
  Program.Ensures.bind (Program.Ensures.current (invokeAll_ensures _ suite))

/-- What is torn down behind what has been started is all of it exactly when every
step settles. -/
theorem tornDownOnce_iff {teardowns : List Teardown} {front back : List BenchCall}
    (tracked : Tracked [] teardowns front) (torn : back.filterMap tornDown = teardowns)
    (started : back.filterMap startedRadio = []) (settled : back.all settles = true) :
    TornDownOnce (front ++ back) ↔ (front ++ back).all settles = true := by
  rw [List.all_append, settled, Bool.and_true]
  constructor
  · rintro ⟨before, after, split, untouched, silent, once⟩
    by_contra unsettled
    have fewer := tracked.stranded (Bool.eq_false_iff.mpr unsettled)
    have allTorn := congrArg (List.filterMap tornDown) split
    have allStarted := congrArg (List.filterMap startedRadio) split
    rw [List.filterMap_append, List.filterMap_append, tracked.untouched, torn, untouched, once,
      List.nil_append, List.nil_append] at allTorn
    rw [List.filterMap_append, List.filterMap_append, started, silent, List.append_nil,
      List.append_nil] at allStarted
    rw [allTorn, allStarted, List.length_nil, Nat.zero_add] at fewer
    exact Nat.lt_irrefl _ fewer
  · intro all
    refine ⟨front, back, rfl, tracked.untouched, started, ?_⟩
    rw [torn, tracked.settled all, List.nil_append]

theorem runOrchestrated_tornDown (manifest : Manifest) (t : T2Test) (suite : Suite) :
    (runOrchestrated manifest t).Ensures suite fun _ _ calls =>
      TornDownOnce calls ↔ calls.all settles = true := by
  have quietly : ∀ calls : List BenchCall, (∀ called ∈ calls, Quiet called) →
      (TornDownOnce calls ↔ calls.all settles = true) := by
    intro calls quiet
    rw [← List.append_nil calls]
    exact tornDownOnce_iff (Tracked.of_quiet quiet) rfl rfl rfl
  unfold runOrchestrated
  split
  · exact Program.Ensures.update (quietly [] (List.forall_mem_nil _))
  · refine Program.Ensures.bind ((resolves_quietly.resolveRoles [] [] t.roles suite).mono
      fun value middle calls ⟨same, quiet⟩ => ?_)
    rcases value with _ | _ | assign
    · exact quietly calls quiet
    · refine Program.Ensures.update ?_
      rw [List.append_nil]
      exact quietly calls quiet
    · refine Program.Ensures.bind (Program.Ensures.update ?_)
      refine Program.Ensures.ensuring (((onAir_tracks manifest).runRoles t assign _).mono
        fun value final more tracked => ?_)
      refine (tearDownPeers_ensures final).mono fun _ _ last ⟨torn, started, settled⟩ => ?_
      have whole := tornDownOnce_iff ((Tracked.of_quiet quiet).append tracked) torn started settled
      rw [List.append_assoc] at whole
      exact whole

/-- **Silence for Linux peers.** A bring-up's caller has the teardown of the radio it
has started exactly when every step settles from the start on, and the radios a test
starts are each torn down exactly once exactly when every step of its bring-ups does. -/
theorem radios_torn_down_iff (manifest : Manifest) (outside : Outside Command.Response)
    (suite : Suite) :
    (∀ role host, Handed ((bringUpLinux manifest role host).run outside suite) ↔
      ((bringUpLinux manifest role host).run outside suite).calls.all settles = true) ∧
    ∀ t, TornDownOnce ((runOrchestrated manifest t).run outside suite).calls ↔
      ((runOrchestrated manifest t).run outside suite).calls.all settles = true := by
  refine ⟨fun role host => ?_, fun t => (runOrchestrated_tornDown manifest t suite).run outside⟩
  obtain ⟨-, hands, -⟩ := (bringUpLinux_hands manifest role host suite).run outside
  constructor
  · intro handed
    by_contra unsettled
    obtain ⟨nothing, one⟩ := hands.stranded (Bool.eq_false_iff.mpr unsettled)
    obtain ⟨teardown, single⟩ := List.length_eq_one_iff.mp one
    have given := handed teardown (by rw [single]; exact List.mem_singleton_self _)
    rw [nothing] at given
    cases given
  · intro all teardown member
    rw [hands.settled all, Option.mem_toList] at member
    exact member

/-- A bench of one Linux peer, with no app of its own. -/
def peerManifest : Manifest where
  apps := []
  notImplemented := []
  fullyWired board := board = .board2
  linuxNodes host := if host = "chronite" then some ⟨"10.9.9.2", "3c:22:7f:37:51:38"⟩ else none
  linuxKnown := true
  defaultLinuxPeer := "chronite"

/-- A Linux peer that answers every command, but does not join the mesh in time. -/
def neverMesh : Outside Command.Response := fun _ command =>
  match command with
  | .resolvePort _ => none
  | .make _ _ _ => none
  | .captureUntil _ _ _ => none
  | .captureSerial _ _ => none
  | .captureLadder _ _ => none
  | .ssh _ .echoOk => some ⟨0, "ok"⟩
  | .ssh _ (.haveConfig _) => some ⟨0, "HAVE"⟩
  | .ssh _ _ => some ⟨0, ""⟩
  | .haveReference _ => true
  | .scp _ _ => some ⟨0, ""⟩
  | .findPpk2 => false
  | .importPpk2 => false
  | .ppk2 _ => none

/-- The Linux role of a mesh test. -/
def meshPeer : Role :=
  ⟨"peer", .linux, none, false, none, false, .meshPeer, by decide⟩

/-- A supplicant that has been started but does not report its mesh in time is left
running. -/
theorem slow_mesh_left_on : ¬ ∀ (manifest : Manifest) (outside : Outside Command.Response)
    (suite : Suite),
    (∀ role host, Handed ((bringUpLinux manifest role host).run outside suite)) ∧
      ∀ t, TornDownOnce ((runOrchestrated manifest t).run outside suite).calls := by
  intro silent
  have handed := (silent peerManifest neverMesh .fresh).1 meshPeer "chronite"
  have started : Teardown.radioSilence "chronite" ∈
      ((bringUpLinux peerManifest meshPeer "chronite").run neverMesh .fresh).calls.filterMap
        startedRadio := by decide +kernel
  have nothing : ((bringUpLinux peerManifest meshPeer "chronite").run neverMesh .fresh).value.bind
      BroughtUp.teardown = none := by decide +kernel
  cases nothing.symm.trans (handed _ started)

end Rimba.Regtest
