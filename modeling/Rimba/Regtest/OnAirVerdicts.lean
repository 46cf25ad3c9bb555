import Rimba.Regtest.OnAirSilence
import Rimba.Regtest.PeerTeardown

/-! # One verdict for each on-air test

A part of a test either gives the test its result and has the test return, or
records nothing, also where it raises (`Rimba.Regtest.Records`). What a test raises
behind that is turned into a result by the run, so that every selected test is
dispatched and given exactly one, however the bench behaves and wherever a port
lookup raises (`Rimba.Regtest.OnAirRun.run_verdicts`).
-/

namespace Rimba.Regtest

open Foundation (Ended Outside Program)

/-- What calls lead along, of the results recorded: none. -/
abbrev KeepsResults (before after : Suite) (_ : List BenchCall) : Prop :=
  after.results = before.results

theorem keepsResults_composes : Foundation.Composes KeepsResults where
  refl _ := rfl
  trans _ _ _ _ _ first second := second.trans first

theorem Only.keeps {holds : BenchCall → Prop} {Value : Type} {program : Bench Value}
    (only : Only holds program) : program.Follows KeepsResults := fun suite =>
  (only suite).mono fun _ _ _ ⟨same, _⟩ => congrArg Suite.results same

theorem update_keeps {change : Suite → Suite}
    (same : ∀ suite, (change suite).results = suite.results) :
    (Program.update change : Bench Unit).Follows KeepsResults := fun suite =>
  Program.Ensures.update (same suite)

/-- A part of a test records the test's result exactly when it returns a value that
says so; when it raises it has recorded nothing. -/
def Records (slug : String) {Value : Type} (settled : Value → Bool) (program : Bench Value) :
    Prop :=
  ∀ suite, program.Ensures suite fun value final _ =>
    if value.any settled then ∃ status, final.results = suite.results ++ [(slug, status)]
    else final.results = suite.results

namespace Records

variable {slug : String} {Value Other : Type} {settled : Value → Bool} {ends : Other → Bool}

theorem pure {value : Value} (unsettled : settled value = false) :
    Records slug settled (Pure.pure value) := fun suite =>
  Program.Ensures.pure (by
    rw [Option.any_some, unsettled]
    rfl)

theorem add (name : String) (status : Status) :
    Records name (fun _ => true) (add name status) := fun _ =>
  Program.Ensures.update ⟨status, rfl⟩

/-- A part that records nothing, then the rest of the test. -/
theorem behind {first : Bench Value} {later : Value → Bench Other}
    (keeps : first.Follows KeepsResults) (rest : ∀ value, Records slug ends (later value)) :
    Records slug ends (first >>= later) := fun suite => by
  refine Program.Ensures.bind ((keeps suite).mono fun value middle _ same => ?_)
  cases value with
  | none => exact same
  | some value =>
      refine (rest value middle).mono fun _ _ _ recorded => ?_
      rw [← same]
      exact recorded

/-- A part that may settle the test, then the rest of the test, which only returns
when the test is settled. -/
theorem bind {first : Bench Value} {later : Value → Bench Other}
    (settles : Records slug settled first)
    (rest : ∀ value, settled value = false → Records slug ends (later value))
    (returns : ∀ value, settled value = true →
      ∃ last, later value = Pure.pure last ∧ ends last = true) :
    Records slug ends (first >>= later) := fun suite => by
  refine Program.Ensures.bind ((settles suite).mono fun value middle _ recorded => ?_)
  cases value with
  | none => exact recorded
  | some value =>
      rw [Option.any_some] at recorded
      dsimp only
      cases already : settled value with
      | false =>
          rw [already, if_neg Bool.false_ne_true] at recorded
          refine (rest value already middle).mono fun _ _ _ more => ?_
          rw [← recorded]
          exact more
      | true =>
          rw [already, if_pos rfl] at recorded
          obtain ⟨last, returned, ended⟩ := returns value already
          rw [returned]
          refine Program.Ensures.pure ?_
          rw [Option.any_some, ended, if_pos rfl]
          exact recorded

/-- The result of the test, then a value that says it has been given. -/
theorem addThen (name : String) (status : Status) {value : Value} (ends : settled value = true) :
    Records name settled (do
      Regtest.add name status
      return value) :=
  bind (add name status) (fun _ impossible => nomatch impossible) fun _ _ => ⟨value, rfl, ends⟩

/-- A part with an ending that records nothing and does not raise. -/
theorem ensuring {program : Bench Value} {last : Bench Unit}
    (records : Records slug settled program)
    (keeps : ∀ suite, last.Ensures suite fun value final _ =>
      value = some () ∧ final.results = suite.results) :
    Records slug settled (program.ensuring last) := fun suite => by
  refine Program.Ensures.ensuring ((records suite).mono fun value middle _ recorded => ?_)
  refine (keeps middle).mono fun finished final _ ⟨returned, same⟩ => ?_
  subst returned
  rw [same]
  exact recorded

end Records

section

theorem captureUntil_keeps (board : Board) (port : Option String) (marker : String) :
    (captureUntil board port marker).Follows KeepsResults :=
  @Only.keeps (fun _ => True) _ _ (captureUntil_only fun _ => trivial)

theorem useBoard_keeps (board : Board) : (useBoard board).Follows KeepsResults :=
  update_keeps fun _ => rfl

theorem assigned_keeps (assign : List (String × Assigned)) (role : Role) :
    (assigned assign role).Follows KeepsResults :=
  @Only.keeps (fun _ => True) _ _ (.orRaise _)

variable (manifest : Manifest)

theorem bringUpPeer_keeps (role : Role) (host : String) :
    (bringUpPeer manifest role host).Follows KeepsResults :=
  keepsResults_composes.bind (bringUpLinux_noFlash manifest role host).keeps fun _ =>
    keepsResults_composes.bind (update_keeps fun _ => rfl) fun _ => keepsResults_composes.pure _

/-- The teardowns record nothing, and what they raise goes no further. -/
theorem tearDownPeers_returns (suite : Suite) :
    tearDownPeers.Ensures suite fun value final _ =>
      value = some () ∧ final.results = suite.results := by
  have returned : tearDownPeers.Ensures suite fun value _ _ => value = some () :=
    Program.Ensures.bind (Program.Ensures.current fun _ _ =>
      Program.forEach_returns (fun _ _ _ _ => Program.orElse_returns fun _ _ => rfl) _ _ _ _)
  exact fun outside history =>
    ⟨returned outside history, tearDownPeers_noFlash.keeps suite outside history⟩

variable [PortLookup]

theorem resolve_keeps : ResolveSteps KeepsResults where
  composes := keepsResults_composes
  resolvePort board := (PortLookup.leaves board).keeps
  reachable _ := @Only.keeps (fun _ => True) _ _ (reachable_only fun _ => trivial)

theorem bringUpEspSupport_keeps (role : Role) (board : Board) :
    (bringUpEspSupport role board).Follows KeepsResults := by
  have composes := keepsResults_composes
  refine composes.bind (resolve_keeps.resolvePort board) fun port =>
    composes.bind (flash_quiet _ _ _).keeps fun cp => ?_
  split
  · exact composes.pure false
  · refine composes.bind (useBoard_keeps board) fun _ => ?_
    split
    · exact composes.bind (captureUntil_keeps _ _ _) fun _ => composes.pure _
    · exact composes.pure true

/-- The support roles settle the test when one of them does not come up. -/
theorem bringUpSupports_records (slug : String) (assign : List (String × Assigned))
    (roles : List Role) :
    Records slug (fun up => !up) (bringUpSupports manifest slug assign roles) := by
  induction roles with
  | nil => exact .pure rfl
  | cons role rest ih =>
      refine .behind (keepsResults_composes.bind (assigned_keeps _ _) fun handle => ?_)
        fun up => ?_
      · cases handle with
        | esp board => exact bringUpEspSupport_keeps role board
        | linux host => exact bringUpPeer_keeps manifest role host
      · cases up with
        | true => exact ih
        | false => exact .addThen _ _ rfl

/-- The reporters settle the test when one of them cannot be captured. -/
theorem captureReporters_records (slug : String) (assign : List (String × Assigned))
    (reporters : List Role) :
    Records slug Option.isNone (captureReporters slug assign reporters) := by
  induction reporters with
  | nil => exact .pure rfl
  | cons reporter rest ih =>
      refine .behind (assigned_keeps _ _) fun handle => ?_
      cases handle with
      | linux host => exact .addThen _ _ rfl
      | esp board =>
          refine .behind (resolve_keeps.resolvePort board) fun port =>
            .behind (flash_quiet _ _ _).keeps fun cp => ?_
          split
          · exact .addThen _ _ rfl
          · refine .behind (useBoard_keeps board) fun _ =>
              .behind (captureUntil_keeps _ _ _) fun _ =>
                .bind ih (fun captures captured => ?_) fun captures settled => ?_
            · cases captures with
              | none => cases captured
              | some captures => exact .pure rfl
            · cases captures with
              | none => exact ⟨none, rfl, rfl⟩
              | some captures => cases settled

theorem runRoles_records (t : T2Test) (assign : List (String × Assigned)) :
    Records t.slug (fun _ => true) (runRoles manifest t assign) := by
  refine .bind (bringUpSupports_records manifest t.slug assign _) (fun up cameUp => ?_)
    fun up failed => ?_
  · cases up with
    | false => cases cameUp
    | true =>
        refine .bind (captureReporters_records t.slug assign _) (fun captures captured => ?_)
          fun captures settled => ?_
        · cases captures with
          | none => cases captured
          | some captures =>
              dsimp only
              unfold recordCaptures
              split <;> exact .add _ _
        · cases captures with
          | none => exact ⟨(), rfl, rfl⟩
          | some captures => cases settled
  · cases up with
    | false => exact ⟨(), rfl, rfl⟩
    | true => cases failed

theorem runSingle_records (t : T2Test) :
    Records t.slug (fun _ => true) (runSingle t) := by
  refine .behind (resolve_keeps.firstPresent _) fun board => ?_
  cases board with
  | none => exact .add _ _
  | some board =>
      refine .behind (resolve_keeps.resolvePort board) fun port =>
        .behind (flash_quiet _ _ _).keeps fun cp => ?_
      split
      · exact .add _ _
      · exact .behind (useBoard_keeps board) fun _ =>
          .behind (captureUntil_keeps _ _ _) fun _ => .add _ _

theorem runOrchestrated_records (t : T2Test) :
    Records t.slug (fun _ => true) (runOrchestrated manifest t) := by
  unfold runOrchestrated
  split
  · exact .add _ _
  · refine .behind (resolve_keeps.resolveRoles _ _ _) fun assign => ?_
    cases assign with
    | none => exact .add _ _
    | some assign =>
        exact .behind (update_keeps fun _ => rfl) fun _ =>
          .ensuring (runRoles_records manifest t assign) tearDownPeers_returns

/-- A test that returns has been given its result, and one that raises has not. -/
theorem dispatch_records (t : T2Test) :
    Records t.slug (fun _ => true) (dispatch manifest t) := by
  unfold dispatch
  split
  · split
    · exact .add _ _
    · exact runOrchestrated_records manifest t
  · split
    · exact .add _ _
    · split
      · exact runSingle_records t
      · exact .add _ _

/-- A test as the run dispatches it: what it raises is recorded as inconclusive. -/
def dispatched (t : T2Test) : Bench Unit :=
  Program.orElse (dispatch manifest t) (add t.slug .inconclusive)

theorem dispatched_returns (t : T2Test) (outside : Outside Command.Response)
    (history : List BenchCall) (suite : Suite) :
    (dispatched manifest t outside history suite).value = some () :=
  Program.orElse_returns fun _ _ => rfl

theorem dispatched_ensures (t : T2Test) (suite : Suite) :
    (dispatched manifest t).Ensures suite fun _ final _ =>
      ∃ status, final.results = suite.results ++ [(t.slug, status)] := by
  refine Program.Ensures.orElse ((dispatch_records manifest t suite).mono
    fun value middle _ recorded => ?_)
  cases value with
  | some value => exact recorded
  | none =>
      refine Program.Ensures.update ⟨.inconclusive, ?_⟩
      rw [show middle.results = suite.results from recorded]

/-- The tests dispatched are given one result each, in order. -/
theorem dispatchedAll_ensures (tests : List T2Test) (suite : Suite) :
    (Program.forEach tests (dispatched manifest)).Ensures suite fun _ final _ =>
      ∃ verdicts, final.results = suite.results ++ verdicts ∧
        verdicts.map Prod.fst = tests.map T2Test.slug := by
  induction tests generalizing suite with
  | nil => exact Program.Ensures.pure ⟨[], (List.append_nil _).symm, rfl⟩
  | cons t tests ih =>
      refine Program.Ensures.bind fun outside history => ?_
      rw [dispatched_returns]
      obtain ⟨status, recorded⟩ := dispatched_ensures manifest t suite outside history
      refine (ih _).mono fun _ final _ ⟨verdicts, more, named⟩ => ?_
      refine ⟨(t.slug, status) :: verdicts, ?_, ?_⟩
      · rw [more, recorded, List.append_assoc, List.singleton_append]
      · rw [List.map_cons, named, List.map_cons]

end

theorem silenceUsed_results (suite : Suite) :
    silenceUsed.Ensures suite fun _ final _ => ∃ (silenced : List (String × Status))
      (boards : List Board), final.results = suite.results ++ silenced ∧
        silenced.map Prod.fst = boards.map fun board => board.name ++ " -> " ++ idleApp := by
  refine Program.Ensures.bind (Program.Ensures.current ?_)
  refine Program.Ensures.bind ((goRadioSilent_ensures _ suite).mono
    fun value final _ ⟨same, _, _, named⟩ => ?_)
  subst same
  cases value with
  | none => exact ⟨[], [], (List.append_nil _).symm, rfl⟩
  | some silenced =>
      refine fun outside history => ⟨silenced, _, ?_, named silenced rfl⟩
      rw [adds_run]
      exact congrArg (final.results ++ ·) (List.map_id' silenced)

namespace OnAirRun

variable (onAir : OnAirRun)

/-- The unknown slugs hold each requested slug no test has, once. -/
theorem unknown_count (slug : String) :
    onAir.unknown.count slug =
      if slug ∈ onAir.tests ∧ slug ∉ onAir.catalogue.map T2Test.slug then 1 else 0 := by
  have distinct := (Foundation.nodup_eraseDups onAir.tests).filter fun slug =>
    slug ∉ onAir.catalogue.map T2Test.slug
  rw [unknown, (List.mergeSort_perm _ _).count_eq, distinct.count]
  simp only [List.mem_filter, List.mem_eraseDups, decide_eq_true_eq]

/-- One verdict for each test: behind the unknown slugs the run records one result for
each selected test, in order, and then the boards it has silenced; and every
selected test is dispatched, behind those before it. -/
structure OneVerdictEach [PortLookup] (outside : Outside Command.Response)
    (ended : Ended Command.Response Suite Unit) : Prop where
  unknownOnce : ∀ slug, onAir.unknown.count slug =
    if slug ∈ onAir.tests ∧ slug ∉ onAir.catalogue.map T2Test.slug then 1 else 0
  recorded : ∃ verdicts silenced,
    ended.state.results =
      onAir.unknown.map (fun slug => (slug, .fail)) ++ (verdicts ++ silenced) ∧
    verdicts.map Prod.fst = onAir.selected.map T2Test.slug ∧
    ∃ boards : List Board,
      silenced.map Prod.fst = boards.map fun board => board.name ++ " -> " ++ idleApp
  reached : ∀ before t after, onAir.selected = before ++ t :: after →
    ∃ history suite more,
      suite.results.map Prod.fst = onAir.unknown ++ before.map T2Test.slug ∧
      ended.calls = history ++ (dispatch onAir.manifest t outside history suite).calls ++ more

/-- The suite behind the unknown slugs. -/
def started : Suite :=
  { Suite.fresh with results := onAir.unknown.map fun slug => (slug, .fail) }

/-- Behind the unknown slugs each selected test is given one result, in order, before
the boards are silenced. -/
theorem testing_ensures [PortLookup] :
    (Program.ensuring (Program.forEach onAir.selected (dispatched onAir.manifest))
      silenceUsed).Ensures onAir.started fun _ final _ => ∃ verdicts silenced,
        final.results = onAir.unknown.map (fun slug => (slug, .fail)) ++ (verdicts ++ silenced) ∧
        verdicts.map Prod.fst = onAir.selected.map T2Test.slug ∧
        ∃ boards : List Board,
          silenced.map Prod.fst = boards.map fun board => board.name ++ " -> " ++ idleApp := by
  refine Program.Ensures.ensuring ((dispatchedAll_ensures onAir.manifest onAir.selected
    onAir.started).mono fun _ tested _ ⟨verdicts, recorded, named⟩ => ?_)
  refine (silenceUsed_results tested).mono fun _ final _ ⟨silenced, boards, last, boardNames⟩ => ?_
  refine ⟨verdicts, silenced, ?_, named, boards, boardNames⟩
  rw [last, recorded, List.append_assoc]
  rfl

variable [PortLookup] {onAir} (outside : Outside Command.Response) (wet : onAir.dryRun = false)

include wet

/-- A run that lacks its Linux peer ends before its tests. -/
theorem run_of_lacksLinux (lacks : onAir.lacksLinux = true) :
    onAir.run.run outside .fresh = ⟨none, onAir.started, []⟩ := by
  unfold run
  rw [wet, lacks]
  exact (Program.bind_of_returns (congrArg Ended.value (adds_run _ id _ _ _ _))).trans
    (by rw [adds_run _ id]; rfl)

variable (reaches : onAir.lacksLinux = false)

include reaches

theorem run_of_linux :
    onAir.run.run outside .fresh =
      Program.ensuring (Program.forEach onAir.selected (dispatched onAir.manifest)) silenceUsed
        outside [] onAir.started := by
  unfold run
  rw [wet, reaches]
  exact (Program.bind_of_returns (congrArg Ended.value (adds_run _ id _ _ _ _))).trans
    (by rw [adds_run _ id]; rfl)

/-- Every selected test is dispatched, behind those before it. -/
theorem run_reaches {before after : List T2Test} {t : T2Test}
    (order : onAir.selected = before ++ t :: after) :
    ∃ history suite more,
      suite.results.map Prod.fst = onAir.unknown ++ before.map T2Test.slug ∧
      (onAir.run.run outside .fresh).calls =
        history ++ (dispatch onAir.manifest t outside history suite).calls ++ more := by
  obtain ⟨later, looped⟩ := Program.forEach_reaches (dispatched_returns onAir.manifest) before t
    after outside [] onAir.started
  obtain ⟨verdicts, recorded, named⟩ :=
    dispatchedAll_ensures onAir.manifest before onAir.started outside []
  set front := Program.forEach before (dispatched onAir.manifest) outside [] onAir.started
  obtain ⟨handling, handled⟩ : (dispatch onAir.manifest t outside front.calls front.state).calls <+:
      (dispatched onAir.manifest t outside front.calls front.state).calls :=
    Program.orElse_prefix ..
  obtain ⟨silencing, ended⟩ := Program.ensuring_prefix
    (Program.forEach onAir.selected (dispatched onAir.manifest)) silenceUsed outside []
    onAir.started
  refine ⟨front.calls, front.state, handling ++ later ++ silencing, ?_, ?_⟩
  · rw [recorded, List.map_append, named, started, List.map_map]
    exact congrArg (· ++ _) (List.map_id' _)
  · rw [run_of_linux outside wet reaches, ← ended, order, looped, List.nil_append, ← handled]
    simp only [List.append_assoc]

omit reaches in
/-- However the bench behaves, a run that is not dry gives each selected test one result
and dispatches them all, unless it lacks its Linux peer and ends before any test. -/
theorem run_verdicts :
    (onAir.lacksLinux = true →
      onAir.run.run outside .fresh = ⟨none, onAir.started, []⟩) ∧
    (onAir.lacksLinux = false → onAir.OneVerdictEach outside (onAir.run.run outside .fresh)) :=
  ⟨run_of_lacksLinux outside wet, fun reaches =>
    { unknownOnce := onAir.unknown_count
      recorded := by
        rw [run_of_linux outside wet reaches]
        exact onAir.testing_ensures outside []
      reached := fun _ _ _ => run_reaches outside wet reaches }⟩

end OnAirRun

/-- The port lookup of a bench whose device directory cannot be read. -/
@[reducible] def unreadable : PortLookup := ⟨fun _ => Program.raise, fun _ => Only.composes.raise⟩

/-- Both the tests of an access point on a Linux peer and of one board are asked for, and
a slug that no test has. -/
def mixedRun (linuxKnown : Bool) : OnAirRun where
  manifest := ⟨["test-swccmp", "test-twt-assoc-sta"], [], fun _ => true, fun _ => none,
    linuxKnown, "chronite"⟩
  catalogue :=
    [⟨"twt-assoc",
      [{ meshPeer with name := "linux", linuxSetup := .hostapdAp },
        ⟨"sta", .board (some .board1), some "test-twt-assoc-sta", true, none, false, .unknown,
          by decide⟩], by decide⟩,
      ⟨"swccmp", [], by decide⟩]
  tests := ["swccmp", "twt-assoc", "twt-asoc"]
  dryRun := false
  linuxMac := none

/-- The lookup raises in both tests, and both are given their result. -/
theorem unreadable_verdicts :
    (mixedRun true).lacksLinux = false ∧
      @OnAirRun.OneVerdictEach (mixedRun true) unreadable neverMesh
        ((@OnAirRun.run (mixedRun true) unreadable).run neverMesh .fresh) :=
  ⟨by decide, (@OnAirRun.run_verdicts (mixedRun true) unreadable neverMesh rfl).2 (by decide)⟩

/-- Without a Linux peer the run ends with no result for either test. -/
theorem missingPeer_untested :
    ¬ ∀ (onAir : OnAirRun) (outside : Outside Command.Response), onAir.dryRun = false →
      onAir.OneVerdictEach outside (onAir.run.run outside .fresh) := by
  intro each
  obtain ⟨verdicts, silenced, results, named, -⟩ := (each (mixedRun false) neverMesh rfl).recorded
  rw [OnAirRun.run_of_lacksLinux neverMesh rfl (by decide)] at results
  have nothing : verdicts ++ silenced = [] := List.self_eq_append_right.mp results
  rw [(List.append_eq_nil_iff.mp nothing).1] at named
  exact absurd named (by decide)

end Rimba.Regtest
