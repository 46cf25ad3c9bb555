import Rimba.Regtest.LinuxPeer

/-! # What a bring-up hands over

A bring-up hands its caller a teardown only when it returns behind the point where
the peer has come up, so one that starts the radio is handed a teardown exactly when
every later step answers and the poll finds the peer up
(`Rimba.Regtest.bringUpMesh_hands`, `Rimba.Regtest.bringUpGate_hands`,
`Rimba.Regtest.bringUpAp_hands`).
-/

namespace Rimba.Regtest

open Foundation (Program)

/-- The teardown that the start of a radio calls for. -/
def startedRadio (called : BenchCall) : Option Teardown :=
  match called.command with
  | .ssh host .startMesh => some (.radioSilence host)
  | .ssh host .startAp => some (.stopAp host)
  | _ => none

/-- The teardown a command is. -/
def tornDown (called : BenchCall) : Option Teardown :=
  match called.command with
  | .ssh host .silence => some (.radioSilence host)
  | .ssh host .stopAp => some (.stopAp host)
  | _ => none

/-- Whether a step answers, from the start of a radio on, and a poll finds the peer up. -/
def settles : BenchCall → Bool
  | ⟨.ssh _ .startMesh, answer⟩ => answer.isSome
  | ⟨.ssh _ .startAp, answer⟩ => answer.isSome
  | ⟨.ssh _ .wlan1Mac, answer⟩ => answer.isSome
  | ⟨.ssh _ .setGate, answer⟩ => answer.isSome
  | ⟨.ssh _ (.pollMesh _), answer⟩ => answer.any fun cp => contains "MESHUP" cp.stdout
  | ⟨.ssh _ .pollAp, answer⟩ => answer.any fun cp => contains "APUP" cp.stdout
  | _ => true

/-- A call that has nothing to do with a radio's being on the air. -/
def Quiet (called : BenchCall) : Prop :=
  startedRadio called = none ∧ tornDown called = none ∧ settles called = true

/-- What a bring-up leaves: when every step settles, the teardown of the radio it
has started, and otherwise a radio and no teardown. -/
structure HandsOver (teardown : Option Teardown) (calls : List BenchCall) : Prop where
  untouched : calls.filterMap tornDown = []
  settled : calls.all settles = true → calls.filterMap startedRadio = teardown.toList
  stranded : calls.all settles = false →
    teardown = none ∧ (calls.filterMap startedRadio).length = 1

theorem quiet_append {front : List BenchCall} (quiet : ∀ called ∈ front, Quiet called)
    (back : List BenchCall) :
    (front ++ back).filterMap tornDown = back.filterMap tornDown ∧
      (front ++ back).filterMap startedRadio = back.filterMap startedRadio ∧
        (front ++ back).all settles = back.all settles := by
  have torn : front.filterMap tornDown = [] :=
    List.filterMap_eq_nil_iff.mpr fun called member => (quiet called member).2.1
  have started : front.filterMap startedRadio = [] :=
    List.filterMap_eq_nil_iff.mpr fun called member => (quiet called member).1
  have settled : front.all settles = true :=
    List.all_eq_true.mpr fun called member => (quiet called member).2.2
  rw [List.filterMap_append, List.filterMap_append, List.all_append, torn, started, settled]
  exact ⟨rfl, rfl, rfl⟩

/-- Quiet calls before a bring-up change nothing. -/
theorem HandsOver.behind {teardown : Option Teardown} {front back : List BenchCall}
    (quiet : ∀ called ∈ front, Quiet called) (hands : HandsOver teardown back) :
    HandsOver teardown (front ++ back) := by
  obtain ⟨torn, started, settled⟩ := quiet_append quiet back
  exact ⟨torn.trans hands.untouched, fun all => started.trans (hands.settled (settled ▸ all)),
    fun some => started ▸ hands.stranded (settled ▸ some)⟩

theorem HandsOver.nothing : HandsOver none [] := ⟨rfl, fun _ => rfl, fun some => by cases some⟩

theorem HandsOver.of_quiet {calls : List BenchCall} (quiet : ∀ called ∈ calls, Quiet called) :
    HandsOver none calls := by
  rw [← List.append_nil calls]
  exact HandsOver.nothing.behind quiet

theorem reachable_quiet (host : String) : Only Quiet (reachable host) :=
  reachable_only fun _ => ⟨rfl, rfl, rfl⟩

theorem ensureConfig_quiet (host : String) (config : PeerConfig) :
    Only Quiet (ensureConfig host config) :=
  ensureConfig_only (fun _ => ⟨rfl, rfl, rfl⟩) (fun _ => ⟨rfl, rfl, rfl⟩) fun _ => ⟨rfl, rfl, rfl⟩

/-- A bring-up hands over the teardown of the radio it starts exactly when every
step settles; one that is up has handed a teardown. -/
def Hands (program : Bench BroughtUp) : Prop :=
  ∀ suite, program.Ensures suite fun value final calls =>
    final = suite ∧ HandsOver (value.bind BroughtUp.teardown) calls ∧
      ∀ up, value = some up → up.ok = true → up.teardown.isSome = true

theorem Hands.refused (detail : String) : Hands (pure ⟨false, detail, none⟩) := fun _ =>
  Program.Ensures.pure ⟨rfl, .nothing, fun up same ok => by
    cases same
    cases ok⟩

theorem Hands.behind {Value : Type} {program : Bench Value} {later : Value → Bench BroughtUp}
    (first : Only Quiet program) (rest : ∀ value, Hands (later value)) :
    Hands (program >>= later) := by
  intro suite
  refine Program.Ensures.bind ((first suite).mono fun value middle calls ⟨same, quiet⟩ => ?_)
  subst same
  cases value with
  | none => exact ⟨rfl, .of_quiet quiet, fun up same => by cases same⟩
  | some value =>
      exact (rest value middle).mono fun _ _ _ ⟨unchanged, hands, up⟩ =>
        ⟨unchanged, hands.behind quiet, up⟩

/-- The calls behind which a radio is up and its teardown still to be handed over. -/
structure IsUp (teardown : Teardown) (calls : List BenchCall) : Prop where
  untouched : calls.filterMap tornDown = []
  settled : calls.all settles = true
  started : calls.filterMap startedRadio = [teardown]

/-- The calls behind which a radio has been started and some step has not settled. -/
structure IsStranded (calls : List BenchCall) : Prop where
  untouched : calls.filterMap tornDown = []
  unsettled : calls.all settles = false
  started : (calls.filterMap startedRadio).length = 1

/-- The calls of a step behind the start of a radio, and whether it settles. -/
structure IsStep (settled : Bool) (calls : List BenchCall) : Prop where
  untouched : calls.filterMap tornDown = []
  outcome : calls.all settles = settled
  started : calls.filterMap startedRadio = []

theorem IsStranded.handsOver {calls : List BenchCall} (stranded : IsStranded calls) :
    HandsOver none calls :=
  ⟨stranded.untouched, fun all => absurd (stranded.unsettled.symm.trans all) Bool.false_ne_true,
    fun _ => ⟨rfl, stranded.started⟩⟩

theorem IsUp.handsOver {teardown : Teardown} {calls : List BenchCall} (up : IsUp teardown calls) :
    HandsOver (some teardown) calls :=
  ⟨up.untouched, fun _ => up.started,
    fun some => absurd (some.symm.trans up.settled) Bool.false_ne_true⟩

/-- Whoever is handed a teardown has a radio that is up. -/
theorem HandsOver.isUp {teardown : Teardown} {calls : List BenchCall}
    (hands : HandsOver (some teardown) calls) : IsUp teardown calls := by
  have settled : calls.all settles = true := by
    by_contra unsettled
    cases (hands.stranded (Bool.eq_false_iff.mpr unsettled)).1
  exact ⟨hands.untouched, settled, hands.settled settled⟩

theorem IsUp.step {teardown : Teardown} {calls more : List BenchCall} (up : IsUp teardown calls)
    (step : IsStep true more) : IsUp teardown (calls ++ more) where
  untouched := by rw [List.filterMap_append, up.untouched, step.untouched, List.append_nil]
  settled := by rw [List.all_append, up.settled, step.outcome, Bool.and_self]
  started := by rw [List.filterMap_append, up.started, step.started, List.append_nil]

theorem IsUp.fail {teardown : Teardown} {calls more : List BenchCall} (up : IsUp teardown calls)
    (step : IsStep false more) : IsStranded (calls ++ more) where
  untouched := by rw [List.filterMap_append, up.untouched, step.untouched, List.append_nil]
  unsettled := by rw [List.all_append, up.settled, step.outcome, Bool.true_and]
  started := by rw [List.filterMap_append, up.started, step.started, List.append_nil,
    List.length_singleton]

/-- A step of a radio that cannot be put right leaves it as it is. -/
theorem IsStranded.step {settled : Bool} {calls more : List BenchCall}
    (stranded : IsStranded calls) (step : IsStep settled more) : IsStranded (calls ++ more) where
  untouched := by rw [List.filterMap_append, stranded.untouched, step.untouched, List.append_nil]
  unsettled := by rw [List.all_append, stranded.unsettled, Bool.false_and]
  started := by rw [List.filterMap_append, step.started, List.append_nil, stranded.started]

theorem IsStep.single {called : BenchCall} (unstarted : startedRadio called = none)
    (untorn : tornDown called = none) : IsStep (settles called) [called] where
  untouched := List.filterMap_cons_none untorn
  outcome := List.all_cons.trans (Bool.and_true _)
  started := List.filterMap_cons_none unstarted

theorem IsUp.single {called : BenchCall} {teardown : Teardown}
    (starts : startedRadio called = some teardown) (untorn : tornDown called = none)
    (settled : settles called = true) : IsUp teardown [called] where
  untouched := List.filterMap_cons_none untorn
  settled := List.all_cons.trans ((Bool.and_true _).trans settled)
  started := List.filterMap_cons_some starts

theorem IsStranded.single {called : BenchCall} {teardown : Teardown}
    (starts : startedRadio called = some teardown) (untorn : tornDown called = none)
    (unsettled : settles called = false) : IsStranded [called] where
  untouched := List.filterMap_cons_none untorn
  unsettled := List.all_cons.trans ((Bool.and_true _).trans unsettled)
  started := congrArg List.length (List.filterMap_cons_some starts)

theorem startRadio_ensures {host up : String} {start poll tail : Remote} {teardown : Teardown}
    (starts : ∀ answer, startedRadio ⟨.ssh host start, answer⟩ = some teardown ∧
      tornDown ⟨.ssh host start, answer⟩ = none ∧ settles ⟨.ssh host start, answer⟩ = answer.isSome)
    (polls : ∀ answer, startedRadio ⟨.ssh host poll, answer⟩ = none ∧
      tornDown ⟨.ssh host poll, answer⟩ = none ∧
        settles ⟨.ssh host poll, answer⟩ = answer.any fun cp => contains up cp.stdout)
    (tails : ∀ answer, Quiet ⟨.ssh host tail, answer⟩) (suite : Suite) :
    (startRadio host start poll tail up).Ensures suite fun value final calls =>
      final = suite ∧ if value = some none then IsUp teardown calls else IsStranded calls := by
  refine Program.Ensures.bind (sshRun_ensures fun started => ?_)
  obtain ⟨isStart, startTorn, startSettles⟩ := starts started
  cases started with
  | none =>
      refine ⟨rfl, ?_⟩
      rw [if_neg nofun]
      exact .single isStart startTorn startSettles
  | some started =>
      have begun : IsUp teardown [⟨.ssh host start, some started⟩] :=
        .single isStart startTorn startSettles
      refine Program.Ensures.bind (sshRun_ensures fun polled => ?_)
      obtain ⟨pollStart, pollTorn, pollSettles⟩ := polls polled
      have step := IsStep.single pollStart pollTorn
      rw [pollSettles] at step
      cases polled with
      | none =>
          refine ⟨rfl, ?_⟩
          rw [if_neg nofun]
          exact begun.fail step
      | some polled =>
          rw [Option.any_some] at step
          by_cases found : contains up polled.stdout = true
          · rw [found] at step
            simp only [found, ↓reduceIte]
            refine Program.Ensures.pure ⟨rfl, ?_⟩
            rw [if_pos rfl]
            exact begun.step step
          · rw [Bool.eq_false_iff.mpr found] at step
            have stranded : ∀ log, IsStranded ([⟨.ssh host start, some started⟩] ++
                ([⟨.ssh host poll, some polled⟩] ++ [⟨.ssh host tail, log⟩])) := by
              intro log
              obtain ⟨tailStart, tailTorn, -⟩ := tails log
              exact (begun.fail step).step (.single tailStart tailTorn)
            simp only [found, Bool.false_eq_true, ↓reduceIte]
            refine Program.Ensures.bind (sshRun_ensures fun log => ?_)
            cases log with
            | none =>
                refine ⟨rfl, ?_⟩
                rw [if_neg nofun]
                exact stranded none
            | some log =>
                refine Program.Ensures.pure ⟨rfl, ?_⟩
                rw [if_neg nofun]
                exact stranded (some log)

theorem IsStep.nil : IsStep true [] := ⟨rfl, rfl, rfl⟩

theorem IsStep.wlan1Mac (host : String) (answer : Option CompletedProcess) :
    IsStep answer.isSome [⟨.ssh host .wlan1Mac, answer⟩] :=
  @IsStep.single ⟨.ssh host .wlan1Mac, answer⟩ rfl rfl

theorem IsStep.setGate (host : String) (answer : Option CompletedProcess) :
    IsStep answer.isSome [⟨.ssh host .setGate, answer⟩] :=
  @IsStep.single ⟨.ssh host .setGate, answer⟩ rfl rfl

theorem meshMacMatches_ensures (nodes : LinuxNodes) (host : String) (suite : Suite) :
    (meshMacMatches nodes host).Ensures suite fun value final calls =>
      final = suite ∧ IsStep value.isSome calls := by
  unfold meshMacMatches
  cases nodes host with
  | none => exact Program.Ensures.pure ⟨rfl, .nil⟩
  | some node =>
      by_cases unknown : node.meshMac = ""
      · simp only [unknown, ↓reduceIte]
        exact Program.Ensures.pure ⟨rfl, .nil⟩
      · simp only [unknown, ↓reduceIte]
        refine Program.Ensures.bind (Program.Ensures.bind (sshRun_ensures fun answer => ?_))
        cases answer with
        | none => exact ⟨rfl, .wlan1Mac host none⟩
        | some cp =>
            refine Program.Ensures.pure ?_
            dsimp only
            split
            · exact Program.Ensures.pure ⟨rfl, .wlan1Mac host (some cp)⟩
            · split
              · exact Program.Ensures.pure ⟨rfl, .wlan1Mac host (some cp)⟩
              · exact Program.Ensures.pure ⟨rfl, .wlan1Mac host (some cp)⟩

/-- What becomes of a bring-up behind the start of its radio. -/
theorem Hands.of_started (teardown : Teardown) {start : Bench (Option CompletedProcess)}
    (starts : ∀ suite, start.Ensures suite fun value final calls =>
      final = suite ∧ if value = some none then IsUp teardown calls else IsStranded calls)
    {down : CompletedProcess → String} {further : Bench BroughtUp}
    (goesOn : ∀ suite calls, IsUp teardown calls → further.Ensures suite fun value final more =>
      final = suite ∧ HandsOver (value.bind BroughtUp.teardown) (calls ++ more) ∧
        ∀ up, value = some up → up.ok = true → up.teardown.isSome = true) :
    Hands (start >>= fun
      | some log => pure ⟨false, down log, none⟩
      | none => further) := by
  intro suite
  refine Program.Ensures.bind ((starts suite).mono fun value final calls ⟨same, outcome⟩ => ?_)
  subst same
  rcases value with _ | _ | log
  · rw [if_neg nofun] at outcome
    exact ⟨rfl, outcome.handsOver, nofun⟩
  · rw [if_pos rfl] at outcome
    exact goesOn final calls outcome
  · rw [if_neg nofun] at outcome
    refine Program.Ensures.pure ⟨rfl, ?_, fun up same ok => by cases same; cases ok⟩
    rw [List.append_nil]
    exact outcome.handsOver

theorem bringUpAp_hands (host : String) : Hands (bringUpAp host) := by
  refine .behind (reachable_quiet host) fun up => ?_
  cases up with
  | false => exact .refused _
  | true =>
      refine .behind (ensureConfig_quiet host .ap) fun pushed => ?_
      cases pushed with
      | false => exact .refused _
      | true =>
          refine .of_started (.stopAp host)
            (startRadio_ensures (fun _ => ⟨rfl, rfl, rfl⟩) (fun _ => ⟨rfl, rfl, rfl⟩)
              fun _ => ⟨rfl, rfl, rfl⟩) fun suite calls isUp => ?_
          refine Program.Ensures.pure ⟨rfl, (isUp.step .nil).handsOver, fun up same _ => ?_⟩
          cases same
          rfl

theorem bringUpMesh_hands (nodes : LinuxNodes) (host : String) :
    Hands (bringUpMesh nodes host) := by
  refine .behind (reachable_quiet host) fun up => ?_
  cases up with
  | false => exact .refused _
  | true =>
      simp only [Bool.not_true, Bool.false_eq_true, ↓reduceIte]
      cases nodes host with
      | none => exact .refused _
      | some node =>
          refine .behind (ensureConfig_quiet host .mesh) fun pushed => ?_
          cases pushed with
          | false => exact .refused _
          | true =>
              refine .of_started (.radioSilence host)
                (startRadio_ensures (fun _ => ⟨rfl, rfl, rfl⟩) (fun _ => ⟨rfl, rfl, rfl⟩)
                  fun _ => ⟨rfl, rfl, rfl⟩) fun suite calls isUp => ?_
              refine Program.Ensures.bind ((meshMacMatches_ensures nodes host suite).mono
                fun value final more ⟨same, step⟩ => ?_)
              subst same
              cases value with
              | none => exact ⟨rfl, (isUp.fail step).handsOver, nofun⟩
              | some matched =>
                  refine Program.Ensures.pure ⟨rfl, ?_, fun up same _ => ?_⟩
                  · rw [List.append_nil]
                    exact (isUp.step step).handsOver
                  · cases same
                    rfl

theorem bringUpGate_hands (nodes : LinuxNodes) (host : String) :
    Hands (bringUpGate nodes host) := by
  intro suite
  refine Program.Ensures.bind ((bringUpMesh_hands nodes host suite).mono
    fun value final calls ⟨same, hands, up⟩ => ?_)
  subst same
  cases value with
  | none => exact ⟨rfl, hands, nofun⟩
  | some mesh =>
      by_cases ok : mesh.ok = true
      · obtain ⟨teardown, handed⟩ := Option.isSome_iff_exists.mp (up mesh rfl ok)
        rw [Option.bind_some, handed] at hands
        have isUp := hands.isUp
        simp only [ok, Bool.not_true, Bool.false_eq_true, ↓reduceIte]
        refine Program.Ensures.bind (sshRun_ensures fun gate => ?_)
        have step := IsStep.setGate host gate
        cases gate with
        | none => exact ⟨rfl, (isUp.fail step).handsOver, nofun⟩
        | some gate =>
            have kept := (isUp.step step).handsOver
            rw [← handed] at kept
            dsimp only
            split
            · refine Program.Ensures.pure ⟨rfl, ?_, fun up same ok => by cases same; cases ok⟩
              rw [List.append_nil]
              exact kept
            · refine Program.Ensures.pure ⟨rfl, ?_, fun up same _ => ?_⟩
              · rw [List.append_nil]
                exact kept
              · cases same
                rw [handed]
                rfl
      · simp only [Bool.eq_false_iff.mpr ok, Bool.not_false, ↓reduceIte]
        refine Program.Ensures.pure ⟨rfl, ?_, fun up same ok' => by cases same; exact absurd ok' ok⟩
        rw [List.append_nil]
        exact hands

end Rimba.Regtest
