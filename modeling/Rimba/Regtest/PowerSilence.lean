import Rimba.Regtest.Power
import Rimba.Regtest.Silencing

/-! # Silence after the power ladder

The DUT is silenced however the measuring ended. The access point's board is silenced
behind it, when the teardown was set, which it is behind the marker
(`Rimba.Regtest.powerRun_ensures`, `Rimba.Regtest.power_leftSilent_iff`).
-/

namespace Rimba.Regtest

open Foundation (Program)

/-- A capture of the access point's console finds its marker. -/
def findsMarker : BenchCall → Bool
  | ⟨.captureUntil board _ _, answer⟩ =>
      board = powerEspApBoard && answer.any fun captured => captured.2
  | _ => false

/-- What a run of the power tier must come to for a board it has flashed: the board
is enumerated when it is to be silenced, and for the access point, its flash returns
zero, its marker is seen, and no flash that silences the DUT raises. -/
def PowerSilences (calls : List BenchCall) (board : Board) : Prop :=
  (lastPort board calls).isSome = true ∧
    (board = powerEspApBoard → flashSucceeds powerEspApBoard calls = true ∧
      calls.any findsMarker = true ∧ idleRaises powerDutBoard calls = false)

/-- A call that has nothing to do with the access point's board. -/
def Aside (called : BenchCall) : Prop :=
  (∀ board, flashesIdle board called = false) ∧
    (∀ board, board ≠ powerDutBoard → flashesOther board called = false) ∧
      findsMarker called = false

/-- What measuring comes to: the access point's teardown is that of an ESP board
exactly when its flash returns zero and its marker is seen. -/
structure Measured (teardown : Option ApTeardown) (calls : List BenchCall) : Prop where
  busy : ∀ board, calls.any (flashesIdle board) = false
  only : calls.any (flashesOther .board1) = false
  handed : teardown = some .esp ↔
    flashSucceeds powerEspApBoard calls = true ∧ calls.any findsMarker = true

theorem aside_append {front : List BenchCall} (aside : ∀ called ∈ front, Aside called)
    (back : List BenchCall) :
    (∀ board, (front ++ back).any (flashesIdle board) = back.any (flashesIdle board)) ∧
      (∀ board, board ≠ powerDutBoard →
        (front ++ back).any (flashesOther board) = back.any (flashesOther board) ∧
          flashSucceeds board (front ++ back) = flashSucceeds board back) ∧
        (front ++ back).any findsMarker = back.any findsMarker := by
  have other : ∀ board, board ≠ powerDutBoard → front.any (flashesOther board) = false :=
    fun board notDut =>
      any_eq_false_of_forall fun called member => (aside called member).2.1 board notDut
  refine ⟨fun board => ?_, fun board notDut => ⟨?_, ?_⟩, ?_⟩
  · have idle : front.any (flashesIdle board) = false :=
      any_eq_false_of_forall fun called member => (aside called member).1 board
    rw [List.any_append, idle, Bool.false_or]
  · rw [List.any_append, other board notDut, Bool.false_or]
  · rw [flashSucceeds_append, flashSucceeds_of_not_other (other board notDut), Bool.false_or]
  · have marker : front.any findsMarker = false :=
      any_eq_false_of_forall fun called member => (aside called member).2.2
    rw [List.any_append, marker, Bool.false_or]

theorem Measured.behind {teardown : Option ApTeardown} {front back : List BenchCall}
    (aside : ∀ called ∈ front, Aside called) (measured : Measured teardown back) :
    Measured teardown (front ++ back) := by
  obtain ⟨idle, other, marker⟩ := aside_append aside back
  refine ⟨fun board => (idle board).trans (measured.busy board),
    ((other .board1 (by decide)).1).trans measured.only, ?_⟩
  rw [(other powerEspApBoard (by decide)).2, marker]
  exact measured.handed

theorem Measured.before {teardown : Option ApTeardown} {front back : List BenchCall}
    (measured : Measured teardown front) (aside : ∀ called ∈ back, Aside called) :
    Measured teardown (front ++ back) := by
  obtain ⟨idle, other, marker⟩ := aside_append aside []
  simp only [List.append_nil, List.any_nil] at idle other marker
  refine ⟨fun board => ?_, ?_, ?_⟩
  · rw [List.any_append, measured.busy, idle, Bool.or_false]
  · rw [List.any_append, measured.only, (other .board1 (by decide)).1, Bool.or_false]
  · have nothing : flashSucceeds powerEspApBoard [] = false := rfl
    rw [flashSucceeds_append, (other powerEspApBoard (by decide)).2, List.any_append, marker,
      nothing, Bool.or_false, Bool.or_false]
    exact measured.handed

theorem Measured.of_aside {calls : List BenchCall} {teardown : Option ApTeardown}
    (notEsp : teardown ≠ some .esp) (aside : ∀ called ∈ calls, Aside called) :
    Measured teardown calls := by
  have nothing : Measured teardown [] :=
    ⟨fun _ => rfl, rfl, fun esp => absurd esp notEsp, fun ⟨impossible, _⟩ =>
      absurd impossible Bool.false_ne_true⟩
  rw [← List.append_nil calls]
  exact nothing.behind aside

/-- The flash of the access point's board on its own. -/
theorem measured_make {teardown : Option ApTeardown} (notEsp : teardown ≠ some .esp)
    (port : Option String) (answer : Option CompletedProcess) :
    Measured teardown [⟨.make powerEspApApp powerEspApBoard port, answer⟩] := by
  refine ⟨fun board => ?_, ?_, ?_⟩
  · simp [powerEspApApp, idleApp]
  · simp [powerEspApBoard]
  · exact ⟨fun esp => absurd esp notEsp, fun ⟨_, impossible⟩ =>
      absurd impossible Bool.false_ne_true⟩

/-- The flash of the access point's board, when it returns zero, and the capture of
its console. -/
theorem measured_capture {teardown : Option ApTeardown} {cp : CompletedProcess}
    (zero : cp.returncode = 0) {port : Option String} {marker : String}
    {answer : Option (List Char × Bool)}
    (handed : teardown = some .esp ↔ (answer.any fun captured => captured.2) = true) :
    Measured teardown ([⟨.make powerEspApApp powerEspApBoard port, some cp⟩] ++
      [⟨.captureUntil powerEspApBoard port marker, answer⟩]) := by
  refine ⟨fun board => ?_, ?_, ?_⟩
  · simp [powerEspApApp, idleApp, flashesIdle]
  · simp [powerEspApBoard, flashesOther]
  · rw [handed]
    simp [flashSucceeds, succeeds, findsMarker, zero, powerEspApApp, idleApp]

theorem bringUpEspAp_ensures (suite : Suite) (fresh : suite.apTeardown = none) :
    bringUpEspAp.Ensures suite fun _ final calls => Measured final.apTeardown calls := by
  have notEsp : suite.apTeardown ≠ some .esp := by
    rw [fresh]
    nofun
  have resolved : ∀ answer, ∀ called ∈ [(⟨.resolvePort powerEspApBoard, answer⟩ : BenchCall)],
      Aside called := fun answer =>
    List.forall_mem_singleton.mpr ⟨fun _ => rfl, fun _ _ => rfl, rfl⟩
  refine Program.Ensures.bind (resolvePort_ensures fun answer => ?_)
  cases answer with
  | none => exact Program.Ensures.pure (.of_aside notEsp (resolved none))
  | some port =>
      refine Program.Ensures.bind (make_ensures fun made => ?_)
      cases made with
      | none => exact (measured_make notEsp _ _).behind (resolved _)
      | some cp =>
          by_cases zero : cp.returncode = 0
          · simp only [zero, ne_eq, not_true_eq_false, ↓reduceIte]
            refine Program.Ensures.bind (Program.Ensures.bind (Program.Ensures.call fun answer =>
              orRaise_ensures ?_))
            rcases answer with _ | ⟨log, up⟩
            · exact (measured_capture zero ⟨fun esp => absurd esp notEsp,
                fun seen => by cases seen⟩).behind (resolved _)
            · cases up with
              | false =>
                  exact Program.Ensures.pure ((measured_capture zero
                    ⟨fun esp => absurd esp notEsp, fun seen => by cases seen⟩).behind
                      (resolved _))
              | true =>
                  refine Program.Ensures.bind (Program.Ensures.update (Program.Ensures.pure ?_))
                  exact (measured_capture zero ⟨fun _ => rfl, fun _ => rfl⟩).behind (resolved _)
          · simp only [zero, ne_eq, not_false_eq_true, ↓reduceIte]
            exact Program.Ensures.pure ((measured_make notEsp _ _).behind (resolved _))

theorem bringUpLinuxAp_ensures (host : String) (suite : Suite) (fresh : suite.apTeardown = none) :
    (bringUpLinuxAp host).Ensures suite fun _ final calls => Measured final.apTeardown calls := by
  have aside : Only Aside (bringUpAp host) := bringUpAp_only
    (fun _ _ => ⟨fun _ => rfl, fun _ _ => rfl, rfl⟩)
    (fun _ _ => ⟨fun _ => rfl, fun _ _ => rfl, rfl⟩)
    fun _ _ => ⟨fun _ => rfl, fun _ _ => rfl, rfl⟩
  refine Program.Ensures.bind ((aside suite).mono fun value middle calls ⟨same, each⟩ => ?_)
  subst same
  cases value with
  | none => exact .of_aside (by rw [fresh]; nofun) each
  | some up =>
      refine Program.Ensures.bind (Program.Ensures.update (Program.Ensures.pure ?_))
      rw [List.append_nil, List.append_nil]
      refine .of_aside ?_ each
      cases up.teardown with
      | none => nofun
      | some teardown => nofun

theorem ppk2_only {holds : BenchCall → Prop} {operation : Ppk2}
    (each : ∀ answer, holds ⟨.ppk2 operation, answer⟩) : Only holds (ppk2 operation) :=
  .bind (.call each) .orRaise

theorem awaitDut_only {holds : BenchCall → Prop}
    (each : ∀ answer, holds ⟨.resolvePort powerDutBoard, answer⟩) (tries : ℕ) :
    Only holds (awaitDut tries) := by
  induction tries with
  | zero => exact .pure none
  | succ tries ih =>
      refine .bind (resolvePort_only each) fun port => ?_
      cases port with
      | some port => exact .pure _
      | none => exact ih

theorem sampleLadder_aside (dutPort : String) : Only Aside (PowerRun.sampleLadder dutPort) := by
  refine .bind (make_only fun _ => ⟨fun board => ?_, fun board notDut => ?_, rfl⟩) fun cp => ?_
  · simp [powerDutApp, idleApp]
  · simp [Ne.symm notDut]
  · split
    · exact .pure ()
    · exact .bind (ppk2_only fun _ => ⟨fun _ => rfl, fun _ _ => rfl, rfl⟩) fun _ =>
        .bind (.call fun _ => ⟨fun _ => rfl, fun _ _ => rfl, rfl⟩) fun _ =>
          .bind (.orRaise _) fun _ => ppk2_only fun _ => ⟨fun _ => rfl, fun _ _ => rfl, rfl⟩

theorem Measured.behind_only {Value Other : Type} {program : Bench Value}
    {later : Value → Bench Other} {suite : Suite} (fresh : suite.apTeardown = none)
    (aside : Only Aside program) (rest : ∀ value, (later value).Ensures suite
      fun _ final calls => Measured final.apTeardown calls) :
    (program >>= later).Ensures suite fun _ final calls => Measured final.apTeardown calls := by
  refine Program.Ensures.bind ((aside suite).mono fun value middle calls ⟨same, each⟩ => ?_)
  subst same
  cases value with
  | none => exact .of_aside (by rw [fresh]; nofun) each
  | some value => exact (rest value).mono fun _ _ _ measured => measured.behind each

theorem measure_ensures (power : PowerRun) (suite : Suite) (fresh : suite.apTeardown = none) :
    power.measure.Ensures suite fun _ final calls => Measured final.apTeardown calls := by
  have notEsp : suite.apTeardown ≠ some .esp := by
    rw [fresh]
    nofun
  refine .behind_only fresh (ppk2_only fun _ => ⟨fun _ => rfl, fun _ _ => rfl, rfl⟩) fun _ =>
    .behind_only fresh (ppk2_only fun _ => ⟨fun _ => rfl, fun _ _ => rfl, rfl⟩) fun _ =>
      .behind_only fresh (awaitDut_only (fun _ => ⟨fun _ => rfl, fun _ _ => rfl, rfl⟩) 60)
        fun dutPort => ?_
  cases dutPort with
  | none => exact Program.Ensures.pure (.of_aside notEsp (List.forall_mem_nil _))
  | some dutPort =>
      have accessPoint : power.bringUpAccessPoint.Ensures suite fun _ final calls =>
          Measured final.apTeardown calls := by
        unfold PowerRun.bringUpAccessPoint
        cases power.linuxAp with
        | none => exact bringUpEspAp_ensures suite fresh
        | some host => exact bringUpLinuxAp_ensures host suite fresh
      refine Program.Ensures.bind (accessPoint.mono fun value middle calls measured => ?_)
      cases value with
      | none => exact measured
      | some up =>
          dsimp only
          split
          · exact (sampleLadder_aside dutPort middle).mono fun _ _ _ ⟨same, each⟩ => by
              rw [same]
              exact measured.before each
          · exact Program.Ensures.pure (by rw [List.append_nil]; exact measured)

/-- A call that resolves no port, flashes nothing and captures nothing. -/
def Inert (called : BenchCall) : Prop :=
  NoFlash called ∧ (∀ board, portAnswer board called = none) ∧ findsMarker called = false

theorem Inert.aside {called : BenchCall} (inert : Inert called) : Aside called :=
  ⟨fun board => (inert.1 board).1, fun board _ => (inert.1 board).2, inert.2.2⟩

theorem inert_nil : ∀ called ∈ ([] : List BenchCall), Inert called :=
  List.forall_mem_nil _

/-- What follows the silencing of the DUT: when it raises, nothing, and otherwise the
access point's teardown. -/
def EndsPower (teardown : Option ApTeardown) (dut rest : List BenchCall) : Prop :=
  if idleRaises powerDutBoard dut then rest = []
  else if teardown = some .esp then ∃ accessPoint inert, rest = accessPoint ++ inert ∧
    Silencing [powerEspApBoard] accessPoint ∧ ∀ called ∈ inert, Inert called
  else ∀ called ∈ rest, Inert called

theorem invoke_inert (teardown : Teardown) :
    Only Inert (Program.orElse teardown.invoke (pure ())) := by
  refine .orElse ?_ (.pure ())
  cases teardown with
  | radioSilence host =>
      exact .bind (.sshRun fun _ => ⟨fun _ => ⟨rfl, rfl⟩, fun _ => rfl, rfl⟩) fun _ => .pure ()
  | stopAp host =>
      exact .bind (.sshRun fun _ => ⟨fun _ => ⟨rfl, rfl⟩, fun _ => rfl, rfl⟩) fun _ => .pure ()

theorem ppk2_inert (operation : Ppk2) : Only Inert (ppk2 operation) :=
  ppk2_only fun _ => ⟨fun _ => ⟨rfl, rfl⟩, fun _ => rfl, rfl⟩

/-- With the access point's teardown that of an ESP board, its board is silenced. -/
theorem tearDownAp_ensures (suite : Suite) :
    PowerRun.tearDownAp.Ensures suite fun _ _ calls =>
      if suite.apTeardown = some .esp then Silencing [powerEspApBoard] calls
      else ∀ called ∈ calls, Inert called := by
  refine Program.Ensures.bind (Program.Ensures.current ?_)
  rcases teardown : suite.apTeardown with _ | _ | linux
  · simp only [teardown, reduceCtorEq, ↓reduceIte]
    exact Program.Ensures.pure inert_nil
  · simp only [teardown, ↓reduceIte]
    refine Program.Ensures.orElse (Program.Ensures.bind ((goRadioSilent_ensures _ suite).mono
      fun value final calls ⟨_, silenced, _, _⟩ => ?_))
    cases value with
    | none => exact Program.Ensures.pure (by rw [List.append_nil]; exact silenced)
    | some results => exact Program.Ensures.pure (by rw [List.append_nil]; exact silenced)
  · simp only [teardown, Option.some.injEq, reduceCtorEq, ↓reduceIte]
    exact (invoke_inert linux suite).mono fun _ _ _ ⟨_, each⟩ => each

/-- What the teardown of the power tier calls: it stops the sampler, silences the DUT,
and goes on from there. -/
def TearsDown (teardown : Option ApTeardown) (calls : List BenchCall) : Prop :=
  ∃ stop dut rest, calls = stop ++ (dut ++ rest) ∧ (∀ called ∈ stop, Inert called) ∧
    Silencing [powerDutBoard] dut ∧ EndsPower teardown dut rest

theorem raises_of_singleton {board : Board} {calls : List BenchCall}
    (silencing : Silencing [board] calls) : calls.any raises = idleRaises board calls := by
  cases silencing with
  | absent rest =>
      cases rest
      rfl
  | flashed rest =>
      cases rest
      simp [idleRaises]
  | raised => simp [idleRaises]

/-- A program whose exceptions are swallowed returns. -/
theorem swallowed_ensures {holds : BenchCall → Prop} {program : Bench Unit}
    (only : Only holds program) (suite : Suite) :
    (program.orElse (pure ())).Ensures suite fun value final calls =>
      value = some () ∧ final = suite ∧ ∀ called ∈ calls, holds called := by
  refine Program.Ensures.orElse ((only suite).mono fun value final calls ⟨same, each⟩ => ?_)
  cases value with
  | some value => exact ⟨rfl, same, each⟩
  | none => exact Program.Ensures.pure ⟨rfl, same, by rw [List.append_nil]; exact each⟩

theorem tearDown_ensures (suite : Suite) :
    PowerRun.tearDown.Ensures suite fun _ _ calls => TearsDown suite.apTeardown calls := by
  refine Program.Ensures.bind ((swallowed_ensures (ppk2_inert .stop) suite).mono
    fun value middle stop ⟨returned, same, inert⟩ => ?_)
  subst returned same
  refine Program.Ensures.bind ((goRadioSilent_ensures _ middle).mono
    fun value final dut ⟨same, silenced, raised, _⟩ => ?_)
  subst same
  rw [raises_of_singleton silenced] at raised
  cases value with
  | none =>
      exact ⟨stop, dut, [], by rw [List.append_nil], inert, silenced, by
        rw [EndsPower, raised, Option.isNone_none, if_pos rfl]⟩
  | some results =>
      refine Program.Ensures.bind ((tearDownAp_ensures final).mono fun value last torn ends => ?_)
      have fine : idleRaises powerDutBoard dut = false := raised
      have ended : ∀ close : List BenchCall, (∀ called ∈ close, Inert called) →
          TearsDown final.apTeardown (stop ++ (dut ++ (torn ++ close))) := by
        intro close closing
        refine ⟨stop, dut, torn ++ close, rfl, inert, silenced, ?_⟩
        rw [EndsPower, fine, if_neg Bool.false_ne_true]
        split
        · next esp =>
            rw [if_pos esp] at ends
            exact ⟨torn, close, rfl, ends, closing⟩
        · next other =>
            rw [if_neg other] at ends
            exact List.forall_mem_append.mpr ⟨ends, closing⟩
      cases value with
      | none =>
          have whole := ended [] inert_nil
          rw [List.append_nil] at whole
          exact whole
      | some value =>
          exact (swallowed_ensures (ppk2_inert .close) last).mono
            fun _ _ close ⟨_, _, closing⟩ => ended close closing

/-- A run of the tier measures, and tears down what it has set up. -/
theorem powerRun_ensures (power : PowerRun) :
    power.run.Ensures .fresh fun _ _ calls => (∀ called ∈ calls, Inert called) ∨
      ∃ main ending teardown, calls = main ++ ending ∧ Measured teardown main ∧
        TearsDown teardown ending := by
  have found : ∀ (command : Command) (answer : command.Response),
      (command = .findPpk2 ∨ command = .importPpk2) → Inert ⟨command, answer⟩ := by
    rintro command answer (rfl | rfl)
    · exact ⟨fun _ => ⟨rfl, rfl⟩, fun _ => rfl, rfl⟩
    · exact ⟨fun _ => ⟨rfl, rfl⟩, fun _ => rfl, rfl⟩
  unfold PowerRun.run
  split
  · exact Program.Ensures.pure (.inl inert_nil)
  · refine Program.Ensures.bind (Program.Ensures.call fun present => ?_)
    have first := List.forall_mem_singleton.mpr (found .findPpk2 present (.inl rfl))
    dsimp only
    split
    · exact Program.Ensures.pure (.inl first)
    · refine Program.Ensures.bind (Program.Ensures.call fun importable => ?_)
      have second := List.forall_mem_singleton.mpr (found .importPpk2 importable (.inr rfl))
      have both : ∀ called ∈ ([⟨.findPpk2, present⟩] ++ [⟨.importPpk2, importable⟩] :
          List BenchCall), Inert called := List.forall_mem_append.mpr ⟨first, second⟩
      dsimp only
      split
      · exact Program.Ensures.pure (.inl both)
      · refine Program.Ensures.bind (Program.Ensures.update ?_)
        refine Program.Ensures.ensuring ((measure_ensures power _ rfl).mono
          fun _ final main measured => ?_)
        refine (tearDown_ensures final).mono fun _ _ ending torn => .inr ⟨
          [⟨.findPpk2, present⟩] ++ ([⟨.importPpk2, importable⟩] ++ main), ending,
          final.apTeardown, ?_, ?_, torn⟩
        · simp only [List.nil_append, List.append_assoc]
        · exact (measured.behind fun called member => (second called member).aside).behind
            fun called member => (first called member).aside

/-- Calls that flash nothing but the idle app, and capture nothing. -/
structure Trailing (calls : List BenchCall) : Prop where
  other : ∀ board, calls.any (flashesOther board) = false
  marker : calls.any findsMarker = false

theorem Trailing.append {front back : List BenchCall} (first : Trailing front)
    (second : Trailing back) : Trailing (front ++ back) := by
  refine ⟨fun board => ?_, ?_⟩
  · rw [List.any_append, first.other, second.other, Bool.or_false]
  · rw [List.any_append, first.marker, second.marker, Bool.or_false]

theorem Silencing.trailing {boards : List Board} {calls : List BenchCall}
    (silencing : Silencing boards calls) : Trailing calls := by
  refine ⟨silencing.not_other, ?_⟩
  induction silencing with
  | nil => rfl
  | absent _ ih => exact ih
  | flashed _ ih => exact ih
  | raised => rfl

section

variable {calls : List BenchCall} (inert : ∀ called ∈ calls, Inert called)

include inert

theorem trailing_of_inert : Trailing calls :=
  ⟨fun board => any_eq_false_of_forall fun called member => ((inert called member).1 board).2,
    any_eq_false_of_forall fun called member => (inert called member).2.2⟩

theorem untouched_of_inert (board : Board) :
    calls.any (flashesIdle board) = false ∧ calls.filterMap (portAnswer board) = [] := by
  constructor
  · exact any_eq_false_of_forall fun called member => ((inert called member).1 board).1
  · exact List.filterMap_eq_nil_iff.mpr fun called member => (inert called member).2.1 board

end

/-- Nothing behind the silencing of the DUT touches it. -/
theorem EndsPower.dut_untouched {teardown : Option ApTeardown} {dut rest : List BenchCall}
    (ends : EndsPower teardown dut rest) :
    rest.any (flashesIdle powerDutBoard) = false ∧
      rest.filterMap (portAnswer powerDutBoard) = [] := by
  unfold EndsPower at ends
  split at ends
  · subst ends
    exact ⟨rfl, rfl⟩
  · split at ends
    · obtain ⟨accessPoint, inert, rfl, silenced, each⟩ := ends
      obtain ⟨idle, ports⟩ := silenced.untouched (show powerDutBoard ∉ [powerEspApBoard] by decide)
      obtain ⟨idleAfter, portsAfter⟩ := untouched_of_inert each powerDutBoard
      rw [List.any_append, List.filterMap_append, idle, ports, idleAfter, portsAfter]
      exact ⟨rfl, rfl⟩
    · exact untouched_of_inert ends powerDutBoard

theorem EndsPower.trailing {teardown : Option ApTeardown} {dut rest : List BenchCall}
    (ends : EndsPower teardown dut rest) : Trailing rest := by
  unfold EndsPower at ends
  split at ends
  · subst ends
    exact trailing_of_inert inert_nil
  · split at ends
    · obtain ⟨accessPoint, inert, rfl, silenced, each⟩ := ends
      exact silenced.trailing.append (trailing_of_inert each)
    · exact trailing_of_inert ends

/-- The access point's board is silenced exactly when its teardown was set, no flash
that silences the DUT raises, and it is enumerated. -/
theorem EndsPower.silences_iff {teardown : Option ApTeardown} {dut rest : List BenchCall}
    (ends : EndsPower teardown dut rest) (front : List BenchCall) :
    rest.any (flashesIdle powerEspApBoard) = true ↔
      idleRaises powerDutBoard dut = false ∧ teardown = some .esp ∧
        (lastPort powerEspApBoard (front ++ rest)).isSome = true := by
  unfold EndsPower at ends
  split at ends
  · next raised =>
      subst ends
      simp [raised]
  · next fine =>
      rw [Bool.not_eq_true] at fine
      split at ends
      · next esp =>
          obtain ⟨accessPoint, inert, rfl, silenced, each⟩ := ends
          obtain ⟨idle, ports⟩ := untouched_of_inert each powerEspApBoard
          have reached := silenced.reached_iff (List.nodup_singleton _) List.mem_cons_self front
          have last : lastPort powerEspApBoard (front ++ (accessPoint ++ inert)) =
              lastPort powerEspApBoard (front ++ accessPoint) := by
            rw [← List.append_assoc, lastPort_append ports]
          rw [List.any_append, idle, Bool.or_false, reached, last]
          simp [fine, esp]
      · next other =>
          rw [(untouched_of_inert ends powerEspApBoard).1]
          simp [other]

section

variable {teardown : Option ApTeardown} {dut rest : List BenchCall}
  (silenced : Silencing [powerDutBoard] dut) (ends : EndsPower teardown dut rest)
  (front : List BenchCall)

include silenced ends

/-- The DUT is silenced when it is enumerated. -/
theorem EndsPower.silences_dut_iff :
    (dut ++ rest).any (flashesIdle powerDutBoard) = true ↔
      (lastPort powerDutBoard (front ++ (dut ++ rest))).isSome = true := by
  obtain ⟨idle, ports⟩ := ends.dut_untouched
  have last : lastPort powerDutBoard (front ++ (dut ++ rest)) =
      lastPort powerDutBoard (front ++ dut) := by
    rw [← List.append_assoc, lastPort_append ports]
  have reached := silenced.reached_iff (List.nodup_singleton _) List.mem_cons_self front
  rw [List.any_append, idle, Bool.or_false, last, reached]
  simp

/-- The calls that silence the DUT do not touch the access point's board. -/
theorem EndsPower.silences_ap_iff :
    (dut ++ rest).any (flashesIdle powerEspApBoard) = true ↔
      idleRaises powerDutBoard dut = false ∧ teardown = some .esp ∧
        (lastPort powerEspApBoard (front ++ (dut ++ rest))).isSome = true := by
  have dutAside : dut.any (flashesIdle powerEspApBoard) = false :=
    (silenced.untouched (by decide)).1
  rw [List.any_append, dutAside, Bool.false_or, ← List.append_assoc]
  exact ends.silences_iff (front ++ dut)

end

theorem power_leftSilent_iff {main ending : List BenchCall} {teardown : Option ApTeardown}
    (measured : Measured teardown main) (torn : TearsDown teardown ending) :
    LeftSilent (main ++ ending) ↔ ∀ board, (main ++ ending).any (flashesOther board) = true →
      PowerSilences (main ++ ending) board := by
  obtain ⟨stop, dut, rest, rfl, inert, silenced, ends⟩ := torn
  have trailing : Trailing (dut ++ rest) := silenced.trailing.append ends.trailing
  have stopped := (trailing_of_inert inert).append trailing
  have busy : ∀ board, (main ++ stop).any (flashesIdle board) = false := by
    intro board
    rw [List.any_append, measured.busy, (untouched_of_inert inert board).1, Bool.or_false]
  have raised : idleRaises powerDutBoard (main ++ stop ++ (dut ++ rest)) =
      idleRaises powerDutBoard dut := by
    rw [idleRaises_append, idleRaises_of_busy (busy _), idleRaises_append,
      idleRaises_of_busy ends.dut_untouched.1, Bool.false_or, Bool.or_false]
  have handed : teardown = some .esp ↔
      flashSucceeds powerEspApBoard (main ++ stop ++ (dut ++ rest)) = true ∧
        (main ++ stop ++ (dut ++ rest)).any findsMarker = true := by
    rw [List.append_assoc, flashSucceeds_append, flashSucceeds_of_not_other (stopped.other _),
      List.any_append, stopped.marker, Bool.or_false, Bool.or_false]
    exact measured.handed
  have never : (main ++ stop).any (flashesOther .board1) = false := by
    rw [List.any_append, measured.only, (trailing_of_inert inert).other, Bool.or_false]
  rw [← List.append_assoc, leftSilent_iff busy trailing.other]
  refine forall_congr' fun board => ?_
  have others : (main ++ stop ++ (dut ++ rest)).any (flashesOther board) =
      (main ++ stop).any (flashesOther board) := by
    rw [List.any_append, trailing.other board, Bool.or_false]
  rw [others]
  refine imp_congr_right fun started => ?_
  rw [PowerSilences, raised]
  cases board with
  | board0 =>
      refine (ends.silences_ap_iff silenced (main ++ stop)).trans ?_
      rw [handed]
      constructor
      · exact fun ⟨fine, ⟨zero, seen⟩, port⟩ => ⟨port, fun _ => ⟨zero, seen, fine⟩⟩
      · intro ⟨port, accessPoint⟩
        obtain ⟨zero, seen, fine⟩ := accessPoint rfl
        exact ⟨fine, ⟨zero, seen⟩, port⟩
  | board1 => exact absurd (never.symm.trans started) Bool.false_ne_true
  | board2 =>
      refine (ends.silences_dut_iff silenced (main ++ stop)).trans ?_
      have notAp : Board.board2 ≠ powerEspApBoard := by decide
      exact (and_iff_left fun same => absurd same notAp).symm

/-- A run that flashes nothing leaves every board as it was. -/
theorem leftSilent_of_inert {calls : List BenchCall} (inert : ∀ called ∈ calls, Inert called)
    (silences : Board → Prop) :
    LeftSilent calls ↔ ∀ board, calls.any (flashesOther board) = true → silences board := by
  have nothing := (trailing_of_inert inert).other
  constructor
  · intro _ board started
    exact absurd ((nothing board).symm.trans started) Bool.false_ne_true
  · rintro _ board front called back rfl other
    have started : (front ++ called :: back).any (flashesOther board) = true :=
      List.any_eq_true.mpr ⟨called, by simp, other⟩
    exact absurd ((nothing board).symm.trans started) Bool.false_ne_true

end Rimba.Regtest
