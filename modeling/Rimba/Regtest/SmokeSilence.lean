import Rimba.Regtest.Smoke
import Rimba.Regtest.Silencing

/-! # Silence after the smoke test

The board is silenced behind the last app, which a flash that raises keeps a run from
reaching (`Rimba.Regtest.smokeRun_ensures`, `Rimba.Regtest.smoke_leftSilent_iff`).
-/

namespace Rimba.Regtest

open Foundation (Program)

/-- Some flash of another app to a board raises. -/
def otherRaises (board : Board) (calls : List BenchCall) : Bool :=
  calls.any fun called => flashesOther board called && raises called

/-- What a run of the smoke tier must come to for a board it has flashed: no flash of
an app raises, and the board is enumerated when it is to be silenced. -/
def SmokeSilences (calls : List BenchCall) (board : Board) : Prop :=
  otherRaises board calls = false ∧ (lastPort board calls).isSome = true

/-- The calls of flashing apps to one board, and whether a flash raises. -/
structure SmokeCalls (board : Board) (raised : Bool) (calls : List BenchCall) : Prop where
  busy : ∀ target, calls.any (flashesIdle target) = false
  only : ∀ target, target ≠ board → calls.any (flashesOther target) = false
  raised : otherRaises board calls = raised

theorem otherRaises_append (board : Board) (front back : List BenchCall) :
    otherRaises board (front ++ back) = (otherRaises board front || otherRaises board back) :=
  List.any_append

theorem otherRaises_of_not_other {board : Board} {calls : List BenchCall}
    (not : calls.any (flashesOther board) = false) : otherRaises board calls = false :=
  any_and_eq_false not

theorem SmokeCalls.of_noFlash (board : Board) {calls : List BenchCall}
    (none : ∀ called ∈ calls, NoFlash called) : SmokeCalls board false calls := by
  have other : ∀ target, calls.any (flashesOther target) = false := fun target =>
    any_eq_false_of_forall fun called member => (none called member target).2
  exact ⟨fun target => any_eq_false_of_forall fun called member => (none called member target).1,
    fun target _ => other target, otherRaises_of_not_other (other board)⟩

theorem SmokeCalls.append {board : Board} {raised : Bool} {front back : List BenchCall}
    (first : SmokeCalls board false front) (second : SmokeCalls board raised back) :
    SmokeCalls board raised (front ++ back) := by
  refine ⟨fun target => ?_, fun target other => ?_, ?_⟩
  · rw [List.any_append, first.busy, second.busy, Bool.or_false]
  · rw [List.any_append, first.only target other, second.only target other, Bool.or_false]
  · rw [otherRaises_append, first.raised, second.raised, Bool.false_or]

theorem smokeOne_ensures {app : App} (notIdle : app.name ≠ idleApp) (board : Board) (port : String)
    (suite : Suite) : (smokeOne app board port).Ensures suite fun value _ calls =>
      SmokeCalls board value.isNone calls := by
  have made : ∀ answer, SmokeCalls board answer.isNone
      [⟨.make app.name board (some port), answer⟩] := fun answer =>
    ⟨fun target => by simp [notIdle], fun target other => by simp [Ne.symm other],
      by simp [otherRaises, notIdle]⟩
  refine Program.Ensures.bind (make_ensures fun answer => ?_)
  cases answer with
  | none => exact made none
  | some cp =>
      dsimp only
      split
      · exact Program.Ensures.pure (made (some cp))
      · have captured : ∀ log, SmokeCalls board false
            ([⟨.make app.name board (some port), some cp⟩] ++
              [⟨.captureSerial board port, log⟩]) := fun log =>
          (made (some cp)).append (.of_noFlash board (List.forall_mem_singleton.mpr
            fun _ => ⟨rfl, rfl⟩))
        refine Program.Ensures.orElse (Program.Ensures.bind (Program.Ensures.call fun log =>
          Program.Ensures.bind (orRaise_ensures ?_)))
        cases log with
        | none => exact Program.Ensures.pure (captured none)
        | some log => exact Program.Ensures.pure (captured (some log))

theorem smokeAll_ensures {apps : List App} (notIdle : ∀ app ∈ apps, app.name ≠ idleApp)
    (board : Board) (port : String) (suite : Suite) :
    (Program.forEach apps fun app => smokeOne app board port).Ensures suite fun value _ calls =>
      SmokeCalls board value.isNone calls ∧ (apps = [] → calls = []) := by
  induction apps generalizing suite with
  | nil =>
      exact Program.Ensures.pure
        ⟨SmokeCalls.of_noFlash board (List.forall_mem_nil _), fun _ => rfl⟩
  | cons app apps ih =>
      obtain ⟨here, later⟩ := List.forall_mem_cons.mp notIdle
      refine Program.Ensures.bind ((smokeOne_ensures here board port suite).mono
        fun value middle calls smoked => ?_)
      cases value with
      | none => exact ⟨smoked, nofun⟩
      | some value =>
          exact (ih later middle).mono fun _ _ _ ⟨rest, _⟩ => ⟨smoked.append rest, nofun⟩

/-- One board is flashed, and silenced unless a flash raises or no app was to be flashed. -/
def SmokeEnds (calls : List BenchCall) : Prop :=
  ∃ main silencing board raised, calls = main ++ silencing ∧ SmokeCalls board raised main ∧
    ((silencing = [] ∧ (raised = true ∨ main.any (flashesOther board) = false)) ∨
      (raised = false ∧ Silencing [board] silencing))

theorem smokeRun_ensures (smoke : SmokeRun) (silent : smoke.keepRadioOn = false) :
    smoke.run.Ensures .fresh fun _ _ calls => SmokeEnds calls := by
  unfold SmokeRun.run
  cases smoke.board with
  | none =>
      exact Program.Ensures.pure ⟨[], [], .board0, false, rfl,
        SmokeCalls.of_noFlash _ (List.forall_mem_nil _), .inl ⟨rfl, .inr rfl⟩⟩
  | some board =>
      refine Program.Ensures.bind (resolvePort_ensures fun answer => ?_)
      have resolved : SmokeCalls board false [⟨.resolvePort board, answer⟩] :=
        .of_noFlash board (List.forall_mem_singleton.mpr fun _ => ⟨rfl, rfl⟩)
      cases answer with
      | none =>
          exact Program.Ensures.pure ⟨_, [], board, false, (List.append_nil _).symm, resolved,
            .inl ⟨rfl, .inr rfl⟩⟩
      | some port =>
          have notIdle : ∀ app ∈ smoke.candidates, app.name ≠ idleApp := fun app member =>
            smoke.candidate_ne_idle member
          refine Program.Ensures.bind ((smokeAll_ensures notIdle board port .fresh).mono
            fun value middle calls ⟨smoked, nothing⟩ => ?_)
          have main := resolved.append smoked
          cases value with
          | none =>
              exact ⟨_, [], board, true, (List.append_nil _).symm, main, .inl ⟨rfl, .inl rfl⟩⟩
          | some value =>
              dsimp only
              split
              · refine Program.Ensures.bind ((goRadioSilent_ensures [board] middle).mono
                  fun value final silencing ⟨_, made, _, _⟩ => ?_)
                have whole :
                    SmokeEnds ([⟨.resolvePort board, some port⟩] ++ (calls ++ silencing)) :=
                  ⟨_, silencing, board, false, (List.append_assoc _ _ _).symm, main,
                    .inr ⟨rfl, made⟩⟩
                cases value with
                | none => exact whole
                | some silenced => exact Program.Ensures.pure (by rw [List.append_nil]; exact whole)
              · next skipped =>
                  have empty : smoke.candidates = [] := by
                    simpa [silent] using skipped
                  refine Program.Ensures.pure ⟨_, [], board, false, ?_, main, .inl ⟨rfl, .inr ?_⟩⟩
                  · rw [List.append_nil, List.append_nil]
                  · rw [nothing empty]
                    rfl

theorem smoke_leftSilent_iff {calls : List BenchCall} (ends : SmokeEnds calls) :
    LeftSilent calls ↔ ∀ target, calls.any (flashesOther target) = true →
      SmokeSilences calls target := by
  obtain ⟨main, silencing, board, raised, rfl, smoked, ends⟩ := ends
  have idle : ∀ target, silencing.any (flashesOther target) = false := by
    intro target
    rcases ends with ⟨rfl, _⟩ | ⟨_, silenced⟩
    · rfl
    · exact silenced.not_other target
  rw [leftSilent_iff smoked.busy idle]
  refine forall_congr' fun target => ?_
  rw [List.any_append, idle target, Bool.or_false]
  refine imp_congr_right fun started => ?_
  have same : target = board := by
    by_contra other
    rw [smoked.only target other] at started
    exact Bool.false_ne_true started
  subst same
  rw [SmokeSilences, otherRaises_append, smoked.raised, otherRaises_of_not_other (idle target),
    Bool.or_false]
  rcases ends with ⟨rfl, raised | nothing⟩ | ⟨fine, silenced⟩
  · rw [raised, List.any_nil]
    exact ⟨fun impossible => absurd impossible Bool.false_ne_true,
      fun ⟨impossible, _⟩ => absurd impossible (by decide)⟩
  · exact absurd (nothing.symm.trans started) Bool.false_ne_true
  · rw [silenced.reached_iff (List.nodup_singleton _) List.mem_cons_self main]
    simp [fine]

end Rimba.Regtest
