import Rimba.Regtest.OnAir
import Rimba.Regtest.Silencing

/-! # Silence after the on-air tests

The boards a run has used are those to which a flash returned zero. They are
silenced at the end, in order of their names, up to the first flash that raises
(`Rimba.Regtest.onAirRun_ensures`, `Rimba.Regtest.onAir_leftSilent_iff`).
-/

namespace Rimba.Regtest

open Foundation (Outside Program)

/-- What some calls add to the boards a run has used: those to which a flash returns
zero; the idle app is not flashed. -/
structure Used (before after : List Board) (calls : List BenchCall) : Prop where
  used : ∀ board, board ∈ after ↔ board ∈ before ∨ flashSucceeds board calls = true
  busy : ∀ board, calls.any (flashesIdle board) = false

theorem Used.of_noFlash {boards : List Board} {calls : List BenchCall}
    (none : ∀ called ∈ calls, NoFlash called) : Used boards boards calls := by
  refine ⟨fun board => ?_, fun board => ?_⟩
  · have not : calls.any (flashesOther board) = false :=
      any_eq_false_of_forall fun called member => (none called member board).2
    rw [flashSucceeds_of_not_other not]
    exact ⟨.inl, fun either => either.resolve_right Bool.false_ne_true⟩
  · exact any_eq_false_of_forall fun called member => (none called member board).1

theorem Used.append {before middle after : List Board} {front back : List BenchCall}
    (first : Used before middle front) (second : Used middle after back) :
    Used before after (front ++ back) := by
  refine ⟨fun board => ?_, fun board => ?_⟩
  · rw [second.used, first.used, flashSucceeds_append, Bool.or_eq_true, or_assoc]
  · rw [List.any_append, first.busy, second.busy, Bool.or_false]

/-- What calls lead along, of the boards used. -/
abbrev UsesBoards (before after : Suite) (calls : List BenchCall) : Prop :=
  Used before.usedBoards after.usedBoards calls

theorem usesBoards_composes : Foundation.Composes UsesBoards where
  refl _ := .of_noFlash (List.forall_mem_nil _)
  trans _ _ _ _ _ first second := first.append second

theorem Only.uses {Value : Type} {program : Bench Value} (only : Only NoFlash program) :
    program.Follows UsesBoards := fun suite =>
  (only suite).mono fun _ _ _ ⟨same, calls⟩ => by
    rw [same]
    exact .of_noFlash calls

theorem update_uses {change : Suite → Suite}
    (same : ∀ suite, (change suite).usedBoards = suite.usedBoards) :
    (Program.update change : Bench Unit).Follows UsesBoards := fun suite =>
  Program.Ensures.update (by
    rw [UsesBoards, same]
    exact .of_noFlash (List.forall_mem_nil _))

/-- A flash of another app uses its board exactly when it returns zero. -/
theorem used_make {app : String} (other : app ≠ idleApp) (board : Board) (port : Option String)
    (answer : Option CompletedProcess) (boards : List Board) :
    Used boards (if succeeds ⟨.make app board port, answer⟩ then board :: boards else boards)
      [⟨.make app board port, answer⟩] := by
  refine ⟨fun target => ?_, fun target => by simp [other]⟩
  split
  · next success => simp [flashSucceeds, success, other, eq_comm, or_comm]
  · next failure => simp [flashSucceeds, failure]

theorem flash_uses {Value : Type} {app : Option String} {board : Board} {port : Option String}
    {failed next : Bench Value} (other : app ≠ some idleApp) (fails : failed.Follows UsesBoards)
    (goesOn : next.Follows UsesBoards) :
    (do
      let cp ← flash app board port
      if cp.returncode ≠ 0 then failed
      else
        useBoard board
        next).Follows UsesBoards := by
  intro suite
  cases app with
  | none => exact Program.Ensures.bind (Program.Ensures.raise (usesBoards_composes.refl suite))
  | some app =>
      have notIdle : app ≠ idleApp := fun same => other (congrArg some same)
      refine Program.Ensures.bind (make_ensures fun answer => ?_)
      have made := used_make notIdle board port answer suite.usedBoards
      cases answer with
      | none => exact made
      | some cp =>
          by_cases zero : cp.returncode = 0
          · rw [if_pos (by simp [succeeds, zero])] at made
            simp only [zero, ne_eq, not_true_eq_false, ↓reduceIte]
            refine Program.Ensures.bind (Program.Ensures.update ?_)
            exact (goesOn _).mono fun _ _ _ used => made.append used
          · rw [if_neg (by simp [succeeds, zero])] at made
            simp only [zero, ne_eq, not_false_eq_true, ↓reduceIte]
            exact (fails suite).mono fun _ _ _ used => made.append used

section

variable (manifest : Manifest)

theorem bringUpLinux_noFlash (role : Role) (host : String) :
    Only NoFlash (bringUpLinux manifest role host) := by
  have ssh : ∀ remote answer, NoFlash ⟨.ssh host remote, answer⟩ := fun _ _ _ => ⟨rfl, rfl⟩
  have reference : ∀ config answer, NoFlash ⟨.haveReference config, answer⟩ :=
    fun _ _ _ => ⟨rfl, rfl⟩
  have scp : ∀ config answer, NoFlash ⟨.scp host config, answer⟩ := fun _ _ _ => ⟨rfl, rfl⟩
  unfold bringUpLinux
  cases role.linuxSetup with
  | meshPeer => exact bringUpMesh_only ssh reference scp _
  | meshGate => exact bringUpGate_only ssh reference scp _
  | hostapdAp => exact bringUpAp_only ssh reference scp
  | unknown => exact .pure _

theorem onAir_uses : OnAirSteps manifest UsesBoards where
  composes := usesBoards_composes
  resolvePort _ := (resolvePort_only fun _ _ => ⟨rfl, rfl⟩).uses
  reachable _ := (reachable_only fun _ _ => ⟨rfl, rfl⟩).uses
  add _ _ := update_uses fun _ => rfl
  captureUntil _ _ _ := (captureUntil_only fun _ _ => ⟨rfl, rfl⟩).uses
  flash _ _ _ _ _ := flash_uses
  peer role host := usesBoards_composes.bind (bringUpLinux_noFlash manifest role host).uses fun _ =>
    usesBoards_composes.bind (update_uses fun _ => rfl) fun _ => usesBoards_composes.pure _

theorem tearDownPeers_noFlash : Only NoFlash tearDownPeers := by
  refine .bind .current fun suite => .forEach fun teardown _ => .orElse ?_ (.pure ())
  cases teardown with
  | radioSilence host => exact .bind (.sshRun fun _ _ => ⟨rfl, rfl⟩) fun _ => .pure ()
  | stopAp host => exact .bind (.sshRun fun _ _ => ⟨rfl, rfl⟩) fun _ => .pure ()

theorem dispatch_uses (t : T2Test) : (dispatch manifest t).Follows UsesBoards := by
  have steps := onAir_uses manifest
  unfold dispatch
  split
  · split
    · exact steps.add _ _
    · unfold runOrchestrated
      split
      · exact steps.add _ _
      · refine steps.composes.bind (steps.resolveRoles _ _ _) fun assign => ?_
        cases assign with
        | none => exact steps.add _ _
        | some assign =>
            refine steps.composes.bind (update_uses fun _ => rfl) fun _ => ?_
            exact steps.composes.ensuring (steps.runRoles t assign) tearDownPeers_noFlash.uses
  · split
    · exact steps.add _ _
    · split
      · exact steps.runSingle t
      · exact steps.add _ _

end

/-- Recording results calls nothing, and changes nothing else. -/
theorem adds_run {Item : Type} (items : List Item) (name : Item → String) (status : Item → Status)
    (outside : Outside Command.Response) (history : List BenchCall) (suite : Suite) :
    (Program.forEach items fun item => add (name item) (status item)) outside history suite =
      ⟨some (), { suite with
        results := suite.results ++ items.map fun item => (name item, status item) }, []⟩ := by
  induction items generalizing history suite with
  | nil =>
      rw [List.map_nil, List.append_nil]
      rfl
  | cons item items ih =>
      refine (Program.bind_of_returns rfl).trans ?_
      simp only [ih]
      rw [List.map_cons, ← List.singleton_append, ← List.append_assoc]
      rfl

theorem adds_ensures {Item : Type} (items : List Item) (name : Item → String)
    (status : Item → Status) (suite : Suite) :
    (Program.forEach items fun item => add (name item) (status item)).Ensures suite
      fun value final calls =>
        value = some () ∧ final.usedBoards = suite.usedBoards ∧ calls = [] := fun _ _ => by
  rw [adds_run]
  exact ⟨rfl, rfl, rfl⟩

theorem silenceUsed_ensures (suite : Suite) :
    silenceUsed.Ensures suite fun _ _ calls =>
      Silencing (Board.sorted.filter (· ∈ suite.usedBoards)) calls := by
  refine Program.Ensures.bind (Program.Ensures.current ?_)
  refine Program.Ensures.bind ((goRadioSilent_ensures _ suite).mono
    fun value final calls ⟨_, silencing, _, _⟩ => ?_)
  cases value with
  | none => exact silencing
  | some silenced =>
      refine (adds_ensures silenced Prod.fst Prod.snd final).mono fun _ _ more ⟨_, _, empty⟩ => ?_
      rw [empty, List.append_nil]
      exact silencing

/-- A run of the tier silences the boards it has used, and flashes other apps before
that only. -/
theorem onAirRun_ensures (onAir : OnAirRun) :
    onAir.run.Ensures .fresh fun _ _ calls => ∃ main silencing boards,
      calls = main ++ silencing ∧ Used [] boards main ∧
        Silencing (Board.sorted.filter (· ∈ boards)) silencing := by
  have steps := onAir_uses onAir.manifest
  have nothing : ∃ main silencing boards, ([] : List BenchCall) = main ++ silencing ∧
      Used [] boards main ∧ Silencing (Board.sorted.filter (· ∈ boards)) silencing :=
    ⟨[], [], [], rfl, Used.of_noFlash (List.forall_mem_nil _), .nil⟩
  refine Program.Ensures.bind ((adds_ensures onAir.unknown id (fun _ => .fail) .fresh).mono
    fun value middle calls ⟨returned, fresh, empty⟩ => ?_)
  subst returned empty
  dsimp only
  split
  · exact Program.Ensures.pure nothing
  · split
    · exact Program.Ensures.raise nothing
    · have dispatched : (Program.forEach onAir.selected fun t =>
          Program.orElse (dispatch onAir.manifest t) (add t.slug .inconclusive)).Follows
            UsesBoards :=
        steps.composes.forEach fun t _ =>
          steps.composes.orElse (dispatch_uses onAir.manifest t) (steps.add _ _)
      refine Program.Ensures.ensuring ((dispatched middle).mono fun _ final main used => ?_)
      refine (silenceUsed_ensures final).mono fun _ _ silencing made => ?_
      refine ⟨main, silencing, final.usedBoards, rfl, ?_, made⟩
      rw [UsesBoards, fresh] at used
      exact used

/-- What a run of the on-air tier must come to for a board it has flashed: a flash
returns zero, the board is enumerated when it is to be silenced, and no flash that
silences a board before it raises. -/
def OnAirSilences (calls : List BenchCall) (board : Board) : Prop :=
  flashSucceeds board calls = true ∧ (lastPort board calls).isSome = true ∧
    ∀ other ∈ Board.sorted.takeWhile (· ≠ board), idleRaises other calls = false

theorem mem_takeWhile_filter {Item : Type} [DecidableEq Item] (keep : Item → Bool) {item : Item}
    (kept : keep item = true) (items : List Item) (other : Item) :
    other ∈ (items.filter keep).takeWhile (· ≠ item) ↔
      other ∈ items.takeWhile (· ≠ item) ∧ keep other = true := by
  induction items with
  | nil => simp
  | cons first rest ih =>
      by_cases here : first = item
      · subst here
        simp [kept]
      · by_cases keeps : keep first = true
        · simp only [List.filter_cons_of_pos keeps, List.takeWhile_cons, ne_eq, here,
            not_false_eq_true, decide_true, ↓reduceIte, List.mem_cons, ih]
          constructor
          · rintro (rfl | ⟨within, kept⟩)
            · exact ⟨.inl rfl, keeps⟩
            · exact ⟨.inr within, kept⟩
          · rintro ⟨rfl | within, kept⟩
            · exact .inl rfl
            · exact .inr ⟨within, kept⟩
        · rw [List.filter_cons_of_neg keeps, ih]
          simp only [List.takeWhile_cons, ne_eq, here, not_false_eq_true, decide_true, ↓reduceIte,
            List.mem_cons]
          constructor
          · rintro ⟨within, kept⟩
            exact ⟨.inr within, kept⟩
          · rintro ⟨rfl | within, kept⟩
            · exact absurd kept keeps
            · exact ⟨within, kept⟩

theorem onAir_leftSilent_iff {main silencing : List BenchCall} {boards : List Board}
    (used : Used [] boards main)
    (silenced : Silencing (Board.sorted.filter (· ∈ boards)) silencing) :
    LeftSilent (main ++ silencing) ↔ ∀ board,
      (main ++ silencing).any (flashesOther board) = true →
        OnAirSilences (main ++ silencing) board := by
  rw [leftSilent_iff used.busy silenced.not_other]
  refine forall_congr' fun board => ?_
  rw [List.any_append, silenced.not_other board, Bool.or_false]
  refine imp_congr_right fun _ => ?_
  have success : flashSucceeds board (main ++ silencing) = flashSucceeds board main := by
    rw [flashSucceeds_append, flashSucceeds_of_not_other (silenced.not_other board), Bool.or_false]
  have raised : ∀ other, idleRaises other (main ++ silencing) = idleRaises other silencing := by
    intro other
    rw [idleRaises_append, idleRaises_of_busy (used.busy other), Bool.false_or]
  have isUsed : board ∈ boards ↔ flashSucceeds board main = true := by
    rw [used.used board]
    exact ⟨fun either => either.resolve_left List.not_mem_nil, .inr⟩
  simp only [OnAirSilences, success, raised]
  by_cases inUse : board ∈ boards
  · have member : board ∈ Board.sorted.filter (· ∈ boards) := by
      refine List.mem_filter.mpr ⟨?_, decide_eq_true inUse⟩
      cases board <;> decide
    have distinct : (Board.sorted.filter (· ∈ boards)).Nodup :=
      List.Nodup.filter _ (by decide)
    have inOrder := mem_takeWhile_filter (fun b => decide (b ∈ boards)) (decide_eq_true inUse)
      Board.sorted
    rw [silenced.reached_iff distinct member main]
    refine ⟨fun ⟨port, fine⟩ => ⟨isUsed.mp inUse, port, fun other before => ?_⟩,
      fun ⟨_, port, fine⟩ => ⟨port, fun other before => ?_⟩⟩
    · by_cases also : other ∈ boards
      · exact fine other ((inOrder other).mpr ⟨before, decide_eq_true also⟩)
      · exact silenced.not_idleRaises fun within =>
          also (of_decide_eq_true (List.mem_filter.mp within).2)
    · exact fine other ((inOrder other).mp before).1
  · have idle : silencing.any (flashesIdle board) = false := (silenced.untouched fun within =>
      inUse (of_decide_eq_true (List.mem_filter.mp within).2)).1
    rw [idle]
    exact ⟨fun impossible => absurd impossible Bool.false_ne_true,
      fun ⟨zero, _⟩ => absurd (isUsed.mpr zero) inUse⟩

end Rimba.Regtest
