import Rimba.ApGate.Stations
import Rimba.Report.Fixture

/-! # The restart arm of the AP gate

`hw_restart_arm_task` of `firmware/test-mesh-ap-gate` forces a chip restart under a live
access point and judges whether a station was restored across it, while
`ap_sta_status_cb` goes on in another task, between any two of its reads. A verdict about
the restore is earned (`Rimba.ApGate.Earned`): the restart was forced and counted, and one
station was tracked from before it up to the verdict, or one was authorized behind the last
look at the count of authorizations (`Rimba.ApGate.restartArm_recorded`).
-/

namespace Rimba.ApGate

open Foundation
open Rimba.Gate (Mac ApStaStatus)
open Rimba.Regtest
open Rimba.Report

inductive Question where
  /-- How many writes `ap_sta_status_cb` has made since the last look. -/
  | writes
  | newSession
  /-- A read of `s_ping_done`. -/
  | pingDone
  /-- A read of `s_ping_ok`. -/
  | pingOk
  /-- `hw_restart_counter`, when `mmwlan_get_umac_stats` succeeds. -/
  | hwRestartCounter
  /-- `mmwlan_force_hw_restart`, and whether it succeeds. -/
  | forceHwRestart
  /-- A read of `g_ap_tx`. -/
  | apTx

abbrev Answer : Question → Type
  | .writes | .pingOk => ℕ
  | .newSession | .pingDone | .forceHwRestart => Bool
  | .hwRestartCounter => Option UInt16
  | .apTx => UInt32

/-- How far `ap_sta_status_cb` has come, how far it had come when the arm read what its
verdict rests on, and what the arm read of the chip. -/
structure ArmMemory where
  position : ℕ
  authBefore : ℕ
  authAfter : ℕ
  judged : ℕ
  rstBefore : ℤ
  rstAfter : ℤ
  pingAfter : ℕ

def ArmMemory.start : ArmMemory := ⟨0, 0, 0, 0, 0, 0, 0⟩

abbrev ArmProgram (Value : Type) := Reporting Answer ArmMemory Value

/-- Read a variable of the callback. -/
def look (reports : List ApStaStatus) (read : Stations → ℕ) : ArmProgram ℕ := do
  let more : ℕ ← ask Question.writes
  note fun memory => { memory with position := memory.position + more }
  let state ← Program.current
  pure (read (stationsAt reports state.memory.position))

/-- A read of `s_sta_n`. -/
def staN (reports : List ApStaStatus) : ArmProgram ℕ := look reports fun stations =>
  stations.macs.length

/-- A read of `s_auth_events`. -/
def authEvents (reports : List ApStaStatus) : ArmProgram ℕ := look reports Stations.authEvents

/-- `STA_WAIT_S` -/
def staWait : ℕ := 70

/-- `SETTLE_S` -/
def settle : ℕ := 20

/-- `RECOVER_WAIT_S` -/
def recoverWait : ℕ := 45

/-- `PING_COUNT` -/
def pingCount : ℕ := 5

/-- `STA_IP` -/
def staIp : String := "192.168.12.2"

/-- `BCAST_IP` -/
def bcastIp : String := "192.168.12.255"

/-- `BCAST_PERIOD_MS` -/
def bcastPeriodMs : ℕ := 200

/-- The name of the fixture in its END line. -/
def armName : String := "mesh-ap-gate"

/-- The steps of the arm. -/
inductive Step where
  | staBefore
  | dataBefore
  | restartRan
  | dataAfter

def Step.text : Step → String
  | .staBefore => "sta-before"
  | .dataBefore => "data-before"
  | .restartRan => "restart-ran"
  | .dataAfter => "data-after"

def Step.name (step : Step) : StepName := .of step.text (by cases step <;> decide +kernel)

/-- `TEST_STEP` -/
def testStep (step : Step) (ok : Bool) (detail : String) : ArmProgram Unit :=
  testLine (.step step.name ok (plainText detail))

/-- `TEST_INFO("bcast|...")` -/
def infoBcast (text : String) : ArmProgram Unit := testTagged "bcast" (by decide) text

/-- `TEST_INFO("restart-trigger|...")` -/
def infoTrigger (text : String) : ArmProgram Unit := testTagged "restart-trigger" (by decide) text

/-- `TEST_INFO("assoc-churn|...")` -/
def infoChurn (text : String) : ArmProgram Unit := testTagged "assoc-churn" (by decide) text

/-- Look for a client once a second; the seconds waited. -/
def awaitClient (reports : List ApStaStatus) : ℕ → ℕ → ArmProgram ℕ
  | 0, waited => do
      let _n : ℕ ← staN reports
      pure waited
  | left + 1, waited => do
      let n : ℕ ← staN reports
      if n = 0 then awaitClient reports left (waited + 1) else pure waited

/-- `ping_sta` -/
def pingSta (count : ℕ) : ArmProgram ℕ := do
  let created : Bool ← ask Question.newSession
  if !created then pure 0
  else do
    askUntil .pingDone id (count * 3 + 10)
    let shown : ℕ ← ask Question.pingOk
    testInfo s!"ping {staIp}: {shown}/{count} replies"
    let replies : ℕ ← ask Question.pingOk
    pure replies

/-- `hw_restart_count` -/
def hwRestartCount : ArmProgram ℤ := do
  let counter : Option UInt16 ← ask Question.hwRestartCounter
  pure ((counter.map fun count => (count.toNat : ℤ)).getD (-1))

/-- Wait out the restart, and say how it goes every ten seconds. -/
def recover (reports : List ApStaStatus) : ℕ → ℕ → ArmProgram Unit
  | 0, _ => pure ()
  | left + 1, i => do
      (if i % 10 = 9 then do
        let restarts : ℤ ← hwRestartCount
        let stas : ℕ ← staN reports
        let events : ℕ ← authEvents reports
        let tx : UInt32 ← ask Question.apTx
        let second := i + 1
        testInfo (s!"  +{second}s since restart: hw_restart_counter={restarts} ap_stas={stas} " ++
          s!"assoc_events={events} ap_tx={tx}")
      else pure ())
      recover reports left (i + 1)

/-- The verdict of the arm. Each use of `s_sta_n` reads it again. -/
def judgeRestart (reports : List ApStaStatus) (rstBefore rstAfter : ℤ)
    (authBefore authAfter pingBefore pingAfter : ℕ) : ArmProgram (Option ReportedVerdict) := do
  let restarted : Bool := 0 ≤ rstBefore && rstBefore < rstAfter
  let reassociated : Bool := authBefore < authAfter
  if !restarted then
    finish armName .inconclusive
      (s!"hw_restart_counter did not advance ({rstBefore} -> {rstAfter}): the trigger " ++
        "returned SUCCESS but the queued event never reached the handler. Nothing here is a " ++
        "verdict on recovery -- fix the trigger first")
  else if reassociated then
    finish armName .inconclusive
      ("the chip restarted and the AP is serving clients again " ++
        s!"({pingAfter}/{pingCount} replies), but the client RE-ASSOCIATED during the outage " ++
        s!"({authBefore} -> {authAfter} association events). That ping crossed a FRESH " ++
        "association, so it does NOT verify the per-STA restore -- a working AP would pass " ++
        "this either way. Probe A (the group-key PN train, scored off air) is unaffected and " ++
        "is the verdict for this run")
  else do
    let clients : ℕ ← staN reports
    note fun memory => { memory with judged := memory.position }
    if clients = 0 then do
      let tracked : ℕ ← staN reports
      finish armName .inconclusive
        (s!"the chip restarted ({rstBefore} -> {rstAfter}) but the client is GONE: it " ++
          "deauthed during the outage and had not come back by the end of the run " ++
          s!"({tracked} client(s) tracked, {authAfter} association event(s), " ++
          s!"{pingAfter}/{pingCount} replies). Nothing was left for the per-STA restore to " ++
          "act on, so this says nothing about it either way -- it is not a firmware failure. " ++
          "Probe A (the group-key PN train) is unaffected")
    else if pingAfter = 0 then do
      let tracked : ℕ ← staN reports
      finish armName .fail
        (s!"the chip restarted ({rstBefore} -> {rstAfter}), the client is still associated " ++
          s!"({tracked} tracked) and did NOT re-associate, so its chip station entry and " ++
          "pairwise key are exactly what umac_ap_handle_hw_restarted() re-pushed -- and no " ++
          s!"traffic crosses it: {pingBefore}/{pingCount} replies before, " ++
          s!"{pingAfter}/{pingCount} after. The per-STA restore is broken. Check the console " ++
          "for 'AP: restore sta_state ... FAILED' or 'AP: reinstall keychain FAILED'")
    else
      finish armName .pass
        (s!"the chip restarted ({rstBefore} -> {rstAfter}), the client held its association " ++
          s!"THROUGH the outage ({authAfter} association events, unchanged), and traffic " ++
          s!"crosses it: {pingAfter}/{pingCount} replies after vs {pingBefore}/{pingCount} " ++
          "before. The per-STA chip entry and pairwise key were genuinely restored. " ++
          "Cross-check probe A off air for the group key")

/-- What the arm does behind the restart. -/
def scoreRestart (reports : List ApStaStatus) (rstBefore : ℤ) (authBefore pingBefore : ℕ) :
    ArmProgram (Option ReportedVerdict) := do
  recover reports recoverWait 0
  let rstAfter : ℤ ← hwRestartCount
  note fun memory => { memory with rstAfter := rstAfter }
  testStep .restartRan (0 ≤ rstBefore && rstBefore < rstAfter)
    s!"hw_restart_counter {rstBefore} -> {rstAfter}"
  let pingAfter : ℕ ← pingSta pingCount
  note fun memory => { memory with pingAfter := pingAfter }
  let authAfter : ℕ ← authEvents reports
  note fun memory => { memory with authAfter := memory.position }
  testStep .dataAfter (0 < pingAfter)
    s!"{pingAfter}/{pingCount} replies (was {pingBefore}/{pingCount} before)"
  let churn := if authBefore < authAfter then
      "the client RE-ASSOCIATED, so the after-ping does not test the restore"
    else "no re-association: the after-ping crosses the RESTORED association"
  infoChurn (s!"{authBefore} association event(s) before the restart, {authAfter} after -- " ++
    churn)
  judgeRestart reports rstBefore rstAfter authBefore authAfter pingBefore pingAfter

/-- What the arm does once traffic has crossed. -/
def triggerRestart (reports : List ApStaStatus) (pingBefore : ℕ) :
    ArmProgram (Option ReportedVerdict) := do
  testInfo s!"settling {settle}s to build the off-air PN baseline"
  let authBefore : ℕ ← authEvents reports
  note fun memory => { memory with authBefore := memory.position }
  let rstBefore : ℤ ← hwRestartCount
  note fun memory => { memory with rstBefore := rstBefore }
  infoBcast
    "switching the group train to its post-restart payload length (the capture's marker)"
  let up : ℕ ← staN reports
  infoTrigger (s!"hw_restart_counter={rstBefore}, {up} client(s) up, {authBefore} association " ++
    "event(s) so far")
  let forced : Bool ← ask Question.forceHwRestart
  if !forced then
    finish armName .inconclusive
      ("mmwlan_force_hw_restart() refused -- the WLAN subsystem is not active, so no restart " ++
        "happened and nothing is measured")
  else scoreRestart reports rstBefore authBefore pingBefore

/-- `hw_restart_arm_task` -/
def hwRestartArmTask (reports : List ApStaStatus) : ArmProgram (Option ReportedVerdict) := do
  infoBcast
    (s!"group-addressed train started to {bcastIp} ({bcastPeriodMs} ms) -- probe A reads its " ++
      "CCMP PN off air")
  let waited ← awaitClient reports staWait 0
  let before : ℕ ← staN reports
  let shown : ℕ ← staN reports
  let events : ℕ ← authEvents reports
  testStep .staBefore (0 < before)
    (s!"{shown} client(s) authorized after {waited}s ({events} association event(s))")
  let clients : ℕ ← staN reports
  if clients = 0 then
    finish armName .inconclusive
      (s!"no client associated to the AP within {staWait}s, so the per-STA restore has " ++
        "nothing to act on. Probe A (the group-key PN train) is still valid -- read the " ++
        "capture -- but probe B says nothing this run")
  else do
    let pingBefore : ℕ ← pingSta pingCount
    testStep .dataBefore (0 < pingBefore)
      s!"{pingBefore}/{pingCount} replies from the client across the AP link"
    if pingBefore = 0 then
      finish armName .inconclusive
        ("no traffic crossed the AP link BEFORE the restart, so a post-restart failure would " ++
          "say nothing about recovery. Fix the rig and re-run")
    else triggerRestart reports pingBefore

/-- A verdict about the restore is earned. -/
structure Earned (reports : List ApStaStatus) (memory : ArmMemory) (verdict : ReportedVerdict) :
    Prop where
  counted : 0 ≤ memory.rstBefore ∧ memory.rstBefore < memory.rstAfter
  ordered : memory.authBefore ≤ memory.authAfter ∧ memory.authAfter ≤ memory.judged
  held : HeldThrough reports memory.authBefore memory.judged ∨
    LateAuthorization reports memory.authAfter memory.judged
  replied : verdict = if memory.pingAfter = 0 then .fail else .pass

abbrev ArmCall := Called (Ask.Response Answer)

/-- The chip was told to restart. -/
def Forced (calls : List ArmCall) : Prop := ⟨.board .forceHwRestart, true⟩ ∈ calls

/-- The arm gives a verdict, and earns it when it is about the restore, with calls of a
kind behind it. -/
def Judges (reports : List ApStaStatus) (calls : List ArmCall → Prop)
    (reported : Option ReportedVerdict) (memory : ArmMemory) (made : List ArmCall) : Prop :=
  ∃ verdict, reported = some verdict ∧
    (verdict ≠ .inconclusive → Earned reports memory verdict ∧ calls made)

/-- The callback has come as far or further, and nothing else is changed. -/
def Advances (memory later : ArmMemory) : Prop :=
  memory.position ≤ later.position ∧ later = { memory with position := later.position }

instance : Std.Refl Advances := ⟨fun _ => ⟨Nat.le_refl _, rfl⟩⟩

instance : IsTrans ArmMemory Advances where
  trans first middle last ahead further := by
    refine ⟨ahead.1.trans further.1, further.2.trans ?_⟩
    rw [ahead.2]

section

variable {reports : List ApStaStatus} {memory : ArmMemory} {calls : List ArmCall → Prop}

/-- A read is of the stations somewhere further on. -/
theorem look_ensures (reports : List ApStaStatus) (read : Stations → ℕ)
    (state : BoardState ArmMemory) :
    (look reports read).Ensures state fun value final _ =>
      value = some (read (stationsAt reports final.memory.position)) ∧
        final.writes = state.writes ∧ Advances state.memory final.memory := by
  refine Program.Ensures.bind (Program.Ensures.call fun more => ?_)
  refine Program.Ensures.bind (Program.Ensures.update ?_)
  refine Program.Ensures.bind (Program.Ensures.current ?_)
  exact Program.Ensures.pure ⟨rfl, rfl, Nat.le_add_right _ _, rfl⟩

theorem quietly_look (read : Stations → ℕ) : Quietly Advances (look reports read) := by
  refine fun state => (look_ensures reports read state).mono fun value final _ looked => ?_
  obtain ⟨rfl, same, advances⟩ := looked
  refine ⟨rfl, ⟨[], ?_, fun _ separated => separated, fun _ nothing => ?_⟩, advances⟩
  · rw [same, List.append_nil]
  · exact absurd nothing List.not_mem_nil

/-- Behind a quiet program the callback has come further. -/
theorem bind_judges {Value : Type} {program : ArmProgram Value}
    {later : Value → ArmProgram (Option ReportedVerdict)}
    (lasting : ∀ front back, calls back → calls (front ++ back))
    (quiet : Quietly Advances program)
    (rest : ∀ value position, memory.position ≤ position →
      ReportsFrom { memory with position := position } (Judges reports calls) (later value)) :
    ReportsFrom memory (Judges reports calls) (program >>= later) := by
  refine quiet.bind_reportsFrom (fun reported final front back judges => ?_)
    fun value middle advances => ?_
  · obtain ⟨verdict, same, earns⟩ := judges
    exact ⟨verdict, same, fun about => (earns about).imp_right (lasting front back)⟩
  · rw [advances.2]
    exact rest value _ advances.1

/-- What is read is that of where the callback has come to. -/
theorem look_judges {read : Stations → ℕ} {later : ℕ → ArmProgram (Option ReportedVerdict)}
    (lasting : ∀ front back, calls back → calls (front ++ back))
    (rest : ∀ position, memory.position ≤ position →
      ReportsFrom { memory with position := position } (Judges reports calls)
        (later (read (stationsAt reports position)))) :
    ReportsFrom memory (Judges reports calls) (look reports read >>= later) := by
  refine fun writes => Program.Ensures.bind ((look_ensures reports read _).mono ?_)
  rintro value ⟨middleWrites, middle⟩ front ⟨rfl, same, further, advanced⟩
  have written : middleWrites = writes := same
  have moved : middle = { memory with position := middle.position } := advanced
  subst written
  have there := rest middle.position further middleWrites
  rw [← moved] at there
  refine there.mono fun result final back holds => ?_
  obtain ⟨reported, value, ⟨verdict, given, earns⟩, gives⟩ := holds
  exact ⟨reported, value,
    ⟨verdict, given, fun about => (earns about).imp_right (lasting front back)⟩, gives⟩

theorem quietly_awaitClient (reports : List ApStaStatus) (left waited : ℕ) :
    Quietly Advances (awaitClient reports left waited) := by
  induction left generalizing waited with
  | zero => exact (quietly_look _).bind fun _ => Quietly.pure _
  | succ left ih => exact (quietly_look _).bind fun n => Quietly.ite (ih _) (Quietly.pure _)

theorem quietly_pingSta (count : ℕ) : Quietly Advances (pingSta count) := by
  refine (Quietly.ask Question.newSession).bind fun created => Quietly.ite (Quietly.pure 0) ?_
  refine (Quietly.askUntil _ _ _).bind fun _ => (Quietly.ask Question.pingOk).bind fun shown => ?_
  exact (Quietly.testInfo _).bind fun _ =>
    (Quietly.ask Question.pingOk).bind fun replies => Quietly.pure replies

theorem quietly_hwRestartCount : Quietly Advances hwRestartCount :=
  (Quietly.ask Question.hwRestartCounter).bind fun _ => Quietly.pure _

theorem quietly_recover (reports : List ApStaStatus) (left i : ℕ) :
    Quietly Advances (recover reports left i) := by
  induction left generalizing i with
  | zero => exact Quietly.pure ()
  | succ left ih =>
      refine (Quietly.ite ?_ (Quietly.pure ())).bind fun _ => ih _
      refine quietly_hwRestartCount.bind fun restarts => (quietly_look _).bind fun stas => ?_
      refine (quietly_look _).bind fun events => (Quietly.ask Question.apTx).bind fun tx => ?_
      exact Quietly.testInfo _

theorem quietly_testStep (step : Step) (ok : Bool) (detail : String) :
    Quietly Advances (testStep step ok detail) := Quietly.testLine rfl

/-- A verdict that is not about the restore needs nothing. -/
theorem finish_inconclusive (detail : String) :
    ReportsFrom memory (Judges reports calls) (finish armName .inconclusive detail) :=
  ReportsFrom.finish _ _ _ fun _ => ⟨_, rfl, fun about => absurd rfl about⟩

theorem always (front back : List ArmCall) (_ : True) : (fun _ => True) (front ++ back) := trivial

theorem lasting_forced (front back : List ArmCall) (forced : Forced back) :
    Forced (front ++ back) := List.mem_append_right front forced

/-- The verdict is earned when the readings are those that the arm has noted. -/
theorem judgeRestart_judges {pingBefore : ℕ} (ordered : memory.authBefore ≤ memory.authAfter)
    (come : memory.authAfter ≤ memory.position) :
    ReportsFrom memory (Judges reports fun _ => True)
      (judgeRestart reports memory.rstBefore memory.rstAfter
        (stationsAt reports memory.authBefore).authEvents
        (stationsAt reports memory.authAfter).authEvents pingBefore memory.pingAfter) := by
  refine ReportsFrom.ite (fun _ => finish_inconclusive _) fun restarted => ?_
  refine ReportsFrom.ite (fun _ => finish_inconclusive _) fun unmoved => ?_
  rw [Bool.not_eq_true, Bool.not_eq_false', Bool.and_eq_true_iff, decide_eq_true_eq,
    decide_eq_true_eq] at restarted
  rw [Bool.not_eq_true, decide_eq_false_iff_not, Nat.not_lt] at unmoved
  refine look_judges always fun position further => ReportsFrom.note ?_
  refine ReportsFrom.ite (fun _ => ?_) fun present => ?_
  · exact bind_judges always (quietly_look _) fun _ _ _ => finish_inconclusive _
  have held : HeldThrough reports memory.authBefore position ∨
      LateAuthorization reports memory.authAfter position :=
    held_or_late unmoved fun none => present (List.length_eq_zero_iff.mpr none)
  refine ReportsFrom.ite (fun silent => ?_) fun replies => ?_
  · refine bind_judges always (quietly_look _) fun _ later _ => ?_
    refine ReportsFrom.finish _ _ _ fun _ => ⟨_, rfl, fun _ => ⟨?_, trivial⟩⟩
    exact ⟨restarted, ⟨ordered, come.trans further⟩, held, (if_pos silent).symm⟩
  · refine ReportsFrom.finish _ _ _ fun _ => ⟨_, rfl, fun _ => ⟨?_, trivial⟩⟩
    exact ⟨restarted, ⟨ordered, come.trans further⟩, held, (if_neg replies).symm⟩

/-- Behind a restart that was triggered with what the arm has noted. -/
theorem scoreRestart_judges {pingBefore : ℕ} (come : memory.authBefore ≤ memory.position) :
    ReportsFrom memory (Judges reports fun _ => True)
      (scoreRestart reports memory.rstBefore (stationsAt reports memory.authBefore).authEvents
        pingBefore) := by
  refine bind_judges always (quietly_recover _ _ _) fun _ _ recovered => ?_
  refine bind_judges always quietly_hwRestartCount fun rstAfter _ counted => ReportsFrom.note ?_
  refine bind_judges always (quietly_testStep _ _ _) fun _ _ printed => ?_
  refine bind_judges always (quietly_pingSta _) fun pingAfter _ pinged => ReportsFrom.note ?_
  refine look_judges always fun authAfter looked => ReportsFrom.note ?_
  refine bind_judges always (quietly_testStep _ _ _) fun _ _ stepped => ?_
  refine bind_judges always (Quietly.testTagged _ _ _) fun _ _ told => ?_
  refine judgeRestart_judges ?_ (stepped.trans told)
  exact come.trans (recovered.trans (counted.trans (printed.trans (pinged.trans looked))))

/-- A restart is triggered with what the arm has noted. -/
theorem triggerRestart_judges {pingBefore : ℕ} :
    ReportsFrom memory (Judges reports Forced) (triggerRestart reports pingBefore) := by
  refine bind_judges lasting_forced (Quietly.testInfo _) fun _ _ _ => ?_
  refine look_judges lasting_forced fun authBefore _ => ReportsFrom.note ?_
  refine bind_judges lasting_forced quietly_hwRestartCount fun rstBefore _ counted => ?_
  refine ReportsFrom.note ?_
  refine bind_judges lasting_forced (Quietly.testTagged _ _ _) fun _ _ switched => ?_
  refine bind_judges lasting_forced (quietly_look _) fun up _ looked => ?_
  refine bind_judges lasting_forced (Quietly.testTagged _ _ _) fun _ _ told => ?_
  refine ReportsFrom.ask fun forced => ?_
  change ReportsFrom _ (Judges reports fun made =>
    Forced (⟨.board .forceHwRestart, forced⟩ :: made)) _
  refine ReportsFrom.ite (fun _ => finish_inconclusive _) fun accepted => ?_
  rw [Bool.not_eq_true, Bool.not_eq_false'] at accepted
  have come := counted.trans (switched.trans (looked.trans told))
  refine (scoreRestart_judges come).mono fun reported final made judges => ?_
  obtain ⟨verdict, same, earns⟩ := judges
  exact ⟨verdict, same, fun about => ⟨(earns about).1, accepted ▸ List.mem_cons_self⟩⟩

theorem hwRestartArmTask_judges :
    ReportsFrom memory (Judges reports Forced) (hwRestartArmTask reports) := by
  refine bind_judges lasting_forced (Quietly.testTagged _ _ _) fun _ _ _ => ?_
  refine bind_judges lasting_forced (quietly_awaitClient _ _ _) fun waited _ _ => ?_
  refine bind_judges lasting_forced (quietly_look _) fun before _ _ => ?_
  refine bind_judges lasting_forced (quietly_look _) fun shown _ _ => ?_
  refine bind_judges lasting_forced (quietly_look _) fun events _ _ => ?_
  refine bind_judges lasting_forced (quietly_testStep _ _ _) fun _ _ _ => ?_
  refine bind_judges lasting_forced (quietly_look _) fun clients _ _ => ?_
  refine ReportsFrom.ite (fun _ => finish_inconclusive _) fun _ => ?_
  refine bind_judges lasting_forced (quietly_pingSta _) fun pingBefore _ _ => ?_
  refine bind_judges lasting_forced (quietly_testStep _ _ _) fun _ _ _ => ?_
  exact ReportsFrom.ite (fun _ => finish_inconclusive _) fun _ => triggerRestart_judges

end

/-- **A verdict about the restore is earned.** Whatever the chip answers, whatever
quiet texts other tasks print, and however the writes of `ap_sta_status_cb` fall between the
reads of the arm: the arm comes to one verdict, which is what the harness records of its
console; and when that is PASS or FAIL, the chip was told to restart and counted one, and
one station was tracked from before the trigger up to the verdict, unless one was authorized
so late that it was counted behind the arm's last look. -/
theorem restartArm_recorded {Meta : Type*} (reports : List ApStaStatus)
    (outside : Outside (Ask.Response Answer)) (later : Others) (slug : String) (dur : ℚ)
    (info : Meta) :
    let ended := (hwRestartArmTask reports).run outside ⟨[], .start⟩
    let writes := ended.state.writes ++ later.1
    ∃ verdict, ended.value = some (some verdict) ∧
      (recordVerdict slug (console writes) dur info).status = verdict.status ∧
      failedSteps (console writes) = writes.filterMap Write.failed ∧
      (verdict ≠ .inconclusive →
        Earned reports ended.state.memory verdict ∧ Forced ended.calls) := by
  intro ended writes
  have judges : ReportsFrom .start (Judges reports Forced) (hwRestartArmTask reports) :=
    hwRestartArmTask_judges
  obtain ⟨reported, value, ⟨verdict, rfl, earns⟩, status, failed, -⟩ :=
    judges.recorded outside later slug dur info
  exact ⟨verdict, value, status, failed, earns⟩

/-- A chip that restarts when it is told to; the callback writes as said between the looks
at it. -/
def restoringChip (writes : ℕ → ℕ) : Outside (Ask.Response Answer) := fun calls question =>
  match question with
  | .meanwhile => quietOthers
  | .board .writes =>
      writes (calls.countP fun call => match call with
        | ⟨.board .writes, _⟩ => true
        | _ => false)
  | .board .pingOk => (5 : ℕ)
  | .board .newSession | .board .pingDone | .board .forceHwRestart => true
  | .board .hwRestartCounter =>
      some (if calls.any fun call => match call with
        | ⟨.board .forceHwRestart, _⟩ => true
        | _ => false then 1 else 0)
  | .board .apTx => (0 : UInt32)

/-- A client that stays. -/
example :
    ((hwRestartArmTask [⟨.authorized, Mac.station 1⟩]).run
      (restoringChip fun looks => if looks = 0 then 2 else 0) ⟨[], .start⟩).value =
        some (some .pass) := by
  decide +kernel

/-- A client that has left at the last look at the count, and is back at the verdict. -/
example :
    let reports := [⟨.authorized, .station 1⟩, ⟨.unknown, .station 1⟩, ⟨.authorized, .station 1⟩]
    let looks := fun | 0 => 2 | 15 => 1 | 16 => 2 | _ => 0
    let ended := (hwRestartArmTask reports).run (restoringChip looks) ⟨[], .start⟩
    ended.value = some (some .pass) ∧
      (stationsAt reports ended.state.memory.authAfter).macs = [] := by
  decide +kernel

end Rimba.ApGate
