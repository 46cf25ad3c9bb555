import Rimba.DeepSleep.Cycles
import Rimba.Foundation.Numerals

/-! # The latencies in a result

The latencies in the meta of the harness's result are those the boots of the board have reported, in
their order and each at most once (`Rimba.DeepSleep.latencies_reported`).
-/

namespace Rimba.DeepSleep

open Foundation
open Rimba.Regtest.Dscycle

/-- What a report that is found says, and what stands behind its tag. -/
theorem report_of_reRecon {text : List Char} {ms taken : ℕ}
    (found : reRecon text = some (ms, taken)) :
    ∃ number rest, text = reportTag ++ number ∧
      leadingNumber number = some (ms, ' ' :: 'm' :: 's' :: rest) := by
  rw [reRecon] at found
  obtain ⟨⟨value, behind⟩, number, found⟩ := Option.bind_eq_some_iff.mp found
  obtain ⟨rest, unit, found⟩ := Option.bind_eq_some_iff.mp found
  obtain ⟨tagged, read, isNumber⟩ := Option.bind_eq_some_iff.mp number
  cases found
  refine ⟨tagged, rest, after_eq_some.mp read, ?_⟩
  rw [isNumber, after_eq_some.mp unit]
  rfl

/-- The number that is found behind the tag is the one that stands there. -/
theorem number_unique {number more rest : List Char} {ms value : ℕ} {behind : List Char}
    (read : leadingNumber number = some (value, ' ' :: 'm' :: 's' :: rest))
    (same : number ++ more = Nat.toDigits 10 ms ++ (" ms".toList ++ behind)) : value = ms := by
  have longer := leadingNumber_append (by decide) read more
  have printed := leadingNumber_toDigits ms (c := ' ') (by decide) ('m' :: 's' :: behind)
  rw [same] at longer
  have both := longer.symm.trans printed
  exact congrArg Prod.fst (Option.some.inj both)

/-- `ms` of a report. -/
def BootLine.latency : BootLine → Option ℕ
  | .reconnected ms _ => some ms
  | _ => none

/-- The latency that a boot has reported. -/
def Boot.latency (boot : Boot) : Option ℕ := boot.lines.findSome? BootLine.latency

theorem body_report {logged : LogLine} {ms : ℕ} {cause : WakeCause}
    (line : logged.line = .reconnected ms cause) : ∃ before behind, logged.body =
      before ++ (reportTag ++ (Nat.toDigits 10 ms ++ (" ms".toList ++ behind))) := by
  have opened : "=== RECONNECTED in ".toList = "=== ".toList ++ reportTag := by decide
  have unit : " ms (wake_cause=".toList = " ms".toList ++ " (wake_cause=".toList := by decide
  have fields : logged.fields = [.text " (", .number logged.stamp, .text ") ds-cycle: "] ++
      ([.text "=== RECONNECTED in ", .number ms, .text " ms (wake_cause="] ++
        (BootLine.format (.reconnected ms cause)).drop 3) ++
      (if logged.colours then [.text resetColour] else []) := by
    rw [LogLine.fields, line, List.append_assoc]
    rfl
  refine ⟨" (".toList ++ (Nat.toDigits 10 logged.stamp ++ (") ds-cycle: ".toList ++
    "=== ".toList)), " (wake_cause=".toList ++ (((BootLine.format (.reconnected ms cause)).drop 3 ++
      if logged.colours then [Field.text resetColour] else []).flatMap
        (Field.render logged.dash)), ?_⟩
  rw [LogLine.body, fields]
  simp only [List.flatMap_append, List.flatMap_cons, List.flatMap_nil, Field.render, opened, unit,
    List.append_assoc, List.append_nil]

theorem body_infix (last : List Char) {entry : List Char × LogLine}
    {logged : List (List Char × LogLine)} (member : entry ∈ logged) :
    ∃ before behind, glued last logged = before ++ (entry.2.body ++ behind) := by
  induction logged with
  | nil => cases member
  | cons first rest ih =>
      obtain ⟨front, line⟩ := first
      rcases List.mem_cons.mp member with rfl | later
      · refine ⟨front ++ ['W'], '\n' :: glued last rest, ?_⟩
        rw [glued, List.append_assoc, List.singleton_append]
      · obtain ⟨before, behind, text⟩ := ih later
        refine ⟨front ++ 'W' :: (line.body ++ '\n' :: before), behind, ?_⟩
        rw [glued, text]
        simp only [List.append_assoc, List.cons_append]

theorem console_report {boot : Boot} (console : Console boot.lines) {ms : ℕ} {cause : WakeCause}
    (printed : BootLine.reconnected ms cause ∈ boot.lines) : ∃ before behind, console.text =
      before ++ (reportTag ++ (Nat.toDigits 10 ms ++ (" ms".toList ++ behind))) := by
  have entries := console.same
  rw [← entries] at printed
  obtain ⟨entry, member, line⟩ := List.mem_map.mp printed
  obtain ⟨front, back, text⟩ := body_infix console.last member
  obtain ⟨before, behind, body⟩ := body_report line
  refine ⟨front ++ before, behind ++ back, ?_⟩
  rw [Console.text, text, body]
  simp only [List.append_assoc]

/-- What is read as a latency of a boot is what it has printed. -/
theorem Watched.latency_read (watched : Watched) {text : List Char} {value ms : ℕ}
    {cause : WakeCause} (read : text ∈ readTexts watched.passes)
    (found : reRecon.search text = some value)
    (printed : BootLine.reconnected ms cause ∈ watched.boot.lines) : value = ms := by
  obtain ⟨suffix, taken, ⟨front, cut⟩, matched⟩ := Pattern.search_suffix found
  obtain ⟨number, rest, tagged, isNumber⟩ := report_of_reRecon matched
  obtain ⟨earlier, later, pieces⟩ := List.append_of_mem (watched.read.subset read)
  obtain ⟨before, behind, text'⟩ := console_report watched.console printed
  have shown : watched.console.text =
      (earlier.flatten ++ front) ++ (reportTag ++ (number ++ later.flatten)) := by
    rw [← watched.whole, pieces, List.flatten_append, List.flatten_cons, ← cut, tagged]
    simp only [List.append_assoc]
  have once : occurrences reportTag watched.console.text ≤ 1 :=
    watched.console.reports.trans (Bool.toNat_le _)
  rw [shown] at once
  have same := behind_unique (by decide) once (shown.symm.trans text')
  exact number_unique isNumber same

/-- The latencies that are read of a boot. -/
def latenciesRead (passes : List Pass) : List ℕ := (readTexts passes).filterMap reRecon.search

theorem length_latenciesRead (passes : List Pass) :
    (latenciesRead passes).length = passes.countP reportsRead := by
  rw [latenciesRead, List.length_filterMap_eq_countP, countP_reportsRead]
  rfl

/-- Of a boot at most the latency is read that it has reported. -/
theorem Watched.latencies (watched : Watched) :
    (latenciesRead watched.passes).Sublist watched.boot.latency.toList := by
  have few := watched.reports
  rw [← length_latenciesRead] at few
  cases reported : watched.boot.reassociated with
  | false =>
      rw [reported] at few
      rw [List.length_eq_zero_iff.mp (Nat.le_zero.mp few)]
      exact List.nil_sublist _
  | true =>
      rw [reported] at few
      obtain ⟨line, printed, reports⟩ := List.any_eq_true.mp reported
      obtain ⟨ms, told⟩ : ∃ ms, watched.boot.latency = some ms := by
        refine Option.isSome_iff_exists.mp (List.findSome?_isSome_iff.mpr ⟨line, printed, ?_⟩)
        cases line <;> cases reports
        rfl
      obtain ⟨source, inBoot, isMs⟩ := List.exists_of_findSome?_eq_some told
      have same : ∀ value ∈ latenciesRead watched.passes, value = ms := by
        intro value member
        obtain ⟨text, read, found⟩ := List.mem_filterMap.mp member
        cases source <;> cases isMs
        exact watched.latency_read read found inBoot
      have all := List.eq_replicate_of_mem same
      rw [told, all]
      exact (List.replicate_sublist_replicate _).mpr few

section

variable (state : CaptureState)

theorem notePortMissing_recons (now : ℚ) : (state.notePortMissing now).recons = state.recons := by
  unfold CaptureState.notePortMissing
  split <;> rfl

theorem portAbsent_recons (now : ℚ) (outcome : PulseOutcome) :
    (state.portAbsent now outcome).recons = state.recons := by
  unfold CaptureState.portAbsent
  split
  · cases outcome <;> rfl
  · exact notePortMissing_recons state now

theorem portOpened_recons (now : ℚ) : (state.portOpened now).recons = state.recons := by
  unfold CaptureState.portOpened
  split
  · rfl
  · simp only
    split <;> rfl

theorem readText_recons (text : List Char) : (state.readText text).recons =
    state.recons ++ (reRecon.search text).toList := by
  simp only [CaptureState.readText]
  cases (reSleep.search text).isSome <;> cases reRecon.search text <;>
    cases pending : state.pendingGap <;> simp [pending]

theorem readLine_recons (outcome : ReadOutcome) : (state.readLine outcome).recons =
    state.recons ++ ((readText outcome).bind reRecon.search).toList := by
  cases outcome with
  | line text => exact readText_recons state text
  | silent => exact (List.append_nil _).symm
  | raised now => exact (List.append_nil _).symm

end

/-- A pass adds the latency that it reads. -/
theorem pass_recons {before after : CaptureState} {pass : Pass}
    (passed : before.pass pass.found = some after) :
    after.recons = before.recons ++ latenciesRead [pass] := by
  have one : latenciesRead [pass] =
      ((readText pass.found.outcome).bind reRecon.search).toList := by
    rw [latenciesRead, readTexts, List.filterMap_cons]
    cases read : readText pass.found.outcome with
    | none => rfl
    | some text =>
        rw [Option.bind_some, List.filterMap_nil, List.filterMap_cons]
        cases reRecon.search text <;> rfl
  rw [one]
  cases found : pass.found with
  | absent now outcome =>
      rw [found] at passed
      obtain ⟨-, rfl⟩ := CaptureState.pass_absent.mp passed
      exact (portAbsent_recons before now outcome).trans (List.append_nil _).symm
  | refused now =>
      rw [found] at passed
      obtain ⟨-, rfl⟩ := CaptureState.pass_refused.mp passed
      exact (notePortMissing_recons before now).trans (List.append_nil _).symm
  | opened now outcome =>
      rw [found] at passed
      obtain ⟨-, rfl⟩ := CaptureState.pass_opened.mp passed
      have added := readLine_recons (before.portOpened now) outcome
      rwa [portOpened_recons before now] at added
  | held outcome =>
      rw [found] at passed
      obtain ⟨-, rfl⟩ := CaptureState.pass_held.mp passed
      exact readLine_recons before outcome

theorem runFrom_recons {c6 : Bool} {tEnd : ℚ} {need : ℤ} {state final : CaptureState}
    {passes : List Pass}
    (reached : (captureFor c6 tEnd need).runFrom state passes = some final) :
    final.recons = state.recons ++ latenciesRead passes := by
  induction passes generalizing state with
  | nil =>
      cases reached
      exact (List.append_nil _).symm
  | cons pass passes ih =>
      obtain ⟨next, stepped, continues⟩ := Option.bind_eq_some_iff.mp reached
      have here := pass_recons (step_captureFor.mp stepped).2
      have joined : latenciesRead (pass :: passes) =
          latenciesRead [pass] ++ latenciesRead passes := by
        rw [latenciesRead, readTexts, ← List.singleton_append, List.filterMap_append,
          List.filterMap_append]
        rfl
      rw [ih continues, here, joined, List.append_assoc]

theorem latenciesRead_flatMap (boots : List Watched) :
    (latenciesRead (boots.flatMap Watched.passes)).Sublist
      (boots.filterMap fun watched => watched.boot.latency) := by
  induction boots with
  | nil => exact List.Sublist.refl _
  | cons watched boots ih =>
      have joined : latenciesRead ((watched :: boots).flatMap Watched.passes) =
          latenciesRead watched.passes ++ latenciesRead (boots.flatMap Watched.passes) := by
        rw [latenciesRead, readTexts, List.flatMap_cons, List.filterMap_append,
          List.filterMap_append]
        rfl
      have parts : (watched :: boots).filterMap (fun watched => watched.boot.latency) =
          watched.boot.latency.toList ++ boots.filterMap fun watched => watched.boot.latency := by
        rw [List.filterMap_cons]
        cases watched.boot.latency <;> rfl
      rw [joined, parts]
      exact watched.latencies.append ih

/-- What a verdict tells of the latencies. -/
theorem verdict_info {cycles : ℤ} {c6 : Bool} {captured : CaptureState} {durationS : ℚ}
    {info : DscycleMeta} (told : (verdict cycles c6 captured durationS).info = some info) :
    info.latenciesMs = captured.recons ∧ info.reconnectsTotal = captured.recons.length := by
  simp only [verdict] at told
  split_ifs at told <;> cases told <;> exact ⟨rfl, rfl⟩

theorem recorded_info {cycles : ℤ} {answers : RunAnswers}
    {result : Rimba.Regtest.Result (Option DscycleMeta)} {info : DscycleMeta}
    (found : recorded cycles answers = some result) (told : result.info = some info) :
    ∃ captured, answers.captured cycles = some captured ∧
      info.latenciesMs = captured.recons ∧ info.reconnectsTotal = captured.recons.length := by
  rw [recorded] at found
  split_ifs at found
  · cases found
    cases told
  · cases found
    cases told
  · cases found
    cases told
  · cases found
    cases told
  · cases found
    cases told
  · obtain ⟨captured, ended, rfl⟩ := Option.map_eq_some_iff.mp found
    exact ⟨captured, ended, verdict_info told⟩

/-- **The latencies of a result.** Whatever the verdict, the latencies in the meta are those of
boots that have reported them, in their order, no boot's more than once, and the meta has
their number. What is printed around the lines of the log is quiet. -/
theorem latencies_reported {cycles : ℤ} {answers : RunAnswers}
    {result : Rimba.Regtest.Result (Option DscycleMeta)} {info : DscycleMeta}
    (boots : List Watched) (watched : answers.passes = boots.flatMap Watched.passes)
    (found : recorded cycles answers = some result) (told : result.info = some info) :
    info.latenciesMs.Sublist (boots.filterMap fun watched => watched.boot.latency) ∧
      info.reconnectsTotal = info.latenciesMs.length := by
  obtain ⟨captured, ended, latencies, total⟩ := recorded_info found told
  rw [RunAnswers.captured, watched, Machine.run] at ended
  have recons : captured.recons = latenciesRead (boots.flatMap Watched.passes) :=
    runFrom_recons ended
  rw [total, latencies, recons]
  exact ⟨latenciesRead_flatMap boots, rfl⟩

/-- Of one cycle two latencies are recorded, that of the association after flashing first. -/
theorem latencies_reported_oneCycle : ∃ info : DscycleMeta,
    (recorded 1 oneCycle).bind (·.info) = some info ∧ info.latenciesMs = [812, 640] ∧
      info.latenciesMs.Sublist
        ([flashed, wokenAgain].filterMap fun watched => watched.boot.latency) := by
  have shown : ((recorded 1 oneCycle).bind (·.info)).map (·.latenciesMs) = some [812, 640] := by
    decide +kernel
  obtain ⟨info, isInfo, latencies⟩ := Option.map_eq_some_iff.mp shown
  obtain ⟨result, found, told⟩ := Option.bind_eq_some_iff.mp isInfo
  exact ⟨info, isInfo, latencies, (latencies_reported [flashed, wokenAgain] rfl found told).1⟩

end Rimba.DeepSleep
