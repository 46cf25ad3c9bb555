import Rimba.PowerLadder.Capture

/-! # What the plateaus of a ladder measure

The harness cuts a window out of its samples for every tier, from the time when it read the
line of the tier. As long as a line is read soon, every sample in a window was taken while
the chip was in the mode of the tier (`Rimba.PowerLadder.plateau_held`). The lines up to the
end of a ladder are those of one round, so what the harness is told of the steps is about
the round that it measures: behind a WNM tier that passes, the chip has accepted it
(`Rimba.PowerLadder.wnm_pass_measured`).
-/

namespace Rimba.PowerLadder

open Foundation
open Rimba.Regtest (LadderRun Reading plateauStats powerPhaseS settleS tailS)

def DutAction.line : DutAction → Option DutLine
  | .print line => some line
  | _ => none

/-- A run of the device, as far as it has come: what it does and when, at which state of
power save it starts, and that a delay is cut short by less than a tick. -/
structure DutRun (tick : ℚ) where
  lightSleep : Bool
  answers : BootAnswers
  rounds : List RoundAnswers
  powerSave : Bool
  run : List (Happened DutAction ℚ)
  does : run.map Happened.action <+: appMain lightSleep answers rounds
  timely : Timeline.Timely (lasts tick) run

/-- What the chip has been told by a time. -/
def DutRun.modeAt {tick : ℚ} (dut : DutRun tick) (time : ℚ) : ChipMode :=
  Timeline.stateAt ChipMode.after ⟨dut.powerSave, false, false⟩ dut.run time

/-- The lines that are printed, and when. -/
def printed (run : List (Happened DutAction ℚ)) : List TimedLine :=
  run.filterMap fun happened => happened.action.line.map fun line => (line, happened.time)

/-- A line is read at most a while behind its print. -/
structure ReadOf (lag : ℚ) (print read : TimedLine) : Prop where
  same : print.1 = read.1
  later : print.2 ≤ read.2
  soon : read.2 ≤ print.2 + lag

/-- The samples that a tier is scored by. -/
def measured (phaseT : OrderedDict String ℚ) (series : List Reading) (tier : DutTier) :
    List Reading :=
  (phaseT.get? tier.key).elim [] fun tStart => series.filter fun reading =>
    tStart + settleS ≤ reading.hostTime ∧ reading.hostTime ≤ tStart + powerPhaseS - tailS

/-- They are what the statistics of its plateau are made of. -/
theorem plateauStats_eq (phaseT : OrderedDict String ℚ) (series : List Reading)
    (tier : DutTier) : plateauStats phaseT series tier.powerTier =
      (SortedSample.ofList ((measured phaseT series tier).map Reading.batchMeanMa)).map
        Regtest.statsOf := by
  rw [plateauStats, measured, DutTier.key]
  cases phaseT.get? tier.powerTier.key with
  | none => rfl
  | some tStart => rfl

section

variable {tick lag : ℚ}

theorem mem_printed {run : List (Happened DutAction ℚ)} {print : TimedLine} :
    print ∈ printed run ↔ ⟨.print print.1, print.2⟩ ∈ run := by
  refine List.mem_filterMap.trans ⟨?_, fun member => ⟨_, member, rfl⟩⟩
  rintro ⟨happened, member, line⟩
  obtain ⟨action, time⟩ := happened
  cases action with
  | print own =>
      cases line
      exact member
  | _ => cases line

/-- Behind the line of a tier the chip is in its mode as long as the tier lasts. -/
theorem modeAt_of_print (fine : 0 ≤ tick) (dut : DutRun tick) {print : TimedLine} {tier : DutTier}
    (member : print ∈ printed dut.run) (ofTier : print.1.tier = some tier) {time : ℚ}
    (come : print.2 ≤ time) (early : time < print.2 + (phaseS - 2 * tick)) :
    dut.modeAt time = tier.mode := by
  obtain ⟨line, at_⟩ := print
  obtain ⟨up, ret, rfl⟩ : ∃ up ret, line = .phase tier up ret := by
    cases line with
    | phase tier up ret =>
        cases ofTier
        exact ⟨up, ret, rfl⟩
    | _ => cases ofTier
  obtain ⟨front, back, split⟩ := List.append_of_mem (mem_printed.mp member)
  obtain ⟨more, whole⟩ := dut.does
  rw [split, List.map_append, List.map_cons, List.append_assoc, List.cons_append] at whole
  obtain ⟨told, quiet, rest, lasting, keeps, long⟩ := tiersHeld_appMain fine dut.lightSleep
    dut.answers dut.rounds dut.powerSave _ tier up ret _ whole.symm
  have timely := split ▸ dut.timely
  have stays (during : List (Happened DutAction ℚ))
      (inside : ∀ happened ∈ during, happened.action ∈ quiet) :
      ∀ other ∈ ⟨.print (.phase tier up ret), at_⟩ :: during,
        ((front.map Happened.action).foldl ChipMode.after ⟨dut.powerSave, false, false⟩).after
            other.action =
          (front.map Happened.action).foldl ChipMode.after ⟨dut.powerSave, false, false⟩ := by
    rw [told]
    exact List.forall_mem_cons.mpr ⟨rfl, fun happened among => keeps _ (inside happened among)⟩
  rw [DutRun.modeAt, split, ← told]
  rcases List.append_eq_append_iff.mp lasting with ⟨cut, inside, -⟩ | ⟨later, inside, -⟩
  · -- the run has come to its end within the tier
    have within := stays back fun happened among =>
      inside ▸ List.mem_append_left _ (List.mem_map_of_mem among)
    rw [← List.append_nil back] at timely ⊢
    exact Timeline.stateAt_of_held (lasts_nonneg tick) timely within come (.inl rfl)
  · obtain ⟨during, rest, rfl, rfl, -⟩ := List.map_eq_append_iff.mp inside
    refine Timeline.stateAt_of_held (lasts_nonneg tick) timely
      (stays during fun happened => List.mem_map_of_mem) come (.inr ?_)
    refine early.trans_le (add_le_add_right ?_ _)
    rw [List.map_cons, Timeline.duration, List.map_cons, List.sum_cons]
    exact long.trans (le_add_of_nonneg_left (lasts_nonneg tick _))

/-- A tier that is found among those heard is that of a line. -/
theorem line_of_tier {lines : List TimedLine} {tier : DutTier} {heard : DutTier × ℚ}
    (found : (heardTiers lines).find? (fun heard => heard.1 = tier) = some heard) :
    ∃ line ∈ lines, line.1.tier = some tier ∧ line.2 = heard.2 := by
  have kept := List.find?_some found
  obtain ⟨line, member, tiered⟩ := List.mem_filterMap.mp (List.mem_of_find?_eq_some found)
  obtain ⟨tier', ofTier, rfl⟩ := Option.map_eq_some_iff.mp tiered
  have same : tier' = tier := of_decide_eq_true kept
  exact ⟨line, member, same ▸ ofTier, rfl⟩

end

/-- What the device does before its endless loop. -/
def leadIn (lightSleep : Bool) (answers : BootAnswers) : List DutAction :=
  [.delay 200, .delay 50] ++ boot lightSleep answers

/-- What a round of the endless loop does. -/
def roundActions (round : RoundAnswers) : List DutAction :=
  waitForTrigger round ++ runLadder round

/-- What the actions come to lies within a round, or within the lead and the round behind it. -/
def WithinRound (lead actions : List DutAction) (round : RoundAnswers) : Prop :=
  ∃ front ∈ [lead, []], actions <+: front ++ roundActions round

theorem printed_append (front back : List (Happened DutAction ℚ)) :
    printed (front ++ back) = printed front ++ printed back := List.filterMap_append

/-- The last line of a round is the end of its ladder. -/
theorem printed_round {run : List (Happened DutAction ℚ)} {front : List DutAction}
    {round : RoundAnswers} (does : run.map Happened.action = front ++ roundActions round) :
    ∃ init time, printed run = init ++ [(.ladderDone round.doneUp, time)] := by
  obtain ⟨init, ends⟩ : ∃ init, roundActions round =
      init ++ [.print (.ladderDone round.doneUp)] := by
    refine ⟨waitForTrigger round ++ (noPsTier round ++ (dynPsTier round ++ (twtTier round ++
      (wnmTier round ++ phaseMark 5)))), ?_⟩
    simp only [roundActions, runLadder, List.append_assoc]
  rw [ends, ← List.append_assoc] at does
  obtain ⟨before, last, rfl, -, single⟩ := List.map_eq_append_iff.mp does
  obtain ⟨happened, rfl, action⟩ := List.map_eq_singleton_iff.mp single
  refine ⟨printed before, happened.time, ?_⟩
  rw [printed_append, printed, printed, List.filterMap_cons_some (by rw [action]; rfl)]
  rfl

/-- Lines that go on behind the end of a ladder are not those that the loop hears. -/
theorem not_unended {init front back : List TimedLine} {done : TimedLine}
    (ends : front <:+ init ++ [done]) (isDone : done.1.isDone = true) (some : front ≠ [])
    (more : back ≠ []) : ¬ Unended (front ++ back) := by
  intro unended
  obtain ⟨before, last, rfl⟩ := (List.eq_nil_or_concat front).resolve_left some
  rw [List.concat_eq_append] at ends unended
  obtain ⟨rest, whole⟩ := ends
  rw [← List.append_assoc] at whole
  obtain ⟨-, same⟩ := List.append_inj' whole rfl
  cases same
  have inside : done ∈ ((before ++ [done]) ++ back).dropLast := by
    rw [List.dropLast_append_of_ne_nil more]
    exact List.mem_append_left _ (List.mem_append_right _ (List.mem_singleton_self done))
  exact absurd ((unended done inside).symm.trans isDone) Bool.false_ne_true

/-- **Lines up to the end of a ladder** are those of one round, or of the lead and the round
behind it. -/
theorem within_round {rounds : List RoundAnswers} {lead : List DutAction}
    {run : List (Happened DutAction ℚ)} {segment : List TimedLine}
    (does : run.map Happened.action <+: lead ++ rounds.flatMap roundActions)
    (inside : segment <:+: printed run) (unended : Unended segment) :
    ∃ during, during <:+: run ∧ segment <:+: printed during ∧
      (during.map Happened.action <+: lead ∨
        ∃ round ∈ rounds, WithinRound lead (during.map Happened.action) round) := by
  induction rounds generalizing lead run with
  | nil =>
      rw [List.flatMap_nil, List.append_nil] at does
      exact ⟨run, List.infix_rfl, inside, .inl does⟩
  | cons round rounds ih =>
      obtain ⟨more, whole⟩ := does
      rw [List.flatMap_cons, ← List.append_assoc] at whole
      rcases List.append_eq_append_iff.mp whole with ⟨rest, here, -⟩ | ⟨rest, through, later⟩
      · exact ⟨run, List.infix_rfl, inside,
          .inr ⟨round, List.mem_cons_self, lead, List.mem_cons_self, rest, here.symm⟩⟩
      · obtain ⟨first, second, rfl, firstDoes, rfl⟩ := List.map_eq_append_iff.mp through
        rw [printed_append] at inside
        rcases List.infix_append_iff_ne_nil.mp inside with inFirst | inSecond |
          ⟨front, back, some, goesOn, rfl, ends, -⟩
        · exact ⟨first, List.infix_append_left, inFirst, .inr ⟨round, List.mem_cons_self, lead,
            List.mem_cons_self, firstDoes ▸ List.prefix_rfl⟩⟩
        · have does : second.map Happened.action <+: [] ++ rounds.flatMap roundActions :=
            ⟨more, later.symm⟩
          obtain ⟨during, within, lines, actions⟩ := ih does inSecond
          refine ⟨during, within.trans List.infix_append_right, lines, ?_⟩
          rcases actions with none | ⟨other, among, front, nothing, stretch⟩
          · exact .inl (none.trans List.nil_prefix)
          · have empty : front = [] := by
              rcases List.mem_pair.mp nothing with rfl | rfl <;> rfl
            exact .inr ⟨other, List.mem_cons_of_mem _ among, [], by
              exact List.mem_cons_of_mem _ List.mem_cons_self, empty ▸ stretch⟩
        · obtain ⟨init, time, lines⟩ := printed_round firstDoes
          rw [lines] at ends
          exact absurd unended (not_unended ends rfl some goesOn)

def linesOf (actions : List DutAction) : List DutLine := actions.filterMap DutAction.line

theorem map_printed (run : List (Happened DutAction ℚ)) :
    (printed run).map Prod.fst = linesOf (run.map Happened.action) := by
  rw [printed, linesOf, List.map_filterMap, List.filterMap_map]
  refine List.filterMap_congr fun happened _ => ?_
  rw [Option.map_map]
  exact Option.map_id_fun' ▸ rfl

/-- What a ladder prints in front of its end. -/
def tierLines (round : RoundAnswers) : List DutLine :=
  [.phase .dynPs (round.up .dynPs) 0, .phase .twt (round.up .twt) round.twtSetup,
    .twtInstalled round.inst, .phase .wnmPowerdown (round.up .wnmPowerdown) round.wnmEnter,
    .wnmAccepted round.wnmEnter]

theorem linesOf_append (front back : List DutAction) :
    linesOf (front ++ back) = linesOf front ++ linesOf back := List.filterMap_append

theorem linesOf_delays (n ms : ℕ) : linesOf (List.replicate n (.delay ms)) = [] := by
  refine List.filterMap_eq_nil_iff.mpr fun action member => ?_
  rw [List.eq_of_mem_replicate member]
  rfl

theorem linesOf_round (round : RoundAnswers) :
    linesOf (roundActions round) = [.idle, .triggered round.triggeredUp] ++
      .phase .noPs (round.up .noPs) 0 :: (tierLines round ++ [.ladderDone round.doneUp]) := by
  have waiting : linesOf (waitForTrigger round) = [.idle, .triggered round.triggeredUp] := by
    rw [waitForTrigger, ← List.singleton_append, linesOf_append, linesOf_append, linesOf_append,
      linesOf_delays, linesOf_delays]
    rfl
  have ladder : linesOf (runLadder round) =
      .phase .noPs (round.up .noPs) 0 :: (tierLines round ++ [.ladderDone round.doneUp]) := rfl
  rw [roundActions, linesOf_append, waiting, ladder]

/-- A line of the lead: no tier, no end of a ladder, and no step but the association. -/
structure LeadLine (answers : BootAnswers) (line : DutLine) : Prop where
  tier : line.tier = none
  done : line.isDone = false
  step : ∀ step ∈ line.step, step = ("associated", answers.connected)

theorem leadLines (lightSleep : Bool) (answers : BootAnswers) :
    ∀ line ∈ linesOf (leadIn lightSleep answers), LeadLine answers line := by
  have plain (line : DutLine) (tier : line.tier = none) (done : line.isDone = false)
      (step : line.step = none) : LeadLine answers line :=
    ⟨tier, done, fun _ said => absurd (step.symm.trans said) (Option.some_ne_none _).symm⟩
  have start : linesOf [.delay 200, .delay 50] = [] := rfl
  rw [leadIn, boot, linesOf_append, start, List.nil_append, linesOf_append, linesOf_append,
    linesOf_delays, List.nil_append]
  refine List.forall_mem_append.mpr ⟨?_, ?_⟩
  · exact List.forall_mem_cons.mpr ⟨plain _ rfl rfl rfl, List.forall_mem_cons.mpr
      ⟨plain _ rfl rfl rfl, List.forall_mem_singleton.mpr (plain _ rfl rfl rfl)⟩⟩
  · refine List.forall_mem_cons.mpr ⟨⟨rfl, rfl, fun _ said => (Option.some.inj said).symm⟩, ?_⟩
    rw [← linesOf, linesOf_append]
    refine List.forall_mem_append.mpr ⟨?_, ?_⟩
    · cases answers.linked with
      | true => exact List.forall_mem_nil _
      | false => exact List.forall_mem_singleton.mpr (plain _ rfl rfl rfl)
    · cases lightSleep with
      | true => exact List.forall_mem_singleton.mpr (plain _ rfl rfl rfl)
      | false => exact List.forall_mem_nil _

/-- A line that a stretch within a round prints is one of the lead or one of the round. -/
theorem mem_within {lead actions : List DutAction} {round : RoundAnswers} {line : DutLine}
    (within : WithinRound lead actions round) (member : line ∈ linesOf actions) :
    line ∈ linesOf lead ∨ line ∈ linesOf (roundActions round) := by
  obtain ⟨front, among, more, whole⟩ := within
  have inside : line ∈ linesOf (front ++ roundActions round) := by
    rw [← whole, linesOf_append]
    exact List.mem_append_left _ member
  rw [linesOf_append] at inside
  refine (List.mem_append.mp inside).imp_left fun early => ?_
  rcases List.mem_pair.mp among with rfl | rfl
  · exact early
  · cases early

/-- The steps of a round. -/
theorem step_of_round {round : RoundAnswers} {line : DutLine} {step : String × Bool}
    (member : line ∈ linesOf (roundActions round)) (outcome : line.step = some step) :
    step = ("twt-installed", decide (round.inst = 1)) ∨
      step = ("wnm-accepted", decide (round.wnmEnter = 0)) := by
  rw [linesOf_round] at member
  have steps := List.mem_filterMap.mpr ⟨line, member, outcome⟩
  exact List.mem_pair.mp steps

/-- A list that lies in another, with two marks that stand there once, the second at the
end, has all that is between them. -/
theorem covers {Item : Type*} {front middle list : List Item} {first last : Item}
    (inside : list <:+: front ++ first :: (middle ++ [last])) (starts : first ∈ list)
    (ends : last ∈ list) (firstOnce : first ∉ front ∧ first ∉ middle ++ [last])
    (lastOnce : last ∉ front ∧ last ≠ first ∧ last ∉ middle) : ∀ item ∈ middle, item ∈ list := by
  obtain ⟨before, after, whole⟩ := inside
  obtain ⟨head, tail, rfl⟩ := List.append_of_mem starts
  rw [List.append_assoc, List.append_assoc, ← List.append_assoc before, List.cons_append] at whole
  obtain ⟨rfl, -, rest⟩ := (List.append_cons_inj_of_notMem firstOnce.1 firstOnce.2).mp whole.symm
  have inTail : last ∈ tail := by
    rcases List.mem_append.mp ends with early | late
    · exact absurd (List.mem_append_right before early) lastOnce.1
    · exact (List.mem_cons.mp late).resolve_left lastOnce.2.1
  rcases List.eq_nil_or_concat after with rfl | ⟨more, other, rfl⟩
  · rw [List.append_nil] at rest
    intro item member
    have late : item ∈ tail := rest ▸ List.mem_append_left _ member
    exact List.mem_append_right head (List.mem_cons_of_mem first late)
  · rw [List.concat_eq_append, ← List.append_assoc] at rest
    obtain ⟨shorter, -⟩ := List.append_inj' rest rfl
    exact absurd (shorter ▸ List.mem_append_left more inTail) lastOnce.2.2

/-- Whoever hears a ladder from its first tier to its end hears all of it. -/
theorem tierLines_heard {lead actions : List DutAction} {answers : BootAnswers}
    {round : RoundAnswers} {lines : List DutLine}
    (plain : ∀ line ∈ linesOf lead, LeadLine answers line)
    (within : WithinRound lead actions round) (inside : lines <:+: linesOf actions)
    (starts : .phase .noPs (round.up .noPs) 0 ∈ lines) (ends : .ladderDone round.doneUp ∈ lines) :
    ∀ line ∈ tierLines round, line ∈ lines := by
  obtain ⟨front, among, more, whole⟩ := within
  have early : ∀ line ∈ linesOf front ++ [.idle, .triggered round.triggeredUp],
      line.tier = none ∧ line.isDone = false := by
    refine List.forall_mem_append.mpr ⟨fun line member => ?_, ?_⟩
    · rcases List.mem_pair.mp among with rfl | rfl
      · exact ⟨(plain line member).tier, (plain line member).done⟩
      · cases member
    · exact List.forall_mem_cons.mpr ⟨⟨rfl, rfl⟩, List.forall_mem_singleton.mpr ⟨rfl, rfl⟩⟩
  have middle : ∀ line ∈ tierLines round, line ≠ .phase .noPs (round.up .noPs) 0 ∧
      line.isDone = false := by
    refine List.forall_mem_cons.mpr ⟨?_, List.forall_mem_cons.mpr ⟨?_, List.forall_mem_cons.mpr
      ⟨?_, List.forall_mem_cons.mpr ⟨?_, List.forall_mem_singleton.mpr ?_⟩⟩⟩⟩
    all_goals
      refine ⟨fun same => ?_, rfl⟩
      cases same
  have through : lines <:+: (linesOf front ++ [.idle, .triggered round.triggeredUp]) ++
      .phase .noPs (round.up .noPs) 0 :: (tierLines round ++ [.ladderDone round.doneUp]) := by
    refine inside.trans ⟨[], linesOf more, ?_⟩
    rw [List.nil_append, ← linesOf_append, whole, linesOf_append, linesOf_round,
      List.append_assoc]
  refine covers through starts ends ⟨fun member => ?_, fun member => ?_⟩
    ⟨fun member => ?_, fun same => ?_, fun member => ?_⟩
  · cases (early _ member).1
  · rcases List.mem_append.mp member with tier | last
    · exact (middle _ tier).1 rfl
    · cases List.mem_singleton.mp last
  · cases (early _ member).2
  · cases same
  · cases (middle _ member).2

theorem unended_iff {lines : List TimedLine} :
    Unended lines ↔ ∀ own ∈ (lines.map Prod.fst).dropLast, own.isDone = false := by
  rw [← List.map_dropLast, List.forall_mem_map]
  rfl

/-- The device prints nothing when it is held for reflashing. -/
theorem DutRun.printed_or_does {tick : ℚ} (dut : DutRun tick) : printed dut.run = [] ∨
    dut.run.map Happened.action <+:
      leadIn dut.lightSleep dut.answers ++ dut.rounds.flatMap roundActions := by
  have does := dut.does
  rw [appMain] at does
  cases held : dut.answers.flashHold with
  | none =>
      rw [held] at does
      refine .inr ?_
      rw [leadIn, List.append_assoc]
      exact does
  | some rounds =>
      rw [held] at does
      refine .inl (List.map_eq_nil_iff.mp ((map_printed _).trans ?_))
      refine List.filterMap_eq_nil_iff.mpr fun action member => ?_
      rcases List.mem_append.mp (does.subset member) with start | later
      · exact (by decide : ∀ action ∈ [DutAction.delay 200, .delay 50], action.line = none) _ start
      rcases List.mem_cons.mp later with rfl | waiting
      · rfl
      · obtain ⟨wait, same, inside⟩ := List.mem_flatten.mp waiting
        rw [List.eq_of_mem_replicate same] at inside
        exact (by decide : ∀ action ∈ [DutAction.delay 3000, .log], action.line = none) _ inside

/-- The harness reads every line that the device prints from some time on, none twice, each
soon. -/
def HearsAll {tick : ℚ} (lag : ℚ) (dut : DutRun tick) (reads : List TimedLine) : Prop :=
  ∃ segment, segment <:+: printed dut.run ∧ List.Forall₂ (ReadOf lag) segment reads

theorem map_reads {lag : ℚ} {prints reads : List TimedLine}
    (reading : List.Forall₂ (ReadOf lag) prints reads) :
    prints.map Prod.fst = reads.map Prod.fst := by
  induction reading with
  | nil => rfl
  | cons here _ ih => rw [List.map_cons, List.map_cons, here.same, ih]

/-- The lines are read of what a stretch within a round prints. -/
structure RoundHeard (lag : ℚ) (lead : List DutAction) (round : RoundAnswers)
    (during : List (Happened DutAction ℚ)) (lines : List TimedLine) : Prop where
  within : WithinRound lead (during.map Happened.action) round
  reading : ∃ prints, prints <:+: printed during ∧ List.Forall₂ (ReadOf lag) prints lines

/-- The lines that the loop has heard are those of one round. -/
theorem HearsAll.round {tick lag : ℚ} {dut : DutRun tick} {reads lines : List TimedLine}
    (hears : HearsAll lag dut reads) (inside : lines <+: reads) (unended : Unended lines)
    (starts : ∃ line ∈ lines, line.1.tier.isSome) :
    ∃ round ∈ dut.rounds, ∃ during, during <:+: dut.run ∧
      RoundHeard lag (leadIn dut.lightSleep dut.answers) round during lines := by
  obtain ⟨segment, contiguous, reading⟩ := hears
  have taken := List.forall₂_take lines.length reading
  rw [← List.prefix_iff_eq_take.mp inside] at taken
  have same := map_reads taken
  have unended' : Unended (segment.take lines.length) := by
    rw [unended_iff, same]
    exact unended_iff.mp unended
  have prints := (List.take_prefix lines.length segment).isInfix.trans contiguous
  obtain ⟨line, member, tier⟩ := starts
  have among : line.1 ∈ (segment.take lines.length).map Prod.fst :=
    same ▸ List.mem_map_of_mem member
  rcases dut.printed_or_does with nothing | does
  · rw [nothing] at prints
    rw [List.infix_nil.mp prints] at among
    cases among
  obtain ⟨during, stretch, here, early | ⟨round, inRounds, within⟩⟩ :=
    within_round does prints unended'
  · have printedHere := (here.map Prod.fst).subset among
    rw [map_printed] at printedHere
    have printedEarly := (early.filterMap DutAction.line).subset printedHere
    rw [(leadLines _ _ _ printedEarly).tier] at tier
    cases tier
  · exact ⟨round, inRounds, during, stretch, within, _, here, taken⟩

theorem print_of_read {lag : ℚ} {prints reads : List TimedLine} {read : TimedLine}
    (reading : List.Forall₂ (ReadOf lag) prints reads) (member : read ∈ reads) :
    ∃ print ∈ prints, ReadOf lag print read := by
  induction reading with
  | nil => cases member
  | cons here _ ih =>
      rcases List.mem_cons.mp member with rfl | later
      · exact ⟨_, List.mem_cons_self, here⟩
      · obtain ⟨print, among, reads⟩ := ih later
        exact ⟨print, List.mem_cons_of_mem _ among, reads⟩

theorem step_heard {lines : List TimedLine} {name : String} {ok : Bool}
    (found : ((heardSteps lines).find? fun step => step.1 = name).map Prod.snd = some ok) :
    ∃ line ∈ lines, line.1.step = some (name, ok) := by
  obtain ⟨step, first, rfl⟩ := Option.map_eq_some_iff.mp found
  have named := List.find?_some first
  obtain ⟨line, member, outcome⟩ := List.mem_filterMap.mp (List.mem_of_find?_eq_some first)
  have same : step.1 = name := of_decide_eq_true named
  exact ⟨line, member, same ▸ outcome⟩

/-- A step that is heard has an outcome. -/
theorem outcome_of_step {lines : List TimedLine} {name : String} {ok : Bool}
    (heard : ∃ line ∈ lines, line.1.step = some (name, ok)) :
    ∃ first, ((heardSteps lines).find? fun step => step.1 = name).map Prod.snd = some first := by
  obtain ⟨line, member, outcome⟩ := heard
  cases found : (heardSteps lines).find? fun step => step.1 = name with
  | none =>
      have none := List.find?_eq_none.mp found _ (List.mem_filterMap.mpr ⟨line, member, outcome⟩)
      exact absurd (decide_eq_true rfl) none
  | some first => exact ⟨first.2, rfl⟩

/-- A tier whose line is heard has the time of such a line. -/
theorem tier_heard {lines : List TimedLine} {tier : DutTier}
    (heard : ∃ line ∈ lines, line.1.tier = some tier) :
    ∃ line ∈ lines, line.1.tier = some tier ∧
      ((heardTiers lines).find? fun heard => heard.1 = tier).map Prod.snd = some line.2 := by
  obtain ⟨line, member, ofTier⟩ := heard
  have inTiers : (tier, line.2) ∈ heardTiers lines :=
    List.mem_filterMap.mpr ⟨line, member, by rw [ofTier]; rfl⟩
  cases found : (heardTiers lines).find? fun heard => heard.1 = tier with
  | none =>
      have none := List.find?_eq_none.mp found _ inTiers
      exact absurd (decide_eq_true rfl) none
  | some first =>
      obtain ⟨read, among, ofTier', time⟩ := line_of_tier found
      exact ⟨read, among, ofTier', congrArg some time.symm⟩

section

variable {lag : ℚ} {lead : List DutAction} {answers : BootAnswers} {round : RoundAnswers}
  {during : List (Happened DutAction ℚ)} {lines : List TimedLine} {line : TimedLine}

theorem RoundHeard.lines_infix (heard : RoundHeard lag lead round during lines) :
    lines.map Prod.fst <:+: linesOf (during.map Happened.action) := by
  obtain ⟨prints, here, reading⟩ := heard.reading
  rw [← map_printed, ← map_reads reading]
  exact here.map Prod.fst

/-- A line that is heard is one of the lead or one of the round. -/
theorem RoundHeard.own (heard : RoundHeard lag lead round during lines) (member : line ∈ lines) :
    line.1 ∈ linesOf lead ∨ line.1 ∈ linesOf (roundActions round) :=
  mem_within heard.within (heard.lines_infix.subset (List.mem_map_of_mem member))

theorem RoundHeard.print (heard : RoundHeard lag lead round during lines)
    (member : line ∈ lines) : ∃ print ∈ printed during, ReadOf lag print line := by
  obtain ⟨prints, here, reading⟩ := heard.reading
  obtain ⟨print, among, reads⟩ := print_of_read reading member
  exact ⟨print, here.subset among, reads⟩

variable (plain : ∀ line ∈ linesOf lead, LeadLine answers line)

include plain

/-- The association is that of the lead, and the steps of a ladder are those of the round. -/
theorem RoundHeard.step (heard : RoundHeard lag lead round during lines) {step : String × Bool}
    (told : ∃ line ∈ lines, line.1.step = some step) :
    step = ("associated", answers.connected) ∨
      step = ("twt-installed", decide (round.inst = 1)) ∨
        step = ("wnm-accepted", decide (round.wnmEnter = 0)) := by
  obtain ⟨line, member, outcome⟩ := told
  exact (heard.own member).imp (fun early => (plain _ early).step _ outcome) fun late =>
    step_of_round late outcome

/-- The line of the first tier is the round's. -/
theorem RoundHeard.starts (heard : RoundHeard lag lead round during lines)
    (member : line ∈ lines) (first : line.1.tier = some .noPs) :
    line.1 = .phase .noPs (round.up .noPs) 0 := by
  rcases heard.own member with early | late
  · rw [(plain _ early).tier] at first
    cases first
  · rw [linesOf_round] at late
    have only := (List.mem_filter (p := fun line => line.tier = some .noPs)).mpr
      ⟨late, decide_eq_true first⟩
    exact List.mem_singleton.mp only

/-- The end of the ladder is the round's. -/
theorem RoundHeard.ends (heard : RoundHeard lag lead round during lines)
    (member : line ∈ lines) (last : line.1.isDone = true) :
    line.1 = .ladderDone round.doneUp := by
  rcases heard.own member with early | late
  · rw [(plain _ early).done] at last
    cases last
  · rw [linesOf_round] at late
    have only := (List.mem_filter (p := DutLine.isDone)).mpr ⟨late, last⟩
    exact List.mem_singleton.mp only

/-- Whoever hears a round from its first tier to the end of its ladder hears all of it. -/
theorem RoundHeard.whole (heard : RoundHeard lag lead round during lines)
    (starts : ∃ line ∈ lines, line.1.tier = some .noPs)
    (ends : ∃ line ∈ lines, line.1.isDone = true) :
    ∀ own ∈ tierLines round, ∃ line ∈ lines, line.1 = own := by
  obtain ⟨first, firstIn, ofTier⟩ := starts
  obtain ⟨last, lastIn, done⟩ := ends
  have all := tierLines_heard plain heard.within heard.lines_infix
    (heard.starts plain firstIn ofTier ▸ List.mem_map_of_mem firstIn)
    (heard.ends plain lastIn done ▸ List.mem_map_of_mem lastIn)
  exact fun own member => List.mem_map.mp (all own member)

/-- It hears the line of every tier. -/
theorem RoundHeard.tier (heard : RoundHeard lag lead round during lines)
    (starts : ∃ line ∈ lines, line.1.tier = some .noPs)
    (ends : ∃ line ∈ lines, line.1.isDone = true) (tier : DutTier) :
    ∃ line ∈ lines, line.1.tier = some tier := by
  have later (own : DutLine) (member : own ∈ tierLines round) (ofTier : own.tier = some tier) :
      ∃ line ∈ lines, line.1.tier = some tier := by
    obtain ⟨line, among, same⟩ := heard.whole plain starts ends own member
    exact ⟨line, among, same ▸ ofTier⟩
  cases tier with
  | noPs => exact starts
  | dynPs => exact later _ (.head _) rfl
  | twt => exact later _ (.tail _ (.head _)) rfl
  | wnmPowerdown => exact later _ (.tail _ (.tail _ (.tail _ (.head _)))) rfl

/-- It hears whether the chip has accepted WNM sleep. -/
theorem RoundHeard.accepted (heard : RoundHeard lag lead round during lines)
    (starts : ∃ line ∈ lines, line.1.tier = some .noPs)
    (ends : ∃ line ∈ lines, line.1.isDone = true) :
    ((heardSteps lines).find? fun step => step.1 = "wnm-accepted").map Prod.snd =
      some (decide (round.wnmEnter = 0)) := by
  obtain ⟨line, member, own⟩ := heard.whole plain starts ends (.wnmAccepted round.wnmEnter)
    (.tail _ (.tail _ (.tail _ (.tail _ (.head _)))))
  have told : ∃ line ∈ lines, line.1.step = some ("wnm-accepted", decide (round.wnmEnter = 0)) :=
    ⟨line, member, congrArg DutLine.step own⟩
  obtain ⟨ok, found⟩ := outcome_of_step told
  rcases heard.step plain (step_heard found) with same | same | same
  · exact absurd (congrArg Prod.fst same) (by decide : ¬ "wnm-accepted" = "associated")
  · exact absurd (congrArg Prod.fst same) (by decide : ¬ "wnm-accepted" = "twt-installed")
  · rw [found]
    exact congrArg some (congrArg Prod.snd same)

end

/-- A valid run has heard that the device has associated, and the line of the anchor. -/
theorem heard_of_valid {run : LadderRun} (valid : run.ladder.valid = true) :
    run.steps.get? "associated" = some true ∧
      ∃ tStart, run.phaseT.get? DutTier.noPs.key = some tStart := by
  obtain ⟨associated, anchor⟩ := Bool.and_eq_true_iff.mp valid
  rw [Option.any_eq_true] at anchor
  obtain ⟨nops, stats, -⟩ := anchor
  have plateau := (Regtest.get?_ladder
    (.head _ : Regtest.noPs ∈ Regtest.powerTiers)).symm.trans stats
  obtain ⟨tStart, seen, -⟩ := Option.bind_eq_some_iff.mp plateau
  refine ⟨?_, tStart, seen⟩
  change (run.steps.get? "associated").getD false = true at associated
  cases got : run.steps.get? "associated" with
  | none =>
      rw [got] at associated
      cases associated
  | some ok =>
      rw [got] at associated
      exact congrArg some associated

/-- A device that associates, is triggered once, and whose chip accepts all. -/
def goodRun : DutRun 0 where
  lightSleep := false
  answers := ⟨none, 1, true, true, true⟩
  rounds := [⟨1, 1, 1, fun _ => 2, 80, 0, 1, 0⟩]
  powerSave := true
  run := Timeline.paced (lasts 0) 0
    (appMain false ⟨none, 1, true, true, true⟩ [⟨1, 1, 1, fun _ => 2, 80, 0, 1, 0⟩])
  does := by rw [Timeline.map_paced]
  timely := Timeline.timely_paced (lasts 0) 0 _

/-- Every line is read a tenth of a second behind its print. -/
def goodPasses : List HeardPass := (printed goodRun.run).map fun print =>
  ⟨print.2, some ⟨[], some print.1, [], fun _ _ => not_barred_of_not_mem List.not_mem_nil,
    fun _ _ => tame_of_not_mem List.not_mem_nil⟩, print.2 + 1 / 10⟩

theorem goodPasses_hear : HearsAll (1 / 10) goodRun (goodPasses.filterMap HeardPass.line) := by
  have reads : goodPasses.filterMap HeardPass.line =
      (printed goodRun.run).map fun print => (print.1, print.2 + 1 / 10) := by
    rw [goodPasses, List.filterMap_map, ← List.filterMap_eq_map]
    rfl
  refine ⟨printed goodRun.run, List.infix_rfl, ?_⟩
  rw [reads, List.forall₂_map_right_iff, List.forall₂_same]
  exact fun print _ => ⟨rfl, le_add_of_nonneg_right (by decide +kernel), le_refl _⟩

def goodCapture : LadderCapture where
  phaseT := ⟨[("no-ps", 6 / 5), ("dyn-ps", 1959 / 100), ("twt", 381 / 10),
    ("wnm-powerdown", 5673 / 100)], by decide⟩
  steps := ⟨[("associated", true), ("twt-installed", true), ("wnm-accepted", true)], by decide⟩
  fw := ""
  done := true

theorem goodPasses_captured :
    captureLadder 142 0 (goodPasses.map HeardPass.pass) = some goodCapture := by
  have parts : (captureLadder 142 0 (goodPasses.map HeardPass.pass)).map (fun capture =>
      (capture.phaseT.entries, capture.steps.entries, capture.fw, capture.done)) =
        some (goodCapture.phaseT.entries, goodCapture.steps.entries, "", true) := by
    decide +kernel
  obtain ⟨capture, captured, same⟩ := Option.map_eq_some_iff.mp parts
  obtain ⟨⟨times, _⟩, ⟨outcomes, _⟩, fw, done⟩ := capture
  cases same
  exact captured

/-- A sample in the window of the anchor, and one in that of the WNM tier. -/
def goodReadings : LadderRun where
  ap := "esp"
  polls := [.result (.list [65000]) 12, .result (.list [20000]) 70]
  phaseT := goodCapture.phaseT
  steps := goodCapture.steps
  fw := ""
  dur := 100

/-- **What a plateau measures.** As long as every line is read soon after it was printed, a
tier is scored by samples at each of which the chip was in the mode of the tier. What other
tasks print around the lines has no word that is looked for. -/
theorem plateau_held {tick lag : ℚ} (fine : 0 ≤ tick) (close : lag + 2 * tick < tailS)
    (dut : DutRun tick)
    {passes : List HeardPass} {timeoutS t0 : ℚ} {capture : LadderCapture}
    (hears : ∀ read ∈ passes.filterMap HeardPass.line, ∃ print ∈ printed dut.run,
      ReadOf lag print read)
    (captured : captureLadder timeoutS t0 (passes.map HeardPass.pass) = some capture)
    (series : List Reading) (tier : DutTier) :
    plateauStats capture.phaseT series tier.powerTier =
        (SortedSample.ofList ((measured capture.phaseT series tier).map Reading.batchMeanMa)).map
          Regtest.statsOf ∧
      ∀ reading ∈ measured capture.phaseT series tier,
        dut.modeAt reading.hostTime = tier.mode := by
  obtain ⟨lines, inside, -, tiers, -⟩ := captureLadder_heard captured
  refine ⟨plateauStats_eq capture.phaseT series tier, fun reading member => ?_⟩
  rw [measured, tiers] at member
  cases found : (heardTiers lines).find? fun heard => heard.1 = tier with
  | none =>
      rw [found] at member
      cases member
  | some heard =>
      rw [found] at member
      obtain ⟨-, window⟩ := List.mem_filter.mp member
      obtain ⟨low, high⟩ := of_decide_eq_true window
      obtain ⟨read, among, ofTier, time⟩ := line_of_tier found
      rw [← time] at low high
      obtain ⟨print, member, reads⟩ := hears read (inside.subset among)
      have printOf : print.1.tier = some tier := by rw [reads.same, ofTier]
      have settled : 0 ≤ settleS := by decide +kernel
      have whole : (phaseS : ℚ) = powerPhaseS := by decide +kernel
      refine modeAt_of_print fine dut member printOf ?_ ?_
      · linarith [reads.later]
      · linarith [reads.soon]

theorem plateau_held_goodRun : goodRun.modeAt 70 = DutTier.wnmPowerdown.mode := by
  have soon : ∀ read ∈ goodPasses.filterMap HeardPass.line, ∃ print ∈ printed goodRun.run,
      ReadOf (1 / 10) print read := by
    obtain ⟨segment, inside, reading⟩ := goodPasses_hear
    intro read member
    obtain ⟨print, among, reads⟩ := print_of_read reading member
    exact ⟨print, inside.subset among, reads⟩
  have held := plateau_held (le_refl 0) (by decide +kernel) goodRun soon goodPasses_captured
    (Regtest.sampled goodReadings.polls) .wnmPowerdown
  exact held.2 ⟨70, 20⟩ (by decide +kernel)

/-- **Behind a WNM tier that passes.** When the harness has heard a ladder to its end, every
line of it in time, and the WNM tier passes, the device had associated, the chip had accepted
WNM sleep in the round that is measured, and every plateau starts at the line of its tier in
that round. -/
theorem wnm_pass_measured {tick lag : ℚ} (dut : DutRun tick) {passes : List HeardPass}
    {timeoutS t0 : ℚ} {capture : LadderCapture}
    (hears : HearsAll lag dut (passes.filterMap HeardPass.line))
    (captured : captureLadder timeoutS t0 (passes.map HeardPass.pass) = some capture)
    (done : capture.done = true) {run : LadderRun} (phaseT : run.phaseT = capture.phaseT)
    (steps : run.steps = capture.steps) {table : Regtest.BandTable}
    (passed : (Regtest.scoreTier table run.ladder Regtest.wnmPowerdown).status = .pass) :
    dut.answers.connected = true ∧ ∃ round ∈ dut.rounds, round.wnmEnter = 0 ∧
      ∃ during, during <:+: dut.run ∧
        WithinRound (leadIn dut.lightSleep dut.answers) (during.map Happened.action) round ∧
        ∀ tier : DutTier, ∃ print ∈ printed during, print.1.tier = some tier ∧
          ∃ t, run.phaseT.get? tier.key = some t ∧ print.2 ≤ t ∧ t ≤ print.2 + lag := by
  obtain ⟨st, band, valid, -, -, -, -, accepted⟩ := Regtest.wnm_pass_iff.mp passed
  obtain ⟨associated, tStart, anchor⟩ := heard_of_valid valid
  obtain ⟨lines, inside, unended, tiers, outcomes, ended⟩ := captureLadder_heard captured
  change (run.steps.get? "wnm-accepted").getD true = true at accepted
  rw [phaseT, tiers] at anchor
  obtain ⟨first, found, -⟩ := Option.map_eq_some_iff.mp anchor
  obtain ⟨anchorLine, anchorIn, ofNoPs, -⟩ := line_of_tier found
  have starts : ∃ line ∈ lines, line.1.tier = some .noPs := ⟨anchorLine, anchorIn, ofNoPs⟩
  have ends : ∃ line ∈ lines, line.1.isDone = true := List.any_eq_true.mp (ended.symm.trans done)
  have plain := leadLines dut.lightSleep dut.answers
  obtain ⟨round, inRounds, during, stretch, heard⟩ :=
    hears.round inside unended ⟨anchorLine, anchorIn, by rw [ofNoPs]; rfl⟩
  rw [steps, outcomes] at associated accepted
  refine ⟨?_, round, inRounds, ?_, during, stretch, heard.within, fun tier => ?_⟩
  · rcases heard.step plain (step_heard associated) with same | same | same
    · exact (congrArg Prod.snd same).symm
    · exact absurd (congrArg Prod.fst same) (by decide : ¬ "associated" = "twt-installed")
    · exact absurd (congrArg Prod.fst same) (by decide : ¬ "associated" = "wnm-accepted")
  · rw [heard.accepted plain starts ends] at accepted
    exact of_decide_eq_true accepted
  · obtain ⟨line, member, ofTier, time⟩ := tier_heard (heard.tier plain starts ends tier)
    obtain ⟨print, printedHere, reads⟩ := heard.print member
    refine ⟨print, printedHere, by rw [reads.same, ofTier], line.2, ?_, reads.later, reads.soon⟩
    rw [phaseT, tiers, time]

theorem wnm_pass_measured_goodRun : goodRun.answers.connected = true ∧
    ∃ round ∈ goodRun.rounds, round.wnmEnter = 0 := by
  have passed : (Regtest.scoreTier Regtest.powerBands goodReadings.ladder
      Regtest.wnmPowerdown).status = .pass := by decide +kernel
  obtain ⟨connected, round, inRounds, accepted, -⟩ :=
    wnm_pass_measured goodRun goodPasses_hear goodPasses_captured rfl rfl rfl passed
  exact ⟨connected, round, inRounds, accepted⟩

end Rimba.PowerLadder
