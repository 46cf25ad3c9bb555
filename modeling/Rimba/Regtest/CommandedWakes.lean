import Rimba.Regtest.DscycleRun
import Rimba.Regtest.FreshBoot

/-! # The wakes that are commanded

When a wake pulse of `_capture` may start: the port is gone and was noticed to be for
`_WAKE_SETTLE_S`, the pulse before it was commanded `_WAKE_RETRY_S` ago or in an earlier
absence, and the companion is not lost. A companion that dies is reopened at once and
the pulse issued again, which is the one that need not wait
(`Rimba.Regtest.Dscycle.wakes_commanded`).
-/

namespace Rimba.Regtest.Dscycle

open Foundation (Machine)

/-- A pass, with the time its companion takes to be reopened. -/
structure TimedPass where
  pass : Pass
  reopening : NNRat

/-- A pulse that is attempted, for a command or again behind a reopened companion. -/
structure Attempt where
  start : ℚ
  again : Bool
  deriving DecidableEq

/-- What there is to see of a run: the port, and the attempts. -/
inductive WakeEvent where
  | port (event : PortEvent)
  | attempt (attempt : Attempt)
  deriving DecidableEq

/-- The attempts of a command at `now`. -/
def PulseOutcome.attempts (now : ℚ) (reopening : NNRat) : PulseOutcome → List Attempt
  | .sent | .gone => [⟨now, false⟩]
  | .reissued | .diedAgain => [⟨now, false⟩, ⟨now + reopening, true⟩]

/-- The attempts of a pass. -/
def CaptureState.attempts (state : CaptureState) (reopening : NNRat) : PortFound → List Attempt
  | .absent now outcome =>
      if state.commandsPulse now then outcome.attempts now reopening else []
  | .refused _ | .opened _ _ | .held _ => []

/-- What a pass shows. -/
def CaptureState.shows (state : CaptureState) (timed : TimedPass) : List WakeEvent :=
  timed.pass.found.eventsBefore.map .port ++
    ((state.attempts timed.reopening timed.pass.found).map .attempt ++
      timed.pass.found.outcome.events.map .port)

/-- The loop of `_capture` with its times. -/
def timedMachine (c6 : Bool) (tEnd : ℚ) (need : ℤ) : Machine CaptureState TimedPass where
  initial := (captureFor c6 tEnd need).initial
  step state timed := (captureFor c6 tEnd need).step state timed.pass

/-- What is to see from a state on. -/
def timelineFrom (c6 : Bool) (tEnd : ℚ) (need : ℤ) (state : CaptureState)
    (passes : List TimedPass) : List WakeEvent :=
  ((timedMachine c6 tEnd need).transitionsFrom state passes).flatMap fun taken =>
    taken.before.shows taken.label

def timeline (c6 : Bool) (tEnd : ℚ) (need : ℤ) (passes : List TimedPass) : List WakeEvent :=
  timelineFrom c6 tEnd need (timedMachine c6 tEnd need).initial passes

/-- What the port has shown. -/
def portEvents (events : List WakeEvent) : List PortEvent :=
  events.filterMap fun
    | .port event => some event
    | .attempt _ => none

def PortEvent.isOpened : PortEvent → Bool
  | .opened _ => true
  | .missing _ | .lost _ | .line _ => false

/-- The pulses of a run are commanded when they may be. -/
structure WakesCommanded (c6 : Bool) (tEnd : ℚ) (need : ℤ) (passes : List TimedPass) :
    Prop where
  /-- Behind the events that make the port gone since `since`, and not before it settled. -/
  settled : ∀ front attempt, front ++ [.attempt attempt] <+: timeline c6 tEnd need passes →
    ∃ since, GoneSince since (portEvents front) ∧ since + wakeSettleS ≤ attempt.start
  /-- Two commands of one absence. -/
  spaced : ∀ front first between second,
    front ++ .attempt first :: (between ++ [.attempt second]) <+: timeline c6 tEnd need passes →
    (∀ event ∈ portEvents between, event.isOpened = false) →
    first.again = false → second.again = false → first.start + wakeRetryS ≤ second.start
  /-- A pulse is issued again right behind its command. -/
  reissued : ∀ front attempt, front ++ [.attempt attempt] <+: timeline c6 tEnd need passes →
    attempt.again = true →
    ∃ early start, front = early ++ [.attempt ⟨start, false⟩] ∧ start ≤ attempt.start
  /-- None is issued once the companion is lost. -/
  lost : ∀ past later state, passes = past ++ later →
    (timedMachine c6 tEnd need).run past = some state → state.c6Lost ≠ "" →
    ∀ attempt, .attempt attempt ∉ timelineFrom c6 tEnd need state later

/-- The commands since the port was last opened. -/
def commandedSince (events : List WakeEvent) : List ℚ :=
  events.foldl (fun since event =>
    match event with
    | .port (.opened _) => []
    | .attempt ⟨start, false⟩ => since ++ [start]
    | _ => since) []

section

variable {events : List WakeEvent}

theorem commandedSince_opened (now : ℚ) :
    commandedSince (events ++ [.port (.opened now)]) = [] := by
  rw [commandedSince, List.foldl_concat]

theorem commandedSince_command (start : ℚ) :
    commandedSince (events ++ [.attempt ⟨start, false⟩]) = commandedSince events ++ [start] := by
  rw [commandedSince, List.foldl_concat, ← commandedSince]

theorem commandedSince_again (start : ℚ) :
    commandedSince (events ++ [.attempt ⟨start, true⟩]) = commandedSince events := by
  rw [commandedSince, List.foldl_concat, ← commandedSince]

theorem commandedSince_port {event : PortEvent} (closed : event.isOpened = false) :
    commandedSince (events ++ [.port event]) = commandedSince events := by
  rw [commandedSince, List.foldl_concat, ← commandedSince]
  cases event with
  | missing now => rfl
  | opened now => cases closed
  | lost now => rfl
  | line text => rfl

/-- A command is remembered until the port opens. -/
theorem mem_commandedSince {front between : List WakeEvent} {start : ℚ}
    (closed : ∀ event ∈ portEvents between, event.isOpened = false) :
    start ∈ commandedSince (front ++ .attempt ⟨start, false⟩ :: between) := by
  induction between using List.reverseRecOn with
  | nil =>
      rw [commandedSince_command]
      exact List.mem_append_right _ (List.mem_singleton_self start)
  | append_singleton between event ih =>
      rw [portEvents, List.filterMap_append, List.forall_mem_append] at closed
      have kept := ih closed.1
      rw [← List.cons_append, ← List.append_assoc]
      cases event with
      | port event =>
          rw [commandedSince_port (closed.2 event List.mem_cons_self)]
          exact kept
      | attempt attempt =>
          obtain ⟨later, again⟩ := attempt
          cases again with
          | false =>
              rw [commandedSince_command]
              exact List.mem_append_left _ kept
          | true =>
              rw [commandedSince_again]
              exact kept

end

/-- When an attempt may start, `front` having been seen before. -/
structure MayStart (front : List WakeEvent) (attempt : Attempt) : Prop where
  settled : ∃ since, GoneSince since (portEvents front) ∧ since + wakeSettleS ≤ attempt.start
  spaced : attempt.again = false →
    ∀ start ∈ commandedSince front, start + wakeRetryS ≤ attempt.start
  reissued : attempt.again = true →
    ∃ early start, front = early ++ [.attempt ⟨start, false⟩] ∧ start ≤ attempt.start

/-- Each attempt starts when it may. -/
def EachMayStart (events : List WakeEvent) : Prop :=
  ∀ front attempt, front ++ [.attempt attempt] <+: events → MayStart front attempt

theorem EachMayStart.concat {events : List WakeEvent} (each : EachMayStart events)
    {event : WakeEvent} (may : ∀ attempt, event = .attempt attempt → MayStart events attempt) :
    EachMayStart (events ++ [event]) := by
  intro front attempt isPrefix
  rcases List.prefix_concat_iff.mp isPrefix with whole | early
  · obtain ⟨rfl, same⟩ := List.append_inj' whole rfl
    exact may attempt (List.cons.inj same).1.symm
  · exact each front attempt early

theorem EachMayStart.ports {events : List WakeEvent} (each : EachMayStart events)
    (more : List PortEvent) : EachMayStart (events ++ more.map .port) := by
  induction more using List.reverseRecOn with
  | nil => rwa [List.map_nil, List.append_nil]
  | append_singleton more event ih =>
      rw [List.map_append, List.map_singleton, ← List.append_assoc]
      exact ih.concat nofun

theorem commandsPulse_iff {state : CaptureState} {now : ℚ} : state.commandsPulse now = true ↔
    ∃ since, state.goneSince = some since ∧ state.c6 = true ∧ wakeSettleS ≤ now - since ∧
      ∀ last, state.lastPulseAt = some last → wakeRetryS ≤ now - last := by
  rw [CaptureState.commandsPulse]
  cases state.goneSince with
  | none => simp only [Bool.false_eq_true, reduceCtorEq, false_and, exists_false]
  | some since =>
      simp only [Bool.and_eq_true, decide_eq_true_eq, Option.all_eq_true, Option.some.injEq,
        exists_eq_left', and_assoc]

theorem portEvents_append (front back : List WakeEvent) :
    portEvents (front ++ back) = portEvents front ++ portEvents back :=
  List.filterMap_append

theorem portEvents_ports (events : List PortEvent) : portEvents (events.map .port) = events := by
  rw [portEvents, List.filterMap_map]
  exact List.filterMap_some

theorem portEvents_attempts (attempts : List Attempt) :
    portEvents (attempts.map .attempt) = [] := by
  rw [portEvents, List.filterMap_map]
  exact List.filterMap_eq_nil_iff.mpr fun _ _ => rfl

/-- What the attempts so far and the variables have to do with each other. -/
structure Commanding (events : List WakeEvent) (state : CaptureState) : Prop where
  follows : Follows (portEvents events) state
  each : EachMayStart events
  idle : state.goneSince = none → commandedSince events = []
  last : ∀ start ∈ commandedSince events, ∃ last, state.lastPulseAt = some last ∧ start ≤ last

section

variable {events : List WakeEvent} {state : CaptureState}

/-- A missing port for which no wake is commanded. -/
theorem Commanding.notePortMissing (commanding : Commanding events state)
    (closed : state.serOpen = false) (now : ℚ) :
    Commanding (events ++ [.port (.missing now)]) (state.notePortMissing now) := by
  have follows := commanding.follows.notePortMissing closed now
  have each := commanding.each.ports [.missing now]
  cases since : state.goneSince with
  | none =>
      have noCommand := commanding.idle since
      simp only [CaptureState.notePortMissing, since] at follows ⊢
      refine ⟨?_, each, fun absent => (by cases absent), ?_⟩
      · rwa [portEvents_append]
      · rw [commandedSince_port rfl, noCommand]
        exact List.forall_mem_nil _
  | some first =>
      simp only [CaptureState.notePortMissing, since] at follows ⊢
      refine ⟨?_, each, fun absent => absurd (since.symm.trans absent) (Option.some_ne_none _), ?_⟩
      · rwa [portEvents_append]
      · rw [commandedSince_port rfl]
        exact commanding.last

/-- A command may start when it does. -/
theorem Commanding.mayStart (commanding : Commanding events state)
    (closed : state.serOpen = false) {now : ℚ} (commands : state.commandsPulse now = true) :
    MayStart (events ++ [.port (.missing now)]) ⟨now, false⟩ := by
  obtain ⟨since, gone, -, settled, retries⟩ := commandsPulse_iff.mp commands
  have follows := commanding.follows.notePortMissing closed now
  simp only [CaptureState.notePortMissing, gone] at follows
  constructor
  · refine ⟨since, ?_, le_sub_iff_add_le'.mp settled⟩
    rw [portEvents_append]
    exact follows.gone since gone
  · intro _ start earlier
    rw [commandedSince_port rfl] at earlier
    obtain ⟨last, isLast, before⟩ := commanding.last start earlier
    calc start + wakeRetryS
      _ ≤ last + wakeRetryS := add_le_add_left before wakeRetryS
      _ ≤ now := le_sub_iff_add_le'.mp (retries last isLast)
  · intro again
    cases again

/-- A pulse may be issued again behind its command. -/
theorem MayStart.again {start : ℚ} (command : MayStart events ⟨start, false⟩) (reopening : NNRat) :
    MayStart (events ++ [.attempt ⟨start, false⟩]) ⟨start + reopening, true⟩ := by
  have later : start ≤ start + (reopening : ℚ) := le_add_of_nonneg_right reopening.2
  constructor
  · obtain ⟨since, gone, settled⟩ := command.settled
    refine ⟨since, ?_, settled.trans later⟩
    rw [portEvents_append]
    simpa only [portEvents, List.filterMap_cons, List.filterMap_nil, List.append_nil] using gone
  · intro again
    cases again
  · exact fun _ => ⟨events, start, rfl, later⟩

/-- The attempts of a command. -/
theorem EachMayStart.attempts (each : EachMayStart events) {now : ℚ} (reopening : NNRat)
    (command : MayStart events ⟨now, false⟩) (outcome : PulseOutcome) :
    EachMayStart (events ++ (outcome.attempts now reopening).map .attempt) ∧
      commandedSince (events ++ (outcome.attempts now reopening).map .attempt) =
        commandedSince events ++ [now] := by
  have once : EachMayStart (events ++ [.attempt ⟨now, false⟩]) :=
    each.concat fun attempt same => WakeEvent.attempt.inj same ▸ command
  have twice : EachMayStart ((events ++ [.attempt ⟨now, false⟩]) ++
      [.attempt ⟨now + reopening, true⟩]) :=
    once.concat fun attempt same => WakeEvent.attempt.inj same ▸ command.again reopening
  rw [List.append_assoc] at twice
  have commandedTwice : commandedSince
      (events ++ [.attempt ⟨now, false⟩, .attempt ⟨now + reopening, true⟩]) =
        commandedSince events ++ [now] := by
    rw [List.append_cons, commandedSince_again, commandedSince_command]
  cases outcome with
  | sent => exact ⟨once, commandedSince_command now⟩
  | gone => exact ⟨once, commandedSince_command now⟩
  | reissued => exact ⟨twice, commandedTwice⟩
  | diedAgain => exact ⟨twice, commandedTwice⟩

/-- A port that is absent, whether or not a wake is commanded. -/
theorem Commanding.portAbsent (commanding : Commanding events state)
    (closed : state.serOpen = false) (now : ℚ) (outcome : PulseOutcome) (reopening : NNRat) :
    Commanding (events ++ ([.port (.missing now)] ++
      (state.attempts reopening (.absent now outcome)).map .attempt))
      (state.portAbsent now outcome) := by
  have follows := commanding.follows.portAbsent closed now outcome
  rw [← List.append_assoc]
  cases commands : state.commandsPulse now with
  | false =>
      simpa only [CaptureState.attempts, CaptureState.portAbsent, commands, Bool.false_eq_true,
        ↓reduceIte, List.map_nil, List.append_nil] using commanding.notePortMissing closed now
  | true =>
      obtain ⟨each, commanded⟩ := (commanding.each.ports [.missing now]).attempts reopening
        (commanding.mayStart closed commands) outcome
      obtain ⟨since, gone, -, -, retries⟩ := commandsPulse_iff.mp commands
      simp only [CaptureState.attempts, CaptureState.portAbsent, commands, ↓reduceIte] at follows ⊢
      have still : (state.pulse outcome).goneSince = some since := by
        cases outcome <;> exact gone
      constructor
      · rw [portEvents_append, portEvents_append, portEvents_attempts, List.append_nil]
        exact follows
      · exact each
      · exact fun absent => absurd (still.symm.trans absent) (Option.some_ne_none _)
      · intro start member
        rw [List.map_singleton] at commanded
        rw [commanded, commandedSince_port rfl] at member
        refine ⟨now, rfl, ?_⟩
        rcases List.mem_append.mp member with earlier | here
        · obtain ⟨last, isLast, before⟩ := commanding.last start earlier
          have positive : (0 : ℚ) ≤ wakeRetryS := by decide
          exact before.trans (sub_nonneg.mp (positive.trans (retries last isLast)))
        · exact (List.mem_singleton.mp here).le

/-- What is read while the port is open. -/
theorem Commanding.readLine (commanding : Commanding events state)
    (isOpen : state.serOpen = true) (outcome : ReadOutcome) :
    Commanding (events ++ outcome.events.map .port) (state.readLine outcome) := by
  have follows := commanding.follows.readLine isOpen outcome
  have noCommand := commanding.idle (commanding.follows.held isOpen).1
  have each := commanding.each.ports outcome.events
  have still : commandedSince (events ++ outcome.events.map .port) = [] := by
    cases outcome with
    | line text => exact (commandedSince_port rfl).trans noCommand
    | silent =>
        rw [ReadOutcome.events, List.map_nil, List.append_nil]
        exact noCommand
    | raised now => exact (commandedSince_port rfl).trans noCommand
  constructor
  · rw [portEvents_append, portEvents_ports]
    exact follows
  · exact each
  · exact fun _ => still
  · rw [still]
    exact List.forall_mem_nil _

/-- The port opens. -/
theorem Commanding.portOpened (commanding : Commanding events state)
    (closed : state.serOpen = false) (now : ℚ) :
    Commanding (events ++ [.port (.opened now)]) (state.portOpened now) := by
  have follows := commanding.follows.portOpened closed now
  have opened := @commandedSince_opened events now
  constructor
  · rw [portEvents_append]
    exact follows
  · exact commanding.each.ports [.opened now]
  · exact fun _ => opened
  · rw [opened]
    exact List.forall_mem_nil _

/-- One pass. -/
theorem Commanding.pass (commanding : Commanding events state) {timed : TimedPass}
    {after : CaptureState} (passed : state.pass timed.pass.found = some after) :
    Commanding (events ++ state.shows timed) after := by
  rw [CaptureState.shows]
  cases found : timed.pass.found with
  | absent now outcome =>
      rw [found] at passed
      obtain ⟨closed, rfl⟩ := CaptureState.pass_absent.mp passed
      rw [PortFound.outcome, ReadOutcome.events, List.map_nil, List.append_nil]
      exact commanding.portAbsent closed now outcome timed.reopening
  | refused now =>
      rw [found] at passed
      obtain ⟨closed, rfl⟩ := CaptureState.pass_refused.mp passed
      exact commanding.notePortMissing closed now
  | opened now outcome =>
      rw [found] at passed
      obtain ⟨closed, rfl⟩ := CaptureState.pass_opened.mp passed
      have read := (commanding.portOpened closed now).readLine (state.portOpened_serOpen now)
        outcome
      rw [List.append_assoc] at read
      exact read
  | held outcome =>
      rw [found] at passed
      obtain ⟨isOpen, rfl⟩ := CaptureState.pass_held.mp passed
      exact commanding.readLine isOpen outcome

/-- Without a companion nothing is attempted, and there is none after it. -/
theorem attempts_lost (lost : state.c6 = false) (reopening : NNRat) (found : PortFound) :
    state.attempts reopening found = [] := by
  cases found with
  | absent now outcome =>
      have silent : state.commandsPulse now = false := by
        rw [Bool.eq_false_iff]
        intro commands
        obtain ⟨since, -, companion, -⟩ := commandsPulse_iff.mp commands
        exact Bool.false_ne_true (lost.symm.trans companion)
      rw [CaptureState.attempts, silent, if_neg Bool.false_ne_true]
  | refused now => rfl
  | opened now outcome => rfl
  | held outcome => rfl

/-- What a pass does to the companion. -/
def CaptureState.companion (state : CaptureState) : Bool × String := (state.c6, state.c6Lost)

theorem companion_notePortMissing (now : ℚ) :
    (state.notePortMissing now).companion = state.companion := by
  rw [CaptureState.notePortMissing]
  split <;> rfl

theorem companion_portOpened (now : ℚ) : (state.portOpened now).companion = state.companion := by
  rw [CaptureState.portOpened]
  split
  · rfl
  · simp only
    split_ifs <;> rfl

theorem companion_readLine (outcome : ReadOutcome) :
    (state.readLine outcome).companion = state.companion := by
  cases outcome with
  | line text =>
      simp only [CaptureState.readLine, CaptureState.readText]
      split
      · split_ifs <;> rfl
      · split_ifs <;> rfl
  | silent => rfl
  | raised now => rfl

/-- Once the companion is lost it is gone for good. -/
def LostForGood (state : CaptureState) : Prop :=
  state.c6Lost ≠ "" → state.c6 = false

theorem LostForGood.congr {other : CaptureState} (gone : LostForGood state)
    (same : other.companion = state.companion) : LostForGood other := by
  obtain ⟨c6, c6Lost⟩ := Prod.mk.inj same
  rw [LostForGood, c6, c6Lost]
  exact gone

theorem LostForGood.portAbsent (gone : LostForGood state) (now : ℚ) (outcome : PulseOutcome) :
    LostForGood (state.portAbsent now outcome) := by
  rw [CaptureState.portAbsent]
  split_ifs
  · cases outcome with
    | sent => exact gone
    | reissued => exact gone
    | diedAgain => exact fun _ => rfl
    | gone => exact fun _ => rfl
  · exact gone.congr (companion_notePortMissing now)

/-- What a pass does to a companion that is gone: nothing. -/
theorem companion_pass {after : CaptureState} {found : PortFound}
    (passed : state.pass found = some after) :
    (state.c6 = false → after.companion = state.companion) ∧
      (LostForGood state → LostForGood after) := by
  cases found with
  | absent now outcome =>
      obtain ⟨-, rfl⟩ := CaptureState.pass_absent.mp passed
      refine ⟨fun lost => ?_, fun gone => gone.portAbsent now outcome⟩
      have silent : ¬ state.commandsPulse now = true := by
        intro commands
        obtain ⟨since, -, companion, -⟩ := commandsPulse_iff.mp commands
        exact Bool.false_ne_true (lost.symm.trans companion)
      rw [CaptureState.portAbsent, if_neg silent]
      exact companion_notePortMissing now
  | refused now =>
      obtain ⟨-, rfl⟩ := CaptureState.pass_refused.mp passed
      have same := @companion_notePortMissing state now
      exact ⟨fun _ => same, fun gone => gone.congr same⟩
  | opened now outcome =>
      obtain ⟨-, rfl⟩ := CaptureState.pass_opened.mp passed
      have same := (companion_readLine outcome).trans (@companion_portOpened state now)
      exact ⟨fun _ => same, fun gone => gone.congr same⟩
  | held outcome =>
      obtain ⟨-, rfl⟩ := CaptureState.pass_held.mp passed
      have same := @companion_readLine state outcome
      exact ⟨fun _ => same, fun gone => gone.congr same⟩

end

section

variable {c6 : Bool} {tEnd : ℚ} {need : ℤ}

theorem pass_of_timedStep {before after : CaptureState} {timed : TimedPass}
    (stepped : (timedMachine c6 tEnd need).step before timed = some after) :
    before.pass timed.pass.found = some after :=
  ((@step_captureFor c6 tEnd need before after timed.pass).mp stepped).2

theorem timelineFrom_cons {state next : CaptureState} {timed : TimedPass}
    {passes : List TimedPass}
    (stepped : (timedMachine c6 tEnd need).step state timed = some next) :
    timelineFrom c6 tEnd need state (timed :: passes) =
      state.shows timed ++ timelineFrom c6 tEnd need next passes := by
  simp only [timelineFrom, Machine.transitionsFrom, stepped, List.flatMap_cons]

theorem timelineFrom_refused {state : CaptureState} {timed : TimedPass}
    {passes : List TimedPass} (stepped : (timedMachine c6 tEnd need).step state timed = none) :
    timelineFrom c6 tEnd need state (timed :: passes) = [] := by
  simp only [timelineFrom, Machine.transitionsFrom, stepped, List.flatMap_nil]

/-- Each attempt of a run starts when it may. -/
theorem Commanding.timelineFrom {events : List WakeEvent} {state : CaptureState}
    (commanding : Commanding events state) (passes : List TimedPass) :
    EachMayStart (events ++ timelineFrom c6 tEnd need state passes) := by
  induction passes generalizing events state with
  | nil => exact (List.append_nil events).symm ▸ commanding.each
  | cons timed passes ih =>
      cases stepped : (timedMachine c6 tEnd need).step state timed with
      | none =>
          rw [timelineFrom_refused stepped, List.append_nil]
          exact commanding.each
      | some next =>
          rw [timelineFrom_cons stepped, ← List.append_assoc]
          exact ih (commanding.pass (pass_of_timedStep stepped))

theorem commanding_initial : Commanding [] (timedMachine c6 tEnd need).initial where
  follows := Follows.initial c6 tEnd need.toNat
  each front attempt isPrefix := by
    have empty := List.prefix_nil.mp isPrefix
    exact absurd empty (List.append_ne_nil_of_right_ne_nil front (List.cons_ne_nil _ _))
  idle _ := rfl
  last := List.forall_mem_nil _

/-- From a state without a companion on, nothing is attempted. -/
theorem no_attempt_timelineFrom {state : CaptureState} (lost : state.c6 = false)
    (passes : List TimedPass) (attempt : Attempt) :
    .attempt attempt ∉ timelineFrom c6 tEnd need state passes := by
  induction passes generalizing state with
  | nil => exact List.not_mem_nil
  | cons timed passes ih =>
      cases stepped : (timedMachine c6 tEnd need).step state timed with
      | none =>
          rw [timelineFrom_refused stepped]
          exact List.not_mem_nil
      | some next =>
          have same := (companion_pass (pass_of_timedStep stepped)).1 lost
          have still : next.c6 = false := (Prod.mk.inj same).1.trans lost
          rw [timelineFrom_cons stepped, List.mem_append]
          rintro (here | later)
          · simp only [CaptureState.shows, attempts_lost lost, List.map_nil, List.nil_append,
              List.mem_append, List.mem_map, reduceCtorEq, and_false, exists_false,
              or_self] at here
          · exact ih still later

theorem lostForGood_invariant : (timedMachine c6 tEnd need).Invariant LostForGood where
  initial lost := absurd rfl lost
  step _ _ _ gone stepped := (companion_pass (pass_of_timedStep stepped)).2 gone

theorem wakesCommanded_timeline (passes : List TimedPass) :
    WakesCommanded c6 tEnd need passes := by
  have each : EachMayStart (timeline c6 tEnd need passes) := by
    have started := @commanding_initial c6 tEnd need
    exact @Commanding.timelineFrom c6 tEnd need [] _ started passes
  constructor
  · exact fun front attempt seen => (each front attempt seen).settled
  · intro front first between second seen closed command command'
    obtain ⟨start, again⟩ := first
    obtain rfl : again = false := command
    rw [← List.cons_append, ← List.append_assoc] at seen
    exact (each _ _ seen).spaced command' start (mem_commandedSince closed)
  · exact fun front attempt seen => (each front attempt seen).reissued
  · intro past later state _ reached lost
    exact no_attempt_timelineFrom (lostForGood_invariant.run reached lost) later

end

/-- The pulses of a run are commanded when they may be, and no failure is recorded once
the companion is lost. -/
theorem wakes_commanded (c6 : Bool) (tEnd : ℚ) (need : ℤ) (passes : List TimedPass) :
    WakesCommanded c6 tEnd need passes ∧
      ∀ cycles prior answers reporter captured, answers.captured cycles = some captured →
        captured.c6Lost ≠ "" → run cycles prior answers = some reporter →
        ∀ result ∈ reporter.results, result.status ≠ .fail := by
  refine ⟨wakesCommanded_timeline passes, ?_⟩
  intro cycles prior answers reporter captured ended lost ran result member failed
  obtain ⟨captured', ended', notLost⟩ := run_fail ran member failed
  obtain rfl := Option.some.inj (ended.symm.trans ended')
  exact lost notLost

/-- The companion dies at the first command and is back three seconds later. -/
def reissuedWake : List TimedPass :=
  [⟨⟨0, .absent 0 .sent⟩, 0⟩, ⟨⟨2, .absent 2 .reissued⟩, 3⟩]

/-- The pulse that is issued again does not wait. -/
theorem reissue_early : ¬ ∀ c6 tEnd need passes front first between second,
    front ++ .attempt first :: (between ++ [.attempt second]) <+: timeline c6 tEnd need passes →
    (∀ event ∈ portEvents between, event.isOpened = false) →
    first.start + wakeRetryS ≤ second.start := by
  intro always
  have seen : timeline true 100 1 reissuedWake =
      [.port (.missing 0), .port (.missing 2), .attempt ⟨2, false⟩, .attempt ⟨5, true⟩] := by
    decide +kernel
  have apart := always true 100 1 reissuedWake [.port (.missing 0), .port (.missing 2)]
    ⟨2, false⟩ [] ⟨5, true⟩ (seen ▸ List.prefix_rfl) (List.forall_mem_nil _)
  exact absurd apart (by decide +kernel)

end Rimba.Regtest.Dscycle
