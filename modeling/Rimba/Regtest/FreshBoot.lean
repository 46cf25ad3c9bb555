import Mathlib.Data.List.Basic
import Rimba.Regtest.Dscycle

/-! # The association after flashing

A wake cycle is a sleep the board has come back from; the association after it was
flashed is none. `_capture` takes the time the port needs to enumerate first for a
sleep like any other, so when that takes long the association after flashing is
counted (`Rimba.Regtest.Dscycle.freshBoot_counted`). Otherwise it counts a reconnect
only behind evidence of a sleep: the counting is right exactly when, at every
reconnect, the first open was prompt or the board has shown such evidence since
(`Rimba.Regtest.Dscycle.countsWakes_iff`).
-/

namespace Rimba.Regtest.Dscycle

open Foundation (Machine)

/-- What there is to see of the board: its port is missing, opens, is lost, or a
line arrives. -/
inductive PortEvent where
  | missing (now : ℚ)
  | opened (now : ℚ)
  | lost (now : ℚ)
  | line (text : List Char)
  deriving DecidableEq

/-- What `readline` shows. -/
def ReadOutcome.events : ReadOutcome → List PortEvent
  | .line text => [.line text]
  | .silent => []
  | .raised now => [.lost now]

/-- What one pass shows before it reads. -/
def PortFound.eventsBefore : PortFound → List PortEvent
  | .absent now _ | .refused now => [.missing now]
  | .opened now _ => [.opened now]
  | .held _ => []

/-- What one pass reads. -/
def PortFound.outcome : PortFound → ReadOutcome
  | .absent _ _ | .refused _ => .silent
  | .opened _ outcome | .held outcome => outcome

/-- What a run of passes shows. -/
def shown (passes : List Pass) : List PortEvent :=
  passes.flatMap fun pass => pass.found.eventsBefore ++ pass.found.outcome.events

/-- What a run of passes and the next one show before that one reads. -/
def shownBefore (past : List Pass) (pass : Pass) : List PortEvent :=
  shown past ++ pass.found.eventsBefore

def PortEvent.isMissing : PortEvent → Bool
  | .missing _ => true
  | _ => false

/-- Since the port was first opened the board has logged `DEEP SLEEP`, or its port
was gone for `_DEEPSLEEP_GAP_S`. -/
def SleepShown (events : List PortEvent) : Prop :=
  ∃ front first back, events = front ++ .opened first :: back ∧
    ((∃ text, .line text ∈ back ∧ (reSleep.search text).isSome = true) ∨
      ∃ early since gone again late,
        back = early ++ .lost since :: (gone ++ .opened again :: late) ∧
        (∀ event ∈ gone, event.isMissing = true) ∧ deepsleepGapS ≤ again - since)

/-- Every reconnect that is counted as a wake cycle comes behind evidence of a
sleep. -/
def CountsWakes (c6 : Bool) (tEnd : ℚ) (need : ℕ) (passes : List Pass) : Prop :=
  ∀ past pass later before after, passes = past ++ pass :: later →
    (captureMachine c6 tEnd need).run past = some before →
    (captureMachine c6 tEnd need).step before pass = some after →
    before.cycles < after.cycles → SleepShown (shownBefore past pass)

/-- The port was first opened `_DEEPSLEEP_GAP_S` or more after it was first found
missing. -/
def LateFirstOpen (events : List PortEvent) : Prop :=
  ∃ since gone first back, events = .missing since :: (gone ++ .opened first :: back) ∧
    (∀ event ∈ gone, event.isMissing = true) ∧ deepsleepGapS ≤ first - since

/-- The pass reads a `RECONNECTED` line. -/
def Reconnects (pass : Pass) : Prop :=
  ∃ text, pass.found.outcome = .line text ∧ (reRecon.search text).isSome = true

/-- Whenever a reconnect is read, the first open was prompt or the board has shown a
sleep since. -/
def PromptOrShown (passes : List Pass) : Prop :=
  ∀ past pass later, passes = past ++ pass :: later → Reconnects pass →
    LateFirstOpen (shownBefore past pass) → SleepShown (shownBefore past pass)

theorem SleepShown.append {events : List PortEvent} (slept : SleepShown events)
    (more : List PortEvent) : SleepShown (events ++ more) := by
  obtain ⟨front, first, back, rfl, evidence⟩ := slept
  refine ⟨front, first, back ++ more, by simp only [List.append_assoc, List.cons_append], ?_⟩
  rcases evidence with ⟨text, member, marked⟩ | ⟨early, since, gone, again, late, rfl, long⟩
  · exact .inl ⟨text, List.mem_append_left more member, marked⟩
  · exact .inr ⟨early, since, gone, again, late ++ more,
      by simp only [List.append_assoc, List.cons_append], long⟩

theorem LateFirstOpen.append {events : List PortEvent} (late : LateFirstOpen events)
    (more : List PortEvent) : LateFirstOpen (events ++ more) := by
  obtain ⟨since, gone, first, back, rfl, long⟩ := late
  exact ⟨since, gone, first, back ++ more, by simp only [List.append_assoc, List.cons_append], long⟩

/-- An event that makes the first open late is that open, after nothing but a missing
port. -/
theorem LateFirstOpen.of_append {events : List PortEvent} {event : PortEvent}
    (late : LateFirstOpen (events ++ [event])) :
    LateFirstOpen events ∨ ∃ now since gone, event = .opened now ∧
      events = .missing since :: gone ∧ (∀ earlier ∈ gone, earlier.isMissing = true) ∧
      deepsleepGapS ≤ now - since := by
  obtain ⟨since, gone, first, back, split, missing, long⟩ := late
  rcases List.eq_nil_or_concat back with rfl | ⟨back, last, rfl⟩
  · have ends : events ++ [event] = (.missing since :: gone) ++ [.opened first] := by
      rw [split, List.cons_append]
    obtain ⟨front, same⟩ := List.append_inj' ends rfl
    exact .inr ⟨first, since, gone, (List.cons.inj same).1, front, missing, long⟩
  · have ends : events ++ [event] =
        (.missing since :: (gone ++ .opened first :: back)) ++ [last] := by
      simp only [split, List.concat_eq_append, List.cons_append, List.append_assoc]
    exact .inl ⟨since, gone, first, back, (List.append_inj' ends rfl).1, missing, long⟩

/-- The port is gone since `since`: it was missing from the start, or it was lost
after it had been open, and nothing else was seen. -/
def GoneSince (since : ℚ) (events : List PortEvent) : Prop :=
  ∃ gone, (∀ event ∈ gone, event.isMissing = true) ∧
    (events = .missing since :: gone ∨
      ∃ front first early, events = front ++ .opened first :: (early ++ .lost since :: gone))

/-- What the events so far and the variables have to do with each other. -/
structure Follows (events : List PortEvent) (state : CaptureState) : Prop where
  fresh : state.serOpen = false → state.goneSince = none → events = []
  held : state.serOpen = true → state.goneSince = none ∧ ∃ front first back,
    events = front ++ .opened first :: back
  gone : ∀ since, state.goneSince = some since → GoneSince since events
  marker : state.sawDsMarker = true → SleepShown events
  pending : state.pendingGap = true → LateFirstOpen events ∨ SleepShown events
  late : LateFirstOpen events → state.pendingGap = true ∨ 0 < state.cycles

theorem GoneSince.append {since : ℚ} {events : List PortEvent} (goneSince : GoneSince since events)
    {event : PortEvent} (missing : event.isMissing = true) :
    GoneSince since (events ++ [event]) := by
  obtain ⟨gone, each, split⟩ := goneSince
  refine ⟨gone ++ [event], ?_, ?_⟩
  · exact List.forall_mem_append.mpr ⟨each, List.forall_mem_singleton.mpr missing⟩
  · rcases split with rfl | ⟨front, first, early, rfl⟩
    · exact .inl rfl
    · exact .inr ⟨front, first, early, by simp only [List.append_assoc, List.cons_append]⟩

section

variable {events : List PortEvent} {state : CaptureState}

theorem Follows.initial (c6 : Bool) (tEnd : ℚ) (need : ℕ) :
    Follows [] (captureMachine c6 tEnd need).initial where
  fresh _ _ := rfl
  held isOpen := nomatch isOpen
  gone _ isGone := nomatch isGone
  marker marked := nomatch marked
  pending waits := nomatch waits
  late first := by
    obtain ⟨_, _, _, _, split, -⟩ := first
    cases split

/-- A missing port. -/
theorem Follows.notePortMissing (follows : Follows events state) (closed : state.serOpen = false)
    (now : ℚ) : Follows (events ++ [.missing now]) (state.notePortMissing now) := by
  have late : LateFirstOpen (events ++ [.missing now]) →
      state.pendingGap = true ∨ 0 < state.cycles := by
    intro first
    rcases first.of_append with before | ⟨_, _, _, same, -⟩
    · exact follows.late before
    · cases same
  cases since : state.goneSince with
  | none =>
      obtain rfl := follows.fresh closed since
      simp only [CaptureState.notePortMissing, since]
      constructor
      case fresh => exact fun _ isGone => nomatch isGone
      case held => exact fun isOpen => nomatch closed.symm.trans isOpen
      case gone =>
        rintro _ ⟨⟩
        exact ⟨[], List.forall_mem_nil _, .inl rfl⟩
      case marker => exact fun marked => (follows.marker marked).append _
      case pending =>
        exact fun waits => (follows.pending waits).imp (·.append _) (·.append _)
      case late => exact late
  | some first =>
      simp only [CaptureState.notePortMissing, since]
      constructor
      case fresh => exact fun _ isGone => nomatch since.symm.trans isGone
      case held => exact fun isOpen => nomatch closed.symm.trans isOpen
      case gone => exact fun other same => (follows.gone other same).append rfl
      case marker => exact fun marked => (follows.marker marked).append _
      case pending =>
        exact fun waits => (follows.pending waits).imp (·.append _) (·.append _)
      case late => exact late

/-- The companion and the times of its pulses do not matter. -/
theorem Follows.congr {other : CaptureState} (follows : Follows events state)
    (serOpen : other.serOpen = state.serOpen) (goneSince : other.goneSince = state.goneSince)
    (sawDsMarker : other.sawDsMarker = state.sawDsMarker)
    (pendingGap : other.pendingGap = state.pendingGap) (cycles : other.cycles = state.cycles) :
    Follows events other where
  fresh := by simpa only [serOpen, goneSince] using follows.fresh
  held := by simpa only [serOpen, goneSince] using follows.held
  gone := by simpa only [goneSince] using follows.gone
  marker := by simpa only [sawDsMarker] using follows.marker
  pending := by simpa only [pendingGap] using follows.pending
  late := by simpa only [pendingGap, cycles] using follows.late

/-- A port that is absent, whether or not a wake is commanded. -/
theorem Follows.portAbsent (follows : Follows events state) (closed : state.serOpen = false)
    (now : ℚ) (outcome : PulseOutcome) :
    Follows (events ++ [.missing now]) (state.portAbsent now outcome) := by
  have noted := follows.notePortMissing closed now
  cases commanded : state.commandsPulse now with
  | false => simpa only [CaptureState.portAbsent, commanded, Bool.false_eq_true, ↓reduceIte]
  | true =>
      obtain ⟨since, isSince⟩ : ∃ since, state.goneSince = some since := by
        cases gone : state.goneSince with
        | none => simp only [CaptureState.commandsPulse, gone, Bool.false_eq_true] at commanded
        | some since => exact ⟨since, rfl⟩
      simp only [CaptureState.notePortMissing, isSince] at noted
      simp only [CaptureState.portAbsent, commanded, ↓reduceIte]
      cases outcome <;> exact noted.congr rfl rfl rfl rfl rfl

/-- A port that has only been missing is gone since it first was. -/
theorem GoneSince.eq_of_missing {since first : ℚ} {gone : List PortEvent}
    (goneSince : GoneSince since (.missing first :: gone))
    (missing : ∀ event ∈ gone, event.isMissing = true) : since = first := by
  obtain ⟨_, -, same | ⟨front, opened, early, same⟩⟩ := goneSince
  · cases same
    rfl
  · have each : ∀ event ∈ PortEvent.missing first :: gone, event.isMissing = true :=
      List.forall_mem_cons.mpr ⟨rfl, missing⟩
    rw [same] at each
    exact nomatch each (.opened opened) (List.mem_append_right _ List.mem_cons_self)

/-- A port that was gone for long and opens was late at first, or it slept. -/
theorem GoneSince.opened {since now : ℚ} (goneSince : GoneSince since events)
    (long : deepsleepGapS ≤ now - since) :
    LateFirstOpen (events ++ [.opened now]) ∨ SleepShown (events ++ [.opened now]) := by
  obtain ⟨gone, missing, rfl | ⟨front, first, early, rfl⟩⟩ := goneSince
  · exact .inl ⟨since, gone, now, [], rfl, missing, long⟩
  · refine .inr ⟨front, first, early ++ .lost since :: (gone ++ [.opened now]), ?_,
      .inr ⟨early, since, gone, now, [], rfl, missing, long⟩⟩
    simp only [List.append_assoc, List.cons_append]

/-- Behind its opening a port is held and no longer gone. -/
theorem Follows.of_opened {now : ℚ} (isOpen : state.serOpen = true)
    (present : state.goneSince = none)
    (marker : state.sawDsMarker = true → SleepShown (events ++ [PortEvent.opened now]))
    (pending : state.pendingGap = true →
      LateFirstOpen (events ++ [PortEvent.opened now]) ∨
        SleepShown (events ++ [PortEvent.opened now]))
    (late : LateFirstOpen (events ++ [PortEvent.opened now]) →
      state.pendingGap = true ∨ 0 < state.cycles) :
    Follows (events ++ [PortEvent.opened now]) state where
  fresh shut := nomatch isOpen.symm.trans shut
  held _ := ⟨present, events, now, [], rfl⟩
  gone _ isGone := nomatch present.symm.trans isGone
  marker := marker
  pending := pending
  late := late

/-- The port opens. -/
theorem Follows.portOpened (follows : Follows events state) (closed : state.serOpen = false)
    (now : ℚ) : Follows (events ++ [.opened now]) (state.portOpened now) := by
  have waited : state.pendingGap = true →
      LateFirstOpen (events ++ [.opened now]) ∨ SleepShown (events ++ [.opened now]) :=
    fun waits => (follows.pending waits).imp (·.append _) (·.append _)
  cases since : state.goneSince with
  | none =>
      obtain rfl := follows.fresh closed since
      simp only [CaptureState.portOpened, since]
      refine .of_opened rfl rfl (fun marked => (follows.marker marked).append _) waited ?_
      intro late
      rcases late.of_append with before | ⟨_, _, _, -, empty, -⟩
      · exact follows.late before
      · cases empty
  | some first =>
      have goneSince := follows.gone first since
      by_cases slept : (state.sawDsMarker || deepsleepGapS ≤ now - first) = true
      · simp only [CaptureState.portOpened, since, slept, ↓reduceIte]
        refine .of_opened rfl rfl (absurd · Bool.false_ne_true) ?_ fun _ => .inl rfl
        intro _
        rcases Bool.or_eq_true_iff.mp slept with marked | long
        · exact .inr ((follows.marker marked).append _)
        · exact goneSince.opened (of_decide_eq_true long)
      · simp only [CaptureState.portOpened, since, slept, Bool.false_eq_true, ↓reduceIte]
        refine .of_opened rfl rfl (absurd · Bool.false_ne_true) waited ?_
        intro late
        rcases late.of_append with before | ⟨again, start, gone, same, rfl, missing, long⟩
        · exact follows.late before
        · cases same
          obtain rfl := goneSince.eq_of_missing missing
          exact absurd (Bool.or_eq_true_iff.mpr (.inr (decide_eq_true long))) slept

/-- The port drops while it is read. -/
theorem Follows.raised (follows : Follows events state) (isOpen : state.serOpen = true)
    (now : ℚ) : Follows (events ++ (ReadOutcome.raised now).events)
      (state.readLine (.raised now)) := by
  obtain ⟨-, front, first, back, split⟩ := follows.held isOpen
  simp only [CaptureState.readLine, ReadOutcome.events]
  constructor
  case fresh =>
    intro _ isGone
    cases isGone
  case held =>
    intro shut
    cases shut
  case gone =>
    rintro _ ⟨⟩
    refine ⟨[], List.forall_mem_nil _, .inr ⟨front, first, back, ?_⟩⟩
    simp only [split, List.append_assoc, List.cons_append]
  case marker => exact fun marked => (follows.marker marked).append _
  case pending => exact fun waits => (follows.pending waits).imp (·.append _) (·.append _)
  case late =>
    intro late
    rcases late.of_append with before | ⟨_, _, _, same, -⟩
    · exact follows.late before
    · cases same

/-- A line is read. -/
theorem Follows.readText (follows : Follows events state) (isOpen : state.serOpen = true)
    (text : List Char) : Follows (events ++ [.line text]) (state.readText text) := by
  obtain ⟨present, front, first, back, split⟩ := follows.held isOpen
  obtain ⟨sameOpen, sameGone⟩ := state.readText_frame text
  have shown : events ++ [.line text] =
      front ++ PortEvent.opened first :: (back ++ [.line text]) := by
    simp only [split, List.append_assoc, List.cons_append]
  constructor
  case fresh =>
    intro shut
    cases (sameOpen.trans isOpen).symm.trans shut
  case held => exact fun _ => ⟨sameGone.trans present, front, first, _, shown⟩
  case gone =>
    intro _ isGone
    cases (sameGone.trans present).symm.trans isGone
  case marker =>
    intro marked
    rw [state.readText_sawDsMarker, Bool.or_eq_true] at marked
    rcases marked with before | here
    · exact (follows.marker before).append _
    · refine ⟨front, first, back ++ [.line text], shown, .inl ⟨text, ?_, here⟩⟩
      exact List.mem_append_right _ (List.mem_singleton_self _)
  case pending =>
    intro waits
    rw [state.readText_pendingGap, Bool.and_eq_true] at waits
    exact (follows.pending waits.1).imp (·.append _) (·.append _)
  case late =>
    intro late
    rcases late.of_append with before | ⟨_, _, _, same, -⟩
    · rw [state.readText_pendingGap, state.readText_cycles]
      rcases follows.late before with waits | counted
      · cases reRecon.search text with
        | none => exact .inl (by rw [waits]; rfl)
        | some ms => exact .inr (by rw [waits]; exact Nat.succ_pos _)
      · exact .inr (Nat.add_pos_left counted _)
    · cases same

/-- What is read while the port is open. -/
theorem Follows.readLine (follows : Follows events state) (isOpen : state.serOpen = true)
    (outcome : ReadOutcome) :
    Follows (events ++ outcome.events) (state.readLine outcome) := by
  cases outcome with
  | silent =>
      rw [ReadOutcome.events, List.append_nil]
      exact follows
  | raised now => exact follows.raised isOpen now
  | line text => exact follows.readText isOpen text

/-- One pass: it shows what it finds, and then reads. -/
theorem Follows.pass {after : CaptureState} {found : PortFound} (follows : Follows events state)
    (passed : state.pass found = some after) :
    ∃ middle, after = middle.readLine found.outcome ∧ middle.cycles = state.cycles ∧
      Follows (events ++ found.eventsBefore) middle ∧
      Follows (events ++ (found.eventsBefore ++ found.outcome.events)) after := by
  cases found with
  | absent now outcome =>
      obtain ⟨closed, rfl⟩ := CaptureState.pass_absent.mp passed
      exact ⟨_, rfl, state.portAbsent_cycles now outcome, follows.portAbsent closed now outcome,
        follows.portAbsent closed now outcome⟩
  | refused now =>
      obtain ⟨closed, rfl⟩ := CaptureState.pass_refused.mp passed
      exact ⟨_, rfl, state.notePortMissing_cycles now, follows.notePortMissing closed now,
        follows.notePortMissing closed now⟩
  | opened now outcome =>
      obtain ⟨closed, rfl⟩ := CaptureState.pass_opened.mp passed
      have opened := follows.portOpened closed now
      have read := opened.readLine (state.portOpened_serOpen now) outcome
      rw [List.append_assoc] at read
      exact ⟨_, rfl, state.portOpened_cycles now, opened, read⟩
  | held outcome =>
      obtain ⟨isOpen, rfl⟩ := CaptureState.pass_held.mp passed
      refine ⟨state, rfl, rfl, ?_, follows.readLine isOpen outcome⟩
      rw [PortFound.eventsBefore, List.append_nil]
      exact follows

end

section

variable {c6 : Bool} {tEnd : ℚ} {need : ℕ}

theorem shown_concat (past : List Pass) (pass : Pass) :
    shown (past ++ [pass]) =
      shown past ++ (pass.found.eventsBefore ++ pass.found.outcome.events) := by
  simp only [shown, List.flatMap_append, List.flatMap_singleton]

theorem pass_of_step {before after : CaptureState} {pass : Pass}
    (stepped : (captureMachine c6 tEnd need).step before pass = some after) :
    before.pass pass.found = some after := by
  simp only [captureMachine] at stepped
  split at stepped
  · exact stepped
  · cases stepped

theorem follows_run {passes : List Pass} {state : CaptureState}
    (reached : (captureMachine c6 tEnd need).run passes = some state) :
    Follows (shown passes) state := by
  refine @Machine.run_history _ _ (captureMachine c6 tEnd need)
    (fun past state => Follows (shown past) state) (Follows.initial c6 tEnd need) ?_ _ _ reached
  intro past before pass after _ follows stepped
  obtain ⟨_, -, -, -, later⟩ := follows.pass (pass_of_step stepped)
  rwa [shown_concat]

/-- Once a cycle has been counted, and rightly, a sleep has been shown. -/
theorem CountsWakes.sleepShown {passes : List Pass} (counts : CountsWakes c6 tEnd need passes)
    {past later : List Pass} {state : CaptureState} (split : passes = past ++ later)
    (reached : (captureMachine c6 tEnd need).run past = some state) (counted : 0 < state.cycles) :
    SleepShown (shown past) := by
  refine @Machine.run_history _ _ (captureMachine c6 tEnd need)
    (fun past state => ∀ later, passes = past ++ later → 0 < state.cycles → SleepShown (shown past))
    (fun _ _ none => nomatch none) ?_ _ _ reached later split counted
  intro past before pass after ran earlier stepped later split counted
  rw [List.append_assoc, List.singleton_append] at split
  rw [shown_concat]
  by_cases here : before.cycles < after.cycles
  · have slept := counts past pass later before after split ran stepped here
    rw [← List.append_assoc]
    exact slept.append _
  · exact (earlier _ split (counted.trans_le (not_lt.mp here))).append _

/-- The association after flashing is not counted, and every cycle that is counted
is a sleep the board has come back from, exactly when at every reconnect the first
open was prompt or a sleep has been shown. -/
theorem countsWakes_iff {passes : List Pass} {final : CaptureState}
    (reached : (captureMachine c6 tEnd need).run passes = some final) :
    CountsWakes c6 tEnd need passes ↔ PromptOrShown passes := by
  constructor
  · rintro counts past pass later rfl ⟨text, isLine, reconnect⟩ lateOpen
    obtain ⟨before, after, ran, stepped, -, -⟩ := Machine.runFrom_split reached
    obtain ⟨middle, rfl, same, shownSo, -⟩ := (follows_run ran).pass (pass_of_step stepped)
    rcases shownSo.late lateOpen with pending | counted
    · apply counts past pass later before _ rfl ran stepped
      rw [← same]
      exact (middle.readLine_counts _).mpr ⟨pending, text, isLine, reconnect⟩
    · have earlier := counts.sleepShown rfl ran (same ▸ counted)
      exact earlier.append _
  · intro prompt past pass later before after split ran stepped counted
    obtain ⟨middle, rfl, same, shownSo, -⟩ := (follows_run ran).pass (pass_of_step stepped)
    rw [← same] at counted
    obtain ⟨pending, reconnects⟩ := (middle.readLine_counts _).mp counted
    rcases shownSo.pending pending with lateOpen | slept
    · exact prompt past pass later split reconnects lateOpen
    · exact slept

end

/-- The port opens at once, the board logs that it sleeps, and reconnects when its
port is back. -/
def promptSleep : List Pass :=
  [⟨0, .opened 0 (.line "DEEP SLEEP\r\n".toList)⟩, ⟨1, .held (.raised 1)⟩,
    ⟨2, .absent 2 .sent⟩, ⟨5, .opened 5 (.line "RECONNECTED in 812 ms\r\n".toList)⟩]

theorem promptSleep_counted : ∃ final, (captureMachine true 100 1).run promptSleep = some final ∧
    final.cycles = 1 ∧ CountsWakes true 100 1 promptSleep := by
  have reached : (captureMachine true 100 1).run promptSleep =
      some ⟨true, "", [812], 1, 1, false, false, none, 4, true, none⟩ := by decide +kernel
  refine ⟨_, reached, rfl, (countsWakes_iff reached).mpr ?_⟩
  rintro past pass later split - ⟨since, gone, first, back, late, -⟩
  have opensFirst : (shownBefore past pass).head? = some (.opened 0) := by
    rcases past with _ | ⟨earliest, past⟩
    · cases split
      rfl
    · cases (List.cons.inj split).1
      rfl
  rw [late] at opensFirst
  cases opensFirst

/-- The port is missing for four seconds after flashing, and then the board
reports its association. -/
def slowEnumeration : List Pass :=
  [⟨0, .absent 0 .sent⟩, ⟨1, .absent 1 .sent⟩,
    ⟨4, .opened 4 (.line "RECONNECTED in 812 ms\r\n".toList)⟩]

/-- The association after flashing is counted as a wake cycle. -/
theorem freshBoot_counted : ¬ ∀ c6 tEnd need passes final,
    (captureMachine c6 tEnd need).run passes = some final → CountsWakes c6 tEnd need passes := by
  intro always
  let waiting : CaptureState := ⟨false, "", [], 0, 0, false, false, none, 0, false, some 0⟩
  let counted : CaptureState := ⟨false, "", [812], 1, 1, false, false, none, 4, true, none⟩
  have absent : (captureMachine false 175 1).run [⟨0, .absent 0 .sent⟩, ⟨1, .absent 1 .sent⟩] =
      some waiting := by decide +kernel
  have opened : (captureMachine false 175 1).step waiting
      ⟨4, .opened 4 (.line "RECONNECTED in 812 ms\r\n".toList)⟩ = some counted := by decide +kernel
  have slept := always false 175 1 slowEnumeration counted (Machine.run_concat absent opened)
    [⟨0, .absent 0 .sent⟩, ⟨1, .absent 1 .sent⟩] _ [] waiting counted rfl absent opened
    Nat.zero_lt_one
  obtain ⟨front, first, back, split, evidence⟩ := slept
  change [.missing 0, .missing 1, .opened 4] = front ++ PortEvent.opened first :: back at split
  have last : back = [] := by
    rcases front with _ | ⟨_, _ | ⟨_, _ | ⟨_, front⟩⟩⟩
    · cases split
    · cases split
    · cases split
      rfl
    · simp only [List.cons_append, List.cons.injEq, List.nil_eq, List.append_eq_nil_iff,
        reduceCtorEq, and_false] at split
  subst last
  rcases evidence with ⟨text, member, -⟩ | ⟨early, _, _, _, _, same, -⟩
  · cases member
  · cases early <;> cases same

end Rimba.Regtest.Dscycle
