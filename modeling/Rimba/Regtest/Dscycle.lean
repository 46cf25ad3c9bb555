import Mathlib.Algebra.Order.Field.Rat
import Rimba.Foundation.LinePattern
import Rimba.Foundation.Machine
import Rimba.Foundation.Text

/-! # Watching a board through its deep sleeps

`_capture` of the harness's `dscycle` module follows the port of a board that
vanishes while it sleeps, commands its wakes over the trigger companion, and
counts the sleeps it has come back from. One label of the machine is one pass of
its loop, with the times it reads, what it finds of the port, how a commanded pulse
goes, and what `readline` returns.
-/

namespace Rimba.Regtest.Dscycle

open Foundation (Machine Pattern after leadingNumber)

/-- `_DEEPSLEEP_GAP_S` -/
def deepsleepGapS : ℚ := 3

/-- `_WAKE_SETTLE_S` -/
def wakeSettleS : ℚ := 3 / 2

/-- `_WAKE_RETRY_S` -/
def wakeRetryS : ℚ := 8

/-- `_RE_RECON` -/
def reRecon : Pattern ℕ := fun text => do
  let (ms, rest) ← (after "RECONNECTED in ".toList text).bind leadingNumber
  let behind ← after " ms".toList rest
  return (ms, text.length - behind.length)

/-- `_RE_SLEEP` -/
def reSleep : Pattern Unit := fun text =>
  (after "DEEP SLEEP".toList text).map fun behind => ((), text.length - behind.length)

/-- How commanding a wake goes: the pulse is sent, or the handle of the companion
has died, and the pulse is sent once it is reopened, dies again, or cannot be. -/
inductive PulseOutcome where
  | sent
  | reissued
  | diedAgain
  | gone
  deriving DecidableEq, Repr

/-- What `readline` comes to: a text, nothing in time, or an exception, with the
time read after it. -/
inductive ReadOutcome where
  | line (text : List Char)
  | silent
  | raised (now : ℚ)
  deriving DecidableEq

/-- What one pass finds: no port, a port that cannot be opened, one that can, or
the port it holds open. -/
inductive PortFound where
  | absent (now : ℚ) (pulse : PulseOutcome)
  | refused (now : ℚ)
  | opened (now : ℚ) (outcome : ReadOutcome)
  | held (outcome : ReadOutcome)
  deriving DecidableEq

/-- One pass of the loop, with the time at which its condition was tested. -/
structure Pass where
  begun : ℚ
  found : PortFound
  deriving DecidableEq

/-- The local variables of `_capture`. -/
structure CaptureState where
  /-- `c6 is not None` -/
  c6 : Bool
  c6Lost : String
  recons : List ℕ
  deepSleeps : ℕ
  cycles : ℕ
  pendingGap : Bool
  sawDsMarker : Bool
  lastPulseAt : Option ℚ
  lastGap : ℚ
  /-- `ser is not None` -/
  serOpen : Bool
  goneSince : Option ℚ
  deriving DecidableEq

namespace CaptureState

/-- The port is missing, for the first time or still. -/
def notePortMissing (state : CaptureState) (now : ℚ) : CaptureState :=
  match state.goneSince with
  | none => { state with goneSince := some now, lastPulseAt := none }
  | some _ => state

/-- Whether a wake is commanded at `now`. -/
def commandsPulse (state : CaptureState) (now : ℚ) : Bool :=
  match state.goneSince with
  | none => false
  | some since => state.c6 && wakeSettleS ≤ now - since &&
      state.lastPulseAt.all fun last => wakeRetryS ≤ now - last

/-- The companion after a commanded pulse. -/
def pulse (state : CaptureState) : PulseOutcome → CaptureState
  | .sent | .reissued => state
  | .diedAgain =>
      { state with
        c6 := false
        c6Lost := "the C6 trigger reopened but died again immediately " ++
          "(USB re-enumeration); the link is not stable" }
  | .gone =>
      { state with
        c6 := false
        c6Lost :=
          "the C6 trigger went away mid-run (USB re-enumeration) and did not recover" }

/-- No port is found. -/
def portAbsent (state : CaptureState) (now : ℚ) (outcome : PulseOutcome) : CaptureState :=
  if state.commandsPulse now then { state.pulse outcome with lastPulseAt := some now }
  else state.notePortMissing now

/-- The port is open again: a long absence, or one behind a `DEEP SLEEP` line, was
a sleep. -/
def portOpened (state : CaptureState) (now : ℚ) : CaptureState :=
  match state.goneSince with
  | none => { state with serOpen := true }
  | some since =>
      let gap := now - since
      let slept := if state.sawDsMarker || deepsleepGapS ≤ gap then
        { state with deepSleeps := state.deepSleeps + 1, pendingGap := true, lastGap := gap }
        else state
      { slept with serOpen := true, sawDsMarker := false, goneSince := none }

/-- A line of the console. -/
def readText (state : CaptureState) (text : List Char) : CaptureState :=
  let marked := if (reSleep.search text).isSome then { state with sawDsMarker := true } else state
  match reRecon.search text with
  | none => marked
  | some ms =>
      let noted := { marked with recons := marked.recons ++ [ms] }
      if noted.pendingGap then { noted with cycles := noted.cycles + 1, pendingGap := false }
      else noted

section

variable (state : CaptureState) (text : List Char)

theorem readText_frame : (state.readText text).serOpen = state.serOpen ∧
    (state.readText text).goneSince = state.goneSince := by
  simp only [readText]
  split
  · split <;> exact ⟨rfl, rfl⟩
  · split_ifs <;> exact ⟨rfl, rfl⟩

theorem readText_sawDsMarker : (state.readText text).sawDsMarker =
    (state.sawDsMarker || (reSleep.search text).isSome) := by
  simp only [readText]
  cases (reSleep.search text).isSome <;> cases reRecon.search text <;>
    cases pending : state.pendingGap <;> simp [pending]

/-- A reconnect takes the sleep that is pending. -/
theorem readText_pendingGap : (state.readText text).pendingGap =
    (state.pendingGap && (reRecon.search text).isNone) := by
  simp only [readText]
  cases (reSleep.search text).isSome <;> cases reRecon.search text <;>
    cases pending : state.pendingGap <;> simp [pending]

/-- A reconnect is counted when a sleep is pending. -/
theorem readText_cycles : (state.readText text).cycles =
    state.cycles + (state.pendingGap && (reRecon.search text).isSome).toNat := by
  simp only [readText]
  cases (reSleep.search text).isSome <;> cases reRecon.search text <;>
    cases pending : state.pendingGap <;> simp [pending]

end

/-- What `readline` comes to. -/
def readLine (state : CaptureState) : ReadOutcome → CaptureState
  | .line text => state.readText text
  | .silent => state
  | .raised now => { state with serOpen := false, goneSince := some now, lastPulseAt := none }

section

variable (state : CaptureState) (now : ℚ)

theorem notePortMissing_cycles : (state.notePortMissing now).cycles = state.cycles := by
  unfold notePortMissing
  split <;> rfl

theorem portAbsent_cycles (outcome : PulseOutcome) :
    (state.portAbsent now outcome).cycles = state.cycles := by
  unfold portAbsent
  split
  · cases outcome <;> rfl
  · exact state.notePortMissing_cycles now

theorem portOpened_cycles : (state.portOpened now).cycles = state.cycles := by
  unfold portOpened
  split
  · rfl
  · simp only
    split <;> rfl

theorem portOpened_serOpen : (state.portOpened now).serOpen = true := by
  unfold portOpened
  split <;> rfl

/-- What is read counts a cycle when it is a reconnect and a sleep is pending. -/
theorem readLine_counts (outcome : ReadOutcome) :
    state.cycles < (state.readLine outcome).cycles ↔
      state.pendingGap = true ∧
        ∃ text, outcome = .line text ∧ (reRecon.search text).isSome = true := by
  cases outcome with
  | line text =>
      simp only [readLine, readText_cycles, ReadOutcome.line.injEq, exists_eq_left']
      cases state.pendingGap <;> cases (reRecon.search text).isSome <;> simp
  | silent => simp [readLine]
  | raised again => simp [readLine]

end

/-- One pass of the loop; `none` when it cannot find what it is said to find. -/
def pass (state : CaptureState) : PortFound → Option CaptureState
  | .absent now outcome => if state.serOpen then none else some (state.portAbsent now outcome)
  | .refused now => if state.serOpen then none else some (state.notePortMissing now)
  | .opened now outcome =>
      if state.serOpen then none else some ((state.portOpened now).readLine outcome)
  | .held outcome => if state.serOpen then some (state.readLine outcome) else none

section

variable {state after : CaptureState} {now : ℚ}

theorem pass_absent {outcome : PulseOutcome} : state.pass (.absent now outcome) = some after ↔
    state.serOpen = false ∧ after = state.portAbsent now outcome := by
  simp only [pass, Option.ite_none_left_eq_some, Bool.not_eq_true, Option.some.injEq,
    eq_comm (a := after)]

theorem pass_refused : state.pass (.refused now) = some after ↔
    state.serOpen = false ∧ after = state.notePortMissing now := by
  simp only [pass, Option.ite_none_left_eq_some, Bool.not_eq_true, Option.some.injEq,
    eq_comm (a := after)]

theorem pass_opened {outcome : ReadOutcome} : state.pass (.opened now outcome) = some after ↔
    state.serOpen = false ∧ after = (state.portOpened now).readLine outcome := by
  simp only [pass, Option.ite_none_left_eq_some, Bool.not_eq_true, Option.some.injEq,
    eq_comm (a := after)]

theorem pass_held {outcome : ReadOutcome} : state.pass (.held outcome) = some after ↔
    state.serOpen = true ∧ after = state.readLine outcome := by
  simp only [pass, Option.ite_none_right_eq_some, Option.some.injEq, eq_comm (a := after)]

end

end CaptureState

/-- The loop of `_capture`, with or without a companion. -/
def captureMachine (c6 : Bool) (tEnd : ℚ) (need : ℕ) : Machine CaptureState Pass where
  initial := ⟨c6, "", [], 0, 0, false, false, none, 0, false, none⟩
  step state pass :=
    if pass.begun < tEnd ∧ state.cycles < need then state.pass pass.found else none

end Rimba.Regtest.Dscycle
