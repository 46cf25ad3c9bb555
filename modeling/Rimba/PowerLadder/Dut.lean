import Mathlib.Algebra.Order.Ring.Rat
import Mathlib.Tactic.Linarith
import Rimba.Foundation.Timeline
import Rimba.Report.Fixture

/-! # The power ladder of the device under test

`firmware/test-power` walks through four power-save tiers each time it is triggered. On
entry it tells the chip, prints a line, and stays for 18 s. Wherever it prints the line of a
tier the chip has been told exactly what the tier is, and it is told nothing else before the
tier has lasted (`Rimba.PowerLadder.tiersHeld_appMain`).
-/

namespace Rimba.PowerLadder

open Foundation
open Rimba.Report

inductive DutTier where
  | noPs
  | dynPs
  | twt
  | wnmPowerdown
  deriving DecidableEq, Repr

/-- What the chip has been told of power save. -/
structure ChipMode where
  powerSave : Bool
  twt : Bool
  wnm : Bool
  deriving DecidableEq, Repr

/-- What a tier is. -/
def DutTier.mode : DutTier → ChipMode
  | .noPs => ⟨false, false, false⟩
  | .dynPs => ⟨true, false, false⟩
  | .twt => ⟨true, true, false⟩
  | .wnmPowerdown => ⟨true, false, true⟩

/-- A line that the device prints. -/
inductive DutLine where
  | started
  | guard
  | connecting
  | associated (connected shown : Bool) (waited : ℕ)
  | timedOut
  | lightSleep
  | idle
  | triggered (up : ℕ)
  | phase (tier : DutTier) (up : ℕ) (ret : ℤ)
  | twtInstalled (inst : ℤ)
  | wnmAccepted (ret : ℤ)
  | ladderDone (up : ℕ)
  deriving DecidableEq

inductive DutAction where
  /-- `gpio_set_level` on the pin of the phases. -/
  | level (high : Bool)
  /-- `vTaskDelay(pdMS_TO_TICKS(ms))` -/
  | delay (ms : ℕ)
  /-- `mmwlan_set_power_save_mode` -/
  | powerSave (enabled : Bool)
  /-- `mmwlan_twt_setup_request` -/
  | twtSetup
  | twtTeardown
  /-- `mmwlan_set_wnm_sleep_enabled_ext` -/
  | wnmSleep (enabled : Bool)
  | print (line : DutLine)
  /-- A line of the log. -/
  | log

/-- What an action tells the chip. -/
def ChipMode.after (mode : ChipMode) : DutAction → ChipMode
  | .powerSave enabled => { mode with powerSave := enabled }
  | .twtSetup => { mode with twt := true }
  | .twtTeardown => { mode with twt := false }
  | .wnmSleep enabled => { mode with wnm := enabled }
  | _ => mode

/-- `PHASE_S` -/
def phaseS : ℕ := 18

/-- What a round of the endless loop meets: the polls of the pin, the uptimes, and what the
chip answers. -/
structure RoundAnswers where
  highPolls : ℕ
  lowPolls : ℕ
  triggeredUp : ℕ
  up : DutTier → ℕ
  doneUp : ℕ
  twtSetup : ℤ
  inst : ℤ
  wnmEnter : ℤ

/-- What the device meets until it is idle: the rounds it is held for reflashing, if it is,
the polls of the connection, and what its three reads of `s_connected` see. -/
structure BootAnswers where
  flashHold : Option ℕ
  polls : Fin 121
  connected : Bool
  shown : Bool
  linked : Bool

/-- `phase_mark` -/
def phaseMark (n : ℕ) : List DutAction :=
  (List.replicate n [.level true, .delay 60, .level false, .delay 60]).flatten ++ [.delay 150]

/-- `wait_for_trigger` -/
def waitForTrigger (round : RoundAnswers) : List DutAction :=
  .print .idle :: (List.replicate round.highPolls (.delay 50) ++
    (List.replicate round.lowPolls (.delay 10) ++
      [.delay 20, .print (.triggered round.triggeredUp)]))

/-- A tier of `run_ladder`: how it is entered, its line with what the chip returned, what
is done while it lasts, and how it is left. -/
def ladderTier (tier : DutTier) (mark : ℕ) (enter : DutAction) (up : ℕ) (ret : ℤ)
    (lasts leave : List DutAction) : List DutAction :=
  (phaseMark mark ++ [enter]) ++ .print (.phase tier up ret) :: (lasts ++ leave)

def noPsTier (round : RoundAnswers) : List DutAction :=
  ladderTier .noPs 1 (.powerSave false) (round.up .noPs) 0 [.delay (phaseS * 1000)] []

def dynPsTier (round : RoundAnswers) : List DutAction :=
  ladderTier .dynPs 2 (.powerSave true) (round.up .dynPs) 0 [.delay (phaseS * 1000)] []

def twtTier (round : RoundAnswers) : List DutAction :=
  ladderTier .twt 3 .twtSetup (round.up .twt) round.twtSetup
    [.delay 2000, .print (.twtInstalled round.inst), .delay (phaseS * 1000 - 2000)]
    [.twtTeardown]

def wnmTier (round : RoundAnswers) : List DutAction :=
  ladderTier .wnmPowerdown 4 (.wnmSleep true) (round.up .wnmPowerdown) round.wnmEnter
    [.print (.wnmAccepted round.wnmEnter), .delay (phaseS * 1000)] [.wnmSleep false]

/-- `run_ladder` -/
def runLadder (round : RoundAnswers) : List DutAction :=
  noPsTier round ++ (dynPsTier round ++ (twtTier round ++ (wnmTier round ++
    (phaseMark 5 ++ [.print (.ladderDone round.doneUp)]))))

/-- `app_main` up to its endless loop, unless it is held for reflashing. -/
def boot (lightSleep : Bool) (answers : BootAnswers) : List DutAction :=
  [.print .started, .print .guard, .print .connecting] ++
    (List.replicate answers.polls (.delay 500) ++
      (.print (.associated answers.connected answers.shown (answers.polls * 500)) ::
        ((if answers.linked then [] else [.print .timedOut]) ++
          if lightSleep then [.print .lightSleep] else [])))

/-- `app_main`, for as many rounds as the device lives. -/
def appMain (lightSleep : Bool) (answers : BootAnswers) (rounds : List RoundAnswers) :
    List DutAction :=
  [.delay 200, .delay 50] ++
    match answers.flashHold with
    | some held => .log :: (List.replicate held [.delay 3000, .log]).flatten
    | none => boot lightSleep answers ++
        rounds.flatMap fun round => waitForTrigger round ++ runLadder round

/-- The line of a tier, up to the uptime. -/
def DutTier.lineFront : DutTier → String
  | .noPs => "phase=1 no-ps start uptime="
  | .dynPs => "phase=2 dyn-ps start uptime="
  | .twt => "phase=3 twt start uptime="
  | .wnmPowerdown => "phase=4 wnm-powerdown start uptime="

/-- The line of a tier, behind the uptime. -/
def DutTier.lineBack (ret : ℤ) : DutTier → String
  | .noPs | .dynPs => "s"
  | .twt => s!"s (setup ret={ret})"
  | .wnmPowerdown => s!"s (enter ret={ret})"

def associatedName : StepName := .of "associated" (by decide +kernel)

def twtInstalledName : StepName := .of "twt-installed" (by decide +kernel)

def wnmAcceptedName : StepName := .of "wnm-accepted" (by decide +kernel)

/-- The line of the contract. -/
def DutLine.line : DutLine → Line
  | .started => .begin (plainText "power") (plainText ("board2 STA on the PPK2 rail; the C6 " ++
      "triggers a 4-tier PS ladder; the host samples current"))
  | .guard => .info (plainText "D5/GPIO6 low at boot -> normal run; ssid=\"rimba-ping\"")
  | .connecting => .info (plainText "connecting (TX capped to 1 dBm for the close bench)...")
  | .associated connected shown waited =>
      let flag := shown.toNat
      .step associatedName connected
        (plainText s!"connected={flag} after {waited} ms ssid=rimba-ping tx_cap=1dBm")
  | .timedOut => .info (plainText ("link-up timeout — the ladder will still run on trigger, but " ++
      "a valid power gate needs association (the host marks an unassociated run INCONCLUSIVE)"))
  | .lightSleep => .info (plainText "host light sleep enabled (160/40 MHz)")
  | .idle => .info (plainText "idle: waiting for the C6 trigger on D5/GPIO6")
  | .triggered up =>
      .info (plainText ("triggered uptime=" ++ s!"{up}s — running 4x{phaseS}s ladder"))
  | .phase tier up ret =>
      .info (plainText (tier.lineFront ++ (toString up ++ tier.lineBack ret)))
  | .twtInstalled inst =>
      .step twtInstalledName (inst = 1) (plainText s!"flow=0 installed={inst} (AP-dependent)")
  | .wnmAccepted ret =>
      .step wnmAcceptedName (ret = 0) (plainText s!"enter ret={ret} chip_powerdown=1")
  | .ladderDone up => .info (plainText ("phase=5 ladder-done uptime=" ++ s!"{up}s"))

/-- How long an action lasts at least, in seconds: a delay is cut short by less than a tick
of the scheduler. -/
def lasts (tick : ℚ) : DutAction → ℚ
  | .delay ms => max 0 (ms / 1000 - tick)
  | _ => 0

theorem lasts_nonneg (tick : ℚ) (action : DutAction) : 0 ≤ lasts tick action := by
  cases action with
  | delay ms => exact le_max_left _ _
  | _ => exact le_refl (0 : ℚ)

/-- The action tells the chip nothing, and prints no line of a tier. -/
def DutAction.aside : DutAction → Bool
  | .level _ | .delay _ | .log => true
  | .print (.phase ..) => false
  | .print _ => true
  | _ => false

theorem after_aside {action : DutAction} (aside : action.aside = true) (mode : ChipMode) :
    mode.after action = mode := by
  cases action with
  | level high => rfl
  | delay ms => rfl
  | print line => rfl
  | log => rfl
  | powerSave enabled => cases aside
  | twtSetup => cases aside
  | twtTeardown => cases aside
  | wnmSleep enabled => cases aside

/-- Wherever the line of a tier is printed, the chip has been told what the tier is, and it
is told nothing else before 18 s have passed but for two ticks. -/
def TiersHeld (tick : ℚ) (mode : ChipMode) (actions : List DutAction) : Prop :=
  ∀ front tier up ret back, actions = front ++ .print (.phase tier up ret) :: back →
    front.foldl ChipMode.after mode = tier.mode ∧
    ∃ quiet rest, back = quiet ++ rest ∧ (∀ action ∈ quiet, tier.mode.after action = tier.mode) ∧
      phaseS - 2 * tick ≤ Timeline.duration (lasts tick) quiet

section

variable {tick : ℚ} {mode : ChipMode} {actions more : List DutAction}

theorem foldl_aside (asides : ∀ action ∈ actions, action.aside = true) (mode : ChipMode) :
    actions.foldl ChipMode.after mode = mode := by
  induction actions with
  | nil => rfl
  | cons action actions ih =>
      obtain ⟨here, later⟩ := List.forall_mem_cons.mp asides
      rw [List.foldl_cons, after_aside here]
      exact ih later

theorem TiersHeld.append (first : TiersHeld tick mode actions)
    (second : TiersHeld tick (actions.foldl ChipMode.after mode) more) :
    TiersHeld tick mode (actions ++ more) := by
  intro front tier up ret back split
  rcases List.append_eq_append_iff.mp split with ⟨middle, rfl, later⟩ | ⟨middle, whole, later⟩
  · obtain ⟨told, held⟩ := second middle tier up ret back later
    exact ⟨by rw [List.foldl_append, told], held⟩
  · cases middle with
    | nil =>
        rw [List.append_nil] at whole
        obtain ⟨told, held⟩ := second [] tier up ret back later.symm
        exact ⟨whole ▸ told, held⟩
    | cons action middle =>
        obtain ⟨rfl, rfl⟩ := List.cons.inj later
        obtain ⟨told, quiet, rest, rfl, keeps, long⟩ := first front tier up ret middle whole
        exact ⟨told, quiet, rest ++ more, List.append_assoc .., keeps, long⟩

/-- The action prints no line of a tier. -/
def DutAction.Phaseless (action : DutAction) : Prop :=
  ∀ tier up ret, action ≠ .print (.phase tier up ret)

theorem phaseless_aside {action : DutAction} (aside : action.aside = true) : action.Phaseless := by
  rintro tier up ret rfl
  exact absurd aside Bool.false_ne_true

theorem tiersHeld_phaseless (none : ∀ action ∈ actions, action.Phaseless) :
    TiersHeld tick mode actions := by
  rintro front tier up ret back rfl
  exact absurd rfl (none _ (List.mem_append_right _ List.mem_cons_self) tier up ret)

theorem tiersHeld_aside (asides : ∀ action ∈ actions, action.aside = true) :
    TiersHeld tick mode actions :=
  tiersHeld_phaseless fun action member => phaseless_aside (asides action member)

theorem phaseMark_aside (n : ℕ) : ∀ action ∈ phaseMark n, action.aside = true := by
  intro action member
  rcases List.mem_append.mp member with pulse | gap
  · obtain ⟨pulses, same, inside⟩ := List.mem_flatten.mp pulse
    rw [List.eq_of_mem_replicate same] at inside
    have pulse : ∀ action ∈ [DutAction.level true, .delay 60, .level false, .delay 60],
        action.aside = true := by decide
    exact pulse action inside
  · rw [List.mem_singleton.mp gap]
    rfl

theorem phaseless_of_chip {action : DutAction} (chip : ∀ line, action ≠ .print line) :
    action.Phaseless := fun _ _ _ => chip _

variable {tier : DutTier} {mark up : ℕ} {enter : DutAction} {ret : ℤ}
  {during leave : List DutAction}

/-- A tier is held when its entry tells the chip what it is and its delays are long. -/
theorem tiersHeld_ladderTier (entry : enter.Phaseless)
    (told : mode.after enter = tier.mode) (asides : ∀ action ∈ during, action.aside = true)
    (exits : ∀ action ∈ leave, action.Phaseless)
    (long : phaseS - 2 * tick ≤ Timeline.duration (lasts tick) during) :
    TiersHeld tick mode (ladderTier tier mark enter up ret during leave) := by
  have before : ∀ action ∈ phaseMark mark ++ [enter], action.Phaseless := by
    intro action member
    rcases List.mem_append.mp member with pulse | entered
    · exact phaseless_aside (phaseMark_aside mark action pulse)
    · rwa [List.mem_singleton.mp entered]
  have behind : ∀ action ∈ during ++ leave, action.Phaseless := by
    intro action member
    rcases List.mem_append.mp member with inside | left
    · exact phaseless_aside (asides action inside)
    · exact exits action left
  refine (tiersHeld_phaseless before).append ?_
  intro front other otherUp otherRet back split
  cases front with
  | nil =>
      obtain ⟨same, rfl⟩ := List.cons.inj split
      cases same
      refine ⟨?_, during, leave, rfl, fun action member => after_aside (asides action member) _,
        long⟩
      rw [List.foldl_nil, List.foldl_append, foldl_aside (phaseMark_aside mark)]
      exact told
  | cons first front =>
      obtain ⟨rfl, later⟩ := List.cons.inj split
      have inside : DutAction.print (.phase other otherUp otherRet) ∈ during ++ leave :=
        later ▸ List.mem_append_right front List.mem_cons_self
      exact absurd rfl (behind _ inside other otherUp otherRet)

theorem foldl_ladderTier (told : mode.after enter = tier.mode)
    (asides : ∀ action ∈ during, action.aside = true) :
    (ladderTier tier mark enter up ret during leave).foldl ChipMode.after mode =
      leave.foldl ChipMode.after tier.mode := by
  rw [ladderTier, List.foldl_append, List.foldl_append, foldl_aside (phaseMark_aside mark),
    List.foldl_cons, List.foldl_append, foldl_aside asides, List.foldl_cons, List.foldl_nil, told]
  rfl

theorem le_lasts_delay (tick : ℚ) (ms : ℕ) : (ms : ℚ) / 1000 - tick ≤ lasts tick (.delay ms) :=
  le_max_right _ _

/-- One delay of a tier's length. -/
theorem long_delay (fine : 0 ≤ tick) :
    phaseS - 2 * tick ≤ lasts tick (.delay (phaseS * 1000)) := by
  have delayed := le_lasts_delay tick (phaseS * 1000)
  have whole : ((phaseS * 1000 : ℕ) : ℚ) / 1000 = phaseS := by
    rw [Nat.cast_mul, Nat.cast_ofNat, mul_div_cancel_right₀ _ (by decide +kernel)]
  linarith

/-- The delay of a tier in two parts. -/
theorem long_delays : phaseS - 2 * tick ≤
    lasts tick (.delay 2000) + lasts tick (.delay (phaseS * 1000 - 2000)) := by
  have first := le_lasts_delay tick 2000
  have second := le_lasts_delay tick (phaseS * 1000 - 2000)
  have whole : ((2000 : ℕ) : ℚ) / 1000 + ((phaseS * 1000 - 2000 : ℕ) : ℚ) / 1000 = phaseS := by
    decide +kernel
  linarith

/-- The actions hold their tiers, from a mode to another. -/
structure Holds (tick : ℚ) (actions : List DutAction) (first last : ChipMode) : Prop where
  held : TiersHeld tick first actions
  leaves : actions.foldl ChipMode.after first = last

theorem Holds.append {first middle last : ChipMode} (here : Holds tick actions first middle)
    (later : Holds tick more middle last) : Holds tick (actions ++ more) first last where
  held := here.held.append (here.leaves ▸ later.held)
  leaves := by rw [List.foldl_append, here.leaves, later.leaves]

theorem holds_aside (asides : ∀ action ∈ actions, action.aside = true) (mode : ChipMode) :
    Holds tick actions mode mode :=
  ⟨tiersHeld_aside asides, foldl_aside asides mode⟩

theorem holds_noPsTier (fine : 0 ≤ tick) (round : RoundAnswers) (powerSave : Bool) :
    Holds tick (noPsTier round) ⟨powerSave, false, false⟩ DutTier.noPs.mode := by
  have alone : ∀ action ∈ [DutAction.delay (phaseS * 1000)], action.aside = true :=
    List.forall_mem_singleton.mpr rfl
  refine ⟨tiersHeld_ladderTier ?_ rfl alone (List.forall_mem_nil _) ?_, foldl_ladderTier rfl alone⟩
  · exact phaseless_of_chip fun _ => DutAction.noConfusion
  · rw [Timeline.duration, List.map_singleton, List.sum_singleton]
    exact long_delay fine

theorem holds_dynPsTier (fine : 0 ≤ tick) (round : RoundAnswers) :
    Holds tick (dynPsTier round) DutTier.noPs.mode DutTier.dynPs.mode := by
  have alone : ∀ action ∈ [DutAction.delay (phaseS * 1000)], action.aside = true :=
    List.forall_mem_singleton.mpr rfl
  refine ⟨tiersHeld_ladderTier ?_ rfl alone (List.forall_mem_nil _) ?_, foldl_ladderTier rfl alone⟩
  · exact phaseless_of_chip fun _ => DutAction.noConfusion
  · rw [Timeline.duration, List.map_singleton, List.sum_singleton]
    exact long_delay fine

theorem holds_twtTier (round : RoundAnswers) :
    Holds tick (twtTier round) DutTier.dynPs.mode DutTier.dynPs.mode := by
  have during : ∀ action ∈ [DutAction.delay 2000, .print (.twtInstalled round.inst),
      .delay (phaseS * 1000 - 2000)], action.aside = true :=
    List.forall_mem_cons.mpr
      ⟨rfl, List.forall_mem_cons.mpr ⟨rfl, List.forall_mem_singleton.mpr rfl⟩⟩
  have silent : lasts tick (.print (.twtInstalled round.inst)) = 0 := rfl
  refine ⟨tiersHeld_ladderTier ?_ rfl during (List.forall_mem_singleton.mpr ?_) ?_,
    foldl_ladderTier rfl during⟩
  · exact phaseless_of_chip fun _ => DutAction.noConfusion
  · exact phaseless_of_chip fun _ => DutAction.noConfusion
  · rw [Timeline.duration, List.map_cons, List.map_cons, List.map_singleton, List.sum_cons,
      List.sum_cons, List.sum_singleton, silent, zero_add]
    exact long_delays

theorem holds_wnmTier (fine : 0 ≤ tick) (round : RoundAnswers) :
    Holds tick (wnmTier round) DutTier.dynPs.mode DutTier.dynPs.mode := by
  have during : ∀ action ∈ [DutAction.print (.wnmAccepted round.wnmEnter),
      .delay (phaseS * 1000)], action.aside = true :=
    List.forall_mem_cons.mpr ⟨rfl, List.forall_mem_singleton.mpr rfl⟩
  have silent : lasts tick (.print (.wnmAccepted round.wnmEnter)) = 0 := rfl
  refine ⟨tiersHeld_ladderTier ?_ rfl during (List.forall_mem_singleton.mpr ?_) ?_,
    foldl_ladderTier rfl during⟩
  · exact phaseless_of_chip fun _ => DutAction.noConfusion
  · exact phaseless_of_chip fun _ => DutAction.noConfusion
  · rw [Timeline.duration, List.map_cons, List.map_singleton, List.sum_cons, List.sum_singleton,
      silent, zero_add]
    exact long_delay fine

theorem holds_runLadder (fine : 0 ≤ tick) (round : RoundAnswers) (powerSave : Bool) :
    Holds tick (runLadder round) ⟨powerSave, false, false⟩ DutTier.dynPs.mode := by
  refine (holds_noPsTier fine round powerSave).append ((holds_dynPsTier fine round).append ?_)
  refine (holds_twtTier round).append ((holds_wnmTier fine round).append ?_)
  refine holds_aside (fun action member => ?_) _
  rcases List.mem_append.mp member with pulse | done
  · exact phaseMark_aside 5 action pulse
  · rw [List.mem_singleton.mp done]
    rfl

theorem waitForTrigger_aside (round : RoundAnswers) :
    ∀ action ∈ waitForTrigger round, action.aside = true := by
  refine List.forall_mem_cons.mpr ⟨rfl, fun action member => ?_⟩
  rcases List.mem_append.mp member with high | member
  · rw [List.eq_of_mem_replicate high]
    rfl
  rcases List.mem_append.mp member with low | last
  · rw [List.eq_of_mem_replicate low]
    rfl
  rcases List.mem_cons.mp last with rfl | last
  · rfl
  · rw [List.mem_singleton.mp last]
    rfl

/-- However often the ladder is triggered. -/
theorem holds_rounds (fine : 0 ≤ tick) (rounds : List RoundAnswers) (powerSave : Bool) :
    ∃ last, Holds tick (rounds.flatMap fun round => waitForTrigger round ++ runLadder round)
      ⟨powerSave, false, false⟩ ⟨last, false, false⟩ := by
  induction rounds generalizing powerSave with
  | nil => exact ⟨powerSave, holds_aside (List.forall_mem_nil _) _⟩
  | cons round rounds ih =>
      obtain ⟨last, later⟩ := ih true
      rw [List.flatMap_cons]
      exact ⟨last, ((holds_aside (waitForTrigger_aside round) _).append
        (holds_runLadder fine round powerSave)).append later⟩

theorem boot_aside (lightSleep : Bool) (answers : BootAnswers) :
    ∀ action ∈ boot lightSleep answers, action.aside = true := by
  intro action member
  rcases List.mem_append.mp member with first | member
  · exact (by decide : ∀ action ∈ [DutAction.print .started, .print .guard, .print .connecting],
      action.aside = true) action first
  rcases List.mem_append.mp member with polled | member
  · rw [List.eq_of_mem_replicate polled]
    rfl
  rcases List.mem_cons.mp member with rfl | member
  · rfl
  rcases List.mem_append.mp member with late | light
  · split at late
    · cases late
    · rw [List.mem_singleton.mp late]
      rfl
  · split at light
    · rw [List.mem_singleton.mp light]
      rfl
    · cases light

/-- **The tiers of a device.** Wherever the line of a tier is printed, in whichever round,
the chip has been told what the tier is, and it is told nothing else before the tier has
lasted. -/
theorem tiersHeld_appMain (fine : 0 ≤ tick) (lightSleep : Bool) (answers : BootAnswers)
    (rounds : List RoundAnswers) (powerSave : Bool) :
    TiersHeld tick ⟨powerSave, false, false⟩ (appMain lightSleep answers rounds) := by
  have start : ∀ action ∈ [DutAction.delay 200, .delay 50], action.aside = true := by decide
  refine (tiersHeld_aside start).append ?_
  rw [foldl_aside start]
  cases answers.flashHold with
  | some held =>
      refine tiersHeld_aside (List.forall_mem_cons.mpr ⟨rfl, fun action member => ?_⟩)
      obtain ⟨waiting, same, inside⟩ := List.mem_flatten.mp member
      rw [List.eq_of_mem_replicate same] at inside
      exact (by decide : ∀ action ∈ [DutAction.delay 3000, .log], action.aside = true) action inside
  | none =>
      obtain ⟨last, laddered⟩ := holds_rounds fine rounds powerSave
      exact ((holds_aside (boot_aside lightSleep answers) _).append laddered).held

end

end Rimba.PowerLadder
