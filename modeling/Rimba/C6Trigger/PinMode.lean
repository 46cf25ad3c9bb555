import Rimba.C6Trigger.CommandLine
import Rimba.C6Trigger.Commands
import Rimba.Foundation.Machine

/-! # The pin of the trigger companion

The companion holds the D5 pin of the board under test as its mode says. Commands set the
mode, a pulse leaves another one, the service of a free-running mode changes the pin on
its schedule, and a reboot takes mode and parameter from non-volatile storage. Whenever
the main loop is about to read, the pin is as the mode has it at rest; a service of the
trigger mode emits one LOW pulse and schedules the next later; and what `save` stores, a
reboot restores (`Rimba.C6Trigger.pin_follows_mode`).

The GPIO driver, the timer and non-volatile storage are not part of the firmware. The
driver is given by what its calls do to the pin, the timer by the time that passes
between two of its readings, and storage by how its calls come out.
-/

namespace Rimba.C6Trigger

open Foundation (Machine)

/-- The direction of a pin. -/
inductive Direction where
  | disabled
  | input
  | output
  deriving DecidableEq

/-- The resistor on a pin. -/
inductive Pull where
  | floating
  | pullUp
  | pullDown
  deriving DecidableEq

/-- The GPIO driver: what is set is what the pin then has, and setting the resistor or
the level leaves the direction. -/
structure Gpio where
  Pin : Type
  direction : Pin → Direction
  pull : Pin → Pull
  level : Pin → ℕ
  setDirection : Direction → Pin → Pin
  setPullMode : Pull → Pin → Pin
  setLevel : ℕ → Pin → Pin
  resetPin : Pin → Pin
  direction_setDirection : ∀ new pin, direction (setDirection new pin) = new
  direction_setPullMode : ∀ new pin, direction (setPullMode new pin) = direction pin
  pull_setPullMode : ∀ new pin, pull (setPullMode new pin) = new
  direction_setLevel : ∀ new pin, direction (setLevel new pin) = direction pin
  level_setLevel : ∀ new pin, level (setLevel new pin) = new

/-- What non-volatile storage has under the keys. -/
structure Flash where
  mode : Option Int32
  param : Option Int32
  deriving DecidableEq

/-- How the calls of a write come out: whether the namespace opens, whether all the others
succeed, and what storage has when one of them does not. -/
structure WriteAnswer where
  opened : Bool
  succeeded : Bool
  left : Flash

/-- How the calls of a read come out. Those that succeed find what is stored. -/
structure ReadAnswer where
  opened : Bool
  gotMode : Bool
  gotParam : Bool

/-- How `nvs_flash_init` comes out: it succeeds, it reports that the partition has to be
erased, with what storage has after that, or it reports another error. -/
inductive InitAnswer where
  | ok
  | erase (left : Flash)
  | error

/-- What storage has after a write. -/
def Flash.write (answer : WriteAnswer) (stored : Flash) : Flash :=
  if answer.succeeded then stored else answer.left

/-- What storage has when the partition has been initialised. -/
def Flash.init : InitAnswer → Flash → Flash
  | .erase left, _ => left
  | _, flash => flash

/-- What a pass of the main loop gets from below: the answers to a write, and the time
that passes before the timer is read when a mode is entered, when the mode is serviced,
and behind a pulse. -/
structure PassAnswers where
  write : WriteAnswer
  entered : ℕ
  serviced : ℕ
  pulsed : ℕ

/-- What a boot gets from below: the pin as the reset left it, the answers of storage, and
the time on the timer when the mode is entered. -/
structure BootAnswers (gpio : Gpio) where
  pin : gpio.Pin
  init : InitAnswer
  read : ReadAnswer
  entered : ℕ

/-- The modes. -/
inductive Mode where
  | trigger
  | holdHigh
  | holdLow
  | toggle
  | hiz
  deriving DecidableEq, Repr

namespace Mode

/-- `MODE` -/
def compiled : Mode := .trigger

/-- The number of a mode. -/
def number : Mode → Int32
  | .trigger => 0
  | .holdHigh => 1
  | .holdLow => 2
  | .toggle => 3
  | .hiz => 4

/-- `m >= 0 && m <= MODE_HIZ`, and the mode with that number. -/
def ofNumber (m : Int32) : Option Mode :=
  if m = 0 then some .trigger
  else if m = 1 then some .holdHigh
  else if m = 2 then some .holdLow
  else if m = 3 then some .toggle
  else if m = 4 then some .hiz
  else none

theorem ofNumber_number (mode : Mode) : ofNumber mode.number = some mode := by
  cases mode <;> rfl

end Mode

/-- The mode and the parameter that are read from storage. A parameter that is not found
is 0. -/
def Flash.load (answer : ReadAnswer) (flash : Flash) : Option (Mode × UInt32) :=
  if answer.opened then
    let m := if answer.gotMode then flash.mode else none
    let p := (if answer.gotParam then flash.param else none).getD 0
    (m.bind Mode.ofNumber).map fun mode => (mode, p.toUInt32)
  else none

/-- `TRIG_PERIOD_S` -/
def trigPeriodS : UInt32 := 30

/-- `TOGGLE_HALF_MS` -/
def toggleHalfMs : UInt32 := 500

/-- `PULSE_MS` -/
def pulseMs : UInt32 := 120

/-- What happens to the pin. -/
inductive PinAction where
  | drive (level : ℕ)
  | delay (ms : UInt32)
  | hiz
  deriving DecidableEq, Repr

/-- The `C6|` lines. -/
inductive Reply where
  | ready (mode : Mode) (param : UInt32)
  | pulse (ms : UInt32)
  | pulseDone
  | mode (mode : Mode)
  | modeTrigger (period : UInt32)
  | modeToggle (half : UInt32)
  | saved (mode : Mode) (param : UInt32)
  | cleared
  | nvsError
  | status (mode : Mode) (param : UInt32)
  | pong
  | unknown (tok : List UInt8)
  deriving DecidableEq, Repr

/-- The state of the companion: the latched variables, `line`, the pin, what is in
storage, the last reading of the timer, and what was done to the pin and replied since
the last boot. -/
structure Companion (gpio : Gpio) where
  mode : Mode
  param : UInt32
  level : ℕ
  nextUs : ℕ
  line : LineBuffer
  pin : gpio.Pin
  flash : Flash
  now : ℕ
  did : List PinAction
  replies : List Reply

namespace Companion

variable {gpio : Gpio} (companion : Companion gpio)

/-- `esp_timer_get_time()`, after some time. -/
def timer (elapsed : ℕ) : Companion gpio := { companion with now := companion.now + elapsed }

/-- `printf` of a line. -/
def reply (line : Reply) : Companion gpio :=
  { companion with replies := companion.replies ++ [line] }

/-- `hiz` -/
def hiz : Companion gpio :=
  { companion with
    pin := gpio.setPullMode .floating (gpio.setDirection .input companion.pin)
    did := companion.did ++ [.hiz] }

/-- `drive` -/
def drive (lvl : ℕ) : Companion gpio :=
  { companion with
    pin := gpio.setLevel lvl (gpio.setDirection .output companion.pin)
    did := companion.did ++ [.drive lvl] }

/-- `vTaskDelay(pdMS_TO_TICKS(ms))` -/
def delay (ms : UInt32) : Companion gpio :=
  { companion with did := companion.did ++ [.delay ms] }

/-- A parameter, or its default for 0. -/
def orDefault (param default : UInt32) : UInt32 := if param ≠ 0 then param else default

/-- The time to the next action of a mode, in microseconds. -/
def periodUs : Mode → UInt32 → ℕ
  | .trigger, param => param.toNat * 1000000
  | .toggle, param => param.toNat * 1000
  | _, _ => 0

/-- `enter_mode` -/
def enterMode (m : Mode) (param : UInt32) (elapsed : ℕ) : Companion gpio :=
  let companion := { companion with mode := m }
  let companion :=
    match m with
    | .holdHigh => companion.drive 1
    | .holdLow => companion.drive 0
    | .toggle => { companion with param := orDefault param toggleHalfMs, level := 1 }.drive 1
    | .trigger => { companion with param := orDefault param trigPeriodS }.hiz
    | .hiz => companion.hiz
  let companion := companion.timer elapsed
  { companion with nextUs := companion.now + periodUs m companion.param }

/-- `pulse_low` -/
def pulseLow (ms : UInt32) : Companion gpio :=
  { ((companion.drive 0).delay (orDefault ms pulseMs)).hiz with mode := .hiz }

/-- `nvs_load` -/
def nvsLoad (answer : ReadAnswer) : Companion gpio :=
  match companion.flash.load answer with
  | some (m, p) => { companion with mode := m, param := p }
  | none => companion

/-- `nvs_save` -/
def nvsSave (answer : WriteAnswer) : Companion gpio :=
  if answer.opened then
    { companion with
      flash := Flash.write answer ⟨some companion.mode.number, some companion.param.toInt32⟩ }.reply
        (.saved companion.mode companion.param)
  else companion.reply .nvsError

/-- `nvs_clear` -/
def nvsClear (answer : WriteAnswer) : Companion gpio :=
  if answer.opened then
    { companion with flash := Flash.write answer ⟨none, none⟩ }.reply .cleared
  else companion.reply .nvsError

/-- What `handle_line` does for a command and its number. -/
def execute (command : Command) (n : UInt32) (answers : PassAnswers) : Companion gpio :=
  match command with
  | .pulse =>
      let ms := orDefault n pulseMs
      let ms := if 2000 < ms then 2000 else ms
      (((companion.reply (.pulse ms)).pulseLow ms).reply .pulseDone)
  | .hiz => (companion.enterMode .hiz 0 answers.entered).reply (.mode .hiz)
  | .high => (companion.enterMode .holdHigh 0 answers.entered).reply (.mode .holdHigh)
  | .low => (companion.enterMode .holdLow 0 answers.entered).reply (.mode .holdLow)
  | .trigger =>
      let companion := companion.enterMode .trigger n answers.entered
      companion.reply (.modeTrigger companion.param)
  | .toggle =>
      let companion := companion.enterMode .toggle n answers.entered
      companion.reply (.modeToggle companion.param)
  | .save => companion.nvsSave answers.write
  | .default => companion.nvsClear answers.write
  | .status => companion.reply (.status companion.mode companion.param)
  | .ping => companion.reply .pong
  | .unknown tok => companion.reply (.unknown tok)

/-- `handle_line` -/
def handleLine (line : List UInt8) (answers : PassAnswers) : Companion gpio :=
  match parseLine line with
  | none => companion
  | some (command, n) => companion.execute command n answers

/-- `service_mode` -/
def serviceMode (answers : PassAnswers) : Companion gpio :=
  let companion := companion.timer answers.serviced
  match companion.mode with
  | .trigger =>
      if companion.nextUs ≤ companion.now then
        let companion := { companion.pulseLow pulseMs with mode := .trigger }.timer answers.pulsed
        { companion with nextUs := companion.now + companion.param.toNat * 1000000 }
      else companion
  | .toggle =>
      if companion.nextUs ≤ companion.now then
        let companion := { companion with level := companion.level ^^^ 1 }
        let companion := companion.drive companion.level
        { companion with nextUs := companion.now + companion.param.toNat * 1000 }
      else companion
  | _ => companion

/-- What the main loop does with what it read. -/
def receive (read : Option UInt8) (answers : PassAnswers) : Companion gpio :=
  match read with
  | none => companion
  | some c =>
      let received := companion.line.receive c
      match received.2 with
      | none => { companion with line := received.1 }
      | some text => { companion.handleLine text answers with line := received.1 }

/-- A pass of the main loop. -/
def pass (read : Option UInt8) (answers : PassAnswers) : Companion gpio :=
  (companion.receive read answers).serviceMode answers

/-- The variables as they are compiled, and the pin reset, before storage is read. -/
def compiled (flash : Flash) (answers : BootAnswers gpio) : Companion gpio :=
  { mode := .compiled, param := trigPeriodS, level := 1, nextUs := 0, line := .empty
    pin := gpio.resetPin answers.pin, flash := Flash.init answers.init flash, now := 0
    did := [], replies := [] }

/-- `app_main` up to its loop. -/
def boot (flash : Flash) (answers : BootAnswers gpio) : Companion gpio :=
  let companion := (compiled flash answers).nvsLoad answers.read
  let companion := companion.enterMode companion.mode companion.param answers.entered
  companion.reply (.ready companion.mode companion.param)

end Companion

/-- A pass of the main loop, or a reboot. -/
inductive Event (gpio : Gpio) where
  | pass (read : Option UInt8) (answers : PassAnswers)
  | reboot (answers : BootAnswers gpio)

/-- What an event makes of the companion. -/
def Companion.after {gpio : Gpio} (companion : Companion gpio) : Event gpio → Companion gpio
  | .pass read answers => companion.pass read answers
  | .reboot answers => boot companion.flash answers

/-- The companion from when it is powered. -/
def machine (gpio : Gpio) (flash : Flash) (answers : BootAnswers gpio) :
    Machine (Companion gpio) (Event gpio) where
  initial := .boot flash answers
  step companion event := some (companion.after event)

theorem runFrom_machine {gpio : Gpio} {flash : Flash} {answers : BootAnswers gpio}
    (companion : Companion gpio) (events : List (Event gpio)) :
    (machine gpio flash answers).runFrom companion events =
      some (events.foldl Companion.after companion) := by
  induction events generalizing companion with
  | nil => rfl
  | cons event events ih => exact ih (companion.after event)

/-- No direction and no resistor drives the pin. -/
def Gpio.HiZ (gpio : Gpio) (pin : gpio.Pin) : Prop :=
  gpio.direction pin = .input ∧ gpio.pull pin = .floating

/-- The pin is driven to a level. -/
def Gpio.Drives (gpio : Gpio) (pin : gpio.Pin) (lvl : ℕ) : Prop :=
  gpio.direction pin = .output ∧ gpio.level pin = lvl

/-- The pin is as a mode has it at rest, with the last level of a toggle. -/
def Gpio.Rests (gpio : Gpio) (pin : gpio.Pin) : Mode → ℕ → Prop
  | .trigger, _ => gpio.HiZ pin
  | .holdHigh, _ => gpio.Drives pin 1
  | .holdLow, _ => gpio.Drives pin 0
  | .toggle, level => gpio.Drives pin level
  | .hiz, _ => gpio.HiZ pin

/-- The mode acts on a schedule. -/
def Mode.FreeRunning (mode : Mode) : Prop := mode = .trigger ∨ mode = .toggle

instance : DecidablePred Mode.FreeRunning :=
  fun mode => inferInstanceAs (Decidable (mode = .trigger ∨ mode = .toggle))

namespace Companion

variable {gpio : Gpio} {companion : Companion gpio}

/-- What holds whenever the main loop is about to read. -/
structure Sound (companion : Companion gpio) : Prop where
  rests : gpio.Rests companion.pin companion.mode companion.level
  param : companion.mode.FreeRunning → companion.param ≠ 0
  level : companion.level = 0 ∨ companion.level = 1

theorem hiz_hiZ (companion : Companion gpio) : gpio.HiZ companion.hiz.pin := by
  refine ⟨?_, gpio.pull_setPullMode _ _⟩
  exact (gpio.direction_setPullMode _ _).trans (gpio.direction_setDirection _ _)

theorem drive_drives (companion : Companion gpio) (lvl : ℕ) :
    gpio.Drives (companion.drive lvl).pin lvl := by
  refine ⟨?_, gpio.level_setLevel _ _⟩
  exact (gpio.direction_setLevel _ _).trans (gpio.direction_setDirection _ _)

theorem orDefault_ne_zero {param default : UInt32} (positive : default ≠ 0) :
    orDefault param default ≠ 0 := by
  unfold orDefault
  split
  case isTrue given => exact given
  case isFalse => exact positive

/-- Entering a mode, whatever was before, the pin comes to rest. -/
theorem enterMode_sound (level : companion.level = 0 ∨ companion.level = 1) (m : Mode)
    (param : UInt32) (elapsed : ℕ) : (companion.enterMode m param elapsed).Sound := by
  cases m with
  | trigger => exact ⟨hiz_hiZ _, fun _ => orDefault_ne_zero (by decide), level⟩
  | toggle => exact ⟨drive_drives _ 1, fun _ => orDefault_ne_zero (by decide), .inr rfl⟩
  | holdHigh =>
      have resting : ¬ Mode.holdHigh.FreeRunning := by decide
      exact ⟨drive_drives _ 1, fun running => absurd running resting, level⟩
  | holdLow =>
      have resting : ¬ Mode.holdLow.FreeRunning := by decide
      exact ⟨drive_drives _ 0, fun running => absurd running resting, level⟩
  | hiz =>
      have resting : ¬ Mode.hiz.FreeRunning := by decide
      exact ⟨hiz_hiZ _, fun running => absurd running resting, level⟩

/-- A pulse leaves the pin at the rest of the mode it sets. -/
theorem pulseLow_sound (level : companion.level = 0 ∨ companion.level = 1) (ms : UInt32) :
    (companion.pulseLow ms).Sound :=
  have resting : ¬ Mode.hiz.FreeRunning := by decide
  ⟨hiz_hiZ _, fun running => absurd running resting, level⟩

theorem reply_sound (sound : companion.Sound) (line : Reply) : (companion.reply line).Sound :=
  ⟨sound.rests, sound.param, sound.level⟩

theorem nvsSave_sound (sound : companion.Sound) (answer : WriteAnswer) :
    (companion.nvsSave answer).Sound := by
  unfold nvsSave
  split
  · exact ⟨sound.rests, sound.param, sound.level⟩
  · exact reply_sound sound _

theorem nvsClear_sound (sound : companion.Sound) (answer : WriteAnswer) :
    (companion.nvsClear answer).Sound := by
  unfold nvsClear
  split
  · exact ⟨sound.rests, sound.param, sound.level⟩
  · exact reply_sound sound _

theorem execute_sound (sound : companion.Sound) (command : Command) (n : UInt32)
    (answers : PassAnswers) : (companion.execute command n answers).Sound := by
  cases command with
  | pulse => exact reply_sound (@pulseLow_sound _ (companion.reply _) sound.level _) _
  | hiz => exact reply_sound (enterMode_sound sound.level _ _ _) _
  | high => exact reply_sound (enterMode_sound sound.level _ _ _) _
  | low => exact reply_sound (enterMode_sound sound.level _ _ _) _
  | trigger => exact reply_sound (enterMode_sound sound.level _ _ _) _
  | toggle => exact reply_sound (enterMode_sound sound.level _ _ _) _
  | save => exact nvsSave_sound sound _
  | default => exact nvsClear_sound sound _
  | status => exact reply_sound sound _
  | ping => exact reply_sound sound _
  | unknown tok => exact reply_sound sound _

theorem handleLine_sound (sound : companion.Sound) (line : List UInt8) (answers : PassAnswers) :
    (companion.handleLine line answers).Sound := by
  unfold handleLine
  split
  · exact sound
  · exact execute_sound sound _ _ _

theorem receive_sound (sound : companion.Sound) (read : Option UInt8) (answers : PassAnswers) :
    (companion.receive read answers).Sound := by
  cases read with
  | none => exact sound
  | some c =>
      simp only [receive]
      cases (companion.line.receive c).2 with
      | none => exact ⟨sound.rests, sound.param, sound.level⟩
      | some text =>
          have handled := handleLine_sound sound text answers
          exact ⟨handled.rests, handled.param, handled.level⟩

/-- The time `service_mode` reads. -/
def serviceTime (companion : Companion gpio) (answers : PassAnswers) : ℕ :=
  companion.now + answers.serviced

theorem serviceMode_early (answers : PassAnswers)
    (early : ¬ companion.nextUs ≤ companion.serviceTime answers) :
    companion.serviceMode answers = companion.timer answers.serviced := by
  rw [serviceMode]
  cases mode : (companion.timer answers.serviced).mode with
  | trigger => exact if_neg early
  | toggle => exact if_neg early
  | holdHigh => rfl
  | holdLow => rfl
  | hiz => rfl

theorem serviceMode_resting (answers : PassAnswers) (resting : ¬ companion.mode.FreeRunning) :
    companion.serviceMode answers = companion.timer answers.serviced := by
  rw [serviceMode]
  cases mode : (companion.timer answers.serviced).mode with
  | trigger => exact absurd (.inl mode) resting
  | toggle => exact absurd (.inr mode) resting
  | holdHigh => rfl
  | holdLow => rfl
  | hiz => rfl

theorem serviceMode_trigger {answers : PassAnswers} (mode : companion.mode = .trigger)
    (due : companion.nextUs ≤ companion.serviceTime answers) :
    companion.serviceMode answers =
      { { (companion.timer answers.serviced).pulseLow pulseMs with mode := .trigger } with
        now := companion.serviceTime answers + answers.pulsed
        nextUs := companion.serviceTime answers + answers.pulsed +
          companion.param.toNat * 1000000 } := by
  have serviced : (companion.timer answers.serviced).mode = .trigger := mode
  rw [serviceMode]
  simp only [serviced]
  exact if_pos due

theorem serviceMode_toggle {answers : PassAnswers} (mode : companion.mode = .toggle)
    (due : companion.nextUs ≤ companion.serviceTime answers) :
    companion.serviceMode answers =
      { { companion.timer answers.serviced with level := companion.level ^^^ 1 }.drive
          (companion.level ^^^ 1) with
        nextUs := companion.serviceTime answers + companion.param.toNat * 1000 } := by
  have serviced : (companion.timer answers.serviced).mode = .toggle := mode
  rw [serviceMode]
  simp only [serviced]
  exact if_pos due

/-- What a service leaves. -/
structure ServiceLeaves (before after : Companion gpio) : Prop where
  mode : after.mode = before.mode
  param : after.param = before.param
  flash : after.flash = before.flash

theorem serviceMode_leaves (companion : Companion gpio) (answers : PassAnswers) :
    ServiceLeaves companion (companion.serviceMode answers) := by
  by_cases resting : ¬ companion.mode.FreeRunning
  · rw [serviceMode_resting answers resting]
    exact ⟨rfl, rfl, rfl⟩
  by_cases early : ¬ companion.nextUs ≤ companion.serviceTime answers
  · rw [serviceMode_early answers early]
    exact ⟨rfl, rfl, rfl⟩
  rcases not_not.mp resting with mode | mode
  · rw [serviceMode_trigger mode (not_not.mp early)]
    exact ⟨mode.symm, rfl, rfl⟩
  · rw [serviceMode_toggle mode (not_not.mp early)]
    exact ⟨rfl, rfl, rfl⟩

/-- A service leaves the pin at rest. -/
theorem serviceMode_sound (sound : companion.Sound) (answers : PassAnswers) :
    (companion.serviceMode answers).Sound := by
  by_cases resting : ¬ companion.mode.FreeRunning
  · rw [serviceMode_resting answers resting]
    exact ⟨sound.rests, sound.param, sound.level⟩
  by_cases early : ¬ companion.nextUs ≤ companion.serviceTime answers
  · rw [serviceMode_early answers early]
    exact ⟨sound.rests, sound.param, sound.level⟩
  have running := sound.param (not_not.mp resting)
  rcases not_not.mp resting with mode | mode
  · rw [serviceMode_trigger mode (not_not.mp early)]
    exact ⟨hiz_hiZ _, fun _ => running, sound.level⟩
  · have flipped : companion.level ^^^ 1 = 0 ∨ companion.level ^^^ 1 = 1 := by
      rcases sound.level with low | high
      · exact .inr (by rw [low]; rfl)
      · exact .inl (by rw [high]; rfl)
    have driven := drive_drives
      { companion.timer answers.serviced with level := companion.level ^^^ 1 }
      (companion.level ^^^ 1)
    have rests : gpio.Rests _ .toggle _ := driven
    rw [← mode] at rests
    rw [serviceMode_toggle mode (not_not.mp early)]
    exact ⟨rests, fun _ => running, flipped⟩

/-- What a service of the trigger mode is: when it is due it emits one LOW pulse and
schedules the next later than that and than the time it has become, else it does
neither. -/
structure TriggerServiced (before : Companion gpio) (answers : PassAnswers) : Prop where
  pulses : before.nextUs ≤ before.serviceTime answers →
    (before.serviceMode answers).did = before.did ++ [.drive 0, .delay pulseMs, .hiz]
  later : before.nextUs ≤ before.serviceTime answers →
    before.nextUs < (before.serviceMode answers).nextUs ∧
      (before.serviceMode answers).now < (before.serviceMode answers).nextUs
  waits : before.serviceTime answers < before.nextUs →
    (before.serviceMode answers).did = before.did ∧
      (before.serviceMode answers).nextUs = before.nextUs

theorem triggerServiced (sound : companion.Sound) (mode : companion.mode = .trigger)
    (answers : PassAnswers) : TriggerServiced companion answers := by
  have positive : 0 < companion.param.toNat := by
    refine Nat.pos_of_ne_zero fun zero => sound.param (.inl mode) ?_
    exact UInt32.toNat.inj zero
  refine ⟨fun due => ?_, fun due => ?_, fun early => ?_⟩
  · rw [serviceMode_trigger mode due]
    simp only [pulseLow, hiz, delay, drive, timer, List.append_assoc, List.cons_append,
      List.nil_append, orDefault]
    rfl
  · rw [serviceMode_trigger mode due]
    constructor <;> simp only <;> omega
  · rw [serviceMode_early answers (Nat.not_le.mpr early)]
    exact ⟨rfl, rfl⟩

/-- The command a byte completes, with its number. -/
def command (companion : Companion gpio) (read : Option UInt8) : Option (Command × UInt32) := do
  let c ← read
  let text ← (companion.line.receive c).2
  parseLine text

/-- A byte that completes no command is collected, or ends a blank line. -/
theorem receive_of_no_command {read : Option UInt8} (answers : PassAnswers)
    (nothing : companion.command read = none) :
    ∃ line, companion.receive read answers = { companion with line } := by
  cases read with
  | none => exact ⟨_, rfl⟩
  | some c =>
      simp only [receive]
      cases handed : (companion.line.receive c).2 with
      | none => exact ⟨_, rfl⟩
      | some text =>
          have blank : parseLine text = none := by
            simpa only [command, Option.bind_eq_bind, Option.bind_some, handed] using nothing
          simp only [handleLine, blank]
          exact ⟨_, rfl⟩

/-- One that does is followed by what the command does. -/
theorem receive_of_command {read : Option UInt8} (answers : PassAnswers) {order : Command}
    {n : UInt32} (completes : companion.command read = some (order, n)) :
    ∃ line, companion.receive read answers =
      { companion.execute order n answers with line } := by
  cases read with
  | none => cases completes
  | some c =>
      simp only [receive]
      cases handed : (companion.line.receive c).2 with
      | none =>
          simp only [command, Option.bind_eq_bind, Option.bind_some, handed, Option.bind_none,
            reduceCtorEq] at completes
      | some text =>
          have parsed : parseLine text = some (order, n) := by
            simpa only [command, Option.bind_eq_bind, Option.bind_some, handed] using completes
          simp only [handleLine, parsed]
          exact ⟨_, rfl⟩

theorem enterMode_mode (m : Mode) (param : UInt32) (elapsed : ℕ) :
    (companion.enterMode m param elapsed).mode = m := by
  cases m <;> rfl

/-- A parameter other than 0 is the one a free-running mode is entered with. -/
theorem enterMode_param {m : Mode} {param : UInt32} (running : m.FreeRunning) (given : param ≠ 0)
    (elapsed : ℕ) : (companion.enterMode m param elapsed).param = param := by
  rcases running with rfl | rfl
  · exact if_pos given
  · exact if_pos given

theorem enterMode_flash (m : Mode) (param : UInt32) (elapsed : ℕ) :
    (companion.enterMode m param elapsed).flash = companion.flash := by
  cases m <;> rfl

/-- Storage is written by `save` and `default` alone. -/
theorem execute_flash {order : Command} (n : UInt32) (answers : PassAnswers)
    (other : order ≠ .save ∧ order ≠ .default) :
    (companion.execute order n answers).flash = companion.flash := by
  cases order with
  | save => exact absurd rfl other.1
  | default => exact absurd rfl other.2
  | pulse | status | ping | unknown => rfl
  | hiz | high | low | trigger | toggle => simp only [execute, reply, enterMode_flash]

theorem nvsLoad_of_load {answer : ReadAnswer} {m : Mode} {p : UInt32}
    (read : companion.flash.load answer = some (m, p)) :
    (companion.nvsLoad answer).mode = m ∧ (companion.nvsLoad answer).param = p := by
  rw [nvsLoad, read]
  exact ⟨rfl, rfl⟩

/-- Reading storage leaves all but the mode and the parameter. -/
theorem nvsLoad_leaves (answer : ReadAnswer) :
    (companion.nvsLoad answer).level = companion.level ∧
      (companion.nvsLoad answer).flash = companion.flash := by
  unfold nvsLoad
  split <;> exact ⟨rfl, rfl⟩

theorem boot_sound (flash : Flash) (answers : BootAnswers gpio) :
    (boot flash answers).Sound :=
  reply_sound (enterMode_sound (.inr (nvsLoad_leaves answers.read).1) _ _ _) _

theorem boot_flash (flash : Flash) (answers : BootAnswers gpio) :
    (boot flash answers).flash = Flash.init answers.init flash := by
  have entered (loaded : Companion gpio) :=
    @enterMode_flash gpio loaded loaded.mode loaded.param answers.entered
  exact (entered _).trans (nvsLoad_leaves answers.read).2

end Companion

/-- The command a pass completes saves the mode, and the calls of storage succeed. -/
def Saves {gpio : Gpio} (companion : Companion gpio) : Event gpio → Prop
  | .pass read answers => (∃ n, companion.command read = some (.save, n)) ∧
      answers.write.opened = true ∧ answers.write.succeeded = true
  | .reboot _ => False

/-- An event that does not write storage: no `save`, no `default`, and no reboot that
erases the partition. -/
def LeavesFlash {gpio : Gpio} (companion : Companion gpio) : Event gpio → Prop
  | .pass read _ => ∀ n, companion.command read ≠ some (.save, n) ∧
      companion.command read ≠ some (.default, n)
  | .reboot answers => ∀ left, answers.init ≠ .erase left

/-- A boot at which the calls of storage succeed. -/
structure BootAnswers.Succeed {gpio : Gpio} (answers : BootAnswers gpio) : Prop where
  init : answers.init = .ok
  opened : answers.read.opened = true
  gotMode : answers.read.gotMode = true
  gotParam : answers.read.gotParam = true

namespace Companion

variable {gpio : Gpio} {companion : Companion gpio}

/-- What `save` writes. -/
def image (companion : Companion gpio) : Flash :=
  ⟨some companion.mode.number, some companion.param.toInt32⟩

/-- What storage has. -/
def Stores (flash : Flash) (companion : Companion gpio) : Prop := companion.flash = flash

theorem after_saves {event : Event gpio} (saves : Saves companion event) :
    Stores companion.image (companion.after event) := by
  cases event with
  | reboot answers => exact saves.elim
  | pass read answers =>
      obtain ⟨⟨n, completes⟩, opened, succeeded⟩ := saves
      obtain ⟨line, received⟩ := receive_of_command answers completes
      have leaves := (serviceMode_leaves (companion.receive read answers) answers).flash
      have written : Flash.write answers.write companion.image = companion.image := if_pos succeeded
      have executed : (companion.execute .save n answers).flash = companion.image := by
        rw [execute, nvsSave, if_pos opened]
        exact written
      exact leaves.trans ((congrArg Companion.flash received).trans executed)

theorem after_leavesFlash {event : Event gpio} (leaves : LeavesFlash companion event) :
    (companion.after event).flash = companion.flash := by
  cases event with
  | reboot answers =>
      refine (boot_flash _ answers).trans ?_
      cases init : answers.init with
      | ok => rfl
      | error => rfl
      | erase left => exact absurd init (leaves left)
  | pass read answers =>
      have served := (serviceMode_leaves (companion.receive read answers) answers).flash
      refine served.trans ?_
      cases completes : companion.command read with
      | none =>
          obtain ⟨line, received⟩ := receive_of_no_command answers completes
          rw [received]
      | some parsed =>
          obtain ⟨order, n⟩ := parsed
          obtain ⟨line, received⟩ := receive_of_command answers completes
          have other : order ≠ .save ∧ order ≠ .default := by
            constructor
            · rintro rfl
              exact (leaves n).1 completes
            · rintro rfl
              exact (leaves n).2 completes
          exact (congrArg Companion.flash received).trans (execute_flash n answers other)

/-- A boot has the mode and, where it matters, the parameter that were saved. -/
theorem boot_image (sound : companion.Sound) {answers : BootAnswers gpio}
    (succeed : answers.Succeed) :
    (boot companion.image answers).mode = companion.mode ∧
      (companion.mode.FreeRunning → (boot companion.image answers).param = companion.param) := by
  have stored : (compiled companion.image answers).flash = companion.image := by
    rw [compiled, succeed.init]
    rfl
  have read : companion.image.load answers.read = some (companion.mode, companion.param) := by
    simp only [Flash.load, succeed.opened, succeed.gotMode, succeed.gotParam, ↓reduceIte, image,
      Option.bind_some, Mode.ofNumber_number, Option.getD_some, Option.map_some]
    rfl
  rw [← stored] at read
  obtain ⟨mode, param⟩ := nvsLoad_of_load read
  have entered : (boot companion.image answers).mode =
      ((compiled companion.image answers).nvsLoad answers.read).mode :=
    enterMode_mode _ _ answers.entered
  refine ⟨entered.trans mode, fun running => ?_⟩
  rw [← param]
  refine enterMode_param ?_ ?_ answers.entered
  · rwa [mode]
  · rw [param]
    exact sound.param running

end Companion

/-- Whenever the main loop is about to read, the pin is at rest. -/
theorem sound_invariant (gpio : Gpio) (flash : Flash) (answers : BootAnswers gpio) :
    (machine gpio flash answers).Invariant Companion.Sound where
  initial := Companion.boot_sound flash answers
  step := by
    intro before event after sound stepped
    cases stepped
    cases event with
    | pass read answers =>
        exact Companion.serviceMode_sound (Companion.receive_sound sound read answers) answers
    | reboot answers => exact Companion.boot_sound _ answers

/-- In every run the pin is as the mode has it whenever the main loop is about to read; a
service of the trigger mode emits one LOW pulse when it is due and schedules the next
later; and after a `save` that succeeds, and until storage is written again, a reboot
restores the mode and, of a free-running mode, the parameter. -/
theorem pin_follows_mode (gpio : Gpio) (flash : Flash) (power : BootAnswers gpio)
    (events : List (Event gpio)) (companion : Companion gpio)
    (ran : (machine gpio flash power).run events = some companion) :
    gpio.Rests companion.pin companion.mode companion.level ∧
      (∀ read answers, (companion.receive read answers).mode = .trigger →
        (companion.receive read answers).TriggerServiced answers) ∧
      ∀ save later last reboot, Saves companion save →
        (machine gpio flash power).runFrom (companion.after save) later = some last →
        (∀ taken ∈ (machine gpio flash power).transitionsFrom (companion.after save) later,
          LeavesFlash taken.before taken.label) →
        reboot.Succeed →
          (last.after (.reboot reboot)).mode = companion.mode ∧
            (companion.mode.FreeRunning →
              (last.after (.reboot reboot)).param = companion.param) := by
  have sound := (sound_invariant gpio flash power).run ran
  refine ⟨sound.rests, ?_, ?_⟩
  · intro read answers mode
    exact Companion.triggerServiced (Companion.receive_sound sound read answers) mode answers
  · intro save later last reboot saves ran kept succeed
    have held : ∀ taken ∈ (machine gpio flash power).transitionsFrom (companion.after save) later,
        Companion.Stores companion.image taken.before →
          Companion.Stores companion.image taken.after := by
      intro taken member before
      have stepped := Option.some.inj (Machine.step_of_mem_transitionsFrom member)
      rw [← stepped]
      exact (Companion.after_leavesFlash (kept taken member)).trans before
    have stored : Companion.Stores companion.image last :=
      Machine.runFrom_of_transitionsFrom (Companion.after_saves saves) held ran
    have restored := Companion.boot_image sound succeed
    rw [← stored] at restored
    exact restored

/-- A pin with its registers. -/
def registers : Gpio where
  Pin := Direction × Pull × ℕ
  direction pin := pin.1
  pull pin := pin.2.1
  level pin := pin.2.2
  setDirection new pin := (new, pin.2)
  setPullMode new pin := (pin.1, new, pin.2.2)
  setLevel new pin := (pin.1, pin.2.1, new)
  resetPin pin := (.disabled, .pullUp, pin.2.2)
  direction_setDirection _ _ := rfl
  direction_setPullMode _ _ := rfl
  pull_setPullMode _ _ := rfl
  direction_setLevel _ _ := rfl
  level_setLevel _ _ := rfl

/-- Storage that answers, and a timer that moves on by a millisecond. -/
def bootWell : BootAnswers registers := ⟨(.disabled, .floating, 0), .ok, ⟨true, true, true⟩, 1000⟩

def passWell : PassAnswers := ⟨⟨true, true, ⟨none, none⟩⟩, 1000, 1000, 120000⟩

/-- The passes that read a text. -/
def typed (text : String) : List (Event registers) :=
  (bytes text).map fun c => .pass (some c) passWell

/-- The companion that was told to toggle, with `save` typed. -/
def toggling : Companion registers :=
  (typed "toggle 7\nsave").foldl Companion.after (.boot ⟨none, none⟩ bootWell)

/-- A toggle that is saved is restored with its half-period. -/
theorem toggle_restored :
    registers.Rests toggling.pin .toggle toggling.level ∧
      ((toggling.after (.pass (some 10) passWell)).after (.reboot bootWell)).mode = .toggle ∧
      ((toggling.after (.pass (some 10) passWell)).after (.reboot bootWell)).param = 7 := by
  have mode : toggling.mode = .toggle := by decide +kernel
  have param : toggling.param = 7 := by decide +kernel
  have completes : toggling.command (some 10) = some (.save, 0) := by decide +kernel
  have follows := pin_follows_mode registers ⟨none, none⟩ bootWell (typed "toggle 7\nsave") toggling
    (runFrom_machine _ _)
  have restored := follows.2.2 (.pass (some 10) passWell) [] _ bootWell ⟨⟨0, completes⟩, rfl, rfl⟩
    rfl (fun taken member => absurd member List.not_mem_nil) ⟨rfl, rfl, rfl, rfl⟩
  rw [mode] at follows restored
  exact ⟨follows.1, restored.1, (restored.2 (.inr rfl)).trans param⟩

end Rimba.C6Trigger
