import Mathlib.Data.List.Infix
import Mathlib.Data.Nat.Notation

/-! # The deep-sleep cycle of the device under test

`firmware/test-deepsleep-cycle` connects, sleeps with the radio held in reset, and connects
again when it is woken. In one boot it reports at most one association, and it announces
its sleep behind it (`Rimba.DeepSleep.boot_lines`); what it reports is an association
(`Rimba.DeepSleep.connected_of_reassociated`).
-/

namespace Rimba.DeepSleep

/-- `esp_sleep_get_wakeup_cause` -/
inductive WakeCause where
  | ext1
  | timer
  | other (code : ℕ)
  deriving DecidableEq

/-- The number of the cause. -/
def WakeCause.number : WakeCause → ℕ
  | .ext1 => 3
  | .timer => 4
  | .other code => code

/-- `from_deep` -/
def WakeCause.fromDeep : WakeCause → Bool
  | .ext1 | .timer => true
  | .other _ => false

/-- A line of the log. -/
inductive BootLine where
  | flashHold
  | held (seconds : ℕ)
  | freshBoot
  | woke (cause : WakeCause)
  | reconnected (ms : ℕ) (cause : WakeCause)
  | timedOut (cause : WakeCause)
  | deepSleep
  deriving DecidableEq

inductive BootAction where
  /-- `vTaskDelay(pdMS_TO_TICKS(ms))` -/
  | delay (ms : ℕ)
  /-- The holds of the last sleep are released. -/
  | releaseHolds
  /-- D5 becomes an input with a pull-down. -/
  | guardD5
  /-- The stack is brought up and the station configured. -/
  | startRadio
  /-- `mmhalow_connect` -/
  | connect
  /-- RESET_N of the radio is driven low and held. -/
  | radioOff
  /-- D5 low and the backup timer wake the device. -/
  | armWake
  /-- `esp_deep_sleep_start` -/
  | deepSleep
  | print (line : BootLine)
  deriving DecidableEq

/-- What a boot meets: the cause of the wake, D5 when it is fresh with the rounds it is held
for reflashing, the polls of `s_connected`, what the read behind them sees, and the time
that has passed. -/
structure BootAnswers where
  cause : WakeCause
  d5High : Bool
  rounds : ℕ
  polls : Fin 301
  connected : Bool
  /-- The polls end early when the station is connected. -/
  early : polls.val < 300 → connected = true
  ms : UInt32

/-- `enter_deep_sleep` -/
def enterDeepSleep : List BootAction :=
  [.print .deepSleep, .delay 150, .radioOff, .armWake, .deepSleep]

/-- `app_main` from the reconnect timer on. -/
def reconnect (answers : BootAnswers) : List BootAction :=
  [.startRadio, .connect] ++ (List.replicate answers.polls.val (.delay 100) ++
    ((if answers.connected then .print (.reconnected answers.ms.toNat answers.cause)
      else .print (.timedOut answers.cause)) :: .delay 4000 :: enterDeepSleep))

/-- The device idles for reflashing, and says for how long. -/
def holdForFlash (rounds : ℕ) : List BootAction :=
  .print .flashHold :: (List.range rounds).flatMap fun h =>
    [.delay 3000, .print (.held (3 * (h + 1) % 4294967296))]

/-- `app_main`, for as long as it is left to run. -/
def appMain (answers : BootAnswers) : List BootAction :=
  [.delay 200, .releaseHolds] ++
    if answers.cause.fromDeep then .print (.woke answers.cause) :: reconnect answers
    else [.guardD5, .delay 50] ++
      if answers.d5High then holdForFlash answers.rounds
      else .print .freshBoot :: (List.replicate 8 (.delay 1000) ++ reconnect answers)

/-- A boot of the device: what it has done when it sleeps, or is reset before. -/
structure Boot where
  answers : BootAnswers
  done : List BootAction
  started : done <+: appMain answers

def BootAction.line : BootAction → Option BootLine
  | .print line => some line
  | _ => none

def BootLine.isReconnected : BootLine → Bool
  | .reconnected .. => true
  | _ => false

def BootLine.isDeepSleep : BootLine → Bool
  | .deepSleep => true
  | _ => false

/-- The lines it prints. -/
def Boot.lines (boot : Boot) : List BootLine := boot.done.filterMap BootAction.line

/-- The boot has reported an association. -/
def Boot.reassociated (boot : Boot) : Bool := boot.lines.any BootLine.isReconnected

/-- The boot has come to its sleep. -/
def Boot.slept (boot : Boot) : Bool := boot.done.contains .deepSleep

theorem printed_cons (line : BootLine) (rest : List BootAction) :
    (BootAction.print line :: rest).filterMap BootAction.line =
      line :: rest.filterMap BootAction.line := rfl

theorem lines_reconnect (answers : BootAnswers) :
    ∃ line, (line = .reconnected answers.ms.toNat answers.cause ∧ answers.connected = true ∨
        line = .timedOut answers.cause) ∧
      (reconnect answers).filterMap BootAction.line = [line, .deepSleep] := by
  have polled : (List.replicate answers.polls.val (BootAction.delay 100)).filterMap
      BootAction.line = [] := List.filterMap_eq_nil_iff.mpr fun action member => by
    rw [List.eq_of_mem_replicate member]
    rfl
  rw [reconnect, List.filterMap_append, List.filterMap_append, polled]
  by_cases connected : answers.connected = true
  · rw [if_pos connected]
    exact ⟨_, .inl ⟨rfl, connected⟩, rfl⟩
  · rw [if_neg connected]
    exact ⟨_, .inr rfl, rfl⟩

/-- Before its sleep a boot reports at most one association, and only of a station that is
connected; it announces its sleep last. -/
theorem lines_appMain (answers : BootAnswers) : ∃ front rest,
    (appMain answers).filterMap BootAction.line = front ++ rest ∧
      front.countP BootLine.isReconnected ≤ answers.connected.toNat ∧
      front.countP BootLine.isDeepSleep = 0 ∧ rest.countP BootLine.isReconnected = 0 := by
  obtain ⟨line, told, lines⟩ := lines_reconnect answers
  have few (first : BootLine) (other : first.isReconnected = false ∧ first.isDeepSleep = false) :
      [first, line].countP BootLine.isReconnected ≤ answers.connected.toNat ∧
        [first, line].countP BootLine.isDeepSleep = 0 := by
    rw [List.countP_cons_of_neg (Bool.eq_false_iff.mp other.1),
      List.countP_cons_of_neg (Bool.eq_false_iff.mp other.2)]
    rcases told with ⟨rfl, connected⟩ | rfl
    · rw [connected]
      exact ⟨Nat.le_refl 1, rfl⟩
    · exact ⟨Nat.zero_le _, rfl⟩
  rw [appMain, List.filterMap_append]
  by_cases deep : answers.cause.fromDeep = true
  · obtain ⟨reports, sleeps⟩ := few (.woke answers.cause) ⟨rfl, rfl⟩
    refine ⟨[.woke answers.cause, line], [.deepSleep], ?_, reports, sleeps, rfl⟩
    rw [if_pos deep, printed_cons, lines]
    rfl
  · rw [if_neg deep, List.filterMap_append]
    by_cases high : answers.d5High = true
    · rw [if_pos high]
      have held : ∀ line ∈ (holdForFlash answers.rounds).filterMap BootAction.line,
          line.isReconnected = false ∧ line.isDeepSleep = false := by
        intro line member
        obtain ⟨action, done, isLine⟩ := List.mem_filterMap.mp member
        rcases List.mem_cons.mp done with rfl | behind
        · cases isLine
          exact ⟨rfl, rfl⟩
        · obtain ⟨h, -, here⟩ := List.mem_flatMap.mp behind
          rcases List.mem_cons.mp here with rfl | last
          · cases isLine
          · rw [List.mem_singleton.mp last] at isLine
            cases isLine
            exact ⟨rfl, rfl⟩
      have none (isOf : BootLine → Bool)
          (not : ∀ line ∈ (holdForFlash answers.rounds).filterMap BootAction.line,
            isOf line = false) :
          ((holdForFlash answers.rounds).filterMap BootAction.line).countP isOf = 0 :=
        List.countP_eq_zero.mpr fun line member => Bool.eq_false_iff.mp (not line member)
      refine ⟨(holdForFlash answers.rounds).filterMap BootAction.line, [],
        (List.append_nil _).symm, ?_, none _ fun line member => (held line member).2, rfl⟩
      rw [none _ fun line member => (held line member).1]
      exact Nat.zero_le _
    · obtain ⟨reports, sleeps⟩ := few .freshBoot ⟨rfl, rfl⟩
      refine ⟨[.freshBoot, line], [.deepSleep], ?_, reports, sleeps, rfl⟩
      rw [if_neg high, printed_cons, List.filterMap_append, lines]
      rfl

/-- What a boot prints has its report before the announcement of its sleep. -/
theorem boot_lines (boot : Boot) : ∃ front rest, boot.lines = front ++ rest ∧
    front.countP BootLine.isReconnected ≤ boot.answers.connected.toNat ∧
      front.countP BootLine.isDeepSleep = 0 ∧ rest.countP BootLine.isReconnected = 0 := by
  obtain ⟨front, rest, lines, reports, sleeps, silent⟩ := lines_appMain boot.answers
  have printed : boot.lines <+: front ++ rest := by
    rw [← lines]
    exact boot.started.filterMap _
  have before : boot.lines.take front.length <+: front := by
    have cut := printed.take front.length
    rwa [List.take_left] at cut
  have behind : boot.lines.drop front.length <+: rest := by
    have cut := printed.drop front.length
    rwa [List.drop_left] at cut
  exact ⟨boot.lines.take front.length, boot.lines.drop front.length,
    (List.take_append_drop _ _).symm, (before.sublist.countP_le).trans reports,
    Nat.le_zero.mp (sleeps ▸ before.sublist.countP_le),
    Nat.le_zero.mp (silent ▸ behind.sublist.countP_le)⟩

/-- A boot that reports an association is one whose station was connected. -/
theorem connected_of_reassociated {boot : Boot} (reassociated : boot.reassociated = true) :
    boot.answers.connected = true := by
  obtain ⟨line, printed, reports⟩ := List.any_eq_true.mp reassociated
  obtain ⟨front, rest, lines, few, -, silent⟩ := boot_lines boot
  by_contra apart
  rw [Bool.not_eq_true] at apart
  rw [apart] at few
  have none : boot.lines.countP BootLine.isReconnected = 0 := by
    rw [lines, List.countP_append, silent]
    exact Nat.le_zero.mp few
  exact List.countP_eq_zero.mp none line printed reports

end Rimba.DeepSleep
