import Rimba.DeepSleep.Dut
import Rimba.Foundation.GluedText
import Rimba.Foundation.Occurrences
import Rimba.Regtest.Dscycle

/-! # The console of a boot

The lines of the log stand between other texts and may be glued to them; the others hold
neither the tag of a report nor that of a sleep (`Rimba.DeepSleep.Quiet`). The texts that
the harness looks for stand in the console of a boot no more often than the boot has printed
the lines they are looked for in (`Rimba.DeepSleep.Console.reports`,
`Rimba.DeepSleep.Console.announces`), and the report of an association stands before the
announcement of the sleep (`Rimba.DeepSleep.Console.order`).
-/

namespace Rimba.DeepSleep

open Foundation
open Rimba.Regtest.Dscycle (reRecon reSleep)

/-- A field of a format: a text, a number, or the dash between two clauses. -/
inductive Field where
  | text (letters : String)
  | number (n : ℕ)
  | dash

/-- `C6-trigger` or `backup-timer` -/
def WakeCause.name : WakeCause → String
  | .ext1 => "C6-trigger"
  | _ => "backup-timer"

/-- The format of a line. -/
def BootLine.format : BootLine → List Field
  | .flashHold =>
      [.text "=== FLASH-HOLD: D5 HIGH at boot ", .dash,
        .text " idling host-awake for reflash ==="]
  | .held seconds => [.text "FLASH-HOLD ", .number seconds, .text "s"]
  | .freshBoot =>
      [.text "fresh boot ", .dash, .text " 8 s flash window, then connect + deep-sleep cycle"]
  | .woke cause =>
      [.text "=== WOKE from deep sleep (cause=", .number cause.number, .text " ",
        .text cause.name, .text ") ", .dash, .text " reconnecting ==="]
  | .reconnected ms cause =>
      [.text "=== RECONNECTED in ", .number ms, .text " ms (wake_cause=", .number cause.number,
        .text ") ", .dash, .text " associated to the AP ==="]
  | .timedOut cause =>
      [.text "=== reconnect TIMEOUT (30 s) wake_cause=", .number cause.number, .text " ", .dash,
        .text " sleeping, retry next wake ==="]
  | .deepSleep =>
      [.text "=== DEEP SLEEP (radio RESET_N low); wake on C6 trigger (D5 low) or ", .number 60,
        .text "s ==="]

/-- How the dash is read: as it is, or as what stands for the octets of it that are left of
a cut. -/
abbrev Dash := { dash : List Char // ∀ c ∈ dash, 128 ≤ c.toNat }

def Field.render (dash : Dash) : Field → List Char
  | .text letters => letters.toList
  | .number n => Nat.toDigits 10 n
  | .dash => dash.1

/-- A line as `ESP_LOGW` prints it, from the letter of its level to its line feed, with or
without colours. -/
structure LogLine where
  stamp : ℕ
  line : BootLine
  dash : Dash
  colours : Bool

/-- `LOG_RESET_COLOR` -/
def resetColour : String := "\x1b[0m"

/-- The fields of a line that is logged, behind the letter of its level. -/
def LogLine.fields (logged : LogLine) : List Field :=
  [.text " (", .number logged.stamp, .text ") ds-cycle: "] ++
    (logged.line.format ++ if logged.colours then [.text resetColour] else [])

def LogLine.body (logged : LogLine) : List Char :=
  logged.fields.flatMap (Field.render logged.dash)

/-- How often a letter stands in the texts of a field. -/
def Field.tally (letter : Char) : Field → ℕ
  | .text letters => letters.toList.count letter
  | _ => 0

theorem count_render {letter : Char} (apart : letter.isDigit = false) (ascii : letter.toNat < 128)
    (dash : Dash) (field : Field) :
    (field.render dash).count letter = field.tally letter := by
  cases field with
  | text letters => rfl
  | number n =>
      refine List.count_eq_zero.mpr fun member => ?_
      have digit := Nat.isDigit_of_mem_toDigits (by decide) (by decide) member
      exact absurd (apart.symm.trans digit) Bool.false_ne_true
  | dash => exact List.count_eq_zero.mpr fun member => absurd (dash.2 letter member) (by omega)

theorem count_fields {letter : Char} (apart : letter.isDigit = false) (ascii : letter.toNat < 128)
    (dash : Dash) (fields : List Field) :
    (fields.flatMap (Field.render dash)).count letter = (fields.map (Field.tally letter)).sum := by
  induction fields with
  | nil => rfl
  | cons field fields ih =>
      rw [List.flatMap_cons, List.count_append, count_render apart ascii, ih, List.map_cons,
        List.sum_cons]

/-- The letters of a line. -/
def BootLine.tally (letter : Char) (line : BootLine) : ℕ :=
  (line.format.map (Field.tally letter)).sum

/-- What stands around a line counts for a letter only when it is in it. -/
theorem count_body {letter : Char} (apart : letter.isDigit = false) (ascii : letter.toNat < 128)
    (absent : letter ∉ " (".toList ++ (") ds-cycle: ".toList ++ resetColour.toList))
    (logged : LogLine) : logged.body.count letter = logged.line.tally letter := by
  rw [List.mem_append, List.mem_append, not_or, not_or] at absent
  have front : Field.tally letter (.text " (") = 0 := List.count_eq_zero.mpr absent.1
  have behind : Field.tally letter (.text ") ds-cycle: ") = 0 :=
    List.count_eq_zero.mpr absent.2.1
  have reset : Field.tally letter (.text resetColour) = 0 := List.count_eq_zero.mpr absent.2.2
  have stamp : Field.tally letter (.number logged.stamp) = 0 := rfl
  have ends : ((if logged.colours then [Field.text resetColour] else []).map
      (Field.tally letter)).sum = 0 := by
    split
    · exact (List.sum_singleton).trans reset
    · rfl
  rw [LogLine.body, count_fields apart ascii, LogLine.fields, List.map_append, List.sum_append,
    List.map_append, List.sum_append, ends]
  simp only [List.map_cons, List.map_nil, List.sum_cons, List.sum_nil, front, behind, stamp,
    Nat.zero_add, Nat.add_zero, BootLine.tally]

theorem tally_name {letter : Char} (cause : WakeCause)
    (absent : letter ∉ "C6-trigger".toList ++ "backup-timer".toList) :
    Field.tally letter (.text cause.name) = 0 := by
  rw [List.mem_append, not_or] at absent
  cases cause with
  | ext1 => exact List.count_eq_zero.mpr absent.1
  | timer => exact List.count_eq_zero.mpr absent.2
  | other code => exact List.count_eq_zero.mpr absent.2

theorem tally_woke {letter : Char} (cause : WakeCause)
    (absent : letter ∉ "C6-trigger".toList ++ "backup-timer".toList) :
    (BootLine.woke cause).tally letter =
      "=== WOKE from deep sleep (cause=".toList.count letter + (" ".toList.count letter +
        (") ".toList.count letter + " reconnecting ===".toList.count letter)) := by
  simp only [BootLine.tally, BootLine.format, List.map_cons, List.map_nil, List.sum_cons,
    List.sum_nil, tally_name cause absent]
  simp only [Field.tally, Nat.zero_add, Nat.add_zero]

/-- Only the report of an association and the announcement of a sleep have an `R`. -/
theorem tally_report {line : BootLine} (awake : line.isDeepSleep = false) :
    line.tally 'R' = line.isReconnected.toNat := by
  cases line with
  | woke cause =>
      rw [tally_woke cause (by decide)]
      rfl
  | deepSleep => cases awake
  | _ => rfl

/-- Only the same two have a `P`. -/
theorem tally_quiet {line : BootLine} (awake : line.isDeepSleep = false)
    (apart : line.isReconnected = false) : line.tally 'P' = 0 := by
  cases line with
  | woke cause =>
      rw [tally_woke cause (by decide)]
      rfl
  | deepSleep => cases awake
  | reconnected ms cause => cases apart
  | _ => rfl

/-- `RECONNECTED in ` -/
def reportTag : List Char := "RECONNECTED in ".toList

/-- `DEEP SLEEP` -/
def sleepTag : List Char := "DEEP SLEEP".toList

/-- A line holds the text of a report when it is one, and then once. -/
theorem reports_body (logged : LogLine) :
    occurrences reportTag logged.body ≤ logged.line.isReconnected.toNat := by
  cases awake : logged.line.isDeepSleep with
  | true =>
      have isSleep : logged.line = .deepSleep := by
        cases line : logged.line <;> rw [line] at awake <;> cases awake
      -- the announcement has an `R`, and no `O`
      have lacking : logged.body.count 'O' = 0 := by
        rw [count_body (by decide) (by decide) (by decide), isSleep]
        rfl
      rw [occurrences_of_lacking (by decide) lacking]
      exact Nat.zero_le _
  | false =>
      rw [← tally_report awake, ← count_body (by decide) (by decide) (by decide)]
      exact occurrences_le_count 'R' "ECONNECTED in ".toList _

/-- A line holds the text of an announcement only when it is one. -/
theorem sleeps_body {logged : LogLine} (awake : logged.line.isDeepSleep = false) :
    occurrences sleepTag logged.body = 0 := by
  cases apart : logged.line.isReconnected with
  | false =>
      refine occurrences_of_lacking (d := 'P') (by decide) ?_
      rw [count_body (by decide) (by decide) (by decide), tally_quiet awake apart]
  | true =>
      -- the report has a `P`, and no `S`
      refine occurrences_of_lacking (d := 'S') (by decide) ?_
      rw [count_body (by decide) (by decide) (by decide)]
      cases line : logged.line <;> rw [line] at apart <;> cases apart
      rfl

theorem reRecon_needs (text : List Char) (apart : after reportTag text = none) :
    reRecon text = none := by
  have missed : after "RECONNECTED in ".toList text = none := apart
  simp only [reRecon, missed, Option.bind_none, Option.bind_eq_bind]

theorem reSleep_needs (text : List Char) (apart : after sleepTag text = none) :
    reSleep text = none := by
  have missed : after "DEEP SLEEP".toList text = none := apart
  simp only [reSleep, missed, Option.map_none]

/-- What a pattern finds is counted, when the pattern starts with the word. -/
theorem occurrences_of_search {Capture : Type} {pattern : Pattern Capture} {tag text : List Char}
    (nonempty : tag ≠ []) (needs : ∀ text, after tag text = none → pattern text = none)
    (found : (pattern.search text).isSome = true) : 0 < occurrences tag text := by
  by_contra none
  have absent : ¬ tag <:+: text := fun stands => none (occurrences_pos nonempty stands)
  rw [Pattern.search_of_absent needs absent] at found
  cases found

/-- A text that holds neither of what is looked for. -/
def Quiet (text : List Char) : Prop := ¬ reportTag <:+: text ∧ ¬ sleepTag <:+: text

theorem quiet_nil : Quiet [] := ⟨by decide, by decide⟩

/-- Lines of the log, each with what is printed before it, and what is printed last. -/
def glued (last : List Char) : List (List Char × LogLine) → List Char
  | [] => last
  | (before, logged) :: rest => before ++ 'W' :: (logged.body ++ '\n' :: glued last rest)

/-- What is printed while these lines are logged. -/
structure Console (lines : List BootLine) where
  logged : List (List Char × LogLine)
  last : List Char
  same : logged.map (fun entry => entry.2.line) = lines
  quiet : ∀ entry ∈ logged, Quiet entry.1
  quietLast : Quiet last

def Console.text {lines : List BootLine} (console : Console lines) : List Char :=
  glued console.last console.logged

theorem occurrences_glued {tag : List Char} (level : 'W' ∉ tag) (feed : '\n' ∉ tag)
    (nonempty : tag ≠ []) (last before : List Char) (logged : LogLine)
    (rest : List (List Char × LogLine)) :
    occurrences tag (glued last ((before, logged) :: rest)) =
      occurrences tag before +
        (occurrences tag logged.body + occurrences tag (glued last rest)) := by
  rw [glued, occurrences_bar level nonempty, occurrences_bar feed nonempty]

theorem glued_append (last : List Char) (front back : List (List Char × LogLine)) :
    glued last (front ++ back) = glued [] front ++ glued last back := by
  induction front with
  | nil => rfl
  | cons entry front ih =>
      obtain ⟨before, logged⟩ := entry
      rw [List.cons_append, glued, glued, ih, List.append_assoc, List.cons_append,
        List.append_assoc, List.cons_append]

theorem reports_glued {last : List Char} (quietLast : Quiet last)
    (logged : List (List Char × LogLine)) (quiet : ∀ entry ∈ logged, Quiet entry.1) :
    occurrences reportTag (glued last logged) ≤
      (logged.map fun entry => entry.2.line).countP BootLine.isReconnected := by
  induction logged with
  | nil => exact (occurrences_eq_zero quietLast.1).le
  | cons entry rest ih =>
      obtain ⟨before, logged⟩ := entry
      have silent := occurrences_eq_zero (quiet _ List.mem_cons_self).1
      have here := reports_body logged
      have later := ih fun other member => quiet other (List.mem_cons_of_mem _ member)
      rw [occurrences_glued (by decide) (by decide) (by decide), silent, List.map_cons,
        countP_cons_toNat, Nat.zero_add, Nat.add_comm]
      exact Nat.add_le_add later here

theorem sleeps_glued {last : List Char} (quietLast : Quiet last)
    (logged : List (List Char × LogLine)) (quiet : ∀ entry ∈ logged, Quiet entry.1)
    (awake : (logged.map fun entry => entry.2.line).countP BootLine.isDeepSleep = 0) :
    occurrences sleepTag (glued last logged) = 0 := by
  induction logged with
  | nil => exact occurrences_eq_zero quietLast.2
  | cons entry rest ih =>
      obtain ⟨before, logged⟩ := entry
      rw [List.countP_eq_zero, List.map_cons, List.forall_mem_cons, ← List.countP_eq_zero]
        at awake
      have silent := occurrences_eq_zero (quiet _ List.mem_cons_self).2
      have later := ih (fun other member => quiet other (List.mem_cons_of_mem _ member)) awake.2
      rw [occurrences_glued (by decide) (by decide) (by decide), silent, later,
        sleeps_body (Bool.eq_false_iff.mpr awake.1)]

/-- The console of a boot holds the text of a report at most once, and only of a boot that
has reported. -/
theorem Console.reports {boot : Boot} (console : Console boot.lines) :
    occurrences reportTag console.text ≤ boot.reassociated.toNat := by
  have few := reports_glued console.quietLast console.logged console.quiet
  rw [console.same] at few
  refine few.trans ?_
  cases reassociated : boot.reassociated with
  | false =>
      rw [Boot.reassociated, List.any_eq_false] at reassociated
      exact (List.countP_eq_zero.mpr reassociated).le
  | true =>
      obtain ⟨front, rest, lines, one, -, silent⟩ := boot_lines boot
      rw [lines, List.countP_append, silent]
      exact one.trans (Bool.toNat_le _)

/-- Nothing of the console of a boot announces its sleep before the report stands. -/
theorem Console.order {boot : Boot} (console : Console boot.lines) {before behind : List Char}
    (cut : console.text = before ++ behind) (announced : 0 < occurrences sleepTag before) :
    occurrences reportTag behind = 0 := by
  obtain ⟨front, rest, lines, -, awake, silent⟩ := boot_lines boot
  obtain ⟨early, late, split, sameEarly, sameLate⟩ :=
    List.map_eq_append_iff.mp (console.same.trans lines)
  have text := cut
  rw [Console.text, split, glued_append] at text
  have quiet := console.quiet
  rw [split, List.forall_mem_append] at quiet
  have asleepLater := sleeps_glued quiet_nil early quiet.1 (sameEarly ▸ awake)
  have reportedEarlier := reports_glued console.quietLast late quiet.2
  rw [sameLate, silent] at reportedEarlier
  exact no_cut_between text asleepLater (Nat.le_zero.mp reportedEarlier) announced

end Rimba.DeepSleep
