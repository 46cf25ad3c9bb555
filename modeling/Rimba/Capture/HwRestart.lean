import Mathlib.Algebra.Order.Ring.Rat
import Mathlib.Data.List.Basic
import Mathlib.Tactic.NormNum
import Rimba.Capture.Frame

/-! # Scoring a mesh restart on the air

`mesh_hwrestart_cap.py` keeps the beacon times of the node under test, of its
AP vif when one is scored and of a control node, and reports whether the node
came back after its restart. Its combination of the per-address verdicts first
asks for a pause between two beacons of a scored address. A node that goes
silent for good leaves a pause that no beacon ends, so what should be its FAIL
is reported only when some earlier pause happens to be in the capture
(`Rimba.Capture.Recording.fail_iff_paused`,
`Rimba.Capture.Recording.silentNode_not_failed`). What the combination does
report is sound: a PASS speaks for every scored address, and a FAIL of one of
them is not lost behind another that could not be measured
(`Rimba.Capture.Recording.combined_sound`).
-/

namespace Rimba.Capture

/-- A shorter pause than `GAP_S` is jitter, not a restart. -/
def gapS : ℚ := 2

/-- `MIN_BASELINE` -/
def minBaseline : ℕ := 20

/-- `MIN_RECOVERY` -/
def minRecovery : ℕ := 5

/-- `TAIL_WINDOW_S` -/
def tailWindowS : ℚ := 10

/-- `CONTROL_MIN_FRAC` -/
def controlMinFrac : ℚ := 1 / 4

/-- The addresses a run is started with; `ap` is there with `--ap`. -/
structure Watch where
  nut : String
  peer : String
  ap : Option String

/-- The beacon times a capture collects. -/
structure BeaconTimes where
  nutT : List ℚ
  peerT : List ℚ
  apT : List ℚ

/-- One pass of the capture loop: the beacon, if any, is kept for the first
address it matches. -/
def Watch.record (watch : Watch) (times : BeaconTimes) (reception : Reception) : BeaconTimes :=
  match reception.frame.bind s1gBeaconSa with
  | none => times
  | some sa =>
      if sa = watch.nut then { times with nutT := times.nutT ++ [reception.now] }
      else if sa = watch.peer then { times with peerT := times.peerT ++ [reception.now] }
      else if watch.ap = some sa then { times with apT := times.apT ++ [reception.now] }
      else times

/-- One run of the tool: what it watches, its two clock samples and everything
it received in between. -/
structure Recording where
  watch : Watch
  t0 : ℚ
  tEnd : ℚ
  receptions : List Reception

/-- The beacon times of a run. -/
def Recording.times (recording : Recording) : BeaconTimes :=
  recording.receptions.foldl recording.watch.record ⟨[], [], []⟩

/-- Beacons per second in a half-open window. -/
def rate (ts : List ℚ) (lo hi : ℚ) : ℚ :=
  (ts.countP fun t => lo ≤ t && t < hi) / max (hi - lo) (1 / 1000000)

/-- `find_gaps` -/
def findGaps (ts : List ℚ) : List (ℚ × ℚ) :=
  (ts.zip ts.tail).filter fun pair => gapS ≤ pair.2 - pair.1

/-- `restart_observed` -/
def BeaconTimes.restartObserved (times : BeaconTimes) : Bool :=
  !(findGaps times.nutT).isEmpty || !(findGaps times.apT).isEmpty

namespace Recording

variable (recording : Recording)

/-- The time from the last beacon of an address to the end of the capture. -/
def tailSilence (ts : List ℚ) : ℚ := recording.tEnd - ts.getLastD 0

/-- The control's rate fell off with the address's. -/
def controlFellOff (ts : List ℚ) : Bool :=
  let ctrlBefore := rate recording.times.peerT recording.t0 (ts.getLastD 0)
  let ctrlDuring := rate recording.times.peerT (ts.getLastD 0) recording.tEnd
  0 < ctrlBefore && ctrlDuring < controlMinFrac * ctrlBefore

/-- The verdict on one address. -/
def score (ts : List ℚ) : Verdict :=
  if ts.length < minBaseline then .inconclusive
  else if gapS ≤ recording.tailSilence ts then
    if recording.controlFellOff ts then .inconclusive else .fail
  else if (ts.countP fun t => recording.tEnd - tailWindowS ≤ t) < minRecovery then .fail
  else if (findGaps ts).isEmpty && !recording.times.restartObserved then .inconclusive
  else .pass

/-- The beacon times of the scored addresses. -/
def scored : List (List ℚ) :=
  recording.times.nutT :: if recording.watch.ap.isSome then [recording.times.apT] else []

/-- The verdict the run exits with. -/
def verdict : Verdict :=
  if recording.times.peerT.isEmpty then .inconclusive
  else
    let results := recording.scored.map recording.score
    if !recording.times.restartObserved then .inconclusive
    else if results.any (· = .fail) then .fail
    else if results.any (· = .inconclusive) then .inconclusive
    else .pass

/-- The address beaconed enough to be measured, then not for `gapS` or more up
to the end of the capture, while the control kept its rate. -/
structure SilentForGood (ts : List ℚ) : Prop where
  baseline : minBaseline ≤ ts.length
  silent : gapS ≤ recording.tailSilence ts
  controlled : controlMinFrac * rate recording.times.peerT recording.t0 (ts.getLastD 0) ≤
    rate recording.times.peerT (ts.getLastD 0) recording.tEnd

end Recording

/-- Two beacons in a row at least `gapS` apart. -/
def Paused (ts : List ℚ) : Prop :=
  ∃ i, ∃ later : i + 1 < ts.length, gapS ≤ ts[i + 1] - ts[i]

theorem findGaps_isEmpty_iff (ts : List ℚ) : (findGaps ts).isEmpty = false ↔ Paused ts := by
  rw [← Bool.not_eq_true, List.isEmpty_iff, findGaps, List.filter_eq_nil_iff]
  simp only [decide_eq_true_eq, not_forall, not_not]
  constructor
  · rintro ⟨pair, member, wide⟩
    obtain ⟨i, bound, rfl⟩ := List.mem_iff_getElem.mp member
    simp only [List.length_zip, List.length_tail] at bound
    simp only [List.getElem_zip, List.getElem_tail] at wide
    exact ⟨i, by omega, wide⟩
  · rintro ⟨i, later, wide⟩
    refine ⟨(ts[i], ts[i + 1]), ?_, wide⟩
    refine List.mem_iff_getElem.mpr ⟨i, ?_, ?_⟩
    · simp only [List.length_zip, List.length_tail]
      omega
    · simp only [List.getElem_zip, List.getElem_tail]

theorem restartObserved_iff (times : BeaconTimes) :
    times.restartObserved = true ↔ Paused times.nutT ∨ Paused times.apT := by
  simp only [BeaconTimes.restartObserved, Bool.or_eq_true, Bool.not_eq_true',
    findGaps_isEmpty_iff]

namespace Recording

variable {recording : Recording}

theorem SilentForGood.score {ts : List ℚ} (silent : recording.SilentForGood ts) :
    recording.score ts = .fail := by
  have control : recording.controlFellOff ts = false := by
    simp only [controlFellOff, Bool.and_eq_false_iff, decide_eq_false_iff_not, not_lt]
    exact .inr silent.controlled
  simp only [Recording.score, Nat.not_lt.mpr silent.baseline, silent.silent, control, ↓reduceIte,
    Bool.false_eq_true]

/-- **When a silent node fails.** With the control heard and a scored address
silent for good, the run fails exactly when some scored address also paused
between two of its beacons. -/
theorem fail_iff_paused (heard : recording.times.peerT ≠ [])
    (silent : ∃ ts ∈ recording.scored, recording.SilentForGood ts) :
    recording.verdict.exitCode = 1 ↔
      Paused recording.times.nutT ∨ Paused recording.times.apT := by
  obtain ⟨ts, member, silent⟩ := silent
  have failed : (recording.scored.map recording.score).any (· = .fail) = true :=
    List.any_eq_true.mpr ⟨.fail, List.mem_map.mpr ⟨ts, member, silent.score⟩, decide_true ..⟩
  have audible : recording.times.peerT.isEmpty = false :=
    Bool.eq_false_iff.mpr fun empty => heard (List.isEmpty_iff.mp empty)
  rw [← restartObserved_iff]
  cases observed : recording.times.restartObserved with
  | true =>
      simp only [verdict, audible, observed, failed, Bool.not_true, Bool.false_eq_true, ↓reduceIte,
        Verdict.exitCode]
  | false =>
      simp only [verdict, audible, observed, Bool.not_false, Bool.false_eq_true, ↓reduceIte,
        Verdict.exitCode, OfNat.ofNat_ne_one]

/-- Ten captured seconds with a control beacon every fifth of a second, and one
of the node whenever it is on air. -/
def beaconing (onAir : ℕ → Bool) : Recording where
  watch := ⟨"02:00:00:00:00:01", "02:00:00:00:00:02", none⟩
  t0 := 0
  tEnd := 10
  receptions := (List.range 50).flatMap fun i : ℕ =>
    let beacon (sa : UInt8) : Reception :=
      ⟨i / 5, some ([0, 0, 8, 0, 0, 0, 0, 0, 0x1c, 0, 0, 0, 2, 0, 0, 0, 0, sa] ++
        List.replicate 6 0)⟩
    beacon 2 :: if onAir i then [beacon 1] else []

/-- A node that restarts, comes back after more than two seconds and then falls
silent is failed. -/
theorem restartedThenSilent_failed :
    (beaconing fun i => i < 12 || 23 < i && i < 36).verdict.exitCode = 1 :=
  (fail_iff_paused (by decide +kernel)
      ⟨_, List.mem_cons_self, by decide +kernel, by decide +kernel, by decide +kernel⟩).mpr
    (.inl ⟨11, by decide +kernel, by decide +kernel⟩)

/-- A node that beacons for five seconds and then never again is not failed. -/
theorem silentNode_not_failed :
    ¬ ∀ recording : Recording, recording.times.peerT ≠ [] →
      (∃ ts ∈ recording.scored, recording.SilentForGood ts) → recording.verdict.exitCode = 1 := by
  intro always
  have failed := always (beaconing fun i => i < 25) (by decide +kernel)
    ⟨_, List.mem_cons_self, by decide +kernel, by decide +kernel, by decide +kernel⟩
  exact absurd failed (by decide +kernel)

section

variable (recording : Recording)

/-- The verdicts of the scored addresses, with the beacon times each is about;
without a control beacon no address is scored. -/
def results : List (List ℚ × Verdict) :=
  if recording.times.peerT.isEmpty then []
  else recording.scored.map fun ts => (ts, recording.score ts)

/-- The address has a baseline and is on air at the end of the capture. -/
structure BackOnAir (ts : List ℚ) : Prop where
  baseline : minBaseline ≤ ts.length
  sounding : recording.tailSilence ts < gapS
  recovered : minRecovery ≤ ts.countP fun t => recording.tEnd - tailWindowS ≤ t

end

/-- Without an AP to score, no pass keeps a beacon for it. -/
theorem record_apT {watch : Watch} (unscored : watch.ap = none) (times : BeaconTimes)
    (reception : Reception) : (watch.record times reception).apT = times.apT := by
  cases beacon : reception.frame.bind s1gBeaconSa with
  | none => simp only [Watch.record, beacon]
  | some sa =>
      simp only [Watch.record, beacon, unscored, reduceCtorEq, ↓reduceIte]
      split
      · rfl
      · split <;> rfl

/-- A run without an AP to score has no beacon times for it. -/
theorem times_apT (unscored : recording.watch.ap = none) : recording.times.apT = [] := by
  have kept : ∀ (receptions : List Reception) (times : BeaconTimes),
      (receptions.foldl recording.watch.record times).apT = times.apT := by
    intro receptions
    induction receptions with
    | nil => exact fun _ => rfl
    | cons reception receptions ih =>
        intro times
        rw [List.foldl_cons, ih, record_apT unscored]
  exact kept recording.receptions ⟨[], [], []⟩

/-- A restart is observed exactly when a scored address paused. -/
theorem restartObserved_iff_scored :
    recording.times.restartObserved = true ↔ ∃ ts ∈ recording.scored, Paused ts := by
  rw [restartObserved_iff]
  cases watched : recording.watch.ap with
  | none =>
      have unpaused : ¬ Paused ([] : List ℚ) := by
        rintro ⟨i, later, _⟩
        exact Nat.not_lt_zero _ later
      simp only [scored, watched, times_apT watched, unpaused, Option.isSome_none,
        Bool.false_eq_true, ↓reduceIte, List.mem_singleton, exists_eq_left, or_false]
  | some ap =>
      simp only [scored, watched, Option.isSome_some, ↓reduceIte, List.mem_cons,
        List.not_mem_nil, or_false, exists_eq_or_imp, exists_eq_left]

/-- An address scored as back is on air at the end. -/
theorem backOnAir_of_score {ts : List ℚ} (passed : recording.score ts = .pass) :
    recording.BackOnAir ts := by
  unfold score at passed
  split at passed
  · cases passed
  · next baseline =>
      split at passed
      · split at passed <;> cases passed
      · next sounding =>
          split at passed
          · cases passed
          · next recovered =>
              exact ⟨Nat.not_lt.mp baseline, not_le.mp sounding, Nat.not_lt.mp recovered⟩

/-- A run that passes has heard the control, observed a restart, and passed each address. -/
theorem of_verdict_pass (passed : recording.verdict = .pass) :
    recording.times.peerT ≠ [] ∧ recording.times.restartObserved = true ∧
      ∀ ts ∈ recording.scored, recording.score ts = .pass := by
  simp only [verdict] at passed
  split_ifs at passed with silent unobserved failed unmeasured
  rw [List.isEmpty_iff] at silent
  rw [Bool.not_eq_true', Bool.not_eq_false] at unobserved
  refine ⟨silent, unobserved, ?_⟩
  intro ts member
  have scoredHere := @List.mem_map_of_mem _ _ _ _ recording.score member
  cases score : recording.score ts with
  | pass => rfl
  | fail =>
      exact absurd (List.any_eq_true.mpr ⟨_, scoredHere, decide_eq_true score⟩) failed
  | inconclusive =>
      exact absurd (List.any_eq_true.mpr ⟨_, scoredHere, decide_eq_true score⟩) unmeasured

/-- Once a restart is observed, an address that fails makes the run fail. -/
theorem verdict_fail (observed : recording.times.restartObserved = true) {ts : List ℚ}
    (member : (ts, Verdict.fail) ∈ recording.results) : recording.verdict = .fail := by
  unfold results at member
  split_ifs at member with silent
  · cases member
  · obtain ⟨_, inScored, same⟩ := List.mem_map.mp member
    obtain ⟨rfl, failed⟩ := Prod.mk.inj same
    have any : (recording.scored.map recording.score).any (· = .fail) = true :=
      List.any_eq_true.mpr ⟨_, List.mem_map_of_mem inScored, decide_eq_true failed⟩
    simp only [verdict, silent, observed, any, Bool.not_true, Bool.false_eq_true, ↓reduceIte]

theorem verdict_of_exitCode {verdict : Verdict} (zero : verdict.exitCode = 0) :
    verdict = .pass := by
  cases verdict with
  | pass => rfl
  | fail => cases zero
  | inconclusive => cases zero

/-- **What the combined verdict says.** A PASS says that the control was heard,
that a scored address paused, and that every scored address had a baseline and is
on air at the end; and once a scored address paused, one that fails makes the run
fail, whatever the other is. -/
theorem combined_sound (recording : Recording) :
    (recording.verdict.exitCode = 0 →
      recording.times.peerT ≠ [] ∧ (∃ ts ∈ recording.scored, Paused ts) ∧
        ∀ ts ∈ recording.scored, recording.BackOnAir ts) ∧
      ((∃ ts ∈ recording.scored, Paused ts) →
        (∃ ts, (ts, Verdict.fail) ∈ recording.results) → recording.verdict.exitCode = 1) := by
  rw [← restartObserved_iff_scored]
  constructor
  · intro passed
    obtain ⟨heard, observed, scores⟩ := of_verdict_pass (verdict_of_exitCode passed)
    exact ⟨heard, observed, fun ts member => backOnAir_of_score (scores ts member)⟩
  · rintro observed ⟨ts, member⟩
    rw [verdict_fail observed member]
    rfl

/-- A node that pauses for more than two seconds and comes back passes. -/
theorem restarted_backOnAir :
    ∀ ts ∈ (beaconing fun i => i < 12 || 23 < i).scored,
      (beaconing fun i => i < 12 || 23 < i).BackOnAir ts :=
  ((combined_sound _).1 (by decide +kernel)).2.2

end Recording

end Rimba.Capture
