import Rimba.Foundation.Json.Decimal
import Rimba.Foundation.OrderedDict
import Rimba.Regtest.Reporter

/-! # The scoring of the power ladder

`_score` of the harness's `tp_power` module with the tiers, the window and the bands of
the manifest. The manifest says of a run outside the window that the whole of it is
inconclusive; a tier that is only recorded passes nevertheless, and so does the WNM tier
when its step is absent (`Rimba.Regtest.powerSound_iff`). A scored tier's verdict falls
with its median (`Rimba.Regtest.power_monotone`). Numbers are exact.
-/

namespace Rimba.Regtest

open Foundation (OrderedDict roundHalfEven tenthsText)

/-- A tier of the ladder. -/
structure PowerTier where
  key : String
  phase : ℕ
  label : String
  scored : Bool
  provenance : String
  deriving DecidableEq

/-- The anchor that the validity of a run hangs on. -/
def noPs : PowerTier where
  key := "no-ps"
  phase := 1
  label := "No-PS (radio always on)"
  scored := false
  provenance := "validity anchor: proves associated + PS-on + not RX-overloaded; ~65 mA, " ++
    "unchanged by the PS regression (radio always on)"

def dynPs : PowerTier where
  key := "dyn-ps"
  phase := 2
  label := "Dynamic PS"
  scored := true
  provenance := "docs/reference/rimba-halow-ps-esp32-vs-linux-ap.md:41 (Linux AP 9.1 -> 20.2 mA " ++
    "on 1.17.9); ESP AP good ~15.3"

/-- Recorded only. -/
def twt : PowerTier where
  key := "twt"
  phase := 3
  label := "TWT (10 s SP)"
  scored := false
  provenance := "recorded-not-scored: a Linux hostapd ignores the mid-session TWT setup -> STA " ++
    "falls back to dyn-PS (~9.9 mA), so no clean good/bad (ref doc :242)"

def wnmPowerdown : PowerTier where
  key := "wnm-powerdown"
  phase := 4
  label := "WNM + chip-powerdown"
  scored := true
  provenance := "docs/reference/rimba-halow-ps-esp32-vs-linux-ap.md:50 (Linux AP 5.1 -> 17.5 mA " ++
    "on 1.17.9); the deepest stay-associated tier"

/-- `POWER_TIERS` -/
def powerTiers : List PowerTier := [noPs, dynPs, twt, wnmPowerdown]

theorem twt_mem : twt ∈ powerTiers := .tail _ (.tail _ (.head _))

theorem wnmPowerdown_mem : wnmPowerdown ∈ powerTiers := .tail _ (.tail _ (.tail _ (.head _)))

/-- `POWER_NOPS_VALID_MA` -/
def powerNopsValidMa : ℚ × ℚ := (55, 72)

/-- What a tier passes up to, and what it fails from. -/
structure Band where
  passMax : ℚ
  failMin : ℚ
  deriving DecidableEq

/-- The bands of the scored tiers for each access point. -/
structure BandTable where
  bands : OrderedDict String (OrderedDict String Band)
  calibrated : Bool

/-- The bands of the two scored tiers. -/
def scoredBands (dynPs wnmPowerdown : Band) : OrderedDict String Band :=
  (OrderedDict.empty.set "dyn-ps" dynPs).set "wnm-powerdown" wnmPowerdown

/-- `POWER_BANDS`, `POWER_BANDS_CALIBRATED` -/
def powerBands : BandTable where
  bands := (OrderedDict.empty.set "linux" (scoredBands ⟨30, 40⟩ ⟨21, 28⟩)).set "esp"
    (scoredBands ⟨32, 42⟩ ⟨24, 32⟩)
  calibrated := true

/-- `POWER_BANDS_LS`, `POWER_BANDS_LS_CALIBRATED` -/
def powerBandsLs : BandTable where
  bands := (OrderedDict.empty.set "linux" (scoredBands ⟨35, 48⟩ ⟨35, 46⟩)).set "esp"
    (scoredBands ⟨35, 48⟩ ⟨35, 46⟩)
  calibrated := true

/-- The table of a run. -/
def bandTable (lightSleep : Bool) : BandTable := if lightSleep then powerBandsLs else powerBands

/-- The median, the tenth and the ninetieth percentile of a tier, and its samples. -/
structure TierStats where
  med : ℚ
  p10 : ℚ
  p90 : ℚ
  n : ℕ
  deriving DecidableEq

/-- What `_score` is given of a run. -/
structure Ladder where
  ap : String
  tierStats : OrderedDict String TierStats
  steps : OrderedDict String Bool
  fw : String
  dur : ℚ

/-- The meta of a tier's result. -/
structure PowerMeta where
  ap : String
  fw : String
  tier : String
  scored : Bool
  /-- `median_ma`, `p10_ma`, `p90_ma` and `n`. -/
  measured : Option TierStats
  /-- `twt_installed`, of a tier that is recorded only. -/
  twtInstalled : Option (Option Bool)
  band : Option Band
  deriving DecidableEq

/-- `format(x, ".1f")` -/
def formatTenths (x : ℚ) : String :=
  String.ofList (tenthsText (x < 0) (roundHalfEven (|x| * 10)).toNat)

/-- `format(x, ".0f")` -/
def formatWhole (x : ℚ) : String :=
  (if x < 0 then "-" else "") ++ toString (roundHalfEven |x|).toNat

/-- `round(x, 2)` -/
def roundHundredths (x : ℚ) : ℚ := roundHalfEven (x * 100) / 100

/-- `str` of a truth value. -/
def boolText (b : Bool) : String := if b then "True" else "False"

/-- `str` of a truth value or `None`. -/
def optionText (b : Option Bool) : String := b.elim "None" boolText

namespace Ladder

variable (ladder : Ladder)

/-- `steps.get("associated", False)` -/
def associated : Bool := (ladder.steps.get? "associated").getD false

/-- The measurement is trustworthy. -/
def valid : Bool :=
  ladder.associated && (ladder.tierStats.get? "no-ps").any fun nops =>
    powerNopsValidMa.1 ≤ nops.med && nops.med ≤ powerNopsValidMa.2

/-- `bands.get(tier.key)` -/
def band (table : BandTable) (tier : PowerTier) : Option Band :=
  ((table.bands.get? ladder.ap).getD .empty).get? tier.key

def fwText : String := if ladder.fw = "" then "?" else ladder.fw

/-- `base_meta`, with what is added to it. -/
def info (tier : PowerTier) (measured : Option TierStats)
    (twtInstalled : Option (Option Bool)) (band : Option Band) : PowerMeta :=
  ⟨ladder.ap, ladder.fwText, tier.key, tier.scored, measured, twtInstalled, band⟩

/-- The structural step of a tier: only the WNM tier has one. -/
def stepOk (tier : PowerTier) : Bool :=
  if tier.key = "wnm-powerdown" then (ladder.steps.get? "wnm-accepted").getD true else true

end Ladder

/-- A tier's result. -/
def powerResult (tier : PowerTier) (status : Status) (detail : String) (durationS : ℚ)
    (evidence : String) (info : PowerMeta) : Result PowerMeta :=
  let label := tier.label
  ⟨"TP", "tp:" ++ tier.key ++ s!" ({label})", status, detail, durationS, evidence, info⟩

/-- `num` -/
def TierStats.text (st : TierStats) : String :=
  let med := formatTenths st.med
  let p10 := formatTenths st.p10
  let p90 := formatTenths st.p90
  let n := st.n
  s!"{med} mA (p10 {p10} / p90 {p90}, n={n})"

/-- The statistics as they are written. -/
def TierStats.rounded (st : TierStats) : TierStats :=
  ⟨roundHundredths st.med, roundHundredths st.p10, roundHundredths st.p90, st.n⟩

/-- The status of a scored tier with a band, in a valid run. -/
def bandStatus (band : Band) (stepOk : Bool) (med : ℚ) : Status :=
  if band.failMin ≤ med then .fail
  else if med ≤ band.passMax then
    if !stepOk then .inconclusive else .pass
  else .inconclusive

/-- The detail of a scored tier with a band, in a valid run. -/
def bandDetail (ladder : Ladder) (tier : PowerTier) (band : Band) (st : TierStats)
    (prov : String) : String :=
  let num := st.text
  let passMax := formatWhole band.passMax
  let failMin := formatWhole band.failMin
  let ap := ladder.ap
  if band.failMin ≤ st.med then
    s!"{num} >= FAIL ceiling {failMin} mA (band <={passMax}) " ++
      s!"— a GROSS current regression on {ap} AP{prov}"
  else if st.med ≤ band.passMax then
    if !ladder.stepOk tier then
      let accepted := optionText (ladder.steps.get? "wnm-accepted")
      s!"{num} is in-band BUT the structural step failed (wnm-accepted={accepted}) — a low " ++
        "number that is really 'failed to doze', not a PASS" ++ prov
    else s!"{num} <= band {passMax} mA (FAIL >= {failMin}){prov}"
  else
    s!"{num} in the grey zone {passMax}-{failMin} mA — not clearly good or a gross " ++
      s!"regression{prov}"

/-- What the loop of `_score` adds for a tier. -/
def scoreTier (table : BandTable) (ladder : Ladder) (tier : PowerTier) : Result PowerMeta :=
  let prov := if table.calibrated then "" else " [PROVISIONAL bands — not yet calibrated on-rig]"
  match ladder.tierStats.get? tier.key with
  | none =>
      let fw := ladder.fwText
      let ap := ladder.ap
      powerResult tier .inconclusive s!"no PPK2 samples segmented for this tier (fw={fw}, ap={ap})"
        0 "" (ladder.info tier none none none)
  | some st =>
      let num := st.text
      if tier.key = "no-ps" then
        let lo := formatWhole powerNopsValidMa.1
        let hi := formatWhole powerNopsValidMa.2
        let associated := boolText ladder.associated
        let place := if ladder.valid then "in band" else "OUT OF BAND"
        let untrusted := if ladder.valid then "" else
          " (unassociated / PS-not-off / RX-overloaded -> whole run untrustworthy)"
        powerResult tier (if ladder.valid then .pass else .inconclusive)
          (s!"validity anchor {num}; associated={associated}, window {lo}-{hi} mA -> " ++
            s!"{place}{untrusted}")
          (if tier.phase = 1 then ladder.dur else 0) tier.provenance
          (ladder.info tier (some st.rounded) none none)
      else if !tier.scored then
        let twtInst := ladder.steps.get? "twt-installed"
        let installed := optionText twtInst
        powerResult tier .pass
          (s!"recorded (not scored — AP-dependent): {num}; " ++ s!"twt-installed={installed}")
          0 tier.provenance (ladder.info tier (some st.rounded) (some twtInst) none)
      else
        match ladder.band table tier with
        | none =>
            powerResult tier .inconclusive s!"{num}; no band configured for this AP{prov}"
              0 tier.provenance (ladder.info tier (some st.rounded) none none)
        | some band =>
            if !ladder.valid then
              powerResult tier .inconclusive
                (s!"{num}; run not trustworthy (No-PS validity failed: " ++
                  s!"unassociated / RX-overloaded){prov}")
                0 tier.provenance (ladder.info tier (some st.rounded) none none)
            else
              powerResult tier (bandStatus band (ladder.stepOk tier) st.med)
                (bandDetail ladder tier band st prov) 0 tier.provenance
                (ladder.info tier (some st.rounded) none (some band))

/-- What `_score` adds to the reporter, in this order. -/
def score (table : BandTable) (ladder : Ladder) : List (Result PowerMeta) :=
  powerTiers.map (scoreTier table ladder)

/-- `_score` -/
def scoreInto (reporter : Reporter PowerMeta) (lightSleep : Bool) (ladder : Ladder) :
    Reporter PowerMeta :=
  (score (bandTable lightSleep) ladder).foldl Reporter.collect reporter

theorem results_scoreInto (reporter : Reporter PowerMeta) (lightSleep : Bool) (ladder : Ladder) :
    (scoreInto reporter lightSleep ladder).results =
      reporter.results ++ score (bandTable lightSleep) ladder := by
  rw [scoreInto]
  generalize score (bandTable lightSleep) ladder = added
  induction added generalizing reporter with
  | nil => exact (List.append_nil _).symm
  | cons result added ih =>
      rw [List.foldl_cons, ih, Reporter.collect, List.append_assoc, List.singleton_append]

section

variable {table : BandTable} {ladder : Ladder} {tier : PowerTier}

theorem info_scoreTier : (scoreTier table ladder tier).info.tier = tier.key := by
  simp only [scoreTier]
  cases ladder.tierStats.get? tier.key with
  | none => rfl
  | some st =>
      by_cases anchor : tier.key = "no-ps"
      · simp only [if_pos anchor]
        rfl
      · by_cases recorded : (!tier.scored) = true
        · simp only [if_neg anchor, if_pos recorded]
          rfl
        · simp only [if_neg anchor, if_neg recorded]
          cases ladder.band table tier with
          | none => rfl
          | some band =>
              by_cases invalid : (!ladder.valid) = true
              · simp only [if_pos invalid]
                rfl
              · simp only [if_neg invalid]
                rfl

/-- In a run that is not valid only a tier that is recorded passes. -/
theorem status_invalid (invalid : ladder.valid = false) :
    (scoreTier table ladder tier).status =
      if (ladder.tierStats.get? tier.key).isSome = true ∧ tier.key ≠ "no-ps" ∧
        tier.scored = false then .pass else .inconclusive := by
  rw [scoreTier, invalid]
  cases ladder.tierStats.get? tier.key with
  | none => rfl
  | some st =>
      simp only [Option.isSome_some, true_and, Bool.not_eq_true']
      by_cases anchor : tier.key = "no-ps"
      · simp only [anchor, ↓reduceIte, Bool.false_eq_true, ne_eq, not_true_eq_false, false_and]
        rfl
      · by_cases recorded : tier.scored = false
        · simp only [anchor, recorded, ↓reduceIte, ne_eq, not_false_eq_true, and_self]
          rfl
        · have noPass : ¬ (tier.key ≠ "no-ps" ∧ tier.scored = false) := fun both => recorded both.2
          simp only [if_neg anchor, if_neg recorded, if_neg noPass]
          cases ladder.band table tier <;> rfl

/-- What a scored tier without samples or a band is. -/
theorem status_unscored (scored : tier.scored = true)
    (noAnchor : tier.key ≠ "no-ps")
    (missing : ladder.tierStats.get? tier.key = none ∨ ladder.band table tier = none) :
    (scoreTier table ladder tier).status = .inconclusive := by
  rw [scoreTier]
  cases samples : ladder.tierStats.get? tier.key with
  | none => rfl
  | some st =>
      have noBand := missing.resolve_left (samples ▸ Option.some_ne_none st)
      simp only [noAnchor, scored, noBand, ↓reduceIte, Bool.not_true, Bool.false_eq_true]
      rfl

/-- What a scored tier with samples and a band is. -/
theorem status_scored (valid : ladder.valid = true) (scored : tier.scored = true)
    (noAnchor : tier.key ≠ "no-ps") {st : TierStats}
    (samples : ladder.tierStats.get? tier.key = some st) {band : Band}
    (banded : ladder.band table tier = some band) :
    (scoreTier table ladder tier).status = bandStatus band (ladder.stepOk tier) st.med := by
  simp only [scoreTier, samples, noAnchor, scored, banded, valid, ↓reduceIte, Bool.not_true,
    Bool.false_eq_true]
  rfl

end

/-- What the manifest and the console's contract say of the results of a run. -/
structure PowerSound (table : BandTable) (ladder : Ladder) : Prop where
  invalid : ladder.valid = false → ∀ result ∈ score table ladder, result.status = .inconclusive
  accepted : ∀ result ∈ score table ladder, result.info.tier = wnmPowerdown.key →
    result.status = .pass → ladder.steps.get? "wnm-accepted" = some true

/-- A low WNM median in a valid run comes with its step, passed or failed. -/
def StepReported (table : BandTable) (ladder : Ladder) : Prop :=
  ∀ st band, ladder.valid = true → ladder.tierStats.get? wnmPowerdown.key = some st →
    ladder.band table wnmPowerdown = some band → st.med < band.failMin → st.med ≤ band.passMax →
    ladder.steps.get? "wnm-accepted" ≠ none

theorem bandStatus_eq_pass {band : Band} {stepOk : Bool} {med : ℚ} :
    bandStatus band stepOk med = .pass ↔
      med < band.failMin ∧ med ≤ band.passMax ∧ stepOk = true := by
  rw [bandStatus]
  split_ifs with gross low failed
  · simp only [not_lt.mpr gross, false_and]
  · rw [Bool.not_eq_true'] at failed
    simp only [failed, Bool.false_eq_true, and_false]
  · rw [Bool.not_eq_true', Bool.not_eq_false] at failed
    exact iff_of_true rfl ⟨not_le.mp gross, low, failed⟩
  · simp only [low, false_and, and_false]

theorem bandStatus_eq_fail {band : Band} {stepOk : Bool} {med : ℚ} :
    bandStatus band stepOk med = .fail ↔ band.failMin ≤ med := by
  rw [bandStatus]
  split_ifs with gross <;> simp only [gross]

theorem bandStatus_mem (band : Band) (stepOk : Bool) (med : ℚ) :
    bandStatus band stepOk med ∈ [Status.fail, .inconclusive, .pass] := by
  rw [bandStatus]
  split_ifs <;> decide

theorem invalid_iff {table : BandTable} {ladder : Ladder} :
    (ladder.valid = false → ∀ result ∈ score table ladder, result.status = .inconclusive) ↔
      ladder.valid = true ∨ ladder.tierStats.get? twt.key = none := by
  cases valid : ladder.valid with
  | true => simp only [Bool.true_eq_false, IsEmpty.forall_iff, true_or]
  | false =>
      have status (tier : PowerTier) := @status_invalid table ladder tier valid
      simp only [score, List.forall_mem_map, Bool.false_eq_true, false_or, true_imp_iff]
      constructor
      · intro all
        have recorded := all twt twt_mem
        rw [status] at recorded
        cases samples : ladder.tierStats.get? twt.key with
        | none => rfl
        | some st =>
            rw [samples, if_pos ⟨rfl, by decide, rfl⟩] at recorded
            cases recorded
      · intro noSamples tier member
        rw [status, if_neg]
        rintro ⟨samples, noAnchor, recorded⟩
        rcases member with _ | ⟨_, _ | ⟨_, _ | ⟨_, _ | ⟨_, none⟩⟩⟩⟩
        · exact noAnchor rfl
        · cases recorded
        · rw [noSamples] at samples
          cases samples
        · cases recorded
        · cases none

/-- When the WNM tier passes. -/
theorem wnm_pass_iff {table : BandTable} {ladder : Ladder} :
    (scoreTier table ladder wnmPowerdown).status = .pass ↔
      ∃ st band, ladder.valid = true ∧ ladder.tierStats.get? wnmPowerdown.key = some st ∧
        ladder.band table wnmPowerdown = some band ∧ st.med < band.failMin ∧
        st.med ≤ band.passMax ∧ (ladder.steps.get? "wnm-accepted").getD true = true := by
  have stepOk : ladder.stepOk wnmPowerdown = (ladder.steps.get? "wnm-accepted").getD true :=
    if_pos rfl
  constructor
  · intro passed
    cases valid : ladder.valid with
    | false =>
        rw [status_invalid valid, if_neg fun recorded => nomatch recorded.2.2] at passed
        cases passed
    | true =>
        cases samples : ladder.tierStats.get? wnmPowerdown.key with
        | none =>
            rw [status_unscored rfl (by decide) (.inl samples)] at passed
            cases passed
        | some st =>
            cases banded : ladder.band table wnmPowerdown with
            | none =>
                rw [status_unscored rfl (by decide) (.inr banded)] at passed
                cases passed
            | some band =>
                rw [status_scored valid rfl (by decide) samples banded, stepOk] at passed
                exact ⟨st, band, rfl, rfl, rfl, bandStatus_eq_pass.mp passed⟩
  · rintro ⟨st, band, valid, samples, banded, low⟩
    rw [status_scored valid rfl (by decide) samples banded, stepOk]
    exact bandStatus_eq_pass.mpr low

/-- The results are sound exactly when the run is valid or has no samples of the tier that
is recorded only, and a low WNM median of a valid run comes with its step. -/
theorem powerSound_iff (table : BandTable) (ladder : Ladder) :
    PowerSound table ladder ↔
      (ladder.valid = true ∨ ladder.tierStats.get? twt.key = none) ∧
        StepReported table ladder := by
  constructor
  · rintro ⟨invalid, accepted⟩
    refine ⟨invalid_iff.mp invalid, ?_⟩
    intro st band valid samples banded gross low absent
    have passed : (scoreTier table ladder wnmPowerdown).status = .pass :=
      wnm_pass_iff.mpr ⟨st, band, valid, samples, banded, gross, low, by rw [absent]; rfl⟩
    have present := accepted _ (List.mem_map_of_mem wnmPowerdown_mem)
      info_scoreTier passed
    rw [absent] at present
    cases present
  · rintro ⟨recorded, reported⟩
    refine ⟨invalid_iff.mpr recorded, ?_⟩
    intro result member isWnm passed
    obtain ⟨tier, inLadder, rfl⟩ := List.mem_map.mp member
    rw [info_scoreTier] at isWnm
    have wnm : tier = wnmPowerdown := by
      rcases inLadder with _ | ⟨_, _ | ⟨_, _ | ⟨_, _ | ⟨_, none⟩⟩⟩⟩
      · exact absurd isWnm (by decide)
      · exact absurd isWnm (by decide)
      · exact absurd isWnm (by decide)
      · rfl
      · cases none
    rw [wnm] at passed
    obtain ⟨st, band, valid, samples, banded, gross, low, stepOk⟩ := wnm_pass_iff.mp passed
    cases step : ladder.steps.get? "wnm-accepted" with
    | none => exact absurd step (reported st band valid samples banded gross low)
    | some accepted =>
        rw [step, Option.getD_some] at stepOk
        rw [stepOk]

/-- A run that never associated, with samples of the tier that is recorded only. -/
def unassociated : Ladder where
  ap := "esp"
  tierStats := OrderedDict.empty.set "twt" ⟨48, 47, 49, 900⟩
  steps := OrderedDict.empty.set "associated" false
  fw := "1.17.8"
  dur := 260

/-- The tier that is recorded only passes in a run that is not valid. -/
theorem unassociated_passes : ¬ ∀ table ladder, PowerSound table ladder := by
  intro sound
  have recorded := (sound powerBands unassociated).invalid rfl
  exact absurd (recorded _ (List.mem_map_of_mem twt_mem)) (by decide)

/-- The order of the verdicts of a tier. -/
def grade (status : Status) : ℕ := [Status.fail, .inconclusive, .pass].idxOf status

/-- The run with another median of a tier. -/
def Ladder.withMedian (ladder : Ladder) (key : String) (st : TierStats) (med : ℚ) : Ladder :=
  { ladder with tierStats := ladder.tierStats.set key { st with med := med } }

section

variable {table : BandTable} {ladder : Ladder} {tier : PowerTier} {st : TierStats}

theorem get?_withMedian {key other : String} (different : other ≠ key) (med : ℚ) :
    (ladder.withMedian key st med).tierStats.get? other = ladder.tierStats.get? other := by
  rw [Ladder.withMedian, OrderedDict.get?_set, if_neg different]

/-- The validity of a run does not depend on the other tiers. -/
theorem valid_withMedian {key : String} (noAnchor : key ≠ "no-ps") (med : ℚ) :
    (ladder.withMedian key st med).valid = ladder.valid := by
  rw [Ladder.valid, get?_withMedian noAnchor.symm]
  rfl

/-- A tier is scored from its own statistics and the validity of the run. -/
theorem scoreTier_withMedian {key : String} (noAnchor : key ≠ "no-ps") (other : tier.key ≠ key)
    (med : ℚ) :
    scoreTier table (ladder.withMedian key st med) tier = scoreTier table ladder tier := by
  simp only [scoreTier, get?_withMedian other, valid_withMedian noAnchor]
  rfl

theorem status_withMedian (valid : ladder.valid = true) (scored : tier.scored = true)
    (noAnchor : tier.key ≠ "no-ps") {band : Band} (banded : ladder.band table tier = some band)
    (med : ℚ) : (scoreTier table (ladder.withMedian tier.key st med) tier).status =
      bandStatus band (ladder.stepOk tier) med := by
  have samples : (ladder.withMedian tier.key st med).tierStats.get? tier.key =
      some { st with med := med } := by
    rw [Ladder.withMedian, OrderedDict.get?_set, if_pos rfl]
  exact status_scored ((valid_withMedian noAnchor med).trans valid) scored noAnchor samples banded

/-- The verdict of a band falls with the median. -/
theorem grade_bandStatus {band : Band} {stepOk : Bool} {med med' : ℚ} (le : med ≤ med') :
    grade (bandStatus band stepOk med') ≤ grade (bandStatus band stepOk med) := by
  by_cases gross : band.failMin ≤ med'
  · rw [bandStatus_eq_fail.mpr gross]
    exact Nat.zero_le _
  · have notGross : ¬ band.failMin ≤ med := fun high => gross (high.trans le)
    by_cases low : med' ≤ band.passMax
    · simp only [bandStatus, if_neg gross, if_neg notGross, if_pos low, if_pos (le.trans low),
        le_refl]
    · simp only [bandStatus, if_neg gross, if_neg notGross, if_neg low]
      split_ifs <;> decide

end

/-- Of two valid runs that differ in the median of a scored tier, the one with the higher
median has no better verdict; it fails from `fail_min` on, and the other tiers' results
are the same. -/
theorem power_monotone {table : BandTable} {ladder : Ladder} {tier : PowerTier} {st : TierStats}
    {band : Band} (valid : ladder.valid = true) (scored : tier.scored = true)
    (noAnchor : tier.key ≠ "no-ps") (samples : ladder.tierStats.get? tier.key = some st)
    (banded : ladder.band table tier = some band) (med : ℚ) :
    let first := scoreTier table ladder tier
    let second := scoreTier table (ladder.withMedian tier.key st med) tier
    (st.med ≤ med → grade second.status ≤ grade first.status) ∧
      (med ≤ st.med → grade first.status ≤ grade second.status) ∧
      (first.status = .fail ↔ band.failMin ≤ st.med) ∧
      (second.status = .fail ↔ band.failMin ≤ med) ∧
      first.status ∈ [Status.fail, .inconclusive, .pass] ∧
      second.status ∈ [Status.fail, .inconclusive, .pass] ∧
      ∀ other, other.key ≠ tier.key →
        scoreTier table (ladder.withMedian tier.key st med) other =
          scoreTier table ladder other := by
  intro first second
  have before : first.status = bandStatus band (ladder.stepOk tier) st.med :=
    status_scored valid scored noAnchor samples banded
  have after : second.status = bandStatus band (ladder.stepOk tier) med :=
    status_withMedian valid scored noAnchor banded med
  rw [before, after]
  refine ⟨grade_bandStatus, grade_bandStatus, bandStatus_eq_fail, bandStatus_eq_fail,
    bandStatus_mem _ _ _, bandStatus_mem _ _ _, ?_⟩
  exact fun other different => scoreTier_withMedian noAnchor different med

/-- A good run on an ESP access point. -/
def dozing : Ladder where
  ap := "esp"
  tierStats := (OrderedDict.empty.set "no-ps" ⟨65, 63, 67, 900⟩).set "dyn-ps" ⟨23, 22, 24, 900⟩
  steps := OrderedDict.empty.set "associated" true
  fw := "1.17.8"
  dur := 260

theorem power_monotone_dynPs :
    grade (scoreTier powerBands (dozing.withMedian dynPs.key ⟨23, 22, 24, 900⟩ 46) dynPs).status ≤
      grade (scoreTier powerBands dozing dynPs).status := by
  have monotone := power_monotone (by decide +kernel : dozing.valid = true) (by decide)
    (by decide) (by decide +kernel : dozing.tierStats.get? dynPs.key = some ⟨23, 22, 24, 900⟩)
    (by decide +kernel : dozing.band powerBands dynPs = some ⟨32, 42⟩) 46
  exact monotone.1 (by decide +kernel)

end Rimba.Regtest
