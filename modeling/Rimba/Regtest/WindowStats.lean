import Rimba.Foundation.OrderStatistics
import Rimba.Regtest.PowerScore

/-! # The statistics of a tier's window

The sampler of the harness's `tp_power` module keeps the mean of each batch it reads with
the host's time, and `window_stats` reduces the batches of a window to their median,
their tenth and ninetieth percentile and their number. The percentiles are entries at
indices cut to integers. They enclose the median, except that of two batches that
differ the ninetieth percentile is the smaller one
(`Rimba.Regtest.windowStats_order`). Whatever a tier of a run is scored by lies between two of
the samples that were read (`Rimba.Regtest.stats_between`). Numbers are exact.
-/

namespace Rimba.Regtest

open Foundation (OrderedDict Share SortedSample exists_le_mean exists_mean_le mean)

/-- An entry of `_series`: a batch's mean and the host's time when it was read. -/
structure Reading where
  hostTime : ℚ
  batchMeanMa : ℚ
  deriving DecidableEq

/-- What `get_samples` returns: a list of samples in µA, or a tuple that starts with one. -/
inductive SampleResult where
  | list (samples : List ℚ)
  | tuple (parts : List (List ℚ))
  deriving DecidableEq

/-- The samples of a result; the first part of an empty tuple is an error. -/
def SampleResult.samples : SampleResult → Option (List ℚ)
  | .list samples => some samples
  | .tuple parts => parts.head?

/-- One pass of the sampling loop: a call raises, `get_data` returns nothing, or there is a
result, with the time read after it. -/
inductive Poll where
  | raised
  | noData
  | result (res : SampleResult) (now : ℚ)
  deriving DecidableEq

/-- The body of `_loop`. -/
def loopPass (series : List Reading) : Poll → List Reading
  | .raised => series
  | .noData => series
  | .result res now =>
      match res.samples with
      | none => series
      | some samples =>
          if samples = [] then series
          else series ++ [{ hostTime := now, batchMeanMa := mean samples / 1000 }]

/-- `_series` after the passes of the loop. -/
def sampled (polls : List Poll) : List Reading := polls.foldl loopPass []

/-- The samples that a pass gets. -/
def Poll.samples : Poll → List ℚ
  | .raised => []
  | .noData => []
  | .result res _ => res.samples.getD []

/-- A pass adds the mean of its samples, if it gets any. -/
theorem mem_loopPass {series : List Reading} {poll : Poll} {reading : Reading}
    (member : reading ∈ loopPass series poll) :
    reading ∈ series ∨
      poll.samples ≠ [] ∧ reading.batchMeanMa = mean poll.samples / 1000 := by
  cases poll with
  | raised => exact .inl member
  | noData => exact .inl member
  | result res now =>
      unfold loopPass at member
      unfold Poll.samples
      cases got : res.samples with
      | none =>
          simp only [got] at member
          exact .inl member
      | some samples =>
          simp only [got, Option.getD_some] at member ⊢
          split_ifs at member with empty
          · exact .inl member
          · rcases List.mem_append.mp member with old | new
            · exact .inl old
            · rw [List.mem_singleton.mp new]
              exact .inr ⟨empty, rfl⟩

/-- Every reading is the mean of the samples of a pass. -/
theorem mem_sampled {polls : List Poll} {reading : Reading} (member : reading ∈ sampled polls) :
    ∃ poll ∈ polls,
      poll.samples ≠ [] ∧ reading.batchMeanMa = mean poll.samples / 1000 := by
  induction polls using List.reverseRecOn with
  | nil => cases member
  | append_singleton polls poll ih =>
      rw [sampled, List.foldl_concat] at member
      rcases mem_loopPass member with old | new
      · obtain ⟨earlier, among, batch⟩ := ih old
        exact ⟨earlier, List.mem_append_left _ among, batch⟩
      · exact ⟨poll, List.mem_append_right _ (List.mem_singleton_self poll), new⟩

def tenth : Share := ⟨1 / 10, by decide +kernel, by decide +kernel⟩

def ninetieth : Share := ⟨9 / 10, by decide +kernel, by decide +kernel⟩

/-- The batches that were read in a window. -/
def inWindow (series : List Reading) (t0 t1 : ℚ) : List ℚ :=
  (series.filter fun reading => t0 ≤ reading.hostTime ∧ reading.hostTime ≤ t1).map
    Reading.batchMeanMa

/-- The statistics of `vals`, which `statistics.median` does not have to sort again. -/
def statsOf (vals : SortedSample ℚ) : TierStats where
  med := vals.median
  p10 := vals.quantile tenth
  p90 := vals.quantile ninetieth
  n := vals.size

/-- `window_stats` -/
def windowStats (series : List Reading) (t0 t1 : ℚ) : Option TierStats :=
  (SortedSample.ofList (inWindow series t0 t1)).map statsOf

/-- A window has no statistics exactly when no batch was read in it. -/
theorem windowStats_eq_none_iff {series : List Reading} {t0 t1 : ℚ} :
    windowStats series t0 t1 = none ↔ inWindow series t0 t1 = [] := by
  rw [windowStats, Option.map_eq_none_iff, SortedSample.ofList_eq_none_iff]

/-- The statistics are those of the batches in ascending order. -/
theorem windowStats_eq_some_iff {series : List Reading} {t0 t1 : ℚ} {stats : TierStats} :
    windowStats series t0 t1 = some stats ↔
      ∃ vals : SortedSample ℚ, vals.entries.Perm (inWindow series t0 t1) ∧
        statsOf vals = stats := by
  simp only [windowStats, Option.map_eq_some_iff, SortedSample.ofList_eq_some_iff]

/-- The percentiles of a window are in order, those of two batches too. -/
theorem p10_le_p90 {series : List Reading} {t0 t1 : ℚ} {stats : TierStats}
    (computed : windowStats series t0 t1 = some stats) : stats.p10 ≤ stats.p90 := by
  obtain ⟨vals, -, rfl⟩ := windowStats_eq_some_iff.mp computed
  exact vals.quantile_mono (by decide +kernel)

/-- The order in which batches were read does not matter. -/
theorem windowStats_perm {series series' : List Reading} (same : series.Perm series')
    (t0 t1 : ℚ) : windowStats series t0 t1 = windowStats series' t0 t1 := by
  have window : (inWindow series t0 t1).Perm (inWindow series' t0 t1) :=
    (same.filter _).map Reading.batchMeanMa
  rw [windowStats, windowStats, SortedSample.ofList_perm window]

/-- A value between the smallest and the largest sample of a window. -/
def Spans (window : List ℚ) (x : ℚ) : Prop :=
  ∃ smallest largest, IsLeast {y | y ∈ window} smallest ∧ IsGreatest {y | y ∈ window} largest ∧
    smallest ≤ x ∧ x ≤ largest

/-- Statistics that count the samples of a window, and lie among them in ascending order. -/
structure StatsInOrder (window : List ℚ) (stats : TierStats) : Prop where
  count : stats.n = window.length
  spans : ∀ x ∈ [stats.p10, stats.med, stats.p90], Spans window x
  p10_le_med : stats.p10 ≤ stats.med
  med_le_p90 : stats.med ≤ stats.p90

section

variable {vals : SortedSample ℚ} {window : List ℚ}

theorem spans_of_le (same : vals.entries.Perm window) {x : ℚ} (low : vals.smallest ≤ x)
    (high : x ≤ vals.largest) : Spans window x :=
  ⟨_, _, vals.isLeast_of_perm same, vals.isGreatest_of_perm same, low, high⟩

/-- The three statistics lie among the samples. -/
theorem spans_statsOf (same : vals.entries.Perm window) :
    ∀ x ∈ [(statsOf vals).p10, (statsOf vals).med, (statsOf vals).p90], Spans window x := by
  simp only [List.forall_mem_cons]
  refine ⟨?_, ?_, ?_, List.forall_mem_nil _⟩
  · exact spans_of_le same (vals.smallest_le_entry _) (vals.entry_le_largest _)
  · exact spans_of_le same vals.smallest_le_median vals.median_le_largest
  · exact spans_of_le same (vals.smallest_le_entry _) (vals.entry_le_largest _)

theorem p10_le_med (vals : SortedSample ℚ) : (statsOf vals).p10 ≤ (statsOf vals).med :=
  vals.quantile_le_median (by decide +kernel)

theorem rank_ninetieth (vals : SortedSample ℚ) :
    (vals.rank ninetieth).val = 9 * (vals.size - 1) / 10 :=
  vals.rank_of_fraction rfl

/-- Nine tenths of the ranks reach the upper half of them, except of two. -/
theorem med_le_p90 (other : vals.size ≠ 2) : (statsOf vals).med ≤ (statsOf vals).p90 := by
  have positive := vals.size_pos
  refine vals.median_le_quantile ?_
  rw [rank_ninetieth]
  omega

/-- Of two samples the ninetieth percentile is the smaller one. -/
theorem p90_of_two (two : vals.size = 2) : (statsOf vals).p90 = vals.smallest := by
  have first : (vals.rank ninetieth).val = 0 := by rw [rank_ninetieth, two]
  exact SortedSample.entry_congr first

/-- Of two samples the median is below the ninetieth percentile only when they are equal. -/
theorem med_le_p90_of_two (two : vals.size = 2) :
    (statsOf vals).med ≤ (statsOf vals).p90 ↔ vals.largest ≤ vals.smallest := by
  have upper : vals.upperMiddle = vals.largest :=
    SortedSample.entry_congr (by change vals.size / 2 = vals.size - 1; rw [two])
  have small : vals.quantile ninetieth = vals.smallest := p90_of_two two
  change vals.median ≤ vals.quantile ninetieth ↔ _
  rw [vals.median_le_quantile_iff, small, upper]

/-- The smallest and the largest of two samples. -/
theorem bounds_of_pair {a b : ℚ} (same : vals.entries.Perm [a, b]) :
    vals.smallest = min a b ∧ vals.largest = max a b := by
  have members : {y | y ∈ [a, b]} = {a, b} := Set.ext fun _ => List.mem_pair
  have least := vals.isLeast_of_perm same
  have greatest := vals.isGreatest_of_perm same
  rw [members] at least greatest
  exact ⟨least.unique isLeast_pair, greatest.unique isGreatest_pair⟩

end

/-- The statistics of every window with batches count them and lie among them, the tenth
percentile at or below the median. The median is above the ninetieth percentile only of two
batches that differ, where that is the smaller one. -/
theorem windowStats_order (series : List Reading) (t0 t1 : ℚ)
    (nonempty : inWindow series t0 t1 ≠ []) :
    ∃ stats, windowStats series t0 t1 = some stats ∧
      stats.n = (inWindow series t0 t1).length ∧
      (∀ x ∈ [stats.p10, stats.med, stats.p90], Spans (inWindow series t0 t1) x) ∧
      stats.p10 ≤ stats.med ∧
      (stats.med ≤ stats.p90 ↔ ∀ a b, inWindow series t0 t1 = [a, b] → a = b) ∧
      ∀ a b, inWindow series t0 t1 = [a, b] → stats.p90 = min a b := by
  obtain ⟨stats, computed⟩ :=
    Option.ne_none_iff_exists'.mp fun absent => nonempty (windowStats_eq_none_iff.mp absent)
  obtain ⟨vals, same, rfl⟩ := windowStats_eq_some_iff.mp computed
  have count : vals.size = (inWindow series t0 t1).length := vals.size_of_perm same
  have ofPair (a b : ℚ) (pair : inWindow series t0 t1 = [a, b]) : vals.size = 2 := by
    rw [count, pair]
    rfl
  refine ⟨_, computed, count, spans_statsOf same, p10_le_med vals, ?_, ?_⟩
  · by_cases two : vals.size = 2
    · obtain ⟨a, b, pair⟩ := List.length_eq_two.mp (count.symm.trans two)
      have ends := bounds_of_pair (pair ▸ same)
      rw [med_le_p90_of_two two, ends.1, ends.2, sup_le_inf, pair]
      constructor
      · intro equal c d listed
        cases listed
        exact equal
      · intro equal
        exact equal a b rfl
    · refine iff_of_true (med_le_p90 two) ?_
      intro a b pair
      exact absurd (ofPair a b pair) two
  · intro a b pair
    rw [p90_of_two (ofPair a b pair), (bounds_of_pair (pair ▸ same)).1]

/-- Two batches that differ. -/
def twoBatches : List Reading := [⟨1, 10⟩, ⟨2, 20⟩]

theorem windowStats_order_twoBatches :
    ∃ stats, windowStats twoBatches 0 3 = some stats ∧ stats.n = 2 ∧
      (∀ x ∈ [stats.p10, stats.med, stats.p90], Spans [10, 20] x) ∧ stats.p10 ≤ stats.med ∧
      ¬ stats.med ≤ stats.p90 ∧ stats.p90 = 10 := by
  have pair : inWindow twoBatches 0 3 = [10, 20] := by decide +kernel
  obtain ⟨stats, computed, count, spans, low, high, smaller⟩ :=
    windowStats_order twoBatches 0 3 (by decide +kernel)
  rw [pair] at count spans
  refine ⟨stats, computed, count, spans, low, ?_, ?_⟩
  · intro ordered
    exact absurd (high.mp ordered 10 20 pair) (by decide +kernel)
  · rw [smaller 10 20 pair]
    decide +kernel

/-- The median of the two is above their ninetieth percentile. -/
theorem windowStats_unordered : ¬ ∀ series t0 t1, inWindow series t0 t1 ≠ [] →
    ∃ stats, windowStats series t0 t1 = some stats ∧
      StatsInOrder (inWindow series t0 t1) stats := by
  intro ordered
  have computed : windowStats twoBatches 0 3 = some ⟨15, 10, 10, 2⟩ := by decide +kernel
  obtain ⟨stats, found, inOrder⟩ := ordered twoBatches 0 3 (by decide +kernel)
  have two : stats = ⟨15, 10, 10, 2⟩ := Option.some.inj (found.symm.trans computed)
  have high := inOrder.med_le_p90
  rw [two] at high
  exact absurd high (by decide +kernel)

/-- `_SETTLE_S` -/
def settleS : ℚ := 2

/-- `_TAIL_S` -/
def tailS : ℚ := 1

/-- `POWER_PHASE_S` -/
def powerPhaseS : ℚ := 18

/-- The statistics of the plateau of a tier, if its start was seen. -/
def plateauStats (phaseT : OrderedDict String ℚ) (series : List Reading) (tier : PowerTier) :
    Option TierStats :=
  (phaseT.get? tier.key).bind fun tStart =>
    windowStats series (tStart + settleS) (tStart + powerPhaseS - tailS)

/-- The segmentation of `run`, with a value for every tier. -/
def segment (phaseT : OrderedDict String ℚ) (series : List Reading) :
    OrderedDict String (Option TierStats) :=
  OrderedDict.empty.setAll (powerTiers.map fun tier => (tier.key, plateauStats phaseT series tier))

/-- What a run has read when it comes to score: the passes of the sampling loop, and what
`_capture_ladder` returns. -/
structure LadderRun where
  ap : String
  polls : List Poll
  phaseT : OrderedDict String ℚ
  steps : OrderedDict String Bool
  fw : String
  dur : ℚ

/-- What `run` scores. A tier whose value is `None` is looked up like one without. -/
def LadderRun.ladder (run : LadderRun) : Ladder where
  ap := run.ap
  tierStats := (segment run.phaseT (sampled run.polls)).filterMapValues id
  steps := run.steps
  fw := run.fw
  dur := run.dur

theorem get?_segment {phaseT : OrderedDict String ℚ} {series : List Reading} {tier : PowerTier}
    (member : tier ∈ powerTiers) :
    (segment phaseT series).get? tier.key = some (plateauStats phaseT series tier) := by
  have last : OrderedDict.lastOf
      (powerTiers.map fun tier => (tier.key, plateauStats phaseT series tier)) tier.key =
        some (plateauStats phaseT series tier) := by
    refine OrderedDict.lastOf_of_mem ?_ (List.mem_map_of_mem member)
    rw [List.map_map]
    exact (by decide : (powerTiers.map PowerTier.key).Nodup)
  rw [segment, OrderedDict.get?_setAll, last, Option.some_or]

/-- A tier is scored by the statistics of its plateau. -/
theorem get?_ladder {run : LadderRun} {tier : PowerTier} (member : tier ∈ powerTiers) :
    run.ladder.tierStats.get? tier.key = plateauStats run.phaseT (sampled run.polls) tier := by
  rw [LadderRun.ladder, OrderedDict.get?_filterMapValues, get?_segment member]
  rfl

/-- The mean of a pass lies between two of its samples. -/
theorem reading_between {polls : List Poll} {reading : Reading}
    (member : reading ∈ sampled polls) :
    (∃ poll ∈ polls, ∃ sample ∈ poll.samples, sample / 1000 ≤ reading.batchMeanMa) ∧
      ∃ poll ∈ polls, ∃ sample ∈ poll.samples, reading.batchMeanMa ≤ sample / 1000 := by
  obtain ⟨poll, among, nonempty, batch⟩ := mem_sampled member
  obtain ⟨low, lowMember, below⟩ := exists_le_mean nonempty
  obtain ⟨high, highMember, above⟩ := exists_mean_le nonempty
  rw [batch]
  refine ⟨⟨poll, among, low, lowMember, ?_⟩, ⟨poll, among, high, highMember, ?_⟩⟩
  · exact div_le_div_of_nonneg_right below (by decide +kernel)
  · exact div_le_div_of_nonneg_right above (by decide +kernel)

/-- Whatever a tier is scored by lies between two samples of the run. -/
theorem stats_between {run : LadderRun} {tier : PowerTier} {stats : TierStats}
    (member : tier ∈ powerTiers) (found : run.ladder.tierStats.get? tier.key = some stats) :
    ∀ x ∈ [stats.p10, stats.med, stats.p90],
      (∃ poll ∈ run.polls, ∃ sample ∈ poll.samples, sample / 1000 ≤ x) ∧
        ∃ poll ∈ run.polls, ∃ sample ∈ poll.samples, x ≤ sample / 1000 := by
  rw [get?_ladder member] at found
  obtain ⟨tStart, -, computed⟩ := Option.bind_eq_some_iff.mp found
  obtain ⟨vals, same, rfl⟩ := windowStats_eq_some_iff.mp computed
  intro x listed
  obtain ⟨smallest, largest, least, greatest, low, high⟩ := spans_statsOf same x listed
  obtain ⟨lowReading, lowKept, rfl⟩ := List.mem_map.mp least.1
  obtain ⟨highReading, highKept, rfl⟩ := List.mem_map.mp greatest.1
  obtain ⟨poll, among, sample, got, below⟩ := (reading_between (List.mem_filter.mp lowKept).1).1
  obtain ⟨poll', among', sample', got', above⟩ :=
    (reading_between (List.mem_filter.mp highKept).1).2
  exact ⟨⟨poll, among, sample, got, below.trans low⟩,
    ⟨poll', among', sample', got', high.trans above⟩⟩

/-- A valid run has a sample that reaches the window of the anchor, and one that does not
exceed it. -/
theorem samples_of_valid {run : LadderRun} (valid : run.ladder.valid = true) :
    (∃ poll ∈ run.polls, ∃ sample ∈ poll.samples, powerNopsValidMa.1 ≤ sample / 1000) ∧
      ∃ poll ∈ run.polls, ∃ sample ∈ poll.samples, sample / 1000 ≤ powerNopsValidMa.2 := by
  rw [Ladder.valid, Bool.and_eq_true, Option.any_eq_true] at valid
  obtain ⟨-, nops, found, inside⟩ := valid
  rw [Bool.and_eq_true, decide_eq_true_eq, decide_eq_true_eq] at inside
  have between := stats_between (.head _ : noPs ∈ powerTiers) found nops.med
    (.tail _ (.head _))
  obtain ⟨⟨poll, among, sample, got, below⟩, ⟨poll', among', sample', got', above⟩⟩ := between
  exact ⟨⟨poll', among', sample', got', inside.1.trans above⟩,
    ⟨poll, among, sample, got, below.trans inside.2⟩⟩

end Rimba.Regtest
