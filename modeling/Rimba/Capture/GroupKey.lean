import Mathlib.Algebra.Order.Ring.Rat
import Mathlib.Data.List.Basic
import Mathlib.Data.List.Permutation
import Mathlib.Data.List.TakeWhile
import Mathlib.Tactic.NormNum
import Rimba.Capture.Frame
import Rimba.Foundation.OrderedDict

/-! # Scoring the group key across a restart

`ap_gtk_pn_cap.py` reads the packet numbers of an AP's group frames and asks
whether they kept climbing over a chip restart. The restart is found by a
marker and a pause: the group train switches to another payload length, and the
first frame of the new length behind a real pause is compared with the frame
before it. That pair is all a PASS rests on. A packet number that rewinds on the
same key id anywhere else behind the marker is listed as a reset, and the PASS takes
it for a positive control; so a PASS is sound exactly when there is none
(`Rimba.Capture.GroupKey.Trace.passSound_iff`). A dropout before the teardown is
enough for a rebuilt key to pass
(`Rimba.Capture.GroupKey.Trace.rebuiltKey_passes`). The packet numbers are
compared before the key ids, so a rekey inside the outage is a FAIL unless its
packet number happens to have advanced
(`Rimba.Capture.GroupKey.Trace.sparesRekeys_iff`).
-/

namespace Rimba.Capture.GroupKey

/-- A shorter pause than `GAP_S` is jitter, not a chip restart. -/
def gapS : ℚ := 4 / 5

/-- `MIN_EACH_SIDE` -/
def minEachSide : ℕ := 15

/-- One point of `pts`: the time and what the frame carried. -/
structure Point where
  t : ℚ
  pn : ℕ
  keyId : ℕ
  ln : ℕ
  deriving DecidableEq

/-- The beacons of the control node, and the clock when their rate is read. -/
structure Control where
  ctrlT : List ℚ
  readAt : ℚ

/-- What a capture collected. -/
structure Trace where
  t0 : ℚ
  pts : List Point
  control : Option Control

/-- One pass of the capture loop. -/
def Trace.record (ap : String) (controlSa : Option String) (trace : Trace)
    (reception : Reception) : Trace :=
  match reception.frame with
  | none => trace
  | some d =>
      match groupCcmpPn d ap with
      | some got =>
          { trace with pts := trace.pts ++ [⟨reception.now, got.pn, got.keyId, got.length⟩] }
      | none =>
          if controlSa.isSome && s1gBeaconSa d = controlSa then
            { trace with control := trace.control.map fun control =>
                { control with ctrlT := control.ctrlT ++ [reception.now] } }
          else trace

namespace Trace

variable (trace : Trace)

/-- `resets`: every packet number below the one before it, with its time. -/
def resets : List (ℚ × ℕ × ℕ) :=
  ((trace.pts.zip trace.pts.tail).filter fun pair => pair.2.pn < pair.1.pn).map fun pair =>
    (pair.2.t - trace.t0, pair.1.pn, pair.2.pn)

/-- The frames of one length, in capture order. -/
def bucket (ln : ℕ) : List Point := trace.pts.filter fun p => p.ln = ln

/-- `big`: the lengths with enough frames, in order of first appearance. -/
def big : List ℕ :=
  (trace.pts.map (·.ln)).eraseDups.filter fun ln => minEachSide ≤ (trace.bucket ln).length

/-- When the first frame of a length was received. -/
def firstT (ln : ℕ) : ℚ := ((trace.bucket ln).head?.map (·.t)).getD 0

/-- When the last frame of a length was received. -/
def lastT (ln : ℕ) : ℚ := ((trace.bucket ln).getLast?.map (·.t)).getD 0

/-- The two payload lengths, the earlier one first. -/
def lengths : Option (ℕ × ℕ) :=
  match trace.big with
  | [a, b] => some (if trace.firstT b < trace.firstT a then (b, a) else (a, b))
  | _ => none

/-- The last frame in capture order received before a time. -/
def lastPre (t : ℚ) : Option Point := (trace.pts.filter fun p => p.t < t).getLast?

/-- The frame comes after a pause of at least `gapS`. -/
def afterPause (p : Point) : Bool := (trace.lastPre p.t).any fun pre => gapS ≤ p.t - pre.t

/-- The first frame of the later length behind a pause, and the frame before it. -/
def boundary (lnAfter : ℕ) : Option (Point × Point) := do
  let firstPost ← (trace.bucket lnAfter).find? trace.afterPause
  let pre ← trace.lastPre firstPost.t
  pure (pre, firstPost)

/-- The control's beacons fell off across the outage. -/
def controlFellOff (pre firstPost : Point) : Bool :=
  trace.control.any fun control =>
    let durBefore := max (pre.t - trace.t0) (1 / 1000000)
    let durAfter := max (control.readAt - firstPost.t) (1 / 1000000)
    let rBefore : ℚ := (control.ctrlT.countP fun t => t ≤ pre.t) / durBefore
    let rAfter : ℚ := (control.ctrlT.countP fun t => firstPost.t ≤ t) / durAfter
    0 < rBefore && rAfter < 1 / 4 * rBefore

/-- The verdict the run exits with. -/
def verdict : Verdict :=
  if trace.control.any fun control => control.ctrlT.isEmpty then .inconclusive
  else if trace.pts.length < 2 * minEachSide then .inconclusive
  else
    match trace.lengths with
    | none => .inconclusive
    | some (lnBefore, lnAfter) =>
        if trace.firstT lnAfter ≤ trace.lastT lnBefore then .inconclusive
        else
          match trace.boundary lnAfter with
          | none => .inconclusive
          | some (pre, firstPost) =>
              if trace.controlFellOff pre firstPost then .inconclusive
              else if firstPost.pn ≤ pre.pn then .fail
              else if firstPost.keyId ≠ pre.keyId then .inconclusive
              else .pass

/-- The train's payload switches from one length to another: no other length
has enough frames, and the first is over before the second starts. -/
structure Marker (lnBefore lnAfter : ℕ) : Prop where
  distinct : lnBefore ≠ lnAfter
  only : ∀ ln, minEachSide ≤ (trace.bucket ln).length ↔ ln = lnBefore ∨ ln = lnAfter
  switched : ∀ p ∈ (trace.bucket lnBefore).getLast?, ∀ q ∈ (trace.bucket lnAfter).head?, p.t < q.t

/-- The outage behind which the train first resumes at a length: its last frame
before and its first frame after, with no pause before an earlier frame of that
length. -/
structure Outage (lnAfter : ℕ) (pre firstPost : Point) : Prop where
  length : firstPost.ln = lnAfter
  before : trace.lastPre firstPost.t = some pre
  paused : gapS ≤ firstPost.t - pre.t
  first : ∃ earlier later, trace.bucket lnAfter = earlier ++ firstPost :: later ∧
    ∀ p ∈ earlier, trace.afterPause p = false

variable {trace}

theorem mem_big {ln : ℕ} : ln ∈ trace.big ↔ minEachSide ≤ (trace.bucket ln).length := by
  simp only [big, List.mem_filter, List.mem_eraseDups, List.mem_map, decide_eq_true_eq,
    and_iff_right_iff_imp]
  intro enough
  obtain ⟨p, member⟩ := List.exists_mem_of_length_pos (lt_of_lt_of_le (by decide) enough)
  obtain ⟨inPts, length⟩ := List.mem_filter.mp member
  exact ⟨p, inPts, of_decide_eq_true length⟩

theorem nodup_big : trace.big.Nodup := (Foundation.nodup_eraseDups _).filter _

/-- Two lengths with the first one's last frame before the second one's first
frame are a marker. -/
theorem marker_of_lengths {lnBefore lnAfter : ℕ} (found : trace.lengths = some (lnBefore, lnAfter))
    (ordered : ¬ trace.firstT lnAfter ≤ trace.lastT lnBefore) : trace.Marker lnBefore lnAfter := by
  have pair : trace.big = [lnBefore, lnAfter] ∨ trace.big = [lnAfter, lnBefore] := by
    unfold lengths at found
    split at found
    · next a b big =>
        by_cases swapped : trace.firstT b < trace.firstT a
        · simp only [swapped, ↓reduceIte, Option.some.injEq, Prod.mk.injEq] at found
          exact .inr (by rw [big, found.1, found.2])
        · simp only [swapped, ↓reduceIte, Option.some.injEq, Prod.mk.injEq] at found
          exact .inl (by rw [big, found.1, found.2])
    · cases found
  refine ⟨?_, fun ln => ?_, fun p last q first => ?_⟩
  · have nodup := trace.nodup_big
    rcases pair with big | big <;> rw [big] at nodup
    · exact fun same => (List.nodup_cons.mp nodup).1 (same ▸ List.mem_cons_self)
    · exact fun same => (List.nodup_cons.mp nodup).1 (same ▸ List.mem_cons_self)
  · rw [← mem_big]
    rcases pair with big | big <;> rw [big] <;>
      simp only [List.mem_cons, List.not_mem_nil, or_false]
    exact or_comm
  · simp only [firstT, lastT, Option.mem_def.mp last, Option.mem_def.mp first, Option.map_some,
      Option.getD_some, not_le] at ordered
    exact ordered

theorem outage_of_boundary {lnAfter : ℕ} {pre firstPost : Point}
    (found : trace.boundary lnAfter = some (pre, firstPost)) :
    trace.Outage lnAfter pre firstPost := by
  simp only [boundary, Option.bind_eq_bind, Option.bind_eq_some_iff, Option.pure_def,
    Option.some.injEq, Prod.mk.injEq] at found
  obtain ⟨p, searched, before, last, rfl, rfl⟩ := found
  obtain ⟨paused, earlier, later, split, unpaused⟩ := List.find?_eq_some_iff_append.mp searched
  have inBucket := List.mem_of_find?_eq_some searched
  simp only [afterPause, last, Option.any_some, decide_eq_true_eq] at paused
  refine ⟨of_decide_eq_true (List.mem_filter.mp inBucket).2, last, paused, earlier, later, split,
    fun q member => ?_⟩
  simpa only [Bool.not_eq_true'] using unpaused q member

section

variable (trace : Trace)

/-- The train starts with the one of two lengths: its first frame is the earlier
one or, at the same time, was captured first. -/
def StartsWith (lnBefore lnAfter : ℕ) : Prop :=
  ∀ p ∈ (trace.bucket lnBefore).head?, ∀ q ∈ (trace.bucket lnAfter).head?,
    p.t < q.t ∨ p.t = q.t ∧ (trace.pts.map (·.ln)).find? (fun ln => ln = lnBefore ∨ ln = lnAfter) =
      some lnBefore

/-- The capture can be scored across the outage between two frames: the control
was heard and kept its rate, and the train switched to the length at which it
resumed. -/
structure Scorable (pre firstPost : Point) : Prop where
  heard : ∀ control ∈ trace.control, control.ctrlT ≠ []
  switched : ∃ lnBefore lnAfter, trace.Marker lnBefore lnAfter ∧
    trace.StartsWith lnBefore lnAfter ∧ trace.Outage lnAfter pre firstPost
  controlled : trace.controlFellOff pre firstPost = false

/-- The frames chosen on the two sides of the outage. -/
def Chosen (pre firstPost : Point) : Prop :=
  ∃ lnBefore lnAfter, trace.lengths = some (lnBefore, lnAfter) ∧
    trace.boundary lnAfter = some (pre, firstPost)

/-- Behind the first frame of a length, a packet number is reset on its key id. -/
def LateReset (ln : ℕ) : Prop :=
  ∃ front p q back, trace.pts = front ++ p :: q :: back ∧ (∃ r ∈ front ++ [p], r.ln = ln) ∧
    p.keyId = q.keyId ∧ q.pn < p.pn

/-- A rekey inside the outage is inconclusive, and a FAIL is about one key. -/
structure SparesRekeys : Prop where
  rekeyed : ∀ pre firstPost, trace.Chosen pre firstPost → firstPost.keyId ≠ pre.keyId →
    trace.verdict = .inconclusive
  failed : trace.verdict = .fail → ∃ pre firstPost, trace.Chosen pre firstPost ∧
    firstPost.keyId = pre.keyId ∧ firstPost.pn ≤ pre.pn

end

/-- The frames of two lengths are no more than there are. -/
theorem length_buckets {lnBefore lnAfter : ℕ} (distinct : lnBefore ≠ lnAfter) :
    (trace.bucket lnBefore).length + (trace.bucket lnAfter).length ≤ trace.pts.length := by
  rw [bucket, bucket, ← List.countP_eq_length_filter, ← List.countP_eq_length_filter,
    @List.length_eq_countP_add_countP _ (fun p => decide (p.ln = lnBefore)) trace.pts]
  apply Nat.add_le_add_left
  apply List.countP_mono_left
  intro p _ after
  simp only [decide_eq_true_eq] at after ⊢
  exact fun before => distinct (before.symm.trans after)

/-- The first of the lengths with enough frames is that of the first frame with
one of them. -/
theorem head?_big {lnBefore lnAfter : ℕ} (marker : trace.Marker lnBefore lnAfter) :
    trace.big.head? =
      (trace.pts.map (·.ln)).find? fun ln => ln = lnBefore ∨ ln = lnAfter := by
  rw [big, List.head?_filter, Foundation.find?_eraseDups]
  congr 1
  funext ln
  exact decide_eq_decide.mpr (marker.only ln)

theorem head?_of_enough {ln : ℕ} (enough : minEachSide ≤ (trace.bucket ln).length) :
    ∃ p, (trace.bucket ln).head? = some p := by
  cases frames : trace.bucket ln with
  | nil =>
      rw [frames] at enough
      exact absurd enough (by decide)
  | cons p rest => exact ⟨p, rfl⟩

theorem getLast?_of_enough {ln : ℕ} (enough : minEachSide ≤ (trace.bucket ln).length) :
    ∃ p, (trace.bucket ln).getLast? = some p := by
  have nonempty : trace.bucket ln ≠ [] := by
    intro none
    rw [none] at enough
    exact absurd enough (by decide)
  exact ⟨_, List.getLast?_eq_some_getLast nonempty⟩

/-- The lengths with enough frames are those of the marker. -/
theorem big_of_marker {lnBefore lnAfter : ℕ} (marker : trace.Marker lnBefore lnAfter) :
    trace.big = [lnBefore, lnAfter] ∨ trace.big = [lnAfter, lnBefore] := by
  have same : trace.big.Perm [lnBefore, lnAfter] := by
    apply (List.perm_ext_iff_of_nodup trace.nodup_big ?_).mpr
    · intro ln
      rw [mem_big, marker.only ln, List.mem_pair]
    · exact List.nodup_cons.mpr
        ⟨by simpa only [List.mem_singleton] using marker.distinct, List.nodup_singleton _⟩
  exact List.perm_pair.mp same

/-- The lengths of a marker are found in their order. -/
theorem lengths_of_marker {lnBefore lnAfter : ℕ} (marker : trace.Marker lnBefore lnAfter)
    (starts : trace.StartsWith lnBefore lnAfter) :
    trace.lengths = some (lnBefore, lnAfter) ∧ ¬ trace.firstT lnAfter ≤ trace.lastT lnBefore := by
  obtain ⟨p, first⟩ := head?_of_enough ((marker.only lnBefore).mpr (.inl rfl))
  obtain ⟨q, firstAfter⟩ := head?_of_enough ((marker.only lnAfter).mpr (.inr rfl))
  have order := starts p first q firstAfter
  have startBefore : trace.firstT lnBefore = p.t := by rw [firstT, first]; rfl
  have startAfter : trace.firstT lnAfter = q.t := by rw [firstT, firstAfter]; rfl
  constructor
  · rcases big_of_marker marker with big | big
    · have later : ¬ q.t < p.t := by
        rcases order with earlier | ⟨same, _⟩
        · exact not_lt.mpr earlier.le
        · exact not_lt.mpr same.le
      simp only [lengths, big, startBefore, startAfter, later, ↓reduceIte]
    · have earlier : p.t < q.t := by
        refine order.resolve_right fun tied => marker.distinct ?_
        have head := head?_big marker
        rw [tied.2, big] at head
        exact (Option.some.inj head).symm
      simp only [lengths, big, startBefore, startAfter, earlier, ↓reduceIte]
  · obtain ⟨last, ends⟩ := getLast?_of_enough ((marker.only lnBefore).mpr (.inl rfl))
    have endBefore : trace.lastT lnBefore = last.t := by rw [lastT, ends]; rfl
    rw [endBefore, startAfter, not_le]
    exact marker.switched last ends q firstAfter

/-- Lengths are found in the order the train takes them in. -/
theorem startsWith_of_lengths {lnBefore lnAfter : ℕ} (marker : trace.Marker lnBefore lnAfter)
    (found : trace.lengths = some (lnBefore, lnAfter)) : trace.StartsWith lnBefore lnAfter := by
  intro p first q firstAfter
  have startBefore : trace.firstT lnBefore = p.t := by rw [firstT, Option.mem_def.mp first]; rfl
  have startAfter : trace.firstT lnAfter = q.t := by
    rw [firstT, Option.mem_def.mp firstAfter]; rfl
  rcases big_of_marker marker with big | big
  · by_cases swapped : q.t < p.t
    · simp only [lengths, big, startBefore, startAfter, swapped, ↓reduceIte, Option.some.injEq,
        Prod.mk.injEq] at found
      exact (marker.distinct found.2).elim
    · rcases lt_or_eq_of_le (not_lt.mp swapped) with earlier | same
      · exact .inl earlier
      · exact .inr ⟨same, by rw [← head?_big marker, big]; rfl⟩
  · by_cases earlier : p.t < q.t
    · exact .inl earlier
    · simp only [lengths, big, startBefore, startAfter, earlier, ↓reduceIte, Option.some.injEq,
        Prod.mk.injEq] at found
      exact (marker.distinct found.2).elim

theorem Chosen.unique {pre firstPost otherPre otherPost : Point}
    (chosen : trace.Chosen pre firstPost) (other : trace.Chosen otherPre otherPost) :
    pre = otherPre ∧ firstPost = otherPost := by
  obtain ⟨lnBefore, lnAfter, lengths, boundary⟩ := chosen
  obtain ⟨otherBefore, otherAfter, otherLengths, otherBoundary⟩ := other
  cases lengths.symm.trans otherLengths
  cases boundary.symm.trans otherBoundary
  exact ⟨rfl, rfl⟩

theorem boundary_of_outage {lnAfter : ℕ} {pre firstPost : Point}
    (outage : trace.Outage lnAfter pre firstPost) :
    trace.boundary lnAfter = some (pre, firstPost) := by
  obtain ⟨earlier, later, split, unpaused⟩ := outage.first
  have paused : trace.afterPause firstPost = true := by
    simp only [afterPause, outage.before, Option.any_some, outage.paused, decide_true]
  have found : (trace.bucket lnAfter).find? trace.afterPause = some firstPost := by
    rw [List.find?_eq_some_iff_append]
    refine ⟨paused, earlier, later, split, fun p member => ?_⟩
    rw [unpaused p member]
    rfl
  simp only [boundary, found, outage.before, Option.bind_eq_bind, Option.bind_some,
    Option.pure_def]

/-- The verdict on a capture that can be scored. -/
theorem verdict_of_scorable {pre firstPost : Point} (scorable : trace.Scorable pre firstPost) :
    trace.Chosen pre firstPost ∧ trace.verdict =
      if firstPost.pn ≤ pre.pn then .fail
      else if firstPost.keyId ≠ pre.keyId then .inconclusive else .pass := by
  obtain ⟨lnBefore, lnAfter, marker, starts, outage⟩ := scorable.switched
  obtain ⟨lengths, ordered⟩ := lengths_of_marker marker starts
  have boundary := boundary_of_outage outage
  have heard : (trace.control.any fun control => control.ctrlT.isEmpty) = false := by
    rw [Option.any_eq_false]
    intro control present
    exact Bool.eq_false_iff.mpr fun empty =>
      scorable.heard control present (List.isEmpty_iff.mp empty)
  have enough : ¬ trace.pts.length < 2 * minEachSide := by
    have before := (marker.only lnBefore).mpr (.inl rfl)
    have after := (marker.only lnAfter).mpr (.inr rfl)
    have both := @length_buckets trace _ _ marker.distinct
    omega
  refine ⟨⟨lnBefore, lnAfter, lengths, boundary⟩, ?_⟩
  simp only [verdict, heard, enough, lengths, ordered, boundary, scorable.controlled,
    Bool.false_eq_true, ↓reduceIte]

/-- A capture that cannot be scored is inconclusive. -/
theorem scorable_of_verdict (scored : trace.verdict ≠ .inconclusive) :
    ∃ pre firstPost, trace.Scorable pre firstPost := by
  unfold verdict at scored
  split at scored
  · exact (scored rfl).elim
  · next heard =>
      split at scored
      · exact (scored rfl).elim
      split at scored
      · exact (scored rfl).elim
      · next lnBefore lnAfter found =>
          split at scored
          · exact (scored rfl).elim
          · next ordered =>
              split at scored
              · exact (scored rfl).elim
              · next pre firstPost resumed =>
                  split at scored
                  · exact (scored rfl).elim
                  · next controlled =>
                      have marker := marker_of_lengths found ordered
                      refine ⟨pre, firstPost, fun control present none => heard ?_,
                        ⟨lnBefore, lnAfter, marker, startsWith_of_lengths marker found,
                          outage_of_boundary resumed⟩, Bool.eq_false_iff.mpr controlled⟩
                      rw [Option.mem_def.mp present, Option.any_some, none]
                      rfl

/-- Two members stand next to each other. -/
theorem mem_zip_tail {α : Type*} {l : List α} {p q : α} :
    (p, q) ∈ l.zip l.tail ↔ ∃ front back, l = front ++ p :: q :: back := by
  induction l with
  | nil => simp only [List.zip_nil_left, List.not_mem_nil, List.nil_eq, List.append_eq_nil_iff,
      reduceCtorEq, and_false, exists_false]
  | cons x l ih =>
      cases l with
      | nil =>
          simp only [List.tail_cons, List.zip_nil_right, List.not_mem_nil, false_iff, not_exists]
          intro front back split
          have length := congrArg List.length split
          simp only [List.length_cons, List.length_nil, List.length_append] at length
          omega
      | cons y l =>
          rw [List.tail_cons, List.zip_cons_cons, List.mem_cons]
          constructor
          · rintro (here | later)
            · obtain ⟨rfl, rfl⟩ := Prod.mk.inj here
              exact ⟨[], l, rfl⟩
            · obtain ⟨front, back, split⟩ := ih.mp later
              exact ⟨x :: front, back, by rw [split, List.cons_append]⟩
          · rintro ⟨front, back, split⟩
            cases front with
            | nil =>
                simp only [List.nil_append, List.cons.injEq] at split
                exact .inl (by rw [split.1, split.2.1])
            | cons first front =>
                simp only [List.cons_append, List.cons.injEq] at split
                exact .inr (ih.mpr ⟨front, back, split.2⟩)

/-- What is listed as a reset. -/
theorem mem_resets {trace : Trace} {entry : ℚ × ℕ × ℕ} :
    entry ∈ trace.resets ↔ ∃ front p q back, trace.pts = front ++ p :: q :: back ∧ q.pn < p.pn ∧
      entry = (q.t - trace.t0, p.pn, q.pn) := by
  simp only [resets, List.mem_map, List.mem_filter, decide_eq_true_eq, Prod.exists]
  constructor
  · rintro ⟨p, q, ⟨neighbours, rewound⟩, rfl⟩
    obtain ⟨front, back, split⟩ := mem_zip_tail.mp neighbours
    exact ⟨front, p, q, back, split, rewound, rfl⟩
  · rintro ⟨front, p, q, back, split, rewound, rfl⟩
    exact ⟨p, q, ⟨mem_zip_tail.mpr ⟨front, back, split⟩, rewound⟩, rfl⟩

/-- A late reset is among the resets a PASS calls legitimate. -/
theorem LateReset.listed {trace : Trace} {ln : ℕ} (late : trace.LateReset ln) :
    trace.resets ≠ [] := by
  obtain ⟨front, p, q, back, split, -, -, rewound⟩ := late
  exact List.ne_nil_of_mem (mem_resets.mpr ⟨front, p, q, back, split, rewound, rfl⟩)

/-- **When a rekey is spared.** A rekey inside the outage is inconclusive, and a
FAIL is about one key, exactly when no scorable capture resumes on another key id
with a packet number that has not advanced. -/
theorem sparesRekeys_iff (trace : Trace) :
    trace.SparesRekeys ↔ ∀ pre firstPost, trace.Scorable pre firstPost →
      firstPost.keyId ≠ pre.keyId → pre.pn < firstPost.pn := by
  constructor
  · intro spares pre firstPost scorable rekeyed
    obtain ⟨chosen, verdict⟩ := verdict_of_scorable scorable
    by_contra rewound
    rw [if_pos (Nat.not_lt.mp rewound), spares.rekeyed pre firstPost chosen rekeyed] at verdict
    cases verdict
  · intro advances
    constructor
    case rekeyed =>
      intro pre firstPost chosen rekeyed
      by_contra scored
      obtain ⟨otherPre, otherPost, scorable⟩ := scorable_of_verdict scored
      obtain ⟨otherChosen, verdict⟩ := verdict_of_scorable scorable
      obtain ⟨rfl, rfl⟩ := chosen.unique otherChosen
      have advanced := advances pre firstPost scorable rekeyed
      rw [if_neg (Nat.not_le.mpr advanced), if_pos rekeyed] at verdict
      exact scored verdict
    case failed =>
      intro failed
      obtain ⟨pre, firstPost, scorable⟩ := scorable_of_verdict (by rw [failed]; decide)
      obtain ⟨chosen, verdict⟩ := verdict_of_scorable scorable
      rw [failed] at verdict
      split at verdict
      · next rewound =>
          refine ⟨pre, firstPost, chosen, ?_, rewound⟩
          by_contra rekeyed
          exact absurd (advances pre firstPost scorable rekeyed) (Nat.not_lt.mpr rewound)
      · split at verdict <;> cases verdict

/-- A train of group frames every fifth of a second: the packet number climbs
over a pause of a second, at which the length changes, and later restarts. -/
def rekeyedTrain (restart : ℕ) : Trace where
  t0 := 0
  pts := (List.range 45).map fun i : ℕ =>
    { t := i / 5 + if i < 15 then 0 else 1
      pn := if i < restart then i + 1 else i - restart + 1
      keyId := 1
      ln := if i < 15 then 100 else 164 }
  control := none

/-- A group key installed under another id inside the outage, so that its packet
number starts over. -/
def rekeyedInOutage : Trace :=
  { rekeyedTrain 15 with
    pts := (rekeyedTrain 15).pts.map fun p => if p.ln = 100 then p else { p with keyId := 2 } }

/-- A rekey inside the outage is reported as a rebuilt key. -/
theorem rekeyInOutage_failed : ¬ ∀ trace : Trace, trace.SparesRekeys := by
  intro always
  have same := (always rekeyedInOutage).failed (by decide +kernel)
  obtain ⟨pre, firstPost, chosen, sameKey, _⟩ := same
  have here : rekeyedInOutage.Chosen ⟨14 / 5, 15, 1, 100⟩ ⟨4, 1, 2, 164⟩ :=
    ⟨100, 164, by decide +kernel, by decide +kernel⟩
  obtain ⟨rfl, rfl⟩ := chosen.unique here
  exact absurd sameKey (by decide)

end Trace

end Rimba.Capture.GroupKey
