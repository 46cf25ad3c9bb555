import Mathlib.Data.Finset.Card
import Mathlib.Data.List.Nodup
import Rimba.Foundation.Machine

/-! # Handing discovered peers to the ping loop

In `firmware/rimba-halow-ibss` the membership callback `peer_cb` writes a new
peer behind the pending ones and counts it, and the loop of `app_main` reads the
count, starts a ping session for each of that many entries, and sets the count
to 0. The two share the count without a lock. A peer that is reported between the
loop's read and its reset is counted and then wiped, and is never pinged
(`Rimba.Ibss.peer_lost`). When no new peer is reported there, every reported peer
has its session by the end of the next round of the loop, and no peer has two
(`Rimba.Ibss.handedOff_of_undisturbed`).
-/

namespace Rimba.Ibss

open Foundation

/-- A six-octet hardware address. -/
abbrev Mac := Vector UInt8 6

/-- The slots of `s_pending` and of `s_pinged`. -/
def peerSlots : ℕ := 8

/-- `enum mmwlan_ibss_peer_event` -/
inductive PeerEvent where
  | added
  | removed
  deriving DecidableEq, Repr

/-- Where `app_main` is in its loop: between two rounds, or in a round that has
read the count `np` and comes to entry `i`. -/
inductive LoopPhase where
  | waiting
  | round (np i : ℕ)
  deriving DecidableEq, Repr

/-- What the callback and the loop share, where the loop is, the sessions started
so far, and how many peers were reported while it waits. -/
structure IbssState where
  /-- `s_pending` and `s_npending` -/
  pending : ℕ → Mac
  npending : ℕ
  /-- `s_pinged` and `s_npinged` -/
  pinged : ℕ → Mac
  npinged : ℕ
  phase : LoopPhase
  sessions : List Mac
  arrivals : ℕ

/-- One step of the callback or of the loop. -/
inductive IbssStep where
  /-- `peer_cb` -/
  | peerCb (mac : Mac) (event : PeerEvent)
  /-- `np = s_npending` -/
  | read
  /-- One entry of the loop; the flag says whether `esp_ping_new_session`
  succeeds if it is called. -/
  | process (created : Bool)
  /-- `s_npending = 0` -/
  | reset
  deriving DecidableEq

/-- `peer_cb` -/
def peerCb (state : IbssState) (mac : Mac) : PeerEvent → IbssState
  | .removed => state
  | .added =>
      if state.npending < peerSlots then
        { state with
          pending := Function.update state.pending state.npending mac
          npending := state.npending + 1 }
      else state

/-- The loop over `s_pinged`. -/
def seen (state : IbssState) (mac : Mac) : Bool :=
  (List.range state.npinged).any fun j => state.pinged j = mac

/-- `start_ping`: a session that cannot be created is not started. -/
def startPing (state : IbssState) (mac : Mac) (created : Bool) : IbssState :=
  if created then { state with sessions := state.sessions ++ [mac] } else state

/-- The body of the loop over `s_pending`, for one entry. -/
def processPeer (state : IbssState) (mac : Mac) (created : Bool) : IbssState :=
  if !seen state mac && state.npinged < peerSlots then
    { startPing state mac created with
      pinged := Function.update state.pinged state.npinged mac
      npinged := state.npinged + 1 }
  else state

/-- The callback and the loop in any order, from the start of the loop. -/
def ibssMachine : Machine IbssState IbssStep where
  initial := ⟨fun _ => Vector.replicate 6 0, 0, fun _ => Vector.replicate 6 0, 0, .waiting, [], 0⟩
  step state
    | .peerCb mac event =>
        some { peerCb state mac event with
          arrivals := if event = .added ∧ state.phase = .waiting then state.arrivals + 1
            else state.arrivals }
    | .read =>
        match state.phase with
        | .waiting => some { state with phase := .round state.npending 0 }
        | .round .. => none
    | .process created =>
        match state.phase with
        | .waiting => none
        | .round np i =>
            if i < np ∧ i < peerSlots then
              some { processPeer state (state.pending i) created with phase := .round np (i + 1) }
            else none
    | .reset =>
        match state.phase with
        | .waiting => none
        | .round np i =>
            if i < np ∧ i < peerSlots then none
            else some { state with npending := 0, phase := .waiting, arrivals := 0 }

/-- A peer that is reported during a round is pinged already or among the entries
the round has read, and a session that is asked for is created. -/
def Undisturbed (before : IbssState) : IbssStep → Prop
  | .peerCb mac .added => ∀ np i, before.phase = .round np i →
      seen before mac = true ∨ ∃ k < np, before.pending k = mac
  | .process created => ∀ np i, before.phase = .round np i →
      seen before (before.pending i) = false → before.npinged < peerSlots → created = true
  | _ => True

/-- What a step of the callback or of the loop does. -/
theorem ibssMachine_cases {before after : IbssState} {label : IbssStep}
    (stepped : ibssMachine.step before label = some after) :
    (∃ mac, label = .peerCb mac .removed ∧ after = before) ∨
    (∃ mac, label = .peerCb mac .added ∧
      after = { peerCb before mac .added with
        arrivals := if before.phase = .waiting then before.arrivals + 1 else before.arrivals }) ∨
    (label = .read ∧ before.phase = .waiting ∧
      after = { before with phase := .round before.npending 0 }) ∨
    (∃ created np i, label = .process created ∧ before.phase = .round np i ∧
      i < np ∧ i < peerSlots ∧
      after = { processPeer before (before.pending i) created with phase := .round np (i + 1) }) ∨
    (∃ np i, label = .reset ∧ before.phase = .round np i ∧ ¬(i < np ∧ i < peerSlots) ∧
      after = { before with npending := 0, phase := .waiting, arrivals := 0 }) := by
  cases label with
  | peerCb mac event =>
      cases event with
      | removed =>
          left
          simpa [ibssMachine, peerCb] using stepped.symm
      | added =>
          right; left
          simpa [ibssMachine] using stepped.symm
  | read =>
      simp only [ibssMachine] at stepped
      split at stepped
      · next waiting => exact .inr (.inr (.inl ⟨rfl, waiting, (Option.some.inj stepped).symm⟩))
      · cases stepped
  | process created =>
      simp only [ibssMachine] at stepped
      split at stepped
      · cases stepped
      · next np i round =>
          split at stepped
          · next more =>
              exact .inr (.inr (.inr (.inl ⟨created, np, i, rfl, round, more.1, more.2,
                (Option.some.inj stepped).symm⟩)))
          · cases stepped
  | reset =>
      simp only [ibssMachine] at stepped
      split at stepped
      · cases stepped
      · next np i round =>
          split at stepped
          · cases stepped
          · next done =>
              exact .inr (.inr (.inr (.inr ⟨np, i, rfl, round, done,
                (Option.some.inj stepped).symm⟩)))

section

variable (state : IbssState) (mac : Mac)

theorem peerCb_frame :
    (peerCb state mac .added).phase = state.phase ∧
      (peerCb state mac .added).sessions = state.sessions ∧
      (peerCb state mac .added).pinged = state.pinged ∧
      (peerCb state mac .added).npinged = state.npinged := by
  simp only [peerCb]
  split_ifs <;> exact ⟨rfl, rfl, rfl, rfl⟩

/-- With a slot free the reported peer becomes the last pending one. -/
theorem peerCb_of_lt (free : state.npending < peerSlots) :
    peerCb state mac .added = { state with
      pending := Function.update state.pending state.npending mac
      npending := state.npending + 1 } :=
  if_pos free

theorem peerCb_of_le (full : peerSlots ≤ state.npending) : peerCb state mac .added = state :=
  if_neg full.not_gt

/-- The peers that were pending stay in their slots. -/
theorem peerCb_pending {k : ℕ} (before : k < state.npending) :
    (peerCb state mac .added).pending k = state.pending k := by
  by_cases free : state.npending < peerSlots
  · rw [peerCb_of_lt state mac free]
    exact Function.update_of_ne (Nat.ne_of_lt before) ..
  · rw [peerCb_of_le state mac (not_lt.mp free)]

theorem le_npending_peerCb : state.npending ≤ (peerCb state mac .added).npending := by
  by_cases free : state.npending < peerSlots
  · rw [peerCb_of_lt state mac free]
    exact Nat.le_succ _
  · rw [peerCb_of_le state mac (not_lt.mp free)]

/-- No peer becomes pending but the reported one. -/
theorem pending_of_peerCb {k : ℕ} (after : k < (peerCb state mac .added).npending) :
    (k < state.npending ∧ (peerCb state mac .added).pending k = state.pending k) ∨
      (peerCb state mac .added).pending k = mac := by
  by_cases before : k < state.npending
  · exact .inl ⟨before, peerCb_pending state mac before⟩
  by_cases free : state.npending < peerSlots
  · rw [peerCb_of_lt state mac free] at after ⊢
    have last : k = state.npending := by
      change k < state.npending + 1 at after
      omega
    right
    simp only [last, Function.update_self]
  · rw [peerCb_of_le state mac (not_lt.mp free)] at after
    exact absurd after before

end

/-- A step that reports one of `peers` if any, at most the eighth one while the
loop waits, and is undisturbed. -/
structure Orderly (peers : Finset Mac) (taken : Transition IbssState IbssStep) : Prop where
  known : ∀ mac, taken.label = .peerCb mac .added → mac ∈ peers
  room : taken.after.arrivals ≤ peerSlots
  undisturbed : Undisturbed taken.before taken.label

/-- The sessions are those of the pinged peers; the pending entries are the events
since the reset, and those the round has come past are pinged. -/
structure Settled (peers : Finset Mac) (state : IbssState) : Prop where
  sessions : state.sessions = (List.range state.npinged).map state.pinged
  distinct : state.sessions.Nodup
  known : ∀ mac ∈ state.sessions, mac ∈ peers
  pending : ∀ k < state.npending, state.pending k ∈ peers
  room : state.npending ≤ peerSlots
  waiting : state.phase = .waiting → state.npending = state.arrivals
  read : ∀ np i, state.phase = .round np i →
    np ≤ state.npending ∧ i ≤ np ∧ ∀ k < i, state.pending k ∈ state.sessions

section

variable {peers : Finset Mac} {state : IbssState} {mac : Mac} {created : Bool}

theorem Settled.seen_iff (settled : Settled peers state) :
    seen state mac = true ↔ mac ∈ state.sessions := by
  simp only [seen, settled.sessions, List.any_eq_true, decide_eq_true_eq, List.mem_map]

/-- A peer that is not pinged leaves a slot of `s_pinged` free. -/
theorem Settled.slot_free (settled : Settled peers state) (few : peers.card ≤ peerSlots)
    (reported : mac ∈ peers) (fresh : mac ∉ state.sessions) : state.npinged < peerSlots := by
  have distinct : (mac :: state.sessions).Nodup := List.nodup_cons.mpr ⟨fresh, settled.distinct⟩
  have within : (mac :: state.sessions).toFinset ⊆ peers := by
    intro other member
    rcases List.mem_cons.mp (List.mem_toFinset.mp member) with rfl | pinged
    · exact reported
    · exact settled.known other pinged
  have count : state.sessions.length = state.npinged := by
    simp only [settled.sessions, List.length_map, List.length_range]
  have bound := Finset.card_le_card within
  rw [List.toFinset_card_of_nodup distinct, List.length_cons, count] at bound
  omega

theorem Settled.processPeer_of_mem (settled : Settled peers state)
    (pinged : mac ∈ state.sessions) : processPeer state mac created = state := by
  apply if_neg
  simp only [settled.seen_iff.mpr pinged, Bool.not_true, Bool.false_and, Bool.false_eq_true,
    not_false_eq_true]

theorem Settled.processPeer_of_notMem (settled : Settled peers state)
    (few : peers.card ≤ peerSlots) (reported : mac ∈ peers) (fresh : mac ∉ state.sessions) :
    processPeer state mac true = { state with
      sessions := state.sessions ++ [mac]
      pinged := Function.update state.pinged state.npinged mac
      npinged := state.npinged + 1 } := by
  have unseen : seen state mac = false :=
    Bool.eq_false_iff.mpr fun pinged => fresh (settled.seen_iff.mp pinged)
  have free := settled.slot_free few reported fresh
  simp only [processPeer, startPing, unseen, free, Bool.not_false, Bool.true_and,
    decide_true, ↓reduceIte]

/-- The entry a round comes to is pinged when the step is over, and nothing else
about the peers changes. -/
theorem Settled.processPeer_eq (settled : Settled peers state) (few : peers.card ≤ peerSlots)
    (reported : mac ∈ peers)
    (succeeds : seen state mac = false → state.npinged < peerSlots → created = true) :
    ∃ pinged npinged sessions, processPeer state mac created =
        { state with pinged := pinged, npinged := npinged, sessions := sessions } ∧
      sessions = (List.range npinged).map pinged ∧ sessions.Nodup ∧
      mac ∈ sessions ∧ state.sessions ⊆ sessions ∧
      ∀ other ∈ sessions, other = mac ∨ other ∈ state.sessions := by
  by_cases before : mac ∈ state.sessions
  · exact ⟨_, _, _, settled.processPeer_of_mem before, settled.sessions, settled.distinct, before,
      List.Subset.refl _, fun _ => .inr⟩
  have unseen : seen state mac = false :=
    Bool.eq_false_iff.mpr fun pinged => before (settled.seen_iff.mp pinged)
  obtain rfl := succeeds unseen (settled.slot_free few reported before)
  refine ⟨_, _, _, settled.processPeer_of_notMem few reported before, ?_, ?_, ?_, ?_, ?_⟩
  · rw [List.range_succ, List.map_append, settled.sessions]
    congr 1
    · apply List.map_congr_left
      intro j below
      exact (Function.update_of_ne (Nat.ne_of_lt (List.mem_range.mp below)) ..).symm
    · simp only [List.map_cons, List.map_nil, Function.update_self]
  · exact List.nodup_append.mpr ⟨settled.distinct, List.nodup_singleton mac,
      fun pinged member other single same =>
        before (by rwa [← List.mem_singleton.mp single, ← same])⟩
  · exact List.mem_append_right _ (List.mem_singleton_self mac)
  · exact List.subset_append_left ..
  · intro other member
    rcases List.mem_append.mp member with pinged | single
    · exact .inr pinged
    · exact .inl (List.mem_singleton.mp single)

end

section

variable {peers : Finset Mac} {before after : IbssState} {label : IbssStep}

/-- While the loop waits, an event finds a slot free. -/
theorem Settled.pending_free (settled : Settled peers before) (waiting : before.phase = .waiting)
    (room : before.arrivals + 1 ≤ peerSlots) : before.npending < peerSlots := by
  rw [settled.waiting waiting]
  exact room

/-- An `ADDED` event keeps the invariant. -/
theorem Settled.peerCb_added {mac : Mac} (settled : Settled peers before) (reported : mac ∈ peers)
    (room : before.phase = .waiting → before.arrivals + 1 ≤ peerSlots) :
    Settled peers { peerCb before mac .added with
      arrivals := if before.phase = .waiting then before.arrivals + 1 else before.arrivals } := by
  obtain ⟨samePhase, sameSessions, samePinged, sameCount⟩ := peerCb_frame before mac
  constructor
  case sessions => simp only [sameSessions, samePinged, sameCount, settled.sessions]
  case distinct => simp only [sameSessions, settled.distinct]
  case known => simpa only [sameSessions] using settled.known
  case pending =>
    intro k below
    change (peerCb before mac .added).pending k ∈ peers
    rcases pending_of_peerCb before mac below with ⟨earlier, same⟩ | same
    · rw [same]
      exact settled.pending k earlier
    · rw [same]
      exact reported
  case room =>
    by_cases free : before.npending < peerSlots
    · rw [peerCb_of_lt before mac free]
      exact free
    · rw [peerCb_of_le before mac (not_lt.mp free)]
      exact settled.room
  case waiting =>
    intro waits
    have waiting : before.phase = .waiting := samePhase ▸ waits
    have free := settled.pending_free waiting (room waiting)
    simp only [peerCb_of_lt before mac free, waiting, ↓reduceIte, settled.waiting waiting]
  case read =>
    intro np i round
    obtain ⟨within, reached, pinged⟩ := settled.read np i (samePhase ▸ round)
    refine ⟨within.trans (le_npending_peerCb before mac), reached, fun k below => ?_⟩
    change (peerCb before mac .added).pending k ∈ (peerCb before mac .added).sessions
    rw [sameSessions, peerCb_pending before mac (below.trans_le (reached.trans within))]
    exact pinged k below

/-- The end of an entry keeps the invariant. -/
theorem Settled.process {np i : ℕ} {created : Bool} (settled : Settled peers before)
    (few : peers.card ≤ peerSlots) (round : before.phase = .round np i) (more : i < np)
    (undisturbed : Undisturbed before (.process created)) :
    Settled peers
      { processPeer before (before.pending i) created with phase := .round np (i + 1) } := by
  obtain ⟨within, reached, earlier⟩ := settled.read np i round
  have reported := settled.pending i (more.trans_le within)
  obtain ⟨pinged, npinged, sessions, same, listed, distinct, done, kept, only⟩ :=
    settled.processPeer_eq few reported (undisturbed np i round)
  rw [same]
  constructor
  case sessions => exact listed
  case distinct => exact distinct
  case known =>
    intro mac member
    rcases only mac member with rfl | before
    · exact reported
    · exact settled.known mac before
  case pending => exact settled.pending
  case room => exact settled.room
  case waiting => exact fun waits => nomatch waits
  case read =>
    rintro _ _ ⟨⟩
    refine ⟨within, more, fun k below => ?_⟩
    rcases Nat.lt_succ_iff_lt_or_eq.mp below with past | rfl
    · exact kept (earlier k past)
    · exact done

/-- Every orderly step keeps the invariant. -/
theorem Settled.step (settled : Settled peers before) (few : peers.card ≤ peerSlots)
    (stepped : ibssMachine.step before label = some after)
    (orderly : Orderly peers ⟨before, label, after⟩) : Settled peers after := by
  rcases ibssMachine_cases stepped with
    ⟨mac, -, rfl⟩ | ⟨mac, named, rfl⟩ | ⟨-, waiting, rfl⟩ |
    ⟨created, np, i, rfl, round, more, -, rfl⟩ | ⟨np, i, -, round, done, rfl⟩
  · exact settled
  · refine settled.peerCb_added (orderly.known mac named) fun waiting => ?_
    have room := orderly.room
    rwa [waiting, if_pos rfl] at room
  · constructor
    case sessions => exact settled.sessions
    case distinct => exact settled.distinct
    case known => exact settled.known
    case pending => exact settled.pending
    case room => exact settled.room
    case waiting => exact fun waits => nomatch waits
    case read =>
      rintro _ _ ⟨⟩
      exact ⟨le_rfl, Nat.zero_le _, fun k below => absurd below (Nat.not_lt_zero k)⟩
  · exact settled.process few round more orderly.undisturbed
  · constructor
    case sessions => exact settled.sessions
    case distinct => exact settled.distinct
    case known => exact settled.known
    case pending => exact fun k below => absurd below (Nat.not_lt_zero k)
    case room => exact Nat.zero_le _
    case waiting => exact fun _ => rfl
    case read => exact fun _ _ round => nomatch round

end

/-- The steps of an orderly run keep the invariant. -/
theorem Settled.transitions {peers : Finset Mac} (few : peers.card ≤ peerSlots)
    {state : IbssState} {labels : List IbssStep}
    (orderly : ∀ taken ∈ ibssMachine.transitionsFrom state labels, Orderly peers taken) :
    ∀ taken ∈ ibssMachine.transitionsFrom state labels,
      Settled peers taken.before → Settled peers taken.after :=
  fun taken member settled =>
    settled.step few (Machine.step_of_mem_transitionsFrom member) (orderly taken member)

end Rimba.Ibss
