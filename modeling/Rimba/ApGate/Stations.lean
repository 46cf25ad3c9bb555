import Mathlib.Data.List.Nodup
import Rimba.Gate.ClientSet

/-! # The stations of the AP gate

`ap_sta_status_cb` of `firmware/test-mesh-ap-gate` keeps the authorized stations and counts
the authorizations ever seen, in two writes, which another task reads one by one. A count
that has not moved between two readings and a station behind the last one are those of a
station that was tracked all the time, or of one that was authorized behind the second
reading (`Rimba.ApGate.held_or_late`).
-/

namespace Rimba.ApGate

open Rimba.Gate (Mac ApStaState ApStaStatus)

/-- `TRACK_MAX` -/
def trackMax : ℕ := 8

/-- `s_sta_macs` up to `s_sta_n`, and `s_auth_events`. -/
structure Stations where
  macs : List Mac
  distinct : macs.Nodup
  fits : macs.length ≤ trackMax
  authEvents : ℕ

def Stations.boot : Stations := ⟨[], List.nodup_nil, Nat.zero_le _, 0⟩

/-- A write of the callback that another task can see. -/
inductive StationWrite where
  /-- A station of which there was no slot gets one, when one is free. -/
  | track (mac : Mac)
  /-- `s_auth_events++` -/
  | count
  /-- The slot of a station is closed up. -/
  | untrack (mac : Mac)
  deriving DecidableEq

/-- `ap_sta_status_cb` -/
def apStaStatusCb (status : ApStaStatus) : List StationWrite :=
  match status.state with
  | .authorized => [.track status.macAddr, .count]
  | .unknown => [.untrack status.macAddr]
  | .other _ => []

def Stations.track (stations : Stations) (mac : Mac) : Stations :=
  if fresh : mac ∉ stations.macs ∧ stations.macs.length < trackMax then
    { stations with
      macs := stations.macs ++ [mac]
      distinct := by
        rw [← List.concat_eq_append]
        exact stations.distinct.concat fresh.1
      fits := by
        rw [List.length_append, List.length_singleton]
        exact fresh.2 }
  else stations

def Stations.untrack (stations : Stations) (mac : Mac) : Stations where
  macs := stations.macs.erase mac
  distinct := stations.distinct.erase mac
  fits := (List.length_erase_le).trans stations.fits
  authEvents := stations.authEvents

def Stations.write (stations : Stations) : StationWrite → Stations
  | .track mac => stations.track mac
  | .count => { stations with authEvents := stations.authEvents + 1 }
  | .untrack mac => stations.untrack mac

/-- The writes of the callback, one report behind the other. -/
def stationWrites (reports : List ApStaStatus) : List StationWrite := reports.flatMap apStaStatusCb

/-- The stations behind a number of writes. -/
def stationsAt (reports : List ApStaStatus) (position : ℕ) : Stations :=
  ((stationWrites reports).take position).foldl Stations.write .boot

theorem Stations.mem_track {stations : Stations} {mac other : Mac}
    (member : other ∈ (stations.track mac).macs) : other ∈ stations.macs ∨ other = mac := by
  rw [track] at member
  split at member
  · exact (List.mem_append.mp member).imp_right List.mem_singleton.mp
  · exact Or.inl member

theorem Stations.track_authEvents (stations : Stations) (mac : Mac) :
    (stations.track mac).authEvents = stations.authEvents := by
  rw [track]
  split <;> rfl

theorem Stations.le_write (stations : Stations) (write : StationWrite) :
    stations.authEvents ≤ (stations.write write).authEvents := by
  cases write with
  | track mac => exact (stations.track_authEvents mac).ge
  | count => exact Nat.le_succ _
  | untrack mac => exact Nat.le_refl _

/-- A station is tracked by no write but its own. -/
theorem Stations.mem_write {stations : Stations} {write : StationWrite} {mac : Mac}
    (member : mac ∈ (stations.write write).macs) :
    mac ∈ stations.macs ∨ write = .track mac := by
  cases write with
  | track other =>
      rcases Stations.mem_track member with before | rfl
      · exact Or.inl before
      · exact Or.inr rfl
  | count => exact Or.inl member
  | untrack other => exact Or.inl (List.mem_of_mem_erase member)

section

variable {reports : List ApStaStatus}

/-- The write at a position, if there is one, is made there. -/
theorem stationsAt_succ (reports : List ApStaStatus) (position : ℕ) :
    stationsAt reports (position + 1) =
      match (stationWrites reports)[position]? with
      | some write => (stationsAt reports position).write write
      | none => stationsAt reports position := by
  rw [stationsAt, List.take_add_one, List.foldl_append]
  cases (stationWrites reports)[position]? <;> rfl

theorem authEvents_mono (reports : List ApStaStatus) :
    Monotone fun position => (stationsAt reports position).authEvents := by
  refine monotone_nat_of_le_succ fun position => ?_
  rw [stationsAt_succ]
  cases (stationWrites reports)[position]? with
  | none => exact Nat.le_refl _
  | some write => exact Stations.le_write _ write

/-- Each station that is tracked is counted with the next write. -/
def CountsNext (writes : List StationWrite) : Prop :=
  ∀ position mac, writes[position]? = some (.track mac) → writes[position + 1]? = some .count

theorem CountsNext.append {front back : List StationWrite} (first : CountsNext front)
    (second : CountsNext back) : CountsNext (front ++ back) := by
  intro position mac tracked
  by_cases inside : position < front.length
  · rw [List.getElem?_append_left inside] at tracked
    have counted := first position mac tracked
    have next := (List.getElem?_eq_some_iff.mp counted).1
    rwa [List.getElem?_append_left next]
  · have behind : front.length ≤ position := Nat.le_of_not_lt inside
    rw [List.getElem?_append_right behind] at tracked
    rw [List.getElem?_append_right (Nat.le_succ_of_le behind), Nat.succ_sub behind]
    exact second _ mac tracked

theorem countsNext_apStaStatusCb (status : ApStaStatus) : CountsNext (apStaStatusCb status) := by
  obtain ⟨state, address⟩ := status
  intro position mac tracked
  cases state with
  | authorized =>
      cases position with
      | zero => rfl
      | succ position =>
          cases position with
          | zero => cases tracked
          | succ position => cases tracked
  | unknown =>
      cases position with
      | zero => cases tracked
      | succ position => cases tracked
  | other value => cases tracked

theorem countsNext_stationWrites (reports : List ApStaStatus) :
    CountsNext (stationWrites reports) := by
  induction reports with
  | nil =>
      intro position mac tracked
      cases tracked
  | cons status reports ih =>
      rw [stationWrites, List.flatMap_cons]
      exact (countsNext_apStaStatusCb status).append ih

/-- A station that is tracked is counted with the write behind. -/
theorem authEvents_lt_of_tracked {position : ℕ} {mac : Mac}
    (tracked : (stationWrites reports)[position]? = some (.track mac)) :
    (stationsAt reports position).authEvents < (stationsAt reports (position + 2)).authEvents := by
  have counted := countsNext_stationWrites reports position mac tracked
  rw [stationsAt_succ reports (position + 1), counted]
  exact Nat.lt_succ_of_le (authEvents_mono reports (Nat.le_succ position))

/-- One station is tracked from one position up to another. -/
def HeldThrough (reports : List ApStaStatus) (first last : ℕ) : Prop :=
  ∃ mac, ∀ position, first ≤ position → position ≤ last → mac ∈ (stationsAt reports position).macs

/-- Up to a position a station gets a slot whose authorization is counted behind another. -/
def LateAuthorization (reports : List ApStaStatus) (counted last : ℕ) : Prop :=
  ∃ position mac, counted ≤ position + 1 ∧ position < last ∧
    mac ∉ (stationsAt reports position).macs ∧ mac ∈ (stationsAt reports (position + 1)).macs ∧
    (stationWrites reports)[position]? = some (.track mac)

/-- A station of the last position was there from the first, or got its slot in between. -/
theorem held_or_tracked {first last : ℕ} {mac : Mac}
    (present : mac ∈ (stationsAt reports last).macs) :
    (∀ position, first ≤ position → position ≤ last →
      mac ∈ (stationsAt reports position).macs) ∨
    ∃ position, first ≤ position ∧ position < last ∧
      mac ∉ (stationsAt reports position).macs ∧ mac ∈ (stationsAt reports (position + 1)).macs ∧
      (stationWrites reports)[position]? = some (.track mac) := by
  induction last with
  | zero =>
      refine Or.inl fun position _ upTo => ?_
      rwa [Nat.le_zero.mp upTo]
  | succ last ih =>
      by_cases before : last < first
      · refine Or.inl fun position from_first upTo => ?_
        rwa [Nat.le_antisymm upTo (Nat.le_trans before from_first)]
      have within : first ≤ last := Nat.le_of_not_lt before
      by_cases member : mac ∈ (stationsAt reports last).macs
      · refine (ih member).imp (fun held position from_first upTo => ?_) ?_
        · rcases Nat.lt_or_eq_of_le upTo with earlier | rfl
          · exact held position from_first (Nat.le_of_lt_succ earlier)
          · exact present
        · rintro ⟨position, from_first, earlier, tracked⟩
          exact ⟨position, from_first, Nat.lt_succ_of_lt earlier, tracked⟩
      · refine Or.inr ⟨last, within, Nat.lt_succ_self last, member, present, ?_⟩
        rw [stationsAt_succ] at present
        cases written : (stationWrites reports)[last]? with
        | none =>
            rw [written] at present
            exact absurd present member
        | some write =>
            rw [written] at present
            exact congrArg some ((Stations.mem_write present).resolve_left member)

/-- **A count that has not moved.** When there is a station at the last position, and the
count read at the second is that read at the first, a station was tracked from the first up
to the last, or one was authorized behind the second reading. -/
theorem held_or_late {first counted last : ℕ}
    (unmoved : (stationsAt reports counted).authEvents ≤ (stationsAt reports first).authEvents)
    (present : (stationsAt reports last).macs ≠ []) :
    HeldThrough reports first last ∨ LateAuthorization reports counted last := by
  obtain ⟨mac, member⟩ := List.exists_mem_of_ne_nil _ present
  refine (held_or_tracked member).imp (fun held => ⟨mac, held⟩) ?_
  rintro ⟨position, from_first, earlier, absent, slotted, tracked⟩
  refine ⟨position, mac, ?_, earlier, absent, slotted, tracked⟩
  -- a station that is tracked between the readings moves the count
  by_contra between
  have reached : position + 2 ≤ counted := Nat.lt_of_not_le between
  have moved := calc
    (stationsAt reports first).authEvents
      ≤ (stationsAt reports position).authEvents := authEvents_mono reports from_first
    _ < (stationsAt reports (position + 2)).authEvents := authEvents_lt_of_tracked tracked
    _ ≤ (stationsAt reports counted).authEvents := authEvents_mono reports reached
  exact Nat.not_le_of_lt moved unmoved

end

end Rimba.ApGate
