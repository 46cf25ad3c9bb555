import Mathlib.Data.List.Induction
import Mathlib.Data.List.Nodup
import Rimba.Gate.ArpTable

/-! # The gate's AP clients

The array `g_ap_clients` of `firmware/rimba-halow-mesh-ap` and its count, kept
by `ap_sta_status_cb` and read by `gate_is_ap_client`. A station is entered once
when it is authorized and removed by moving the last slot into its place. The
two locked bodies do to the set of clients what their events say
(`Rimba.Gate.mem_apStaAuthorizedLocked`, `Rimba.Gate.mem_apStaUnknownLocked`),
so as long as no more stations are authorized at a time than there are slots,
the array holds each of them in one slot and nothing else
(`Rimba.Gate.apClients_track`).
-/

namespace Rimba.Gate

/-- `LINK_MAX_STAS`: the stations the AP admits. -/
def linkMaxStas : ℕ := 16

/-- `GATE_MAX_CLIENTS`, taken from the admission cap. -/
def gateMaxClients : ℕ := linkMaxStas

/-- `g_ap_clients` and `g_ap_client_n`. The slots are those of the array as far
as the count stays within it. -/
structure ApClients where
  slots : ℕ → Mac
  n : ℕ

/-- The zeroed array of a boot. -/
def ApClients.empty : ApClients := ⟨fun _ => Vector.replicate 6 0, 0⟩

/-- The states of `enum mmwlan_ap_sta_state`: the two the gate acts on, and the
others by their number. -/
inductive ApStaState where
  | unknown
  | authorized
  | other (value : ℕ)
  deriving DecidableEq, Repr

/-- `struct mmwlan_ap_sta_status` -/
structure ApStaStatus where
  state : ApStaState
  macAddr : Mac
  deriving DecidableEq, Repr

/-- `gate_is_ap_client` -/
def gateIsApClient (clients : ApClients) (mac : Mac) : Bool :=
  (List.range clients.n).any fun i => clients.slots i = mac

/-- The critical section of `ap_sta_status_cb` for an authorized station. -/
def apStaAuthorizedLocked (clients : ApClients) (mac : Mac) : ApClients :=
  let present := (List.range clients.n).any fun i => clients.slots i = mac
  if !present && clients.n < gateMaxClients then
    ⟨Function.update clients.slots clients.n mac, clients.n + 1⟩
  else clients

/-- The critical section of `ap_sta_status_cb` for a station that left: the last
slot takes the place of its own. -/
def apStaUnknownLocked (clients : ApClients) (mac : Mac) : ApClients :=
  match (List.range clients.n).find? fun i => clients.slots i = mac with
  | some i => ⟨Function.update clients.slots i (clients.slots (clients.n - 1)), clients.n - 1⟩
  | none => clients

/-- What `ap_sta_status_cb` does to the clients; it returns at once on a null
status. -/
def apStaStatusClients (clients : ApClients) : Option ApStaStatus → ApClients
  | none => clients
  | some status =>
      match status.state with
      | .authorized => apStaAuthorizedLocked clients status.macAddr
      | .unknown => apStaUnknownLocked clients status.macAddr
      | .other _ => clients

namespace ApClients

/-- A live slot holds the address. -/
def Mem (clients : ApClients) (mac : Mac) : Prop := ∃ i < clients.n, clients.slots i = mac

/-- The live slots hold pairwise distinct addresses. -/
def Distinct (clients : ApClients) : Prop :=
  ∀ i < clients.n, ∀ j < clients.n, clients.slots i = clients.slots j → i = j

/-- The addresses in the live slots. -/
def live (clients : ApClients) : List Mac := (List.range clients.n).map clients.slots

theorem mem_live {clients : ApClients} {mac : Mac} : mac ∈ clients.live ↔ clients.Mem mac := by
  simp only [live, Mem, List.mem_map, List.mem_range]

theorem Distinct.nodup_live {clients : ApClients} (distinct : clients.Distinct) :
    clients.live.Nodup := by
  apply List.Nodup.map_on _ List.nodup_range
  intro i inRange j jInRange same
  exact distinct i (List.mem_range.mp inRange) j (List.mem_range.mp jInRange) same

end ApClients

theorem gateIsApClient_iff {clients : ApClients} {mac : Mac} :
    gateIsApClient clients mac = true ↔ clients.Mem mac := by
  simp only [gateIsApClient, List.any_eq_true, List.mem_range, decide_eq_true_eq, ApClients.Mem]

/-- **What an authorized station does.** It is entered behind the live slots,
unless it is there already or all slots are taken. -/
theorem apStaAuthorizedLocked_cases (clients : ApClients) (mac : Mac) :
    (clients.Mem mac ∨ gateMaxClients ≤ clients.n) ∧ apStaAuthorizedLocked clients mac = clients ∨
    ¬ clients.Mem mac ∧ clients.n < gateMaxClients ∧ apStaAuthorizedLocked clients mac =
      ⟨Function.update clients.slots clients.n mac, clients.n + 1⟩ := by
  change
    (_ ∨ _) ∧ (if !gateIsApClient clients mac && clients.n < gateMaxClients then _ else _) = _ ∨
    _ ∧ _ ∧ (if !gateIsApClient clients mac && clients.n < gateMaxClients then _ else _) = _
  by_cases present : clients.Mem mac
  · simp only [present, gateIsApClient_iff.mpr present, Bool.not_true, Bool.false_and,
      Bool.false_eq_true, ↓reduceIte, true_or, and_self]
  · have absent := Bool.eq_false_iff.mpr (mt gateIsApClient_iff.mp present)
    by_cases room : clients.n < gateMaxClients
    · simp only [present, absent, room, Bool.not_false, decide_true, Bool.and_self, ↓reduceIte,
        not_false_eq_true, and_self, or_true]
    · simp only [absent, room, Nat.le_of_not_lt room, Bool.not_false, decide_false, Bool.and_false,
        Bool.false_eq_true, ↓reduceIte, or_true, and_self, true_or]

/-- **What a leaving station does.** The last live slot takes the place of a
slot holding it, if there is one. -/
theorem apStaUnknownLocked_cases (clients : ApClients) (mac : Mac) :
    ¬ clients.Mem mac ∧ apStaUnknownLocked clients mac = clients ∨
    ∃ i < clients.n, clients.slots i = mac ∧ apStaUnknownLocked clients mac =
      ⟨Function.update clients.slots i (clients.slots (clients.n - 1)), clients.n - 1⟩ := by
  cases found : (List.range clients.n).find? fun i => clients.slots i = mac with
  | none =>
      refine .inl ⟨?_, by simp only [apStaUnknownLocked, found]⟩
      rintro ⟨i, inRange, same⟩
      have missed := List.find?_eq_none.mp found i (List.mem_range.mpr inRange)
      exact missed (decide_eq_true same)
  | some i =>
      have inRange := List.mem_range.mp (List.mem_of_find?_eq_some found)
      have same : clients.slots i = mac := by
        simpa only [decide_eq_true_eq] using List.find?_some found
      exact .inr ⟨i, inRange, same, by simp only [apStaUnknownLocked, found]⟩

/-- Entering an address in the slot behind the live ones adds it to the set. -/
theorem ApClients.mem_entered {clients : ApClients} {mac held : Mac} :
    ApClients.Mem ⟨Function.update clients.slots clients.n mac, clients.n + 1⟩ held ↔
      clients.Mem held ∨ held = mac := by
  constructor
  · rintro ⟨i, inRange, same⟩
    simp only at inRange same
    by_cases last : i = clients.n
    · subst last
      exact .inr (by rw [← same, Function.update_self])
    · rw [Function.update_of_ne last] at same
      exact .inl ⟨i, by omega, same⟩
  · rintro (⟨i, inRange, same⟩ | rfl)
    · exact ⟨i, Nat.lt_succ_of_lt inRange,
        (Function.update_of_ne (Nat.ne_of_lt inRange) ..).trans same⟩
    · exact ⟨clients.n, Nat.lt_succ_self _, Function.update_self ..⟩

/-- No station but the authorized one is entered or lost. -/
theorem mem_apStaAuthorizedLocked_of_ne {clients : ApClients} {mac held : Mac}
    (other : held ≠ mac) : (apStaAuthorizedLocked clients mac).Mem held ↔ clients.Mem held := by
  rcases apStaAuthorizedLocked_cases clients mac with ⟨_, result⟩ | ⟨_, _, result⟩ <;> rw [result]
  rw [ApClients.mem_entered, or_iff_left other]

/-- As long as a slot is left for it, an authorized station is a client. -/
theorem mem_apStaAuthorizedLocked {clients : ApClients} {mac held : Mac}
    (room : clients.Mem mac ∨ clients.n < gateMaxClients) :
    (apStaAuthorizedLocked clients mac).Mem held ↔ clients.Mem held ∨ held = mac := by
  rcases apStaAuthorizedLocked_cases clients mac with ⟨refused, result⟩ | ⟨_, _, result⟩ <;>
    rw [result]
  · have present : clients.Mem mac := by
      rcases refused with present | full
      · exact present
      · exact room.resolve_right (Nat.not_lt.mpr full)
    constructor
    · exact .inl
    · rintro (held | rfl)
      · exact held
      · exact present
  · exact ApClients.mem_entered

theorem ApClients.Distinct.authorized {clients : ApClients} (distinct : clients.Distinct)
    (mac : Mac) : (apStaAuthorizedLocked clients mac).Distinct := by
  rcases apStaAuthorizedLocked_cases clients mac with ⟨_, result⟩ | ⟨absent, _, result⟩ <;>
    rw [result]
  · exact distinct
  · intro i inRange j jInRange same
    simp only at inRange jInRange same
    by_cases atI : i = clients.n <;> by_cases atJ : j = clients.n
    · exact atI.trans atJ.symm
    · subst atI
      rw [Function.update_self, Function.update_of_ne atJ] at same
      exact (absent ⟨j, by omega, same.symm⟩).elim
    · subst atJ
      rw [Function.update_self, Function.update_of_ne atI] at same
      exact (absent ⟨i, by omega, same⟩).elim
    · rw [Function.update_of_ne atI, Function.update_of_ne atJ] at same
      exact distinct i (by omega) j (by omega) same

/-- The live slots after the last one took the place of slot `i`, told by the
slots before. -/
theorem ApClients.moved_slot (clients : ApClients) (i : ℕ) {j : ℕ} (inRange : j < clients.n - 1) :
    ∃ origin < clients.n, origin ≠ i ∧ (j ≠ i → origin = j) ∧ (j = i → origin = clients.n - 1) ∧
      Function.update clients.slots i (clients.slots (clients.n - 1)) j =
        clients.slots origin := by
  by_cases here : j = i
  · subst here
    exact ⟨clients.n - 1, by omega, by omega, fun other => (other rfl).elim, fun _ => rfl,
      Function.update_self ..⟩
  · exact ⟨j, by omega, here, fun _ => rfl, fun same => (here same).elim,
      Function.update_of_ne here ..⟩

/-- A station that left is no client, and every other one is as before. -/
theorem mem_apStaUnknownLocked {clients : ApClients} (distinct : clients.Distinct)
    {mac held : Mac} :
    (apStaUnknownLocked clients mac).Mem held ↔ clients.Mem held ∧ held ≠ mac := by
  rcases apStaUnknownLocked_cases clients mac with ⟨absent, result⟩ | ⟨i, inRange, same, result⟩ <;>
    rw [result]
  · constructor
    · exact fun present => ⟨present, fun equal => absent (equal ▸ present)⟩
    · exact And.left
  · constructor
    · rintro ⟨j, jInRange, found⟩
      obtain ⟨origin, originInRange, elsewhere, _, _, moved⟩ := clients.moved_slot i jInRange
      have kept : clients.slots origin = held := moved.symm.trans found
      refine ⟨⟨origin, originInRange, kept⟩, fun equal => elsewhere ?_⟩
      exact distinct origin originInRange i inRange (kept.trans (equal.trans same.symm))
    · rintro ⟨⟨j, jInRange, found⟩, other⟩
      have elsewhere : j ≠ i := fun equal => other (by rw [← found, equal, same])
      by_cases last : j = clients.n - 1
      · subst last
        exact ⟨i, by simp only; omega, (Function.update_self ..).trans found⟩
      · exact ⟨j, by simp only; omega, (Function.update_of_ne elsewhere ..).trans found⟩

theorem ApClients.Distinct.unknown {clients : ApClients} (distinct : clients.Distinct)
    (mac : Mac) : (apStaUnknownLocked clients mac).Distinct := by
  rcases apStaUnknownLocked_cases clients mac with ⟨_, result⟩ | ⟨i, _, _, result⟩ <;> rw [result]
  · exact distinct
  · intro j jInRange k kInRange same
    obtain ⟨origin, originInRange, _, stayed, took, moved⟩ := clients.moved_slot i jInRange
    obtain ⟨source, sourceInRange, _, remained, replaced, shifted⟩ := clients.moved_slot i kInRange
    have equal : origin = source :=
      distinct origin originInRange source sourceInRange
        (moved.symm.trans (same.trans shifted))
    simp only at jInRange kInRange
    by_cases atJ : j = i <;> by_cases atK : k = i
    · exact atJ.trans atK.symm
    · have first := took atJ
      have second := remained atK
      omega
    · have first := stayed atJ
      have second := replaced atK
      omega
    · exact (stayed atJ).symm.trans (equal.trans (remained atK))

/-- Every live slot is a slot of the array. -/
def ApClients.Fits (clients : ApClients) : Prop := clients.n ≤ gateMaxClients

theorem ApClients.Fits.status {clients : ApClients} (fits : clients.Fits)
    (status : Option ApStaStatus) : (apStaStatusClients clients status).Fits := by
  unfold ApClients.Fits at fits ⊢
  rcases status with _ | ⟨_ | _ | _, mac⟩ <;> simp only [apStaStatusClients]
  · exact fits
  · rcases apStaUnknownLocked_cases clients mac with ⟨_, result⟩ | ⟨_, _, _, result⟩ <;>
      rw [result]
    · exact fits
    · exact (Nat.sub_le ..).trans fits
  · rcases apStaAuthorizedLocked_cases clients mac with ⟨_, result⟩ | ⟨_, room, result⟩ <;>
      rw [result]
    · exact fits
    · exact room
  · exact fits

theorem ApClients.Distinct.status {clients : ApClients} (distinct : clients.Distinct)
    (status : Option ApStaStatus) : (apStaStatusClients clients status).Distinct := by
  rcases status with _ | ⟨_ | _ | _, mac⟩
  · exact distinct
  · exact distinct.unknown mac
  · exact distinct.authorized mac
  · exact distinct

/-- The clients after a sequence of status events, from a boot. -/
def apClientsAfter (events : List (Option ApStaStatus)) : ApClients :=
  events.foldl apStaStatusClients .empty

/-- What an event says of a station, if it is one of the two the gate acts on. -/
def ApStaStatus.authorizes (status : ApStaStatus) (mac : Mac) : Option Bool :=
  if status.macAddr = mac then
    match status.state with
    | .authorized => some true
    | .unknown => some false
    | .other _ => none
  else none

/-- The latest authorized or unknown event for the station is an authorized one. -/
def LastAuthorized (events : List (Option ApStaStatus)) (mac : Mac) : Prop :=
  (events.reverse.findSome? fun status => status.bind fun status => status.authorizes mac) =
    some true

/-- No more stations are authorized at a time than the array has slots. -/
def AuthorizedFit (events : List (Option ApStaStatus)) : Prop :=
  ∀ front back, events = front ++ back → ∀ macs : List Mac, macs.Nodup →
    (∀ mac ∈ macs, LastAuthorized front mac) → macs.length ≤ gateMaxClients

theorem AuthorizedFit.front {front back : List (Option ApStaStatus)}
    (fit : AuthorizedFit (front ++ back)) : AuthorizedFit front := fun first second split =>
  fit first (second ++ back) (by rw [split, List.append_assoc])

theorem lastAuthorized_concat {events : List (Option ApStaStatus)} {status : Option ApStaStatus}
    {mac : Mac} : LastAuthorized (events ++ [status]) mac ↔
      match status.bind fun status => status.authorizes mac with
      | some said => said = true
      | none => LastAuthorized events mac := by
  unfold LastAuthorized
  rw [List.reverse_append, List.reverse_singleton, List.singleton_append, List.findSome?_cons]
  cases status.bind fun status => status.authorizes mac with
  | none => rfl
  | some said => exact Option.some_inj

/-- A sequence of no more events than there are slots fits. -/
theorem AuthorizedFit.of_length {events : List (Option ApStaStatus)}
    (short : events.length ≤ gateMaxClients) : AuthorizedFit events := by
  rintro front back rfl macs distinct authorized
  have named : macs ⊆ front.filterMap fun status => status.map ApStaStatus.macAddr := by
    intro mac member
    obtain ⟨status, inFront, said⟩ := List.exists_of_findSome?_eq_some (authorized mac member)
    cases status with
    | none => cases said
    | some status =>
        simp only [Option.bind_some, ApStaStatus.authorizes] at said
        split at said
        · next same =>
            exact List.mem_filterMap.mpr ⟨some status, List.mem_reverse.mp inFront, by
              rw [Option.map_some, same]⟩
        · cases said
  calc macs.length
      ≤ (front.filterMap fun status => status.map ApStaStatus.macAddr).length :=
        (distinct.subperm named).length_le
    _ ≤ front.length := List.length_filterMap_le ..
    _ ≤ (front ++ back).length := by simp only [List.length_append, Nat.le_add_right]
    _ ≤ gateMaxClients := short

/-- A station whose authorization fits is a client already or finds a free slot. -/
theorem AuthorizedFit.room {events : List (Option ApStaStatus)} {mac : Mac}
    (fit : AuthorizedFit (events ++ [some ⟨.authorized, mac⟩])) {clients : ApClients}
    (distinct : clients.Distinct)
    (tracked : ∀ held, clients.Mem held ↔ LastAuthorized events held) :
    clients.Mem mac ∨ clients.n < gateMaxClients := by
  by_cases present : clients.Mem mac
  · exact .inl present
  · -- the new station and the live slots together are authorized at the same time
    have entered : (mac :: clients.live).Nodup :=
      List.nodup_cons.mpr ⟨mt ApClients.mem_live.mp present, distinct.nodup_live⟩
    have together := fit _ [] (List.append_nil _).symm (mac :: clients.live) entered (by
      intro held member
      rw [lastAuthorized_concat]
      by_cases same : mac = held
      · simp only [Option.bind_some, ApStaStatus.authorizes, same, ↓reduceIte]
      · have inLive := (List.mem_cons.mp member).resolve_left (Ne.symm same)
        simp only [Option.bind_some, ApStaStatus.authorizes, same, ↓reduceIte]
        exact (tracked held).mp (ApClients.mem_live.mp inLive))
    simp only [ApClients.live, List.length_cons, List.length_map, List.length_range] at together
    exact .inr together

/-- As long as no more stations are authorized at a time than there are slots,
the array holds each station whose latest event authorized it in one slot, and
no other station. -/
theorem apClients_track (events : List (Option ApStaStatus)) (fit : AuthorizedFit events) :
    (apClientsAfter events).n ≤ gateMaxClients ∧ (apClientsAfter events).Distinct ∧
      ∀ mac, gateIsApClient (apClientsAfter events) mac = true ↔ LastAuthorized events mac := by
  simp only [gateIsApClient_iff]
  induction events using List.reverseRecOn with
  | nil =>
      refine ⟨Nat.zero_le _, fun i inRange => absurd inRange (Nat.not_lt_zero i), fun mac => ?_⟩
      constructor
      · rintro ⟨i, inRange, _⟩
        exact absurd inRange (Nat.not_lt_zero i)
      · exact fun said => nomatch said
  | append_singleton events status ih =>
      obtain ⟨fits, distinct, tracked⟩ := ih fit.front
      have stepped : apClientsAfter (events ++ [status]) =
          apStaStatusClients (apClientsAfter events) status := by
        rw [apClientsAfter, List.foldl_append]
        rfl
      generalize apClientsAfter events = clients at *
      rw [stepped]
      refine ⟨ApClients.Fits.status fits status, distinct.status status, fun mac => ?_⟩
      rw [lastAuthorized_concat]
      rcases status with _ | ⟨_ | _ | _, left⟩
      · exact tracked mac
      · change (apStaUnknownLocked clients left).Mem mac ↔ _
        rw [mem_apStaUnknownLocked distinct, tracked mac]
        by_cases same : left = mac
        · simp only [Option.bind_some, ApStaStatus.authorizes, same, ↓reduceIte, ne_eq,
            not_true_eq_false, and_false, Bool.false_eq_true]
        · simp only [Option.bind_some, ApStaStatus.authorizes, same, ↓reduceIte, ne_eq,
            Ne.symm same, not_false_eq_true, and_true]
      · change (apStaAuthorizedLocked clients left).Mem mac ↔ _
        rw [mem_apStaAuthorizedLocked (fit.room distinct tracked), tracked mac]
        by_cases same : left = mac
        · simp only [Option.bind_some, ApStaStatus.authorizes, same, ↓reduceIte, or_true]
        · simp only [Option.bind_some, ApStaStatus.authorizes, same, ↓reduceIte, Ne.symm same,
            or_false]
      · by_cases same : left = mac
        all_goals
          simp only [Option.bind_some, ApStaStatus.authorizes, same, ↓reduceIte]
          exact tracked mac

/-- Two stations join, the first one leaves and the second is reported again. -/
def rejoining : List (Option ApStaStatus) :=
  [some ⟨.authorized, .station 1⟩, some ⟨.authorized, .station 2⟩,
    some ⟨.unknown, .station 1⟩, some ⟨.authorized, .station 2⟩]

theorem rejoining_tracked :
    (apClientsAfter rejoining).n ≤ gateMaxClients ∧ (apClientsAfter rejoining).Distinct ∧
      gateIsApClient (apClientsAfter rejoining) (.station 2) = true := by
  obtain ⟨fits, distinct, tracked⟩ :=
    apClients_track rejoining (AuthorizedFit.of_length (by decide))
  exact ⟨fits, distinct, (tracked _).mpr rfl⟩

end Rimba.Gate
