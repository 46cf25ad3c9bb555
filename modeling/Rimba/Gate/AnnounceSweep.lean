import Mathlib.Data.List.ProdSigma
import Mathlib.Tactic.Ring
import Rimba.Gate.ArpCodec
import Rimba.Gate.Teaching

/-! # What one announce sweep sends

`gw_arp_announce_once` drops what has expired, takes a snapshot of the rest, and
teaches in a double loop. Whatever the table, and whatever other tasks do behind
its locked section, each host is sent one message for each live host of the other
side and nothing else is sent (`Rimba.Gate.announce_exact`).
-/

namespace Rimba.Gate

open Foundation Foundation.Thread

section

variable {Host : Type} (side : Host → GwSide)

/-- The ordered pairs of hosts on different sides. -/
def acrossPairs (hosts : List Host) : List (Host × Host) :=
  (hosts ×ˢ hosts).filter fun pair => side pair.1 ≠ side pair.2

/-- The number of hosts on one side. -/
def countOn (hosts : List Host) (which : GwSide) : ℕ := hosts.countP fun host => side host = which

theorem mem_acrossPairs {hosts : List Host} {a b : Host} :
    (a, b) ∈ acrossPairs side hosts ↔ a ∈ hosts ∧ b ∈ hosts ∧ side a ≠ side b := by
  simp only [acrossPairs, List.mem_filter, List.mem_product, decide_eq_true_eq, and_assoc]

theorem nodup_acrossPairs {hosts : List Host} (distinct : hosts.Nodup) :
    (acrossPairs side hosts).Nodup :=
  (distinct.product distinct).filter _

/-- The pairs across between two lists of hosts. -/
theorem length_filter_across (first second : List Host) :
    ((first ×ˢ second).filter fun pair => side pair.1 ≠ side pair.2).length =
      countOn side first .ap * countOn side second .mesh +
        countOn side first .mesh * countOn side second .ap := by
  induction first with
  | nil => simp only [List.nil_product, List.filter_nil, List.length_nil, countOn, List.countP_nil,
      Nat.zero_mul, Nat.add_zero]
  | cons a first ih =>
      have others : ((second.map fun b => (a, b)).filter fun pair =>
          side pair.1 ≠ side pair.2).length = countOn side second (side a).opposite := by
        rw [List.filter_map, List.length_map, ← List.countP_eq_length_filter]
        apply List.countP_congr
        intro b _
        simp only [Function.comp_apply, decide_eq_true_eq]
        rw [ne_comm, GwSide.ne_iff_opposite]
      rw [List.product_cons, List.filter_append, List.length_append, others, ih]
      have counted (which : GwSide) : countOn side (a :: first) which =
          countOn side first which + if side a = which then 1 else 0 := by
        simp only [countOn, List.countP_cons, decide_eq_true_eq]
      rw [counted, counted]
      cases side a with
      | ap =>
          simp only [GwSide.opposite, ↓reduceIte, reduceCtorEq]
          ring
      | mesh =>
          simp only [GwSide.opposite, ↓reduceIte, reduceCtorEq]
          ring

/-- Each host is paired with every host of the other side. -/
theorem length_acrossPairs (hosts : List Host) :
    (acrossPairs side hosts).length =
      2 * countOn side hosts .ap * countOn side hosts .mesh := by
  rw [acrossPairs, length_filter_across]
  ring

end

/-- A call that sends a frame on either vif. -/
def GateCall.transmits : GateCall → Bool
  | .txPkt .. | .meshTxProxied .. | .meshTxGroupProxied .. => true
  | _ => false

/-- Everything that is sent along some calls. -/
def transmissions (calls : GateCalls) : List GateCall :=
  calls.filterMap fun called =>
    if called.command.transmits then some called.command else none

/-- A thread that sends nothing. -/
theorem transmissions_of_only {Value : Type} {thread : GateThread Value} {calls : GateCalls}
    {value : Value} (only : thread.Only fun call => call.transmits = false)
    (runs : Runs thread calls value) : transmissions calls = [] := by
  apply List.filterMap_eq_nil_iff.mpr
  intro called member
  rw [runs.only only called member]
  rfl

/-- The message that teaches the host of entry `a` where the host of entry `b`
is: an Ethernet ARP reply on the AP vif, or a proxied unicast on the mesh. -/
def announcement (a b : GwArpEntry) : GateCall :=
  match a.side with
  | .ap => .txPkt .announce
      ((a.mac.toList ++ (b.mac.toList ++ [0x08, 0x06])) ++ arpReply b.mac b.ip a.mac a.ip)
  | .mesh => .meshTxProxied .announce a.mac b.mac
      ([0xaa, 0xaa, 0x03, 0x00, 0x00, 0x00, 0x08, 0x06] ++ arpReply b.mac b.ip a.mac a.ip)

/-- A message goes to the host it is for, and teaches the other's address. -/
theorem teaching_announcement (a b : GwArpEntry) :
    (announcement a b).teaching = some ⟨.announce, a.side, a.mac, a.ip, b.ip, b.mac⟩ := by
  have own : Sender.announce ≠ .bridge := by decide
  cases side : a.side with
  | ap =>
      have taught := teaching_gwArpBuildReply own a.mac a.ip b.ip b.mac
      rw [gwArpBuildReply_arp (length_stackBuffer 42)] at taught
      simpa only [announcement, side] using taught
  | mesh =>
      have taught := teaching_snapArpReply own b.mac b.mac b.ip a.mac a.ip
      rw [snapArpReply_arp (length_stackBuffer (8 + 28))] at taught
      simpa only [announcement, side] using taught

/-- The entry a row of the snapshot was taken from, but for its stamp. -/
def ArpView.entry (row : ArpView) : GwArpEntry := ⟨row.ip, row.mac, row.side, true, 0⟩

/-- A TX packet that was asked for was allocated. -/
def PacketHad (called : Called GateResponse) : Prop :=
  ∀ len (allocated : Bool), called = ⟨.alloc len, allocated⟩ → allocated = true

theorem transmissions_gwTxApFrame {sender : Sender} {frame : Bytes} {calls : GateCalls}
    (had : ∀ called ∈ calls, PacketHad called)
    (runs : Runs (Datapath.gwTxApFrame sender frame) calls ()) :
    transmissions calls = [.txPkt sender frame] := by
  obtain ⟨allocated, rest, rfl, sending⟩ := runs_perform_bind.mp runs
  cases had _ List.mem_cons_self _ allocated rfl
  obtain ⟨sent, _, rfl, ended⟩ := runs_perform_bind.mp sending
  obtain ⟨rfl, _⟩ := runs_ret.mp ended
  rfl

/-- One round of the inner loop sends one message, to a host of the other side
only. -/
theorem transmissions_gwArpTeach (a b : ArpView) {calls : GateCalls}
    (had : ∀ called ∈ calls, PacketHad called)
    (runs : Runs (Datapath.gwArpTeach a b) calls ()) :
    transmissions calls = if a.side = b.side then [] else [announcement a.entry b.entry] := by
  unfold Datapath.gwArpTeach at runs
  split at runs
  · next same =>
      obtain ⟨rfl, _⟩ := runs_ret.mp runs
      rw [if_pos same]
      rfl
  · next other =>
      rw [if_neg other]
      simp only [announcement, ArpView.entry]
      cases side : a.side with
      | ap =>
          simp only [side] at runs
          rw [gwArpBuildReply_arp (length_stackBuffer 42)] at runs
          exact transmissions_gwTxApFrame had runs
      | mesh =>
          simp only [side] at runs
          rw [Datapath.gwArpPushToMesh, snapArpReply_arp (length_stackBuffer (8 + 28))] at runs
          obtain ⟨sent, _, rfl, ended⟩ := runs_perform_bind.mp runs
          obtain ⟨rfl, _⟩ := runs_ret.mp ended
          rfl

/-- The double loop sends what each of its rounds sends. -/
theorem transmissions_loops (view : List ArpView) {calls : GateCalls}
    (had : ∀ called ∈ calls, PacketHad called)
    (runs : Runs (forEach view fun a => forEach view fun b => Datapath.gwArpTeach a b) calls ()) :
    transmissions calls = view.flatMap fun a => view.flatMap fun b =>
      if a.side = b.side then [] else [announcement a.entry b.entry] := by
  refine runs.filterMap_forEach (fun a _ part hadPart runsPart => ?_) had
  exact runsPart.filterMap_forEach
    (fun b _ round hadRound runsRound => transmissions_gwArpTeach a b hadRound runsRound) hadPart

/-- The slots in use and not expired. -/
def liveSlots (table : ArpTable) (now : UInt32) : List (Fin gwArpMax) :=
  (List.finRange gwArpMax).filter fun i => (table i).used && !(table i).expired now

theorem mem_liveSlots {table : ArpTable} {now : UInt32} {i : Fin gwArpMax} :
    i ∈ liveSlots table now ↔ (table i).used = true ∧ (table i).expired now = false := by
  simp only [liveSlots, List.mem_filter, List.mem_finRange, true_and, Bool.and_eq_true,
    Bool.not_eq_true']

/-- The row of the snapshot taken of a slot. -/
def GwArpEntry.view (entry : GwArpEntry) : ArpView := ⟨entry.ip, entry.mac, entry.side⟩

/-- The snapshot has one row for each live slot, in the order of the table. -/
theorem gwArpAnnounceLocked_view (table : ArpTable) (now : UInt32) :
    (gwArpAnnounceLocked table now).2 = (liveSlots table now).map fun i => (table i).view := by
  rw [liveSlots, ← List.filterMap_eq_map', List.filterMap_filter]
  apply List.filterMap_congr
  intro i _
  have live : (gwArpAgeOut table now i).used = ((table i).used && !(table i).expired now) := by
    rw [Bool.eq_iff_iff, gwArpAgeOut_used_iff, Bool.and_eq_true, Bool.not_eq_true']
  rw [live]
  rfl

/-- The pairs of live entries on different sides. -/
def livePairs (table : ArpTable) (now : UInt32) : List (Fin gwArpMax × Fin gwArpMax) :=
  acrossPairs (fun i => (table i).side) (liveSlots table now)

/-- What the inner loop sends over the snapshot of some slots. -/
theorem flatMap_round (table : ArpTable) (i : Fin gwArpMax) (slots : List (Fin gwArpMax)) :
    ((slots.map fun j => (table j).view).flatMap fun b =>
        if (table i).view.side = b.side then []
        else [announcement (table i).view.entry b.entry]) =
      ((slots.map fun j => (i, j)).filter fun pair =>
        (table pair.1).side ≠ (table pair.2).side).map
          fun pair => announcement (table pair.1) (table pair.2) := by
  induction slots with
  | nil => rfl
  | cons j slots ih =>
      rw [List.map_cons, List.flatMap_cons, ih, List.map_cons, List.filter_cons]
      by_cases same : (table i).side = (table j).side
      · simp only [GwArpEntry.view, same, ↓reduceIte, ne_eq, not_true_eq_false, decide_false,
          List.nil_append, Bool.false_eq_true]
      · simp only [GwArpEntry.view, same, ↓reduceIte, ne_eq, not_false_eq_true, decide_true,
          List.map_cons]
        rfl

/-- What the loops send over the snapshot of some slots. -/
theorem flatMap_announcement (table : ArpTable) (first second : List (Fin gwArpMax)) :
    ((first.map fun i => (table i).view).flatMap fun a =>
        (second.map fun i => (table i).view).flatMap fun b =>
          if a.side = b.side then [] else [announcement a.entry b.entry]) =
      ((first ×ˢ second).filter fun pair => (table pair.1).side ≠ (table pair.2).side).map
        fun pair => announcement (table pair.1) (table pair.2) := by
  induction first with
  | nil => rfl
  | cons i first ih =>
      rw [List.map_cons, List.flatMap_cons, ih, flatMap_round, List.product_cons,
        List.filter_append, List.map_append]

/-- The double loop over the snapshot of a table. -/
theorem transmissions_snapshot (table : ArpTable) (now : UInt32) {calls : GateCalls}
    (had : ∀ called ∈ calls, PacketHad called)
    (runs : Runs (forEach (gwArpAnnounceLocked table now).2 fun a =>
      forEach (gwArpAnnounceLocked table now).2 fun b => Datapath.gwArpTeach a b) calls ()) :
    transmissions calls =
      (livePairs table now).map fun pair => announcement (table pair.1) (table pair.2) := by
  rw [transmissions_loops _ had runs, gwArpAnnounceLocked_view, flatMap_announcement]
  rfl

/-- **What one sweep sends.** When the locked section of an announce round was
served from a table, the round sends one message for each pair of entries of that
table that were live and on different sides, to the host of the first about the
second, and nothing else. The expired entries are out of the table then. -/
theorem announce_exact {table : ArpTable} {calls : GateCalls}
    (runs : Runs Datapath.gwArpAnnounceOnce calls ())
    (swept : ∀ now (view : List ArpView), ⟨.announceLocked now, view⟩ ∈ calls →
      view = (gwArpAnnounceLocked table now).2)
    (had : ∀ called ∈ calls, PacketHad called) :
    ∃ (now : UInt32) (rest : GateCalls) (pairs : List (Fin gwArpMax × Fin gwArpMax)),
      calls = ⟨.nowMs, now⟩ :: ⟨.announceLocked now, (gwArpAnnounceLocked table now).2⟩ :: rest ∧
      transmissions calls = pairs.map (fun pair => announcement (table pair.1) (table pair.2)) ∧
      pairs.Nodup ∧
      (∀ a b, (a, b) ∈ pairs ↔
        ((table a).used = true ∧ (table a).expired now = false) ∧
          ((table b).used = true ∧ (table b).expired now = false) ∧
            (table a).side ≠ (table b).side) ∧
      pairs.length = 2 * countOn (fun i => (table i).side) (liveSlots table now) .ap *
        countOn (fun i => (table i).side) (liveSlots table now) .mesh ∧
      (∀ pair ∈ pairs, (announcement (table pair.1) (table pair.2)).teaching =
        some ⟨.announce, (table pair.1).side, (table pair.1).mac, (table pair.1).ip,
          (table pair.2).ip, (table pair.2).mac⟩) ∧
      ∀ i, (((gwArpAnnounceLocked table now).1 i).used = true ↔
          (table i).used = true ∧ (table i).expired now = false) ∧
        (((gwArpAnnounceLocked table now).1 i).used = true →
          (gwArpAnnounceLocked table now).1 i = table i) := by
  obtain ⟨now, _, rfl, locking⟩ := runs_perform_bind.mp runs
  obtain ⟨view, rest, rfl, sending⟩ := runs_perform_bind.mp locking
  obtain ⟨looping, logging, _, rfl, teaching, logged⟩ := Runs.of_bind sending
  cases swept now view (List.mem_cons_of_mem _ List.mem_cons_self)
  refine ⟨now, _, livePairs table now, rfl, ?_,
    nodup_acrossPairs _ ((List.nodup_finRange gwArpMax).filter _), fun a b => ?_,
    length_acrossPairs _ _, fun pair _ => teaching_announcement _ _,
    fun i => ⟨gwArpAgeOut_used_iff, gwArpAgeOut_of_used⟩⟩
  · have loops := transmissions_snapshot table now (fun called member =>
      had called (List.mem_cons_of_mem _ (List.mem_cons_of_mem _
        (List.mem_append_left _ member)))) teaching
    have quiet : transmissions logging = [] := by
      apply transmissions_of_only _ logged
      apply Only.ite
      · exact Only.perform rfl
      · trivial
    calc transmissions (_ :: _ :: (looping ++ logging))
        = transmissions (looping ++ logging) := rfl
      _ = transmissions looping ++ transmissions logging := List.filterMap_append
      _ = transmissions looping := by rw [quiet, List.append_nil]
      _ = _ := loops
  · exact (mem_acrossPairs _).trans (and_congr mem_liveSlots (and_congr mem_liveSlots Iff.rfl))

/-- A table with the AP client 2, the mesh host 3, and a mesh host that expired. -/
def twoHosts : ArpTable := fun i =>
  if i = 0 then ⟨0x0209090a, .station 2, .ap, true, 600000⟩
  else if i = 1 then ⟨0x6909090a, .station 3, .mesh, true, 590000⟩
  else if i = 2 then ⟨0x6a09090a, .station 4, .mesh, true, 100000⟩
  else ArpTable.empty i

/-- An announce round over that table, in which everything succeeds. -/
def twoHostsResponse : (call : GateCall) → GateResponse call
  | .nowMs => (600001 : UInt32)
  | .announceLocked now => (gwArpAnnounceLocked twoHosts now).2
  | .alloc _ => true
  | other => other.someResponse

/-- The two live hosts are taught about each other, and nothing else is sent. -/
theorem announce_exact_twoHosts :
    ∃ (calls : GateCalls) (now : UInt32) (pairs : List (Fin gwArpMax × Fin gwArpMax)),
      Runs Datapath.gwArpAnnounceOnce calls () ∧ transmissions calls =
        pairs.map (fun pair => announcement (twoHosts pair.1) (twoHosts pair.2)) ∧ pairs.Nodup ∧
      (∀ a b, (a, b) ∈ pairs ↔
        ((twoHosts a).used = true ∧ (twoHosts a).expired now = false) ∧
          ((twoHosts b).used = true ∧ (twoHosts b).expired now = false) ∧
            (twoHosts a).side ≠ (twoHosts b).side) ∧ pairs.length = 2 := by
  obtain ⟨calls, _, runs, answered⟩ := exists_runs twoHostsResponse Datapath.gwArpAnnounceOnce
  obtain ⟨now, rest, pairs, whole, sent, distinct, paired, size, _⟩ := announce_exact runs
    (fun now view swept => answered _ swept) (by
      rintro called member len allocated rfl
      exact answered _ member)
  have sampled : now = 600001 := by
    rw [whole] at answered
    exact answered _ List.mem_cons_self
  refine ⟨calls, now, pairs, runs, sent, distinct, paired, ?_⟩
  rw [size, sampled]
  decide

end Rimba.Gate
