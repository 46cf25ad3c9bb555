import Rimba.Gate.Disposition
import Rimba.Gate.Teaching

/-! # Which requests the gate answers

An RX callback learns from a frame and then looks its target up, in the table it
has just changed. Whatever the table and the clock, it answers exactly the ARP
requests whose target is live on the other side of the gate by then, as far as a
packet for the answer can be had (`Rimba.Gate.proxyArp_exact`). A host that
announces its own address is not answered, wherever it was before.
-/

namespace Rimba.Gate

open Foundation Foundation.Thread

/-- The slot is the first in use that holds the address. -/
def ArpTable.FirstHolds (table : ArpTable) (ip : UInt32) (slot : Fin gwArpMax) : Prop :=
  ((table slot).used = true ∧ (table slot).ip = ip) ∧
    ∀ i, (table i).used = true → (table i).ip = ip → slot ≤ i

/-- The mapping the table has for the address is this one, and not expired. -/
def LiveMapping (table : ArpTable) (now ip : UInt32) (mac : Mac) (side : GwSide) : Prop :=
  ∃ slot, table.FirstHolds ip slot ∧ (table slot).expired now = false ∧
    (table slot).mac = mac ∧ (table slot).side = side

theorem find?_firstHolds {table : ArpTable} {ip : UInt32} {slot : Fin gwArpMax} :
    ((List.finRange gwArpMax).find? fun i => (table i).used && (table i).ip = ip) = some slot ↔
      table.FirstHolds ip slot := by
  rw [List.find?_eq_some_iff_getElem, Bool.and_eq_true, decide_eq_true_eq]
  constructor
  · rintro ⟨holds, position, inRange, here, earlier⟩
    refine ⟨holds, fun i used same => ?_⟩
    by_contra before
    have first : i.val < position := by
      rw [← here, List.getElem_finRange] at before
      exact not_le.mp before
    have passed := earlier i.val first
    rw [List.getElem_finRange] at passed
    simp only [Fin.cast_mk, Fin.eta, used, same, decide_true, Bool.and_self, Bool.not_true,
      Bool.false_eq_true] at passed
  · rintro ⟨holds, least⟩
    have inRange : slot.val < (List.finRange gwArpMax).length := by
      rw [List.length_finRange]
      exact slot.isLt
    refine ⟨holds, slot.val, inRange, List.getElem_finRange .., fun j before => ?_⟩
    have earlier : (List.finRange gwArpMax)[j] < slot := by
      rw [List.getElem_finRange]
      exact before
    rw [Bool.not_eq_true', Bool.eq_false_iff, ne_eq, Bool.and_eq_true, decide_eq_true_eq]
    exact fun holder => absurd (least _ holder.1 holder.2) (not_le.mpr earlier)

/-- A lookup returns the live mapping of the address. -/
theorem gwArpLookupLocked_eq_some {table : ArpTable} {now ip : UInt32} {mac : Mac}
    {side : GwSide} :
    (gwArpLookupLocked table now ip).2 = some (mac, side) ↔ LiveMapping table now ip mac side := by
  unfold gwArpLookupLocked
  cases found : (List.finRange gwArpMax).find? fun i => (table i).used && (table i).ip = ip with
  | none =>
      simp only [reduceCtorEq, false_iff]
      rintro ⟨slot, first, _⟩
      rw [find?_firstHolds.mpr first] at found
      cases found
  | some slot =>
      have first := find?_firstHolds.mp found
      simp only
      constructor
      · intro live
        split at live
        · cases live
        · next young =>
            cases live
            exact ⟨slot, first, Bool.eq_false_iff.mpr young, rfl, rfl⟩
      · rintro ⟨other, firstOther, young, rfl, rfl⟩
        have same := Option.some.inj (found.symm.trans (find?_firstHolds.mpr firstOther))
        subst same
        simp only [young, Bool.false_eq_true, ↓reduceIte]

/-- In a well-formed table the mapping is that of any slot holding the address. -/
theorem ArpTable.WellFormed.liveMapping_iff {table : ArpTable} (valid : table.WellFormed)
    {now ip : UInt32} {mac : Mac} {side : GwSide} :
    LiveMapping table now ip mac side ↔
      ∃ i, table i = ⟨ip, mac, side, true, (table i).lastMs⟩ ∧ (table i).expired now = false := by
  constructor
  · rintro ⟨slot, ⟨⟨used, rfl⟩, _⟩, young, rfl, rfl⟩
    refine ⟨slot, ?_, young⟩
    rw [← used]
  · rintro ⟨i, entry, young⟩
    generalize (table i).lastMs = stamp at entry
    have used : (table i).used = true := by rw [entry]
    have held : (table i).ip = ip := by rw [entry]
    refine ⟨i, ⟨⟨used, held⟩, fun j usedJ heldJ => ?_⟩, young, by rw [entry], by rw [entry]⟩
    exact (valid.unique i j used usedJ (held.trans heldJ.symm)).le

/-- The scan of a learn stops at the first slot in use that holds the address. -/
theorem learnScan_slot_eq (table : ArpTable) (ip : UInt32) (indices : List (Fin gwArpMax))
    (scan : LearnScan) (fresh : scan.slot = none) :
    (learnScan table ip indices scan).slot =
      indices.find? fun i => (table i).used && (table i).ip = ip := by
  fun_induction learnScan table ip indices scan with
  | case1 scan => exact fresh
  | case2 scan j rest used held =>
      simp only [List.find?_cons, used, held, decide_true, Bool.and_self]
  | case3 scan j rest used other _ ih | case4 scan j rest used other _ ih =>
      rw [ih fresh]
      simp only [List.find?_cons, other, decide_false, Bool.and_false]
  | case5 scan j rest idle _ ih | case6 scan j rest idle _ ih =>
      rw [ih fresh]
      simp only [List.find?_cons, idle, Bool.false_and]

/-- A learn fills a slot that no slot holding the address comes before. -/
theorem gwArpLearnLocked_least (table : ArpTable) (now ip : UInt32) (mac : Mac) (side : GwSide) :
    ∃ slot, (gwArpLearnLocked table now ip mac side).1 =
        Function.update table slot ⟨ip, mac, side, true, now⟩ ∧
      ∀ i, (table i).used = true → (table i).ip = ip → slot ≤ i := by
  have scanned := learnScan_slot_eq table ip (List.finRange gwArpMax) ⟨none, none, none⟩ rfl
  cases found : (List.finRange gwArpMax).find? fun i => (table i).used && (table i).ip = ip with
  | none =>
      obtain ⟨slot, filled, _⟩ := gwArpLearnLocked_cases table now ip mac side
      refine ⟨slot, filled, fun i used held => ?_⟩
      have missed := List.find?_eq_none.mp found i (List.mem_finRange i)
      simp only [used, held, decide_true, Bool.and_self, not_true_eq_false] at missed
  | some slot =>
      obtain ⟨⟨used, held⟩, least⟩ := find?_firstHolds.mp found
      refine ⟨slot, ?_, least⟩
      simp only [gwArpLearnLocked, scanned, found, used, held]

/-- Behind a learn, the mapping of its address is the one learned, if any. -/
theorem liveMapping_of_learn {table : ArpTable} {now sampled ip : UInt32} {mac found : Mac}
    {side at_side : GwSide}
    (live : LiveMapping (gwArpLearnLocked table now ip mac side).1 sampled ip found at_side) :
    found = mac ∧ at_side = side := by
  obtain ⟨slot, filled, least⟩ := gwArpLearnLocked_least table now ip mac side
  obtain ⟨i, ⟨⟨used, held⟩, first⟩, _, rfl, rfl⟩ := live
  rw [filled] at used held first ⊢
  by_cases here : i = slot
  · subst here
    rw [Function.update_self]
    exact ⟨rfl, rfl⟩
  · rw [Function.update_of_ne here] at used held
    have before := first slot (by rw [Function.update_self]) (by rw [Function.update_self])
    exact absurd (le_antisymm before (least i used held)) here

/-- The frame is an ARP request: long enough, with the ethertype of ARP and the
operation of a request. -/
structure ArpRequest (eth : Bytes) : Prop where
  long : 42 ≤ eth.length
  ethertype : byteAt eth 12 = 0x08 ∧ byteAt eth 13 = 0x06
  operation : byteAt eth 20 = 0x00 ∧ byteAt eth 21 = 0x01

theorem isArpRequest_iff {eth : Bytes} : Datapath.isArpRequest eth = true ↔ ArpRequest eth := by
  simp only [Datapath.isArpRequest, Bool.and_eq_true, decide_eq_true_eq]
  constructor
  · rintro ⟨⟨⟨⟨long, first⟩, second⟩, third⟩, fourth⟩
    exact ⟨long, ⟨first, second⟩, ⟨third, fourth⟩⟩
  · rintro ⟨long, ⟨first, second⟩, ⟨third, fourth⟩⟩
    exact ⟨⟨⟨⟨long, first⟩, second⟩, third⟩, fourth⟩

/-- The answer of the gate to a request, with the hardware address of the
target. -/
def replyTo (side : GwSide) (eth : Bytes) (mac : Mac) : Teaching :=
  ⟨.proxyArp, side, macAt eth 22, ipAt eth 28, ipAt eth 38, mac⟩

/-- The answer of the gate to a request that a call sends. -/
def GateCall.proxyReply (call : GateCall) : Option Teaching :=
  call.teaching.filter fun teaching => teaching.sender = .proxyArp

/-- The answers to requests that some calls send. -/
def proxyReplies (calls : GateCalls) : List Teaching :=
  calls.filterMap fun called => called.command.proxyReply

/-- What the answer needs: over the AP vif, a packet. -/
def PacketFor (side : GwSide) (calls : GateCalls) : Prop :=
  side = .ap → packetAllocated calls = true

theorem proxyReplies_append (front back : GateCalls) :
    proxyReplies (front ++ back) = proxyReplies front ++ proxyReplies back :=
  List.filterMap_append

theorem packetAllocated_append (front back : GateCalls) :
    packetAllocated (front ++ back) = (packetAllocated front || packetAllocated back) :=
  List.any_append

/-- A thread that answers nothing. -/
theorem proxyReplies_of_only {Value : Type} {thread : GateThread Value} {calls : GateCalls}
    {value : Value} (only : thread.Only fun call => call.proxyReply = none)
    (runs : Runs thread calls value) : proxyReplies calls = [] := by
  apply List.filterMap_eq_nil_iff.mpr
  exact fun called member => runs.only only called member

theorem GateCall.proxyReply_of_teaching {call : GateCall} (none : call.teaching = none) :
    call.proxyReply = .none := by
  rw [GateCall.proxyReply, none]
  rfl

/-- An answer goes out when its packet can be had. -/
theorem proxyReplies_gwProxyReply {side : GwSide} {reqMac tmac : Mac} {spa tpa : UInt32}
    {calls : GateCalls} (runs : Runs (Datapath.gwProxyReply side reqMac spa tpa tmac) calls ()) :
    (PacketFor side calls → proxyReplies calls = [⟨.proxyArp, side, reqMac, spa, tpa, tmac⟩]) ∧
      (¬ PacketFor side calls → proxyReplies calls = []) := by
  have own : Sender.proxyArp ≠ .bridge := by decide
  cases side with
  | ap =>
      obtain ⟨allocated, rest, rfl, sending⟩ := runs_perform_bind.mp runs
      cases (allocated : Bool) with
      | false =>
          obtain ⟨rfl, _⟩ := runs_ret.mp sending
          exact ⟨fun had => absurd (had rfl) Bool.false_ne_true, fun _ => rfl⟩
      | true =>
          obtain ⟨sent, _, rfl, ended⟩ := runs_perform_bind.mp sending
          obtain ⟨rfl, _⟩ := runs_ret.mp ended
          refine ⟨fun _ => ?_, fun unheld => absurd (fun _ => rfl) unheld⟩
          simp only [proxyReplies, List.filterMap_cons, List.filterMap_nil, GateCall.proxyReply,
            teaching_gwArpBuildReply own]
          rfl
  | mesh =>
      obtain ⟨sent, _, rfl, ended⟩ := runs_perform_bind.mp runs
      obtain ⟨rfl, _⟩ := runs_ret.mp ended
      refine ⟨fun _ => ?_, fun unheld => absurd (fun onAp => by cases onAp) unheld⟩
      simp only [proxyReplies, List.filterMap_cons, List.filterMap_nil, GateCall.proxyReply,
        teaching_snapArpReply own]
      rfl

/-- What is answered, by the table of the lookup and its clock sample. -/
def Answered (table : ArpTable) (now : UInt32) (side : GwSide) (eth : Bytes)
    (calls : GateCalls) : Prop :=
  (∀ mac, LiveMapping table now (ipAt eth 38) mac side.opposite → PacketFor side calls →
      proxyReplies calls = [replyTo side eth mac]) ∧
    ((∀ mac, ¬ LiveMapping table now (ipAt eth 38) mac side.opposite) ∨ ¬ PacketFor side calls →
      proxyReplies calls = [])

/-- What `gw_proxy_arp` sends behind its lookup. -/
theorem proxyReplies_lookedUp {eth : Bytes} {side : GwSide} {found : Option (Mac × GwSide)}
    {calls : GateCalls} {answered : Bool}
    (runs : Runs (match found with
      | none => (pure false : GateThread Bool)
      | some (tmac, tside) =>
          if tside = side then pure false
          else do
            Datapath.gwProxyReply side (macAt eth (14 + 8)) (ipAt eth (14 + 14))
              (ipAt eth (14 + 24)) tmac
            perform GateCall.espLogI
            pure true) calls answered) :
    (∀ mac, found = some (mac, side.opposite) → answered = true ∧
        (PacketFor side calls → proxyReplies calls = [replyTo side eth mac])) ∧
      ((∀ mac, found ≠ some (mac, side.opposite)) ∨ ¬ PacketFor side calls →
        proxyReplies calls = []) := by
  rcases found with _ | ⟨tmac, tside⟩
  · obtain ⟨rfl, _⟩ := runs_ret.mp runs
    refine ⟨fun mac found => ?_, fun _ => rfl⟩
    cases found
  · simp only at runs
    by_cases same : tside = side
    · rw [if_pos same] at runs
      obtain ⟨rfl, _⟩ := runs_ret.mp runs
      refine ⟨fun mac found => ?_, fun _ => rfl⟩
      cases found
      exact absurd same (GwSide.ne_iff_opposite.mpr rfl)
    · rw [if_neg same] at runs
      obtain ⟨replying, back, _, rfl, reply, logging⟩ := runs.of_bind
      obtain ⟨logged, _, rfl, ended⟩ := runs_perform_bind.mp logging
      obtain ⟨rfl, rfl⟩ := runs_ret.mp ended
      obtain ⟨sent, unsent⟩ := proxyReplies_gwProxyReply reply
      have packet : PacketFor side (replying ++ [⟨.espLogI, logged⟩]) ↔
          PacketFor side replying := by
        simp only [PacketFor, packetAllocated_append, Bool.or_eq_true]
        exact forall_congr' fun _ => or_iff_left Bool.false_ne_true
      have silent : proxyReplies [⟨.espLogI, logged⟩] = [] := rfl
      rw [packet, proxyReplies_append, silent, List.append_nil]
      constructor
      · intro mac found
        cases found
        exact ⟨rfl, sent⟩
      · rintro (other | unheld)
        · exact absurd rfl (GwSide.ne_iff_opposite.mp same ▸ other tmac)
        · exact unsent unheld

/-- A request is answered by the live mapping of its target on the other side. -/
theorem answered_gwProxyArp {state final : GateState} {eth : Bytes} {side : GwSide}
    {calls : GateCalls} {answered : Bool} (request : ArpRequest eth)
    (alone : Alone gateServe state (Datapath.gwProxyArp eth side) calls final answered) :
    ∃ now rest, calls = ⟨.nowMs, now⟩ :: rest ∧ Answered state.table now side eth calls ∧
      ∀ mac, LiveMapping state.table now (ipAt eth 38) mac side.opposite → answered = true := by
  rw [Datapath.gwProxyArp, if_pos (isArpRequest_iff.mpr request)] at alone
  obtain ⟨outside, _, rfl, looking⟩ := alone_perform_bind.mp alone
  obtain ⟨choice, rest, rfl, answering⟩ := alone_perform_bind.mp looking
  refine ⟨outside.now, _, rfl, ?_⟩
  obtain ⟨sent, unsent⟩ := proxyReplies_lookedUp answering.runs
  have lookedUp (mac : Mac) : (gwArpLookupLocked state.table outside.now (ipAt eth 38)).2 =
      some (mac, side.opposite) ↔
        LiveMapping state.table outside.now (ipAt eth 38) mac side.opposite :=
    gwArpLookupLocked_eq_some
  refine ⟨⟨?_, ?_⟩, ?_⟩
  · intro mac live had
    exact (sent mac ((lookedUp mac).mpr live)).2 had
  · intro none
    apply unsent
    rcases none with dead | unheld
    · exact .inl fun mac found => dead mac ((lookedUp mac).mp found)
    · exact .inr unheld
  · exact fun mac live => (sent mac ((lookedUp mac).mpr live)).1

/-- The RX callback of a side, for a frame. -/
def rxCallback (macs : GateMacs) (side : GwSide) (eth : Bytes) : GateThread Unit :=
  match side with
  | .ap => Datapath.gwApRxCb macs (some eth)
  | .mesh => Datapath.gwMeshRxCb (some eth)

/-- The start of the RX callback of a side. -/
def rxAnswered (side : GwSide) (eth : Bytes) : GateThread Bool :=
  match side with
  | .ap => Datapath.apAnswered (some eth)
  | .mesh => Datapath.meshAnswered (Datapath.meshCopied (some eth))

/-- The frames an RX callback of a side can take up. -/
def Fits (side : GwSide) (eth : Bytes) : Prop := side = .mesh → eth.length ≤ 14 + 1514

theorem gwRxDeliver_silent (mmpkt : Mmpkt) (side : GwSide) :
    (Datapath.gwRxDeliver mmpkt side).Only fun call => call.proxyReply = none :=
  (gwRxDeliver_only mmpkt side).mono fun call delivers =>
    GateCall.proxyReply_of_teaching (call.teaching_of_delivers delivers)

theorem gwArpSnoop_silent (eth : Bytes) (side : GwSide) :
    (Datapath.gwArpSnoop eth side).Only fun call => call.proxyReply = none :=
  (gwArpSnoop_only eth side).mono fun call learns =>
    GateCall.proxyReply_of_teaching (call.teaching_of_learns learns)

theorem meshToAp_silent (frame : Bytes) :
    (Datapath.meshToAp frame).Only fun call => call.proxyReply = none :=
  Only.call rfl fun _ => Only.ite
    (Only.call rfl fun _ => Only.ite (Only.perform rfl) trivial) trivial

/-- A packet that was answered is released, and nothing is allocated. -/
theorem packetAllocated_released {calls : GateCalls}
    (runs : Runs (perform GateCall.mmpktRelease) calls ()) : packetAllocated calls = false := by
  obtain ⟨_, _, rfl, ended⟩ := runs_perform_bind.mp runs
  obtain ⟨rfl, _⟩ := runs_ret.mp ended
  rfl

/-- Behind its start, an RX callback answers nothing; and it asks for no packet when
the frame was answered. -/
theorem rxCallback_split {macs : GateMacs} {side : GwSide} {eth : Bytes}
    {state final : GateState} {calls : GateCalls}
    (alone : Alone gateServe state (rxCallback macs side eth) calls final ()) :
    ∃ front back middle answered, calls = front ++ back ∧
      Alone gateServe state (rxAnswered side eth) front middle answered ∧
        proxyReplies back = [] ∧ (answered = true → packetAllocated back = false) := by
  cases side with
  | ap =>
      rw [rxCallback, Datapath.gwApRxCb] at alone
      obtain ⟨front, back, middle, answered, rfl, asking, settling⟩ := Alone.of_bind alone
      refine ⟨front, back, middle, answered, rfl, asking, ?_, ?_⟩
      · apply proxyReplies_of_only _ settling.runs
        apply Only.ite
        · exact Only.perform rfl
        · exact apSettled_only (fun _ _ _ _ => rfl) (fun _ _ _ => rfl) rfl fun call delivers =>
            GateCall.proxyReply_of_teaching (call.teaching_of_delivers delivers)
      · rintro rfl
        exact packetAllocated_released settling.runs
  | mesh =>
      obtain ⟨front, back, middle, answered, rfl, asking, settling⟩ := Alone.of_bind alone
      refine ⟨front, back, middle, answered, rfl, asking, ?_, ?_⟩
      · apply proxyReplies_of_only _ settling.runs
        apply Only.ite
        · exact Only.perform rfl
        · apply Only.bind
          · exact Only.ite (Only.call rfl fun _ => trivial) trivial
          · intro bridged
            apply Only.ite
            · exact Only.bind (meshToAp_silent _) fun _ => gwRxDeliver_silent _ _
            · exact gwRxDeliver_silent _ _
      · rintro rfl
        exact packetAllocated_released settling.runs

/-- Of a frame it takes up, an RX callback first learns and then answers. -/
theorem rxAnswered_eq {side : GwSide} {eth : Bytes} (long : 14 ≤ eth.length)
    (fits : Fits side eth) :
    rxAnswered side eth = (do
      Datapath.gwArpSnoop eth side
      Datapath.gwProxyArp eth side) := by
  cases side with
  | ap => exact if_pos long
  | mesh =>
      have copied : Datapath.meshCopied (some eth) = eth := if_pos ⟨long, fits rfl⟩
      rw [rxAnswered, copied]
      exact if_pos (by omega)

/-- A frame that is no request, or that the mesh buffer cannot hold, is not
answered. -/
theorem proxyReplies_of_unanswerable {side : GwSide} {eth : Bytes} {calls : GateCalls}
    {answered : Bool} (unanswerable : ¬ (ArpRequest eth ∧ Fits side eth))
    (runs : Runs (rxAnswered side eth) calls answered) : proxyReplies calls = [] := by
  by_cases taken : 14 ≤ eth.length ∧ Fits side eth
  · rw [rxAnswered_eq taken.1 taken.2] at runs
    obtain ⟨front, back, _, rfl, snooping, answering⟩ := runs.of_bind
    have plain : ¬ Datapath.isArpRequest eth = true :=
      fun request => unanswerable ⟨isArpRequest_iff.mp request, taken.2⟩
    rw [Datapath.gwProxyArp, if_neg plain] at answering
    obtain ⟨rfl, _⟩ := runs_ret.mp answering
    rw [List.append_nil]
    exact proxyReplies_of_only (gwArpSnoop_silent eth side) snooping
  · cases side with
    | ap =>
        have short : ¬ 14 ≤ eth.length := fun long => taken ⟨long, fun mesh => by cases mesh⟩
        rw [rxAnswered, Datapath.apAnswered, if_neg short] at runs
        obtain ⟨rfl, _⟩ := runs_ret.mp runs
        rfl
    | mesh =>
        have copied : Datapath.meshCopied (some eth) = [] :=
          if_neg fun both => taken ⟨both.1, fun _ => both.2⟩
        rw [rxAnswered, copied] at runs
        obtain ⟨rfl, _⟩ := runs_ret.mp runs
        rfl

theorem packetAllocated_of_learns {calls : GateCalls}
    (learns : ∀ called ∈ calls, called.command.learns = true) : packetAllocated calls = false := by
  have looks (called : Called GateResponse) (member : called ∈ calls) :=
    GateCall.looks_of_learns _ (learns called member)
  have none := (@taken_of_looks calls [] looks).2.2
  rwa [List.append_nil] at none

/-- The table behind a learn. -/
theorem table_gwArpLearn {state middle : GateState} {ip : UInt32} {mac : Mac} {side : GwSide}
    {calls : GateCalls}
    (learning : Alone gateServe state (Datapath.gwArpLearn ip mac side) calls middle ()) :
    ∃ now, middle.table = gwArpLearn state.table now ip mac side := by
  unfold Datapath.gwArpLearn at learning
  split at learning
  · next guarded =>
      obtain ⟨outside, _, rfl, locking⟩ := alone_perform_bind.mp learning
      obtain ⟨choice, rest, rfl, waking⟩ := alone_perform_bind.mp locking
      refine ⟨outside.now, ?_⟩
      rw [gwArpLearn, if_pos guarded]
      apply @Alone.unchanged _ _ _ _ _ _ _ GateState.table _ _ _ _ _ waking
      apply Only.ite
      · apply Only.call
        · exact fun _ _ => rfl
        · exact fun _ => Only.ite (Only.perform fun _ _ => rfl) trivial
      · trivial
  · next unguarded =>
      obtain ⟨_, rfl, _⟩ := alone_ret.mp learning
      exact ⟨0, by rw [gwArpLearn, if_neg unguarded]⟩

/-- The table behind the snoop of a request. -/
theorem table_gwArpSnoop {state middle : GateState} {eth : Bytes} {side : GwSide}
    {calls : GateCalls} (request : ArpRequest eth)
    (snooping : Alone gateServe state (Datapath.gwArpSnoop eth side) calls middle ()) :
    ∃ now, middle.table = gwArpLearn state.table now (ipAt eth 28) (macAt eth 22) side := by
  obtain ⟨long, ethertype, _⟩ := request
  have whole : ¬ eth.length < 14 := by omega
  rw [Datapath.gwArpSnoop, if_neg whole, if_pos ⟨ethertype.1, ethertype.2, long⟩] at snooping
  exact table_gwArpLearn snooping

theorem ArpTable.WellFormed.learnGuarded {table : ArpTable} (valid : table.WellFormed)
    (now ip : UInt32) (mac : Mac) (side : GwSide) :
    (gwArpLearn table now ip mac side).WellFormed := by
  unfold gwArpLearn
  split
  · next guarded => exact valid.learn now side guarded
  · exact valid

/-- A host that announces its own address has no mapping on the other side behind
that. -/
theorem not_liveMapping_gratuitous {table : ArpTable} {now sampled ip : UInt32} {mac found : Mac}
    {side : GwSide} (nonzero : ip ≠ 0) (unicast : mac.group = false) :
    ¬ LiveMapping (gwArpLearn table now ip mac side) sampled ip found side.opposite := by
  have guarded : learnable ip mac = true := by
    simp only [learnable, nonzero, unicast, ne_eq, not_false_eq_true, decide_true, Bool.not_false,
      Bool.and_self]
  rw [gwArpLearn, if_pos guarded]
  intro live
  cases side <;> cases (liveMapping_of_learn live).2

/-- A request that is taken up is answered by the table the snoop leaves, whatever
quiet calls come behind. -/
theorem answered_rxAnswered {side : GwSide} {eth : Bytes} {state final : GateState}
    {answering settling : GateCalls} {answered : Bool} (request : ArpRequest eth)
    (fits : Fits side eth)
    (asking : Alone gateServe state (rxAnswered side eth) answering final answered)
    (silent : proxyReplies settling = [])
    (released : answered = true → packetAllocated settling = false) :
    ∃ front middle now back, answering = front ++ ⟨.nowMs, now⟩ :: back ∧
      Alone gateServe state (Datapath.gwArpSnoop eth side) front middle () ∧
        Answered middle.table now side eth (answering ++ settling) := by
  have long := request.long
  rw [rxAnswered_eq (by omega) fits] at asking
  obtain ⟨front, back, middle, _, rfl, snooping, looking⟩ := asking.of_bind
  obtain ⟨now, rest, rfl, ⟨sent, unsent⟩, lives⟩ := answered_gwProxyArp request looking
  have idle := packetAllocated_of_learns (snooping.runs.only (gwArpSnoop_only eth side))
  have quiet := proxyReplies_of_only (gwArpSnoop_silent eth side) snooping.runs
  refine ⟨front, middle, now, rest, rfl, snooping, ?_, ?_⟩
  · intro mac live had
    rw [proxyReplies_append, proxyReplies_append, quiet, silent, List.nil_append, List.append_nil]
    apply sent mac live
    intro onAp
    have allocated := had onAp
    rwa [packetAllocated_append, packetAllocated_append, idle, released (lives mac live),
      Bool.false_or, Bool.or_false] at allocated
  · intro none
    rw [proxyReplies_append, proxyReplies_append, quiet, silent, List.nil_append, List.append_nil]
    apply unsent
    rcases none with dead | unheld
    · exact .inl dead
    · refine .inr fun had => unheld fun onAp => ?_
      rw [packetAllocated_append, packetAllocated_append, had onAp, Bool.or_true, Bool.true_or]

/-- **Which requests are answered.** An RX callback that is served with no other
table operation in between answers nothing but ARP requests it can take up. Such a
request is answered by the live mapping its target has, when it is looked up, on the
other side of the gate, and to the sender, when a packet for the answer can be had;
and not at all without one. A request of a host for its own address is not
answered. -/
theorem proxyArp_exact {macs : GateMacs} {side : GwSide} {eth : Bytes} {state final : GateState}
    {calls : GateCalls} (alone : Alone gateServe state (rxCallback macs side eth) calls final ()) :
    (¬ (ArpRequest eth ∧ Fits side eth) → proxyReplies calls = []) ∧
    (ArpRequest eth → Fits side eth →
      ∃ front middle now back, calls = front ++ ⟨.nowMs, now⟩ :: back ∧
        Alone gateServe state (Datapath.gwArpSnoop eth side) front middle () ∧
          Answered middle.table now side eth calls ∧
            (state.table.WellFormed → ∀ mac,
              LiveMapping middle.table now (ipAt eth 38) mac side.opposite ↔
                ∃ i, middle.table i =
                    ⟨ipAt eth 38, mac, side.opposite, true, (middle.table i).lastMs⟩ ∧
                  (middle.table i).expired now = false)) ∧
    (ArpRequest eth → ipAt eth 28 = ipAt eth 38 → ipAt eth 28 ≠ 0 → (macAt eth 22).group = false →
      proxyReplies calls = []) := by
  obtain ⟨answering, settling, _, answered, rfl, asking, silent, released⟩ :=
    rxCallback_split alone
  refine ⟨fun unanswerable => ?_, ?_, ?_⟩
  · rw [proxyReplies_append, silent, List.append_nil]
    exact proxyReplies_of_unanswerable unanswerable asking.runs
  · intro request fits
    obtain ⟨front, middle, now, back, rfl, snooping, exactly⟩ :=
      answered_rxAnswered request fits asking silent released
    refine ⟨front, middle, now, back ++ settling, ?_, snooping, exactly, fun valid mac => ?_⟩
    · rw [List.append_assoc, List.cons_append]
    · obtain ⟨sampled, learned⟩ := table_gwArpSnoop request snooping
      have kept := valid.learnGuarded sampled (ipAt eth 28) (macAt eth 22) side
      rw [← learned] at kept
      exact kept.liveMapping_iff
  · intro request gratuitous nonzero unicast
    by_cases fits : Fits side eth
    · obtain ⟨front, middle, now, back, rfl, snooping, _, unanswered⟩ :=
        answered_rxAnswered request fits asking silent released
      obtain ⟨sampled, learned⟩ := table_gwArpSnoop request snooping
      apply unanswered
      refine .inl fun mac => ?_
      rw [learned, ← gratuitous]
      exact not_liveMapping_gratuitous nonzero unicast
    · rw [proxyReplies_append, silent, List.append_nil]
      exact proxyReplies_of_unanswerable (fun both => fits both.2) asking.runs

/-- A gate that knows the mesh host 10.9.9.105. -/
def knowsMeshHost : GateState :=
  { GateState.boot with
    table := (gwArpLearnLocked .empty 0 0x6909090a (.station 5) .mesh).1 }

/-- The bytes of the request. -/
def clientRequestFrame : Bytes := clientRequest.getD []

/-- The calls by which the client's address is learned. -/
def clientLearned : GateCalls :=
  [⟨.nowMs, (1000 : UInt32)⟩, ⟨.learnLocked 1000 0x0209090a (.station 1) .ap, true⟩,
    ⟨.announceTask, false⟩]

/-- The calls of the callback when no packet can be had for the answer. -/
def clientUnanswered : GateCalls :=
  clientLearned ++ ⟨.nowMs, (1000 : UInt32)⟩ ::
    [⟨.lookupLocked 1000 0x6909090a, some (.station 5, .mesh)⟩, ⟨.alloc 42, false⟩, ⟨.espLogI, ()⟩,
      ⟨.mmpktRelease, ()⟩]

theorem clientRequestFrame_request : ArpRequest clientRequestFrame :=
  ⟨by decide, by decide, by decide⟩

/-- The gate behind the snoop of the request. -/
def knowsClient : GateState :=
  { knowsMeshHost with
    table := (gwArpLearnLocked knowsMeshHost.table 1000 0x0209090a (.station 1) .ap).1 }

theorem knowsClient_live :
    LiveMapping knowsClient.table 1000 (ipAt clientRequestFrame 38) (.station 5) .mesh := by
  apply gwArpLookupLocked_eq_some.mp
  decide

theorem clientLearned_run :
    Alone gateServe knowsMeshHost (Datapath.gwArpSnoop clientRequestFrame .ap) clientLearned
      knowsClient () := by
  have ip : ipAt clientRequestFrame (14 + 14) = 0x0209090a := by decide
  have mac : macAt clientRequestFrame (14 + 8) = .station 1 := by decide
  rw [Datapath.gwArpSnoop, if_neg (by decide), if_pos (by decide), ip, mac, Datapath.gwArpLearn,
    if_pos (by decide)]
  apply alone_perform_bind.mpr
  refine ⟨⟨1000, false⟩, _, rfl, ?_⟩
  apply alone_perform_bind.mpr
  refine ⟨⟨1000, false⟩, _, rfl, ?_⟩
  apply alone_perform_bind.mpr
  refine ⟨⟨1000, false⟩, _, rfl, ?_⟩
  apply Alone.ret

theorem clientUnanswered_run :
    Alone gateServe knowsMeshHost (rxCallback exampleGate .ap clientRequestFrame) clientUnanswered
      knowsClient () := by
  have tpa : ipAt clientRequestFrame (14 + 24) = 0x6909090a := by decide
  have proxied : Alone gateServe knowsClient (Datapath.gwProxyArp clientRequestFrame .ap)
      [⟨.nowMs, (1000 : UInt32)⟩, ⟨.lookupLocked 1000 0x6909090a, some (.station 5, .mesh)⟩,
        ⟨.alloc 42, false⟩, ⟨.espLogI, ()⟩] knowsClient true := by
    rw [Datapath.gwProxyArp, if_pos (by decide), tpa]
    apply alone_perform_bind.mpr
    refine ⟨⟨1000, false⟩, _, rfl, ?_⟩
    apply alone_perform_bind.mpr
    refine ⟨⟨1000, false⟩, _, rfl, ?_⟩
    apply alone_perform_bind.mpr
    refine ⟨⟨1000, false⟩, _, rfl, ?_⟩
    apply alone_perform_bind.mpr
    refine ⟨⟨1000, false⟩, _, rfl, ?_⟩
    apply Alone.ret
  have answered : Alone gateServe knowsMeshHost (Datapath.apAnswered (some clientRequestFrame))
      (clientLearned ++ [⟨.nowMs, (1000 : UInt32)⟩,
        ⟨.lookupLocked 1000 0x6909090a, some (.station 5, .mesh)⟩, ⟨.alloc 42, false⟩,
        ⟨.espLogI, ()⟩]) knowsClient true := by
    rw [Datapath.apAnswered, if_pos (by decide)]
    exact Alone.bind clientLearned_run proxied
  have released : Alone gateServe knowsClient (perform GateCall.mmpktRelease)
      [⟨.mmpktRelease, ()⟩] knowsClient () := .call ⟨1000, false⟩ (.ret ..)
  exact answered.bind released

/-- The request of an AP client for a live mesh host goes without an answer when no
packet can be had for it. -/
theorem packetless_unanswered :
    ¬ ∀ (macs : GateMacs) (side : GwSide) (eth : Bytes) (state final middle : GateState)
      (front back : GateCalls) (now : UInt32),
      Alone gateServe state (rxCallback macs side eth) (front ++ ⟨.nowMs, now⟩ :: back) final () →
        Alone gateServe state (Datapath.gwArpSnoop eth side) front middle () → ArpRequest eth →
          Fits side eth → (∃ mac, LiveMapping middle.table now (ipAt eth 38) mac side.opposite) →
            proxyReplies (front ++ ⟨.nowMs, now⟩ :: back) ≠ [] := by
  intro always
  have answered := always exampleGate .ap clientRequestFrame _ _ _ _ _ 1000 clientUnanswered_run
    clientLearned_run clientRequestFrame_request (fun mesh => by cases mesh)
    ⟨.station 5, knowsClient_live⟩
  exact answered rfl

/-- The same run is one the general result speaks of. -/
theorem proxyArp_exact_packetless :
    ∃ front middle now back, clientUnanswered = front ++ ⟨.nowMs, now⟩ :: back ∧
      Alone gateServe knowsMeshHost (Datapath.gwArpSnoop clientRequestFrame .ap) front middle () ∧
        Answered middle.table now .ap clientRequestFrame clientUnanswered := by
  obtain ⟨front, middle, now, back, split, snooping, exactly, _⟩ :=
    (proxyArp_exact clientUnanswered_run).2.1 clientRequestFrame_request
      (fun mesh => by cases mesh)
  exact ⟨front, middle, now, back, split, snooping, exactly⟩

end Rimba.Gate
