import Rimba.Gate.DatapathCalls

/-! # The two legs of the L2 bridge

`gw_ap_rx_cb` strips the Ethernet header of a client's frame and hands the mesh
the two addresses and a SNAP payload; `gate_ae_rx_cb` of the gate at the other
end builds an Ethernet frame from the three. The second undoes the first for
every frame the first accepts, and a frame too long for its buffer is not
accepted at all (`Rimba.Gate.bridge_roundTrip`). When no packet can be had for
the frame, it is dropped (`Rimba.Gate.unallocated_dropped`).
-/

namespace Rimba.Gate

open Foundation Foundation.Thread

/-- The frames put on the AP vif. -/
def apFrames (calls : GateCalls) : List Bytes :=
  calls.filterMap fun called =>
    match called.command with
    | .txPkt _ frame => some frame
    | _ => none

/-- The endpoints and payloads handed to the mesh for one destination. -/
def unicastProxied (calls : GateCalls) : List (Mac × Mac × Bytes) :=
  calls.filterMap fun called =>
    match called.command with
    | .meshTxProxied _ eaddr1 eaddr2 payload => some (eaddr1, eaddr2, payload)
    | _ => none

/-- The sources and payloads handed to the mesh for everyone. -/
def groupProxied (calls : GateCalls) : List (Mac × Bytes) :=
  calls.filterMap fun called =>
    match called.command with
    | .meshTxGroupProxied eaddr2 payload => some (eaddr2, payload)
    | _ => none

/-- A packet could be had for a frame to the AP vif. -/
def packetHad (calls : GateCalls) : Bool :=
  calls.any fun called =>
    match called.command, called.response with
    | .alloc _, (allocated : Bool) => allocated
    | _, _ => false

/-- The calls were answered by a gate with these AP clients. -/
def AnsweredBy (clients : ApClients) (calls : GateCalls) : Prop :=
  ∀ mac (client : Bool), ⟨.isApClient mac, client⟩ ∈ calls → client = gateIsApClient clients mac

/-- The calls by which nothing is handed to the mesh. -/
def GateCall.staysOffMesh : GateCall → Bool
  | .meshTxProxied .. | .meshTxGroupProxied .. => false
  | _ => true

theorem gwProxyArp_ap_only (eth : Bytes) :
    (Datapath.gwProxyArp eth .ap).Only fun call => call.staysOffMesh = true := by
  apply Only.ite
  · refine Only.call rfl fun now => Only.call rfl fun found => ?_
    rcases found with _ | ⟨tmac, _ | _⟩
    · trivial
    · trivial
    · refine Only.bind (Only.call rfl fun allocated => ?_) fun _ => Only.call rfl fun _ => trivial
      apply Only.ite
      · exact Only.call rfl fun _ => trivial
      · trivial
  · trivial

/-- What a call hands to the mesh is what the classification of the packet says. -/
def GateCall.Bridges (macs : GateMacs) (mmpkt : Mmpkt) : GateCall → Prop
  | .meshTxProxied _ eaddr1 eaddr2 payload =>
      Datapath.apBridging macs mmpkt = .unicast eaddr1 eaddr2 payload
  | .meshTxGroupProxied eaddr2 payload => Datapath.apBridging macs mmpkt = .group eaddr2 payload
  | _ => True

theorem GateCall.bridges_of_staysOffMesh (macs : GateMacs) (mmpkt : Mmpkt) (call : GateCall)
    (off : call.staysOffMesh = true) : call.Bridges macs mmpkt := by
  cases call <;> trivial

theorem GateCall.bridges_of_delivers (macs : GateMacs) (mmpkt : Mmpkt) (call : GateCall)
    (delivers : call.delivers = true) : call.Bridges macs mmpkt := by
  cases call <;> trivial

theorem apAnswered_only (mmpkt : Mmpkt) :
    (Datapath.apAnswered mmpkt).Only fun call => call.staysOffMesh = true := by
  cases mmpkt with
  | none => trivial
  | some eth =>
      apply Only.ite
      · apply Only.bind _ fun _ => gwProxyArp_ap_only eth
        apply (gwArpSnoop_only eth .ap).mono
        intro call learns
        cases call <;> first | rfl | cases learns
      · trivial

theorem gwApRxCb_bridges (macs : GateMacs) (mmpkt : Mmpkt) :
    (Datapath.gwApRxCb macs mmpkt).Only (GateCall.Bridges macs mmpkt) := by
  have off := GateCall.bridges_of_staysOffMesh macs mmpkt
  rw [Datapath.gwApRxCb]
  refine Only.bind ((apAnswered_only mmpkt).mono off) fun answered => ?_
  apply Only.ite
  · exact Only.perform trivial
  · exact apSettled_only (fun _ _ _ classified => classified) (fun _ _ classified => classified)
      trivial (GateCall.bridges_of_delivers macs mmpkt)

/-- What is handed to the mesh for one destination is the classified frame. -/
theorem mem_unicastProxied {macs : GateMacs} {mmpkt : Mmpkt} {calls : GateCalls} {dst src : Mac}
    {payload : Bytes} (runs : Runs (Datapath.gwApRxCb macs mmpkt) calls ())
    (member : (dst, src, payload) ∈ unicastProxied calls) :
    Datapath.apBridging macs mmpkt = .unicast dst src payload := by
  obtain ⟨⟨command, response⟩, called, proxied⟩ := List.mem_filterMap.mp member
  have bridges := runs.only (gwApRxCb_bridges macs mmpkt) _ called
  cases command <;> cases proxied
  exact bridges

/-- What is handed to the mesh for everyone is the classified frame. -/
theorem mem_groupProxied {macs : GateMacs} {mmpkt : Mmpkt} {calls : GateCalls} {src : Mac}
    {payload : Bytes} (runs : Runs (Datapath.gwApRxCb macs mmpkt) calls ())
    (member : (src, payload) ∈ groupProxied calls) :
    Datapath.apBridging macs mmpkt = .group src payload := by
  obtain ⟨⟨command, response⟩, called, proxied⟩ := List.mem_filterMap.mp member
  have bridges := runs.only (gwApRxCb_bridges macs mmpkt) _ called
  cases command <;> cases proxied
  exact bridges

/-- **What is bridged.** A frame with a whole header that fits the buffer, under
its own addresses and with its whole payload. -/
theorem apBridging_cases (macs : GateMacs) (mmpkt : Mmpkt) :
    Datapath.apBridging macs mmpkt = .deliver ∨
    ∃ eth, mmpkt = some eth ∧ 14 ≤ eth.length ∧ eth.length ≤ 14 + 1514 ∧
      (Datapath.apBridging macs mmpkt = .group (macAt eth 6) (Datapath.snapPayload eth) ∨
        Datapath.apBridging macs mmpkt =
          .unicast (macAt eth 0) (macAt eth 6) (Datapath.snapPayload eth)) := by
  rcases mmpkt with _ | eth
  · exact .inl rfl
  · by_cases header : 14 ≤ eth.length
    · by_cases fits : eth.length - 14 ≤ Datapath.ap2MeshSize - 8
      · have short : eth.length ≤ 14 + 1514 := by
          rw [Datapath.ap2MeshSize] at fits
          omega
        simp only [Datapath.apBridging, header, fits, ↓reduceIte]
        split
        · exact .inr ⟨eth, rfl, header, short, .inl rfl⟩
        · split
          · exact .inl rfl
          · exact .inr ⟨eth, rfl, header, short, .inr rfl⟩
      · exact .inl (by simp only [Datapath.apBridging, header, fits, ↓reduceIte])
    · exact .inl (by simp only [Datapath.apBridging, header, ↓reduceIte])

/-- The ethertype and the payload of a frame. -/
theorem ethertype_append_drop {eth : Bytes} (header : 14 ≤ eth.length) :
    [byteAt eth 12, byteAt eth 13] ++ eth.drop 14 = eth.drop 12 := by
  have first : 12 < eth.length := by omega
  have second : 13 < eth.length := by omega
  rw [List.drop_eq_getElem_cons first, List.drop_eq_getElem_cons second]
  simp only [byteAt, List.getD_eq_getElem?_getD, List.getElem?_eq_getElem first,
    List.getElem?_eq_getElem second, Option.getD_some, List.cons_append, List.nil_append]

/-- The frame rebuilt from the payload of a frame is that frame. -/
theorem ethernetFrame_snapPayload {eth : Bytes} (header : 14 ≤ eth.length) :
    Datapath.ethernetFrame (macAt eth 0) (macAt eth 6) (Datapath.snapPayload eth) = eth := by
  calc Datapath.ethernetFrame (macAt eth 0) (macAt eth 6) (Datapath.snapPayload eth)
      = (macAt eth 0).toList ++ ((macAt eth 6).toList ++
          ([byteAt eth 12, byteAt eth 13] ++ eth.drop 14)) := rfl
    _ = eth.take 6 ++ ((eth.drop 6).take 6 ++ (eth.drop 6).drop 6) := by
        rw [toList_macAt (by omega), toList_macAt (by omega), ethertype_append_drop header,
          List.drop_drop, List.drop_zero]
    _ = eth := by rw [List.take_append_drop, List.take_append_drop]

theorem snapFits_snapPayload {eth : Bytes} (short : eth.length ≤ 14 + 1514) :
    Datapath.snapFits (Datapath.snapPayload eth) = true := by
  have size : (Datapath.snapPayload eth).length = 8 + (eth.length - 14) := by
    rw [Datapath.snapPayload, List.length_append, List.length_drop]
    rfl
  have fits : 8 + (eth.length - 14) - 8 ≤ Datapath.ae2ApSize - 14 := by
    rw [Datapath.ae2ApSize]
    omega
  have whole : 8 ≤ 8 + (eth.length - 14) := Nat.le_add_right ..
  simp only [Datapath.snapFits, size, fits, whole, decide_true, Bool.true_and, Bool.and_true]
  rfl

/-- A frame is put on the AP vif when a packet can be had for it. -/
theorem apFrames_meshToAp {frame : Bytes} {calls : GateCalls}
    (runs : Runs (Datapath.meshToAp frame) calls ()) :
    apFrames calls = if packetHad calls then [frame] else [] := by
  obtain ⟨allocated, rest, rfl, sending⟩ := runs_perform_bind.mp runs
  cases (allocated : Bool) with
  | false =>
      obtain ⟨rfl, _⟩ := runs_ret.mp sending
      rfl
  | true =>
      obtain ⟨sent, rest, rfl, logging⟩ := runs_perform_bind.mp sending
      cases (sent : Bool) with
      | false =>
          obtain ⟨rfl, _⟩ := runs_ret.mp logging
          rfl
      | true =>
          obtain ⟨_, rest, rfl, ended⟩ := runs_perform_bind.mp logging
          obtain ⟨rfl, _⟩ := runs_ret.mp ended
          rfl

/-- A snoop puts nothing on the AP vif and asks for no packet. -/
theorem apFrames_of_learns {calls : GateCalls}
    (learns : ∀ called ∈ calls, called.command.learns = true) :
    apFrames calls = [] ∧ packetHad calls = false := by
  constructor
  · apply List.filterMap_eq_nil_iff.mpr
    intro called member
    have here := learns called member
    cases command : called.command <;> first | rfl | (rw [command] at here; cases here)
  · apply List.any_eq_false.mpr
    rintro ⟨command, response⟩ member
    have here := learns _ member
    cases command <;> first | exact Bool.false_ne_true | cases here

/-- What a gate with the destination among its AP clients puts on the AP vif. -/
theorem apFrames_gateAeRxCb {eaddr1 eaddr2 : Mac} {payload : Bytes} {calls : GateCalls}
    {consumed : Bool} (runs : Runs (Datapath.gateAeRxCb eaddr1 eaddr2 payload) calls consumed)
    {clients : ApClients} (answered : AnsweredBy clients calls)
    (client : gateIsApClient clients eaddr1 = true) (fits : Datapath.snapFits payload = true) :
    apFrames calls =
      if packetHad calls then [Datapath.ethernetFrame eaddr1 eaddr2 payload] else [] := by
  obtain ⟨here, rest, rfl, serving⟩ := runs_perform_bind.mp runs
  have said := (answered eaddr1 here (List.mem_cons_self ..)).trans client
  cases said
  simp only [fits, ↓reduceIte] at serving
  obtain ⟨snooped, rest, _, rfl, snooping, serving⟩ := serving.of_bind
  obtain ⟨bridged, rest, _, rfl, bridging, ended⟩ := serving.of_bind
  obtain ⟨rfl, _⟩ := runs_ret.mp ended
  obtain ⟨noFrames, noPacket⟩ := apFrames_of_learns (snooping.only (gwArpSnoop_only _ .mesh))
  have sent := apFrames_meshToAp bridging
  calc apFrames (⟨.isApClient eaddr1, true⟩ :: (snooped ++ (bridged ++ [])))
      = apFrames snooped ++ apFrames bridged := by
        rw [List.append_nil, apFrames, List.filterMap_cons_none rfl, List.filterMap_append]
        rfl
    _ = if packetHad bridged then [Datapath.ethernetFrame eaddr1 eaddr2 payload] else [] := by
        rw [noFrames, sent, List.nil_append]
    _ = _ := by
        have same : packetHad (⟨.isApClient eaddr1, true⟩ :: (snooped ++ (bridged ++ []))) =
            (packetHad snooped || packetHad bridged) := by
          rw [List.append_nil, packetHad, List.any_cons, List.any_append]
          rfl
        rw [same, noPacket, Bool.false_or]

/-- Whatever `gw_ap_rx_cb` hands to the mesh for one destination is put on the AP
vif of the gate that has the destination among its clients as the very frame it
came from, when a packet can be had there, and a frame too long for the buffer is
not handed to the mesh at all. -/
theorem bridge_roundTrip (macs : GateMacs) (eth : Bytes) (calls : GateCalls)
    (runs : Runs (Datapath.gwApRxCb macs (some eth)) calls ()) :
    (∀ dst src payload, (dst, src, payload) ∈ unicastProxied calls →
      dst = macAt eth 0 ∧ src = macAt eth 6 ∧
        ∀ clients delivery consumed, gateIsApClient clients dst = true →
          AnsweredBy clients delivery →
            Runs (Datapath.gateAeRxCb dst src payload) delivery consumed →
              apFrames delivery = if packetHad delivery then [eth] else []) ∧
      (14 + 1514 < eth.length → unicastProxied calls = [] ∧ groupProxied calls = []) := by
  constructor
  · intro dst src payload member
    have classified := mem_unicastProxied runs member
    rcases apBridging_cases macs (some eth) with
      delivered | ⟨frame, same, header, short, group | one⟩
    · cases classified.symm.trans delivered
    · cases classified.symm.trans group
    · cases same
      cases classified.symm.trans one
      refine ⟨rfl, rfl, fun clients delivery consumed client answered delivering => ?_⟩
      have sent := apFrames_gateAeRxCb delivering answered client (snapFits_snapPayload short)
      rwa [ethernetFrame_snapPayload header] at sent
  · intro long
    have delivered : Datapath.apBridging macs (some eth) = .deliver := by
      rcases apBridging_cases macs (some eth) with delivered | ⟨frame, same, _, short, _⟩
      · exact delivered
      · cases same
        omega
    constructor
    · apply List.eq_nil_iff_forall_not_mem.mpr
      rintro ⟨dst, src, payload⟩ member
      cases (mem_unicastProxied runs member).symm.trans delivered
    · apply List.eq_nil_iff_forall_not_mem.mpr
      rintro ⟨src, payload⟩ member
      cases (mem_groupProxied runs member).symm.trans delivered

/-- A client's frame of ten payload bytes to a client of another gate. -/
def clientFrame : Bytes :=
  [2, 0, 0, 0, 0, 9, 2, 0, 0, 0, 0, 1, 0x88, 0xb5, 1, 2, 3, 4, 5, 6, 7, 8, 9, 10]

/-- The two addresses of its gate. -/
def clientFrameGate : GateMacs := ⟨.station 7, .station 8⟩

/-- Its gate hands it to the mesh, which accepts it. -/
def clientFrameCalls : GateCalls :=
  [⟨.meshTxProxied .bridge (.station 9) (.station 1)
      (Datapath.snapPayload clientFrame), true⟩,
    ⟨.espLogI, ()⟩, ⟨.mmpktRelease, ()⟩]

theorem clientFrame_runs :
    Runs (Datapath.gwApRxCb clientFrameGate (some clientFrame)) clientFrameCalls () := by
  apply Runs.call
  apply Runs.call
  apply Runs.call
  apply Runs.ret

/-- The clients of the other gate. -/
def otherGate : ApClients := apStaAuthorizedLocked .empty (.station 9)

/-- The other gate puts it on its AP vif, if it has a packet for it. -/
def otherGateCalls (allocated : Bool) : GateCalls :=
  ⟨.isApClient (.station 9), true⟩ :: ⟨.alloc 24, allocated⟩ ::
    if allocated then [⟨.txPkt .bridge clientFrame, true⟩, ⟨.espLogI, ()⟩] else []

theorem otherGate_runs (allocated : Bool) :
    Runs (Datapath.gateAeRxCb (.station 9) (.station 1)
      (Datapath.snapPayload clientFrame)) (otherGateCalls allocated) true := by
  apply Runs.call
  apply Runs.call
  cases allocated with
  | false => apply Runs.ret
  | true =>
      apply Runs.call
      apply Runs.call
      apply Runs.ret

theorem otherGate_answered (allocated : Bool) :
    AnsweredBy otherGate (otherGateCalls allocated) := by
  intro mac client member
  rcases List.mem_cons.mp member with same | later
  · cases same
    rfl
  · rcases List.mem_cons.mp later with same | later
    · cases same
    · cases allocated with
      | false => cases later
      | true =>
          rcases List.mem_cons.mp later with same | later
          · cases same
          · cases List.mem_singleton.mp later

/-- With a packet, the frame arrives as it was sent. -/
theorem clientFrame_bridged : apFrames (otherGateCalls true) = [clientFrame] := by
  have bridged := (bridge_roundTrip clientFrameGate clientFrame clientFrameCalls clientFrame_runs).1
  exact (bridged _ _ _ (List.mem_singleton_self _)).2.2 otherGate (otherGateCalls true) true rfl
    (otherGate_answered true) (otherGate_runs true)

/-- Without a packet, nothing arrives. -/
theorem unallocated_dropped :
    ¬ ∀ macs eth calls, Runs (Datapath.gwApRxCb macs (some eth)) calls () →
      14 ≤ eth.length → eth.length ≤ 14 + 1514 →
        ∀ dst src payload, (dst, src, payload) ∈ unicastProxied calls →
          ∀ clients delivery consumed, gateIsApClient clients dst = true →
            AnsweredBy clients delivery →
              Runs (Datapath.gateAeRxCb dst src payload) delivery consumed →
                eth ∈ apFrames delivery := by
  intro arrives
  have frame := arrives clientFrameGate clientFrame clientFrameCalls clientFrame_runs (by decide)
    (by decide) _ _ _ (List.mem_singleton_self _) otherGate (otherGateCalls false) true rfl
    (otherGate_answered false) (otherGate_runs false)
  exact List.not_mem_nil frame

end Rimba.Gate
