import Rimba.Foundation.Cascade
import Rimba.Gate.AnnounceSweep
import Rimba.Gate.Decapsulation
import Rimba.Gate.Disposition
import Rimba.Gate.ProxyAnswer

/-! # No loop through the gates

Any number of gates share one mesh. What the receive callbacks of a gate hand to the mesh
arrives at the others, whose callbacks may put it on their AP, answer it or hand something to
the mesh in turn. Whatever their tables and their clients, and in whatever order the packets
arrive, one arrival sets off a bounded number of packets among the callbacks: what the mesh
brought goes back to it only as the answer to an ARP request, and an answer is not answered
(`Rimba.Gate.frame_settles`). A callback that learns a new host wakes the announce task of its
gate. How often that happens is bounded too; the rounds of that task are no callbacks and are
not followed here.
-/

namespace Rimba.Gate

open Foundation Foundation.Thread Foundation.Cascade

/-- What a gate hands to the mesh: a payload for one destination or for everyone. -/
inductive MeshMessage where
  | one (eaddr1 eaddr2 : Mac) (payload : Bytes)
  | everyone (eaddr2 : Mac) (payload : Bytes)
  deriving DecidableEq

/-- The message a call hands to the mesh. -/
def GateCall.message : GateCall → Option MeshMessage
  | .meshTxProxied _ eaddr1 eaddr2 payload => some (.one eaddr1 eaddr2 payload)
  | .meshTxGroupProxied eaddr2 payload => some (.everyone eaddr2 payload)
  | _ => none

/-- What arrives at a gate: a frame from a client of its AP, a frame from the mesh, or a
proxied frame from the mesh, which the mesh hands on to the gate's own netif or relays when
the gate does not consume it. -/
inductive Arrival where
  | fromAp (mmpkt : Mmpkt)
  | fromMesh (eth : Bytes)
  | proxied (eaddr1 eaddr2 : Mac) (payload : Bytes) (delivered : Bool)
  deriving DecidableEq

/-- What a gate does with an arrival. -/
def Arrival.handle (macs : GateMacs) : Arrival → GateThread Unit
  | .fromAp mmpkt => Datapath.gwApRxCb macs mmpkt
  | .fromMesh eth => Datapath.gwMeshRxCb (some eth)
  | .proxied eaddr1 eaddr2 payload delivered => do
      let consumed : Bool ← Datapath.gateAeRxCb eaddr1 eaddr2 payload
      if consumed then pure ()
      else if delivered then
        Datapath.gwMeshRxCb (some (Datapath.ethernetFrame eaddr1 eaddr2 payload))
      else pure ()

/-- The frame of an arrival, if it came over the mesh. -/
def Arrival.meshFrame : Arrival → Option Bytes
  | .fromAp _ => none
  | .fromMesh eth => some eth
  | .proxied eaddr1 eaddr2 payload _ => some (Datapath.ethernetFrame eaddr1 eaddr2 payload)

/-- A message arrives as a proxied frame when it is for one destination, and under some
group address when it is for everyone. -/
inductive MeshMessage.Carries : MeshMessage → Arrival → Prop
  | one (eaddr1 eaddr2 : Mac) (payload : Bytes) (delivered : Bool) :
      (MeshMessage.one eaddr1 eaddr2 payload).Carries (.proxied eaddr1 eaddr2 payload delivered)
  | everyone (group eaddr2 : Mac) (payload : Bytes) :
      (MeshMessage.everyone eaddr2 payload).Carries
        (.fromMesh (Datapath.ethernetFrame group eaddr2 payload))

theorem length_ethernetFrame (eaddr1 eaddr2 : Mac) (payload : Bytes) :
    (Datapath.ethernetFrame eaddr1 eaddr2 payload).length = 14 + (payload.length - 8) := by
  simp only [Datapath.ethernetFrame, List.length_append, Vector.length_toList, List.length_cons,
    List.length_nil, List.length_drop]
  omega

/-- A payload asks when its frame is an ARP request, whatever the addresses. -/
def asks (payload : Bytes) : Bool :=
  Datapath.isArpRequest (Datapath.ethernetFrame (.station 0) (.station 0) payload)

theorem isArpRequest_ethernetFrame (eaddr1 eaddr2 : Mac) (payload : Bytes) :
    Datapath.isArpRequest (Datapath.ethernetFrame eaddr1 eaddr2 payload) = asks payload := by
  have same : ∀ offset, byteAt (Datapath.ethernetFrame eaddr1 eaddr2 payload) (12 + offset) =
      byteAt (Datapath.ethernetFrame (.station 0) (.station 0) payload) (12 + offset) :=
    fun offset => by rw [byteAt_ethernetFrame, byteAt_ethernetFrame]
  have first := same 0
  have second := same 1
  have third := same 8
  have fourth := same 9
  rw [asks, Datapath.isArpRequest, Datapath.isArpRequest, length_ethernetFrame,
    length_ethernetFrame, first, second, third, fourth]

/-- The answer to an ARP request is none. -/
theorem asks_snapArpReply {snap : Bytes} (size : snap.length = 8 + 28) (sha : Mac) (spa : UInt32)
    (tha : Mac) (tpa : UInt32) : asks (snapArpReply snap sha spa tha tpa) = false := by
  have operation : byteAt (Datapath.ethernetFrame (.station 0) (.station 0)
      (snapArpReply snap sha spa tha tpa)) (14 + 7) = 2 := by
    rw [snapArpReply_arp size]
    exact byteAt_ethernetFrame _ _ _ 9
  have reply : (2 : UInt8) ≠ 0x01 := by decide
  simp only [asks, Datapath.isArpRequest, operation, reply, decide_false, Bool.and_false]

/-- What a message brings. -/
def MeshMessage.payload : MeshMessage → Bytes
  | .one _ _ payload => payload
  | .everyone _ payload => payload

theorem MeshMessage.Carries.asks_iff {message : MeshMessage} {arrival : Arrival}
    (carries : message.Carries arrival) :
    ∃ eth, arrival.meshFrame = some eth ∧ Datapath.isArpRequest eth = asks message.payload := by
  cases carries with
  | one eaddr1 eaddr2 payload delivered => exact ⟨_, rfl, isArpRequest_ethernetFrame ..⟩
  | everyone group eaddr2 payload => exact ⟨_, rfl, isArpRequest_ethernetFrame ..⟩

/-- What a call does with a frame from the mesh: onto the AP it goes as it is, and the mesh
gets no more than the answer to an ARP request. -/
def GateCall.Settles (eth : Bytes) : GateCall → Prop
  | .txPkt sender frame => sender = .bridge ∧ frame = eth
  | .meshTxProxied sender _ _ payload =>
      sender = .proxyArp ∧ Datapath.isArpRequest eth = true ∧ asks payload = false
  | .meshTxGroupProxied .. => False
  | _ => True

theorem GateCall.settles_of_looks {eth : Bytes} (call : GateCall) (looks : call.looks = true) :
    call.Settles eth := by
  cases call <;> trivial

theorem GateCall.settles_of_delivers {eth : Bytes} (call : GateCall)
    (delivers : call.delivers = true) : call.Settles eth := by
  cases call <;> trivial

theorem gwArpSnoop_settles (eth frame : Bytes) (side : GwSide) :
    (Datapath.gwArpSnoop frame side).Only (GateCall.Settles eth) :=
  (gwArpSnoop_only frame side).mono fun call learns =>
    GateCall.settles_of_looks call (GateCall.looks_of_learns call learns)

theorem gwProxyArp_settles (eth : Bytes) :
    (Datapath.gwProxyArp eth .mesh).Only (GateCall.Settles eth) := by
  by_cases request : Datapath.isArpRequest eth = true
  · rw [Datapath.gwProxyArp, if_pos request]
    refine Only.call trivial fun now => Only.call trivial fun found => ?_
    rcases found with _ | ⟨tmac, tside⟩
    · trivial
    · apply Only.ite
      · trivial
      · have answer := asks_snapArpReply (length_stackBuffer (8 + 28)) tmac
          (ipAt eth (14 + 24)) (macAt eth (14 + 8)) (ipAt eth (14 + 14))
        have replied : (Datapath.gwProxyReply .mesh (macAt eth (14 + 8)) (ipAt eth (14 + 14))
            (ipAt eth (14 + 24)) tmac).Only (GateCall.Settles eth) :=
          Only.call ⟨rfl, request, answer⟩ fun _ => trivial
        exact Only.bind replied fun _ => Only.call trivial fun _ => trivial
  · rw [Datapath.gwProxyArp, if_neg request]
    trivial

theorem meshToAp_settles (eth : Bytes) :
    (Datapath.meshToAp eth).Only (GateCall.Settles eth) := by
  refine Only.call trivial fun allocated => Only.ite ?_ trivial
  exact Only.call ⟨rfl, rfl⟩ fun sent => Only.ite (Only.perform trivial) trivial

theorem gwMeshRxCb_settles (eth : Bytes) :
    (Datapath.gwMeshRxCb (some eth)).Only (GateCall.Settles eth) := by
  have delivers : (Datapath.gwRxDeliver (some eth) .mesh).Only (GateCall.Settles eth) :=
    (gwRxDeliver_only (some eth) .mesh).mono GateCall.settles_of_delivers
  by_cases fits : 14 ≤ eth.length ∧ eth.length ≤ Datapath.mesh2ApSize
  · have copied : Datapath.meshCopied (some eth) = eth := if_pos fits
    rw [Datapath.gwMeshRxCb, copied]
    refine Only.bind (Only.ite ?_ trivial) fun answered => Only.ite (Only.perform trivial) ?_
    · exact Only.bind (gwArpSnoop_settles eth eth .mesh) fun _ => gwProxyArp_settles eth
    · refine Only.bind (Only.ite (Only.call trivial fun _ => trivial) trivial) fun bridged => ?_
      exact Only.ite (Only.bind (meshToAp_settles eth) fun _ => delivers) delivers
  · -- a frame that does not fit the buffer is only delivered
    have copied : Datapath.meshCopied (some eth) = [] := if_neg fits
    rw [Datapath.gwMeshRxCb, copied]
    exact delivers

theorem gateAeRxCb_settles (eaddr1 eaddr2 : Mac) (payload : Bytes) :
    (Datapath.gateAeRxCb eaddr1 eaddr2 payload).Only
      (GateCall.Settles (Datapath.ethernetFrame eaddr1 eaddr2 payload)) := by
  refine Only.call trivial fun client => Only.ite (Only.ite ?_ trivial) trivial
  refine Only.bind (gwArpSnoop_settles _ _ .mesh) fun _ => ?_
  exact Only.bind (meshToAp_settles _) fun _ => trivial

/-- **What the mesh brought.** It goes onto the AP as it is, and back to the mesh only as
the answer to an ARP request. -/
theorem handle_settles (macs : GateMacs) {arrival : Arrival} {eth : Bytes}
    (brought : arrival.meshFrame = some eth) :
    (arrival.handle macs).Only (GateCall.Settles eth) := by
  cases arrival with
  | fromAp mmpkt => cases brought
  | fromMesh frame =>
      cases brought
      exact gwMeshRxCb_settles eth
  | proxied eaddr1 eaddr2 payload delivered =>
      cases brought
      refine Only.bind (gateAeRxCb_settles eaddr1 eaddr2 payload) fun consumed => ?_
      exact Only.ite trivial (Only.ite (gwMeshRxCb_settles _) trivial)

theorem GateCall.not_transmits_of_looks (call : GateCall) (looks : call.looks = true) :
    call.transmits = false := by
  cases call <;> first | rfl | cases looks

theorem GateCall.not_transmits_of_delivers (call : GateCall) (delivers : call.delivers = true) :
    call.transmits = false := by
  cases call <;> first | rfl | cases delivers

theorem gwArpSnoop_quiet (bound : Unit → ℕ) (eth : Bytes) (side : GwSide) :
    (Datapath.gwArpSnoop eth side).AtMost GateCall.transmits bound :=
  AtMost.of_only ((gwArpSnoop_only eth side).mono fun call learns =>
    GateCall.not_transmits_of_looks call (GateCall.looks_of_learns call learns))

theorem gwRxDeliver_quiet (bound : Unit → ℕ) (mmpkt : Mmpkt) (side : GwSide) :
    (Datapath.gwRxDeliver mmpkt side).AtMost GateCall.transmits bound :=
  AtMost.of_only ((gwRxDeliver_only mmpkt side).mono GateCall.not_transmits_of_delivers)

/-- What is sent for a frame by the time it is known whether it was answered. -/
def answer (answered : Bool) : ℕ := if answered then 1 else 0

theorem gwProxyReply_atMost (fromSide : GwSide) (reqMac : Mac) (spa tpa : UInt32) (tmac : Mac) :
    (Datapath.gwProxyReply fromSide reqMac spa tpa tmac).AtMost GateCall.transmits fun _ => 1 := by
  cases fromSide with
  | ap =>
      refine AtMost.call rfl fun allocated => AtMost.ite ?_ (AtMost.ret ())
      exact AtMost.spend (fun _ => 0) fun _ => AtMost.ret ()
  | mesh => exact AtMost.spend (fun _ => 0) fun _ => AtMost.ret ()

/-- Only a frame that is answered is sent anything for. -/
theorem gwProxyArp_atMost (eth : Bytes) (fromSide : GwSide) :
    (Datapath.gwProxyArp eth fromSide).AtMost GateCall.transmits answer := by
  apply AtMost.ite
  · refine AtMost.call rfl fun now => AtMost.call rfl fun found => ?_
    rcases found with _ | ⟨tmac, tside⟩
    · exact AtMost.ret false
    · apply AtMost.ite
      · exact AtMost.ret false
      · intro calls answered runs
        obtain ⟨front, back, _, rfl, replying, logging⟩ := runs.of_bind
        obtain ⟨_, _, rfl, ended⟩ := runs_perform_bind.mp logging
        obtain ⟨rfl, rfl⟩ := runs_ret.mp ended
        rw [List.countP_append]
        exact gwProxyReply_atMost _ _ _ _ _ front _ replying
  · exact AtMost.ret false

theorem snooped_atMost (eth : Bytes) (side : GwSide) :
    (do Datapath.gwArpSnoop eth side; Datapath.gwProxyArp eth side : GateThread Bool).AtMost
      GateCall.transmits answer :=
  AtMost.bind (fun _ => answer) (gwArpSnoop_quiet (fun _ => 0) eth side)
    (fun _ => gwProxyArp_atMost eth side) fun _ _ => (Nat.zero_add _).le

theorem meshToAp_atMost (frame : Bytes) :
    (Datapath.meshToAp frame).AtMost GateCall.transmits fun _ => 1 := by
  refine AtMost.call rfl fun allocated => AtMost.ite ?_ (AtMost.ret ())
  refine AtMost.spend (fun _ => 0) fun sent => AtMost.ite ?_ (AtMost.ret ())
  exact AtMost.of_only (Only.perform rfl)

/-- A frame is answered and nothing more, or what follows sends one packet at most. -/
theorem answered_atMost {answered : GateThread Bool} {rest : GateThread Unit}
    (answers : answered.AtMost GateCall.transmits answer)
    (one : rest.AtMost GateCall.transmits fun _ => 1) :
    (do let done ← answered; if done then perform GateCall.mmpktRelease else rest :
      GateThread Unit).AtMost GateCall.transmits fun _ => 1 := by
  apply AtMost.bind (fun done _ => 1 - answer done) answers
  · intro done
    cases done with
    | true => exact AtMost.of_only (Only.perform rfl)
    | false => exact one
  · intro done _
    cases done <;> exact le_rfl

theorem gwMeshRxCb_atMost (mmpkt : Mmpkt) :
    (Datapath.gwMeshRxCb mmpkt).AtMost GateCall.transmits fun _ => 1 := by
  apply answered_atMost
  · exact AtMost.ite (snooped_atMost _ .mesh) (AtMost.ret false)
  · have looked : (Datapath.meshBridged (Datapath.meshCopied mmpkt)).AtMost GateCall.transmits
        fun _ => 0 :=
      AtMost.ite (AtMost.call rfl fun _ => AtMost.ret _) (AtMost.ret false)
    apply AtMost.bind (fun _ _ => 1) looked
    · intro bridged
      apply AtMost.ite
      · apply AtMost.bind (fun _ _ => 0) (meshToAp_atMost _)
        · exact fun _ => gwRxDeliver_quiet _ mmpkt .mesh
        · exact fun _ _ => le_rfl
      · exact gwRxDeliver_quiet _ mmpkt .mesh
    · exact fun _ _ => le_rfl

theorem apSettled_atMost (macs : GateMacs) (mmpkt : Mmpkt) :
    (Datapath.apSettled macs mmpkt).AtMost GateCall.transmits fun _ => 1 := by
  have delivers := gwRxDeliver_quiet (fun _ => 0) mmpkt .ap
  have released : (do let _ : Unit ← perform GateCall.espLogI; perform GateCall.mmpktRelease :
      GateThread Unit).AtMost GateCall.transmits fun _ => 0 :=
    AtMost.call rfl fun _ => AtMost.of_only (Only.perform rfl)
  unfold Datapath.apSettled
  cases Datapath.apBridging macs mmpkt with
  | unicast dst src payload =>
      exact AtMost.spend (fun _ => 0) fun proxied => AtMost.ite released delivers
  | group src payload =>
      refine AtMost.spend (fun _ => 0) fun flooded => AtMost.ite ?_ delivers
      exact AtMost.call rfl fun _ => delivers
  | deliver => exact gwRxDeliver_quiet _ mmpkt .ap

theorem gwApRxCb_atMost (macs : GateMacs) (mmpkt : Mmpkt) :
    (Datapath.gwApRxCb macs mmpkt).AtMost GateCall.transmits fun _ => 1 := by
  rw [Datapath.gwApRxCb]
  apply answered_atMost _ (apSettled_atMost macs mmpkt)
  cases mmpkt with
  | none => exact AtMost.ret false
  | some eth => exact AtMost.ite (snooped_atMost eth .ap) (AtMost.ret false)

/-- A proxied frame that is not consumed is not put on the AP. -/
theorem gateAeRxCb_atMost (eaddr1 eaddr2 : Mac) (payload : Bytes) :
    (Datapath.gateAeRxCb eaddr1 eaddr2 payload).AtMost GateCall.transmits answer := by
  refine AtMost.call rfl fun client => AtMost.ite (AtMost.ite ?_ (AtMost.ret true))
    (AtMost.ret false)
  intro calls consumed runs
  obtain ⟨front, back, _, rfl, snooping, bridging⟩ := runs.of_bind
  obtain ⟨middle, last, _, rfl, sending, ended⟩ := bridging.of_bind
  obtain ⟨rfl, rfl⟩ := runs_ret.mp ended
  have quiet := gwArpSnoop_quiet (fun _ => 0) _ .mesh front _ snooping
  have one := meshToAp_atMost _ middle _ sending
  rw [List.countP_append, List.append_nil]
  exact Nat.add_le_add quiet one

/-- A proxied frame that is consumed goes no further. -/
theorem proxied_atMost {counted : GateCall → Bool} {consumes : GateThread Bool}
    {rest : GateThread Unit} {delivered : Bool} (first : consumes.AtMost counted answer)
    (one : rest.AtMost counted fun _ => 1) :
    (do
      let consumed : Bool ← consumes
      if consumed then pure () else if delivered then rest else pure () :
        GateThread Unit).AtMost counted fun _ => 1 := by
  apply AtMost.bind (fun consumed _ => 1 - answer consumed) first
  · intro consumed
    cases consumed with
    | true => exact AtMost.ret ()
    | false => exact AtMost.ite (AtMost.ret ()) (AtMost.ite one (AtMost.ret ()))
  · intro consumed _
    cases consumed <;> exact le_rfl

/-- **One packet an arrival.** At one arrival a gate gives the driver at most one packet. -/
theorem handle_atMost (macs : GateMacs) (arrival : Arrival) :
    (arrival.handle macs).AtMost GateCall.transmits fun _ => 1 := by
  cases arrival with
  | fromAp mmpkt => exact gwApRxCb_atMost macs mmpkt
  | fromMesh eth => exact gwMeshRxCb_atMost (some eth)
  | proxied eaddr1 eaddr2 payload delivered =>
      exact proxied_atMost (gateAeRxCb_atMost eaddr1 eaddr2 payload) (gwMeshRxCb_atMost _)

/-- The call wakes the announce task. -/
def GateCall.wakes : GateCall → Bool
  | .notifyGive => true
  | _ => false

theorem GateCall.not_wakes_of_bridges (call : GateCall) (bridges : call.bridges = true) :
    call.wakes = false := by
  cases call <;> first | rfl | cases bridges

theorem GateCall.not_wakes_of_delivers (call : GateCall) (delivers : call.delivers = true) :
    call.wakes = false := by
  cases call <;> first | rfl | cases delivers

theorem gwArpLearn_wakes (ip : UInt32) (mac : Mac) (side : GwSide) :
    (Datapath.gwArpLearn ip mac side).AtMost GateCall.wakes fun _ => 1 := by
  refine AtMost.ite (AtMost.call rfl fun now => AtMost.call rfl fun isNew => ?_) (AtMost.ret ())
  refine AtMost.ite (AtMost.call rfl fun created => AtMost.ite ?_ (AtMost.ret ())) (AtMost.ret ())
  exact AtMost.spend (fun _ => 0) fun _ => AtMost.ret ()

theorem gwArpSnoop_wakes (eth : Bytes) (side : GwSide) :
    (Datapath.gwArpSnoop eth side).AtMost GateCall.wakes fun _ => 1 :=
  AtMost.ite (AtMost.ret ()) (AtMost.ite (gwArpLearn_wakes _ _ side)
    (AtMost.ite (gwArpLearn_wakes _ _ side) (AtMost.ret ())))

/-- A frame is learned from once, whether it is answered or not. -/
theorem snooped_wakes (eth : Bytes) (side : GwSide) :
    (do Datapath.gwArpSnoop eth side; Datapath.gwProxyArp eth side : GateThread Bool).AtMost
      GateCall.wakes fun _ => 1 :=
  AtMost.bind (fun _ _ => 0) (gwArpSnoop_wakes eth side)
    (fun _ => AtMost.of_only ((gwProxyArp_only eth side).mono GateCall.not_wakes_of_bridges))
    fun _ _ => le_rfl

/-- What follows an answer, or the lack of one, wakes nothing. -/
theorem answered_wakes {answered : GateThread Bool} {rest : GateThread Unit}
    (once : answered.AtMost GateCall.wakes fun _ => 1)
    (quiet : rest.Only fun call => call.wakes = false) :
    (do let done ← answered; if done then perform GateCall.mmpktRelease else rest :
      GateThread Unit).AtMost GateCall.wakes fun _ => 1 :=
  AtMost.bind (fun _ _ => 0) once
    (fun _ => AtMost.of_only (Only.ite (Only.perform rfl) quiet)) fun _ _ => le_rfl

theorem gwMeshRxCb_wakes (mmpkt : Mmpkt) :
    (Datapath.gwMeshRxCb mmpkt).AtMost GateCall.wakes fun _ => 1 := by
  have delivers := (gwRxDeliver_only mmpkt .mesh).mono GateCall.not_wakes_of_delivers
  have bridges := (meshToAp_only (Datapath.meshCopied mmpkt)).mono GateCall.not_wakes_of_bridges
  apply answered_wakes (AtMost.ite (snooped_wakes _ .mesh) (AtMost.ret false))
  refine Only.bind (Only.ite (Only.call rfl fun _ => trivial) trivial) fun bridged => ?_
  exact Only.ite (Only.bind bridges fun _ => delivers) delivers

theorem gwApRxCb_wakes (macs : GateMacs) (mmpkt : Mmpkt) :
    (Datapath.gwApRxCb macs mmpkt).AtMost GateCall.wakes fun _ => 1 := by
  rw [Datapath.gwApRxCb]
  apply answered_wakes
  · cases mmpkt with
    | none => exact AtMost.ret false
    | some eth => exact AtMost.ite (snooped_wakes eth .ap) (AtMost.ret false)
  · exact apSettled_only (fun _ _ _ _ => rfl) (fun _ _ _ => rfl) rfl
      GateCall.not_wakes_of_delivers

/-- A proxied frame that is not consumed is not learned from. -/
theorem gateAeRxCb_wakes (eaddr1 eaddr2 : Mac) (payload : Bytes) :
    (Datapath.gateAeRxCb eaddr1 eaddr2 payload).AtMost GateCall.wakes answer := by
  refine AtMost.call rfl fun client => AtMost.ite (AtMost.ite ?_ (AtMost.ret true))
    (AtMost.ret false)
  intro calls consumed runs
  obtain ⟨front, back, _, rfl, snooping, bridging⟩ := runs.of_bind
  obtain ⟨middle, last, _, rfl, sending, ended⟩ := bridging.of_bind
  obtain ⟨rfl, rfl⟩ := runs_ret.mp ended
  have once := gwArpSnoop_wakes _ .mesh front _ snooping
  have quiet : (Datapath.meshToAp (Datapath.ethernetFrame eaddr1 eaddr2 payload)).AtMost
      GateCall.wakes fun _ => 0 :=
    AtMost.of_only ((meshToAp_only _).mono GateCall.not_wakes_of_bridges)
  rw [List.countP_append, List.append_nil]
  exact Nat.add_le_add once (quiet middle _ sending)

/-- **One wake-up an arrival.** At one arrival a gate wakes its announce task at most once. -/
theorem handle_wakes (macs : GateMacs) (arrival : Arrival) :
    (arrival.handle macs).AtMost GateCall.wakes fun _ => 1 := by
  cases arrival with
  | fromAp mmpkt => exact gwApRxCb_wakes macs mmpkt
  | fromMesh eth => exact gwMeshRxCb_wakes (some eth)
  | proxied eaddr1 eaddr2 payload delivered =>
      exact proxied_atMost (gateAeRxCb_wakes eaddr1 eaddr2 payload) (gwMeshRxCb_wakes _)

variable {Node : Type}

/-- A gate handles an arrival. When the arrival is a message of a gate, the cause is the
position of the hop that handed it to the mesh; what comes from a client or from another
node of the mesh has none. -/
structure Hop (Node : Type) where
  gate : Node
  cause : Option ℕ
  arrival : Arrival
  calls : GateCalls

/-- What a hop handed to the mesh. -/
def Hop.messages (hop : Hop Node) : List MeshMessage :=
  hop.calls.filterMap fun called => called.command.message

/-- How often a hop made a call of a kind. -/
def Hop.count (kind : GateCall → Bool) (hop : Hop Node) : ℕ :=
  hop.calls.countP fun called => kind called.command

/-- Hops of gates over one mesh, in any order: each is a run of the gate's callbacks,
a message arrives as it was handed over, and no gate takes one twice, which the duplicate
cache of the mesh sees to. What the announce tasks hand to the mesh is nobody's hop; it arrives
as any other frame of the mesh, without a cause. -/
structure Bridged (macs : Node → GateMacs) (hops : List (Hop Node)) : Prop where
  handled : ∀ hop ∈ hops, Runs (hop.arrival.handle (macs hop.gate)) hop.calls ()
  carried : ∀ hop ∈ hops, ∀ earlier ∈ hop.cause, ∃ source ∈ hops[earlier]?,
    ∃ message ∈ source.messages, message.Carries hop.arrival
  once : hops.Pairwise fun hop other => hop.gate = other.gate → hop.cause = other.cause →
    hop.cause = none

/-- The hop at one position is caused by the one at another: a callback handed over the message
that another callback received. -/
def Causes (hops : List (Hop Node)) (earlier later : ℕ) : Prop :=
  ∃ hop ∈ hops[later]?, hop.cause = some earlier

/-- How often the hop at a position, if there is one, made a call of a kind. -/
def countAt (kind : GateCall → Bool) (hops : List (Hop Node)) (index : ℕ) : ℕ :=
  (hops[index]?.map (Hop.count kind)).getD 0

/-- The packets given to the driver by the hop at a position. -/
def sentAt (hops : List (Hop Node)) (index : ℕ) : ℕ := countAt GateCall.transmits hops index

/-- How often the hop at a position woke the announce task of its gate. -/
def wokenAt (hops : List (Hop Node)) (index : ℕ) : ℕ := countAt GateCall.wakes hops index

/-- The messages handed to the mesh by the hop at a position, if there is one. -/
def messagesAt (hops : List (Hop Node)) (index : ℕ) : List MeshMessage :=
  (hops[index]?.map Hop.messages).getD []

/-- A hop that hands over an ARP request ranks above one that hands over anything else, and
that above one that hands over nothing. -/
def hopRank (hops : List (Hop Node)) (index : ℕ) : ℕ :=
  if (messagesAt hops index).any fun message => asks message.payload then 2
  else if (messagesAt hops index).isEmpty then 0
  else 1

section

variable {macs : Node → GateMacs} {hops : List (Hop Node)}

theorem hopRank_le (index : ℕ) : hopRank hops index ≤ 2 := by
  rw [hopRank]
  split
  · exact le_rfl
  · split <;> omega

/-- A hop that hands a message over ranks above one that hands over nothing. -/
theorem hopRank_pos {index : ℕ} (some : messagesAt hops index ≠ []) :
    0 < hopRank hops index := by
  have filled : (messagesAt hops index).isEmpty = false := List.isEmpty_eq_false_iff.mpr some
  rw [hopRank, filled]
  split <;> decide

/-- A hop that another causes is one of a frame from the mesh, of the rank of the message. -/
theorem Bridged.caused (bridged : Bridged macs hops) {earlier later : ℕ}
    (causes : Causes hops earlier later) :
    ∃ hop eth, hops[later]? = some hop ∧ hop.arrival.meshFrame = some eth ∧
      ∃ message ∈ messagesAt hops earlier,
        Datapath.isArpRequest eth = asks message.payload := by
  obtain ⟨hop, at_later, caused⟩ := causes
  obtain ⟨source, at_earlier, message, handed, carries⟩ :=
    bridged.carried hop (List.mem_of_getElem? at_later) earlier caused
  obtain ⟨eth, brought, asking⟩ := carries.asks_iff
  refine ⟨hop, eth, at_later, brought, message, ?_, asking⟩
  rw [messagesAt, Option.mem_def.mp at_earlier]
  exact handed

/-- What a hop that another causes does with its frame. -/
theorem Bridged.settles (bridged : Bridged macs hops) {index : ℕ} {hop : Hop Node} {eth : Bytes}
    (here : hops[index]? = some hop) (brought : hop.arrival.meshFrame = some eth) :
    ∀ called ∈ hop.calls, called.command.Settles eth :=
  (bridged.handled hop (List.mem_of_getElem? here)).only (handle_settles _ brought)

/-- A message handed over at a frame from the mesh answers an ARP request. -/
theorem asks_of_settles {eth : Bytes} {call : GateCall} {message : MeshMessage}
    (settles : call.Settles eth) (handed : call.message = some message) :
    Datapath.isArpRequest eth = true ∧ asks message.payload = false := by
  cases call <;> cases handed
  · exact settles.2
  · exact settles.elim

/-- A hop ranks below the one it is caused by. -/
theorem Bridged.falls (bridged : Bridged macs hops) : Falls (Causes hops) (hopRank hops) := by
  intro earlier later causes
  obtain ⟨hop, eth, at_later, brought, message, handed, asking⟩ := bridged.caused causes
  have here : messagesAt hops later = hop.messages := by
    rw [messagesAt, at_later]
    rfl
  have answers : ∀ other ∈ hop.messages,
      Datapath.isArpRequest eth = true ∧ asks other.payload = false := by
    intro other member
    obtain ⟨called, made, handedOver⟩ := List.mem_filterMap.mp member
    exact asks_of_settles (bridged.settles at_later brought called made) handedOver
  by_cases silent : hop.messages = []
  · have low : hopRank hops later = 0 := by
      rw [hopRank, here, silent]
      rfl
    rw [low]
    exact hopRank_pos (List.ne_nil_of_mem handed)
  · -- it answers, so the message that caused it asked
    obtain ⟨other, member⟩ := List.exists_mem_of_ne_nil _ silent
    have none : (hop.messages.any fun message => asks message.payload) = false := by
      apply List.any_eq_false.mpr
      intro other member
      rw [(answers other member).2]
      exact Bool.false_ne_true
    have low : hopRank hops later = 1 := by
      rw [hopRank, here, none, List.isEmpty_eq_false_iff.mpr silent]
      rfl
    have asked : ((messagesAt hops earlier).any fun message => asks message.payload) = true :=
      List.any_eq_true.mpr ⟨message, handed, asking ▸ (answers other member).1⟩
    have high : hopRank hops earlier = 2 := if_pos asked
    omega

/-- One hop causes at most one hop of each gate. -/
theorem Bridged.fansOut [Fintype Node] (bridged : Bridged macs hops) :
    FansOut (Causes hops) (Fintype.card Node) := by
  intro earlier later caused
  have chosen : ∀ index : later, ∃ hop, hops[index.1]? = some hop ∧ hop.cause = some earlier :=
    fun index => caused index.1 index.2
  choose hop here cause using chosen
  have apart : Function.Injective fun index : later => (hop index).gate := by
    have ordered : ∀ first second : later, (hop first).gate = (hop second).gate →
        ¬ first.1 < second.1 := by
      intro first second same before
      obtain ⟨inside, there⟩ := List.getElem?_eq_some_iff.mp (here first)
      obtain ⟨within, also⟩ := List.getElem?_eq_some_iff.mp (here second)
      have twice := List.pairwise_iff_getElem.mp bridged.once first.1 second.1 inside within before
      rw [there, also, cause first, cause second] at twice
      cases twice same rfl
    intro first second same
    exact Subtype.ext (le_antisymm (not_lt.mp (ordered second first same.symm))
      (not_lt.mp (ordered first second same)))
  calc later.card = Fintype.card later := (Fintype.card_coe later).symm
    _ ≤ Fintype.card Node := Fintype.card_le_of_injective _ apart

/-- What every arrival makes at most once, a hop does. -/
theorem Bridged.countAt_le (bridged : Bridged macs hops) {kind : GateCall → Bool}
    (once : ∀ macs (arrival : Arrival), (arrival.handle macs).AtMost kind fun _ => 1) (index : ℕ) :
    countAt kind hops index ≤ 1 := by
  cases here : hops[index]? with
  | none => rw [countAt, here]; exact Nat.zero_le 1
  | some hop =>
      rw [countAt, here]
      exact once _ hop.arrival hop.calls () (bridged.handled hop (List.mem_of_getElem? here))

/-- A message is a packet given to the driver. -/
theorem length_messagesAt_le (index : ℕ) :
    (messagesAt hops index).length ≤ sentAt hops index := by
  cases here : hops[index]? with
  | none => rw [messagesAt, sentAt, countAt, here]; exact le_rfl
  | some hop =>
      rw [messagesAt, sentAt, countAt, here]
      change (hop.calls.filterMap fun called => called.command.message).length ≤ hop.calls.countP _
      rw [List.length_filterMap_eq_countP]
      apply List.countP_mono_left
      intro called _ handed
      cases command : called.command <;> first | rfl | (rw [command] at handed; cases handed)

/-- **No loop.** In any order of hops over a mesh of so many gates, whatever one arrival sets
off among the receive callbacks, the gates give their drivers at most one packet at the
arrival, one for each gate behind it and one for each gate behind each of these, of which at
most one and one for each gate go to the mesh, and they wake an announce task no more often
than that; and what the mesh brought, a callback puts on its AP as it is and hands back to the
mesh only as the answer to an ARP request, which no callback answers. -/
theorem frame_settles [Fintype Node] (macs : Node → GateMacs) (hops : List (Hop Node))
    (bridged : Bridged macs hops) (root : ℕ) (indices : Finset ℕ)
    (off : ∀ index ∈ indices, SetsOff (Causes hops) root index) :
    ∑ index ∈ indices, sentAt hops index ≤
        1 + Fintype.card Node * (1 + Fintype.card Node) ∧
      ∑ index ∈ indices, (messagesAt hops index).length ≤ 1 + Fintype.card Node ∧
        ∑ index ∈ indices, wokenAt hops index ≤
            1 + Fintype.card Node * (1 + Fintype.card Node) ∧
          ∀ index ∈ indices, index ≠ root → ∃ hop eth, hops[index]? = some hop ∧
            hop.arrival.meshFrame = some eth ∧
              ∀ called ∈ hop.calls, called.command.Settles eth := by
  have one := bridged.countAt_le handle_atMost
  have few := card_le bridged.falls bridged.fansOut (hopRank_le root) indices off
  rw [size, size, size, Nat.mul_one] at few
  have summed {kind : GateCall → Bool} (once : ∀ index, countAt kind hops index ≤ 1) :
      ∑ index ∈ indices, countAt kind hops index ≤
        1 + Fintype.card Node * (1 + Fintype.card Node) :=
    calc ∑ index ∈ indices, countAt kind hops index
        ≤ ∑ _index ∈ indices, 1 := Finset.sum_le_sum fun index _ => once index
      _ = indices.card := (Finset.card_eq_sum_ones indices).symm
      _ ≤ 1 + Fintype.card Node * (1 + Fintype.card Node) := few
  refine ⟨summed one, ?_, summed (bridged.countAt_le handle_wakes), ?_⟩
  · -- only a hop that handed a message over causes another
    have only : ∀ earlier later, Causes hops earlier later → messagesAt hops later ≠ [] →
        messagesAt hops earlier ≠ [] := by
      intro earlier later causes _
      obtain ⟨_, _, _, _, message, handed, _⟩ := bridged.caused causes
      exact List.ne_nil_of_mem handed
    have fewer := card_le_of_kind bridged.falls bridged.fansOut (fun index => hopRank_pos) only
      (hopRank_le root) (indices.filter fun index => (messagesAt hops index).length ≠ 0)
      (fun index member => off index (Finset.mem_filter.mp member).1)
      (fun index member => List.length_pos_iff.mp
        (Nat.pos_of_ne_zero (Finset.mem_filter.mp member).2))
    calc ∑ index ∈ indices, (messagesAt hops index).length
        = ∑ index ∈ indices with (messagesAt hops index).length ≠ 0,
            (messagesAt hops index).length := (Finset.sum_filter_ne_zero indices).symm
      _ ≤ ∑ _index ∈ indices with (messagesAt hops _index).length ≠ 0, 1 :=
          Finset.sum_le_sum fun index _ => (length_messagesAt_le index).trans (one index)
      _ = (indices.filter fun index => (messagesAt hops index).length ≠ 0).card :=
          (Finset.card_eq_sum_ones _).symm
      _ ≤ 1 + Fintype.card Node := by
          rwa [size, size, Nat.mul_one] at fewer
  · intro index member other
    rcases Relation.ReflTransGen.cases_tail (off index member) with same | ⟨earlier, _, causes⟩
    · exact absurd same other
    · obtain ⟨hop, eth, here, brought, _⟩ := bridged.caused causes
      exact ⟨hop, eth, here, brought, bridged.settles here brought⟩

end

/-- The answer of the gate of the asked client. -/
def acrossReply : Bytes :=
  snapArpReply (stackBuffer (8 + 28)) (.station 9) 0x6909090a (.station 1) 0x0209090a

/-- A client of one gate asks for a client of the other: its gate floods the request. -/
def floodedHop : Hop Bool where
  gate := false
  cause := none
  arrival := .fromAp (some clientRequestFrame)
  calls := [⟨.nowMs, (1000 : UInt32)⟩, ⟨.learnLocked 1000 0x0209090a (.station 1) .ap, false⟩,
    ⟨.nowMs, (1000 : UInt32)⟩, ⟨.lookupLocked 1000 0x6909090a, (none : Option (Mac × GwSide))⟩,
    ⟨.meshTxGroupProxied (.station 1) (Datapath.snapPayload clientRequestFrame), true⟩,
    ⟨.espLogI, ()⟩, ⟨.netifIsUp .ap, false⟩, ⟨.mmpktRelease, ()⟩]

/-- The other gate answers over the mesh. -/
def answeredHop : Hop Bool where
  gate := true
  cause := some 0
  arrival := .fromMesh clientRequestFrame
  calls := [⟨.nowMs, (1000 : UInt32)⟩, ⟨.learnLocked 1000 0x0209090a (.station 1) .mesh, false⟩,
    ⟨.nowMs, (1000 : UInt32)⟩,
    ⟨.lookupLocked 1000 0x6909090a, some ((.station 9, .ap) : Mac × GwSide)⟩,
    ⟨.meshTxProxied .proxyArp (.station 1) (.station 9) acrossReply, true⟩, ⟨.espLogI, ()⟩,
    ⟨.mmpktRelease, ()⟩]

/-- The answer goes onto the AP of the first gate. -/
def consumedHop : Hop Bool where
  gate := false
  cause := some 1
  arrival := .proxied (.station 1) (.station 9) acrossReply false
  calls := [⟨.isApClient (.station 1), true⟩, ⟨.nowMs, (1000 : UInt32)⟩,
    ⟨.learnLocked 1000 0x6909090a (.station 9) .mesh, false⟩, ⟨.alloc 42, true⟩,
    ⟨.txPkt .bridge (Datapath.ethernetFrame (.station 1) (.station 9) acrossReply), true⟩,
    ⟨.espLogI, ()⟩]

def acrossMesh : List (Hop Bool) := [floodedHop, answeredHop, consumedHop]

/-- A frame is learned from without waking the announce task. -/
theorem snoop_runs {eth : Bytes} {ip : UInt32} {mac : Mac} (side : GwSide)
    (arp : ¬ eth.length < 14 ∧ byteAt eth 12 = 0x08 ∧ byteAt eth 13 = 0x06 ∧ 14 + 28 ≤ eth.length)
    (spa : ipAt eth (14 + 14) = ip) (sha : macAt eth (14 + 8) = mac)
    (learned : learnable ip mac = true) :
    Runs (Datapath.gwArpSnoop eth side)
      [⟨.nowMs, (1000 : UInt32)⟩, ⟨.learnLocked 1000 ip mac side, false⟩] () := by
  rw [Datapath.gwArpSnoop, if_neg arp.1, if_pos arp.2, spa, sha, Datapath.gwArpLearn,
    if_pos learned]
  exact Runs.call _ (Runs.call _ (Runs.ret ()))

theorem requested_runs :
    Runs (Datapath.apAnswered (some clientRequestFrame))
      [⟨.nowMs, (1000 : UInt32)⟩, ⟨.learnLocked 1000 0x0209090a (.station 1) .ap, false⟩,
        ⟨.nowMs, (1000 : UInt32)⟩,
        ⟨.lookupLocked 1000 0x6909090a, (none : Option (Mac × GwSide))⟩] false := by
  have tpa : ipAt clientRequestFrame (14 + 24) = 0x6909090a := by decide
  have snooped : Runs (Datapath.gwArpSnoop clientRequestFrame .ap)
      [⟨.nowMs, (1000 : UInt32)⟩, ⟨.learnLocked 1000 0x0209090a (.station 1) .ap, false⟩] () :=
    snoop_runs .ap (by decide) (by decide) (by decide) (by decide)
  have unanswered : Runs (Datapath.gwProxyArp clientRequestFrame .ap)
      [⟨.nowMs, (1000 : UInt32)⟩,
        ⟨.lookupLocked 1000 0x6909090a, (none : Option (Mac × GwSide))⟩] false := by
    rw [Datapath.gwProxyArp, if_pos (by decide), tpa]
    exact Runs.call _ (Runs.call _ (Runs.ret false))
  rw [Datapath.apAnswered, if_pos (by decide)]
  exact snooped.bind unanswered

theorem flooded_runs :
    Runs (Datapath.apSettled ⟨.station 7, .station 8⟩ (some clientRequestFrame))
      [⟨.meshTxGroupProxied (.station 1) (Datapath.snapPayload clientRequestFrame), true⟩,
        ⟨.espLogI, ()⟩, ⟨.netifIsUp .ap, false⟩, ⟨.mmpktRelease, ()⟩] () := by
  have group : Datapath.apBridging ⟨.station 7, .station 8⟩ (some clientRequestFrame) =
      .group (.station 1) (Datapath.snapPayload clientRequestFrame) := by decide
  rw [Datapath.apSettled, group]
  apply Runs.call
  apply Runs.call
  apply Runs.call
  apply Runs.call
  apply Runs.ret

theorem answeredAcross_runs :
    Runs (Datapath.meshAnswered clientRequestFrame)
      [⟨.nowMs, (1000 : UInt32)⟩, ⟨.learnLocked 1000 0x0209090a (.station 1) .mesh, false⟩,
        ⟨.nowMs, (1000 : UInt32)⟩,
        ⟨.lookupLocked 1000 0x6909090a, some ((.station 9, .ap) : Mac × GwSide)⟩,
        ⟨.meshTxProxied .proxyArp (.station 1) (.station 9) acrossReply, true⟩,
        ⟨.espLogI, ()⟩] true := by
  have spa : ipAt clientRequestFrame (14 + 14) = 0x0209090a := by decide
  have sha : macAt clientRequestFrame (14 + 8) = .station 1 := by decide
  have tpa : ipAt clientRequestFrame (14 + 24) = 0x6909090a := by decide
  have snooped : Runs (Datapath.gwArpSnoop clientRequestFrame .mesh)
      [⟨.nowMs, (1000 : UInt32)⟩, ⟨.learnLocked 1000 0x0209090a (.station 1) .mesh, false⟩] () :=
    snoop_runs .mesh (by decide) spa sha (by decide)
  have answered : Runs (Datapath.gwProxyArp clientRequestFrame .mesh)
      [⟨.nowMs, (1000 : UInt32)⟩,
        ⟨.lookupLocked 1000 0x6909090a, some ((.station 9, .ap) : Mac × GwSide)⟩,
        ⟨.meshTxProxied .proxyArp (.station 1) (.station 9) acrossReply, true⟩,
        ⟨.espLogI, ()⟩] true := by
    rw [Datapath.gwProxyArp, if_pos (by decide), spa, sha, tpa]
    apply Runs.call
    apply Runs.call
    apply Runs.call
    apply Runs.call
    apply Runs.ret
  rw [Datapath.meshAnswered, if_pos (by decide)]
  exact snooped.bind answered

theorem consumed_runs :
    Runs (Datapath.gateAeRxCb (.station 1) (.station 9) acrossReply)
      [⟨.isApClient (.station 1), true⟩, ⟨.nowMs, (1000 : UInt32)⟩,
        ⟨.learnLocked 1000 0x6909090a (.station 9) .mesh, false⟩, ⟨.alloc 42, true⟩,
        ⟨.txPkt .bridge (Datapath.ethernetFrame (.station 1) (.station 9) acrossReply), true⟩,
        ⟨.espLogI, ()⟩] true := by
  have snooped : Runs (Datapath.gwArpSnoop
      (Datapath.ethernetFrame (.station 1) (.station 9) acrossReply) .mesh)
      [⟨.nowMs, (1000 : UInt32)⟩, ⟨.learnLocked 1000 0x6909090a (.station 9) .mesh, false⟩] () :=
    snoop_runs .mesh (by decide) (by decide) (by decide) (by decide)
  have sent : Runs (Datapath.meshToAp
      (Datapath.ethernetFrame (.station 1) (.station 9) acrossReply))
      [⟨.alloc 42, true⟩,
        ⟨.txPkt .bridge (Datapath.ethernetFrame (.station 1) (.station 9) acrossReply), true⟩,
        ⟨.espLogI, ()⟩] () := by
    apply Runs.call
    apply Runs.call
    apply Runs.call
    apply Runs.ret
  have fits : Datapath.snapFits acrossReply = true := by decide
  have client : Runs (perform (GateCall.isApClient (.station 1)) : GateThread Bool)
      [⟨.isApClient (.station 1), true⟩] true := Runs.call _ (Runs.ret true)
  apply client.bind
  rw [if_pos rfl, if_pos fits]
  exact snooped.bind (sent.bind (Runs.ret true))

theorem acrossMesh_bridged : Bridged (fun _ => ⟨.station 7, .station 8⟩) acrossMesh where
  handled := by
    have released : Runs (perform GateCall.mmpktRelease : GateThread Unit)
        [⟨.mmpktRelease, ()⟩] () := by
      apply Runs.call
      apply Runs.ret
    refine List.forall_mem_cons.mpr ⟨requested_runs.bind flooded_runs, ?_⟩
    refine List.forall_mem_cons.mpr ⟨?_, List.forall_mem_singleton.mpr ?_⟩
    · exact answeredAcross_runs.bind released
    · exact consumed_runs.bind (Runs.ret ())
  carried := by
    have flooded := MeshMessage.Carries.everyone (macAt clientRequestFrame 0) (.station 1)
      (Datapath.snapPayload clientRequestFrame)
    have whole : Datapath.ethernetFrame (macAt clientRequestFrame 0) (.station 1)
        (Datapath.snapPayload clientRequestFrame) = clientRequestFrame := by decide
    rw [whole] at flooded
    refine List.forall_mem_cons.mpr ⟨fun _ caused => ?_, ?_⟩
    · cases caused
    · refine List.forall_mem_cons.mpr ⟨fun _ caused => ?_, List.forall_mem_singleton.mpr ?_⟩
      · cases caused
        exact ⟨floodedHop, rfl, _, List.mem_singleton_self _, flooded⟩
      · intro _ caused
        cases caused
        exact ⟨answeredHop, rfl, _, List.mem_singleton_self _, .one ..⟩
  once := by
    refine List.pairwise_cons.mpr ⟨?_, List.pairwise_cons.mpr ⟨?_, List.pairwise_singleton ..⟩⟩
    · exact fun _ _ _ _ => rfl
    · intro other member same
      cases List.mem_singleton.mp member
      cases same

theorem acrossMesh_setsOff :
    ∀ index ∈ ({0, 1, 2} : Finset ℕ), SetsOff (Causes acrossMesh) 0 index := by
  have first : Causes acrossMesh 0 1 := ⟨answeredHop, rfl, rfl⟩
  have second : Causes acrossMesh 1 2 := ⟨consumedHop, rfl, rfl⟩
  intro index member
  rcases Finset.mem_insert.mp member with rfl | later
  · exact .refl
  · rcases Finset.mem_insert.mp later with rfl | last
    · exact .single first
    · rw [Finset.mem_singleton.mp last]
      exact .tail (.single first) second

/-- The request sets the two further hops off: three packets, two of them messages, and nobody
is woken. -/
theorem frame_settles_acrossMesh :
    ∑ index ∈ {0, 1, 2}, sentAt acrossMesh index = 3 ∧
      3 ≤ 1 + Fintype.card Bool * (1 + Fintype.card Bool) ∧
        ∑ index ∈ {0, 1, 2}, (messagesAt acrossMesh index).length = 2 ∧
          2 ≤ 1 + Fintype.card Bool ∧ ∑ index ∈ {0, 1, 2}, wokenAt acrossMesh index = 0 ∧
            0 ≤ 1 + Fintype.card Bool * (1 + Fintype.card Bool) := by
  have settles := frame_settles _ acrossMesh acrossMesh_bridged 0 {0, 1, 2} acrossMesh_setsOff
  exact ⟨rfl, settles.1, rfl, settles.2.1, rfl, settles.2.2.1⟩

end Rimba.Gate
