import Rimba.Gate.Datapath

/-! # The calls each function of the datapath makes

Whatever a callback or the announce task is answered, it makes calls of its own
kind only: an RX callback (`Rimba.Gate.gwMeshRxCb_only`,
`Rimba.Gate.gwApRxCb_only`, `Rimba.Gate.gateAeRxCb_only`) neither keeps the set
of clients nor sweeps the table, the status callback
(`Rimba.Gate.apStaStatusCb_only`) sends nothing, and the announce task
(`Rimba.Gate.gwArpAnnounceOnce_only`) learns nothing.
-/

namespace Rimba.Gate

open Foundation.Thread

/-- The calls of a snoop: the clock, the table and the notification. -/
def GateCall.learns : GateCall → Bool
  | .nowMs | .learnLocked .. | .announceTask | .notifyGive => true
  | _ => false

theorem gwArpLearn_only (ip : UInt32) (mac : Mac) (side : GwSide) :
    (Datapath.gwArpLearn ip mac side).Only fun call => call.learns = true := by
  apply Only.ite
  · refine Only.call rfl fun now => Only.call rfl fun isNew => ?_
    apply Only.ite
    · refine Only.call rfl fun created => ?_
      apply Only.ite
      · exact Only.perform rfl
      · trivial
    · trivial
  · trivial

theorem gwArpSnoop_only (eth : Bytes) (side : GwSide) :
    (Datapath.gwArpSnoop eth side).Only fun call => call.learns = true := by
  apply Only.ite
  · trivial
  · apply Only.ite
    · exact gwArpLearn_only ..
    · apply Only.ite
      · exact gwArpLearn_only ..
      · trivial

/-- The calls of a local delivery: the netif, its buffer and the release of the
packet. -/
def GateCall.delivers : GateCall → Bool
  | .netifIsUp _ | .pbufAlloc _ | .mmpktRelease | .netifInput .. | .pbufFree => true
  | _ => false

theorem gwRxDeliver_only (mmpkt : Mmpkt) (side : GwSide) :
    (Datapath.gwRxDeliver mmpkt side).Only fun call => call.delivers = true := by
  refine Only.call rfl fun up => ?_
  apply Only.ite
  · refine Only.call rfl fun copied => Only.call rfl fun _ => ?_
    apply Only.ite
    · refine Only.call rfl fun taken => ?_
      apply Only.ite
      · trivial
      · exact Only.perform rfl
    · trivial
  · exact Only.perform rfl

/-- The calls of a status callback. -/
def GateCall.ofStatus : GateCall → Bool
  | .apStaAuthorized _ | .apStaUnknown _ | .forgetMac _ | .espLogI => true
  | _ => false

theorem apStaStatusCb_only (status : Option ApStaStatus) :
    (Datapath.apStaStatusCb status).Only fun call => call.ofStatus = true := by
  rcases status with _ | ⟨_ | _ | _, mac⟩
  · trivial
  · exact Only.call rfl fun _ => Only.call rfl fun _ => Only.perform rfl
  · exact Only.call rfl fun _ => Only.perform rfl
  · trivial

/-- The calls of the announce task. -/
def GateCall.announces : GateCall → Bool
  | .notifyTake | .nowMs | .announceLocked _ | .alloc _ | .txPkt .. | .meshTxProxied ..
  | .espLogI => true
  | _ => false

theorem gwArpTeach_only (a b : ArpView) :
    (Datapath.gwArpTeach a b).Only fun call => call.announces = true := by
  apply Only.ite
  · trivial
  · cases a.side with
    | ap =>
        refine Only.call rfl fun allocated => ?_
        apply Only.ite
        · exact Only.call rfl fun _ => trivial
        · trivial
    | mesh => exact Only.call rfl fun _ => trivial

theorem gwArpAnnounceOnce_only :
    Datapath.gwArpAnnounceOnce.Only fun call => call.announces = true := by
  refine Only.call rfl fun now => Only.call rfl fun view => ?_
  apply Only.bind
  · exact Only.forEach fun a _ => Only.forEach fun b _ => gwArpTeach_only a b
  · intro _
    apply Only.ite
    · exact Only.perform rfl
    · trivial

theorem gwArpAnnounceTask_only :
    Datapath.gwArpAnnounceTask.Only fun call => call.announces = true :=
  Only.call rfl fun _ => gwArpAnnounceOnce_only

/-- The calls of the RX callbacks. -/
def GateCall.receives : GateCall → Bool
  | .nowMs | .learnLocked .. | .announceTask | .notifyGive | .lookupLocked .. | .isApClient _
  | .apClientN | .alloc _ | .txPkt .. | .meshTxProxied .. | .meshTxGroupProxied .. | .mmpktRelease
  | .netifIsUp _ | .pbufAlloc _ | .netifInput .. | .pbufFree | .espLogI => true
  | _ => false

theorem GateCall.receives_of_learns (call : GateCall) (learns : call.learns = true) :
    call.receives = true := by
  cases call <;> first | rfl | cases learns

theorem GateCall.receives_of_delivers (call : GateCall) (delivers : call.delivers = true) :
    call.receives = true := by
  cases call <;> first | rfl | cases delivers

/-- The calls of a lookup, of its answer and of a frame put on the AP. -/
def GateCall.bridges : GateCall → Bool
  | .nowMs | .lookupLocked .. | .alloc _ | .txPkt .. | .meshTxProxied .. | .espLogI => true
  | _ => false

theorem GateCall.receives_of_bridges (call : GateCall) (bridges : call.bridges = true) :
    call.receives = true := by
  cases call <;> first | rfl | cases bridges

theorem gwProxyArp_only (eth : Bytes) (fromSide : GwSide) :
    (Datapath.gwProxyArp eth fromSide).Only fun call => call.bridges = true := by
  apply Only.ite
  · refine Only.call rfl fun now => Only.call rfl fun found => ?_
    rcases found with _ | ⟨tmac, tside⟩
    · trivial
    · apply Only.ite
      · trivial
      · apply Only.bind
        · cases fromSide with
          | ap =>
              refine Only.call rfl fun allocated => ?_
              exact Only.ite (Only.call rfl fun _ => trivial) trivial
          | mesh => exact Only.call rfl fun _ => trivial
        · exact fun _ => Only.call rfl fun _ => trivial
  · trivial

/-- A frame is learned from and perhaps answered. -/
theorem snooped_only (eth : Bytes) (side : GwSide) :
    (do Datapath.gwArpSnoop eth side; Datapath.gwProxyArp eth side : GateThread Bool).Only
      fun call => call.receives = true :=
  Only.bind ((gwArpSnoop_only eth side).mono GateCall.receives_of_learns)
    fun _ => (gwProxyArp_only eth side).mono GateCall.receives_of_bridges

theorem meshToAp_only (frame : Bytes) :
    (Datapath.meshToAp frame).Only fun call => call.bridges = true := by
  refine Only.call rfl fun allocated => Only.ite ?_ trivial
  exact Only.call rfl fun sent => Only.ite (Only.perform rfl) trivial

theorem gwMeshRxCb_only (mmpkt : Mmpkt) :
    (Datapath.gwMeshRxCb mmpkt).Only fun call => call.receives = true := by
  have delivers := (gwRxDeliver_only mmpkt .mesh).mono GateCall.receives_of_delivers
  refine Only.bind (Only.ite (snooped_only ..) trivial) fun answered => ?_
  refine Only.ite (Only.perform rfl) ?_
  refine Only.bind (Only.ite (Only.call rfl fun _ => trivial) trivial) fun bridged => ?_
  have bridges := (meshToAp_only (Datapath.meshCopied mmpkt)).mono GateCall.receives_of_bridges
  exact Only.ite (Only.bind bridges fun _ => delivers) delivers

/-- Behind its classification `gw_ap_rx_cb` offers the frame to the mesh as it was
classified, and delivers or releases it. -/
theorem apSettled_only {allowed : GateCall → Prop} {macs : GateMacs} {mmpkt : Mmpkt}
    (unicast : ∀ dst src payload, Datapath.apBridging macs mmpkt = .unicast dst src payload →
      allowed (.meshTxProxied .bridge dst src payload))
    (group : ∀ src payload, Datapath.apBridging macs mmpkt = .group src payload →
      allowed (.meshTxGroupProxied src payload))
    (logs : allowed .espLogI)
    (delivers : ∀ call : GateCall, call.delivers = true → allowed call) :
    (Datapath.apSettled macs mmpkt).Only allowed := by
  have delivered := (gwRxDeliver_only mmpkt .ap).mono delivers
  unfold Datapath.apSettled
  cases classified : Datapath.apBridging macs mmpkt with
  | unicast dst src payload =>
      refine Only.call (unicast dst src payload classified) fun proxied => ?_
      apply Only.ite
      · exact Only.call logs fun _ => Only.perform (delivers _ rfl)
      · exact delivered
  | group src payload =>
      refine Only.call (group src payload classified) fun flooded => ?_
      apply Only.ite
      · exact Only.call logs fun _ => delivered
      · exact delivered
  | deliver => exact delivered

theorem gwApRxCb_only (macs : GateMacs) (mmpkt : Mmpkt) :
    (Datapath.gwApRxCb macs mmpkt).Only fun call => call.receives = true := by
  rw [Datapath.gwApRxCb]
  apply Only.bind
  · cases mmpkt with
    | none => trivial
    | some eth => exact Only.ite (snooped_only ..) trivial
  · intro answered
    apply Only.ite
    · exact Only.perform rfl
    · exact apSettled_only (fun _ _ _ _ => rfl) (fun _ _ _ => rfl) rfl
        GateCall.receives_of_delivers

theorem gateAeRxCb_only (eaddr1 eaddr2 : Mac) (payload : Bytes) :
    (Datapath.gateAeRxCb eaddr1 eaddr2 payload).Only fun call => call.receives = true := by
  refine Only.call rfl fun client => Only.ite (Only.ite ?_ trivial) trivial
  refine Only.bind ((gwArpSnoop_only _ .mesh).mono GateCall.receives_of_learns) fun _ => ?_
  exact Only.bind ((meshToAp_only _).mono GateCall.receives_of_bridges) fun _ => trivial

/-- The calls of `app_main`. -/
def GateCall.starts : GateCall → Bool
  | .meshStart | .apEnable | .createAnnounceTask | .registerRx _ | .registerAeRx => true
  | _ => false

theorem appMain_only : Datapath.appMain.Only fun call => call.starts = true := by
  refine Only.call rfl fun meshUp => Only.ite (Only.call rfl fun apUp => ?_) trivial
  refine Only.ite (Only.call rfl fun _ => Only.call rfl fun meshRegistered => ?_) trivial
  refine Only.ite (Only.call rfl fun apRegistered => ?_) trivial
  exact Only.ite (Only.perform rfl) trivial

/-- An answer to each call. -/
def GateCall.someResponse : (call : GateCall) → GateResponse call
  | .nowMs => (0 : UInt32)
  | .lookupLocked .. => (none : Option (Mac × GwSide))
  | .announceLocked _ => ([] : List ArpView)
  | .apClientN => (0 : ℕ)
  | .learnLocked .. | .announceTask | .isApClient _ | .alloc _ | .txPkt .. | .meshTxProxied ..
  | .meshTxGroupProxied .. | .netifIsUp _ | .pbufAlloc _ | .netifInput .. | .meshStart | .apEnable
  | .registerRx _ => false
  | .forgetMac _ | .notifyGive | .notifyTake | .apStaAuthorized _ | .apStaUnknown _
  | .mmpktRelease | .pbufFree | .espLogI | .createAnnounceTask | .registerAeRx => ()

end Rimba.Gate
