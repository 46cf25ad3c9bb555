import Rimba.Foundation.Thread
import Rimba.Gate.ArpFrame
import Rimba.Gate.ClientSet

/-! # The gate's callbacks and tasks as threads

The functions of `firmware/rimba-halow-mesh-ap` that run in its tasks, cut at
the calls another task can come between: reading the clock, a locked section,
a notification, and everything asked of the driver, of the network stack and of
the log. The received packet, the buffers of a function and its local variables
are its own. Every packet sent here goes out on the AP vif.
-/

namespace Rimba.Gate

/-- Which of the gate's functions sends something. -/
inductive Sender where
  | proxyArp
  | announce
  | bridge
  deriving DecidableEq, Repr

/-- The calls at which another task can come between. -/
inductive GateCall where
  /-- `gw_now_ms` -/
  | nowMs
  /-- `gw_arp_learn` between lock and unlock -/
  | learnLocked (now ip : UInt32) (mac : Mac) (side : GwSide)
  /-- `gw_arp_forget_mac` -/
  | forgetMac (mac : Mac)
  /-- `gw_arp_lookup` between lock and unlock -/
  | lookupLocked (now ip : UInt32)
  /-- `gw_arp_announce_once` between lock and unlock -/
  | announceLocked (now : UInt32)
  /-- `g_gw_arp_task != NULL` -/
  | announceTask
  /-- `xTaskNotifyGive` -/
  | notifyGive
  /-- `ulTaskNotifyTake`, by a notification or after the period -/
  | notifyTake
  /-- `gate_is_ap_client` -/
  | isApClient (mac : Mac)
  /-- `g_ap_client_n`, read outside its critical section -/
  | apClientN
  /-- the critical section of `ap_sta_status_cb` for an authorized station -/
  | apStaAuthorized (mac : Mac)
  /-- the critical section of `ap_sta_status_cb` for a station that left -/
  | apStaUnknown (mac : Mac)
  /-- `mmwlan_alloc_mmpkt_for_tx` -/
  | alloc (len : ℕ)
  /-- `mmwlan_tx_pkt` -/
  | txPkt (sender : Sender) (frame : Bytes)
  /-- `mmwlan_mesh_tx_proxied` -/
  | meshTxProxied (sender : Sender) (eaddr1 eaddr2 : Mac) (payload : Bytes)
  /-- `mmwlan_mesh_tx_group_proxied` -/
  | meshTxGroupProxied (eaddr2 : Mac) (payload : Bytes)
  /-- the release of the received packet -/
  | mmpktRelease
  /-- `netif_is_up` of the netif of a vif -/
  | netifIsUp (side : GwSide)
  /-- `pbuf_alloc` -/
  | pbufAlloc (len : ℕ)
  /-- `netif->input` -/
  | netifInput (side : GwSide) (frame : Bytes)
  /-- `pbuf_free` -/
  | pbufFree
  /-- `ESP_LOGI` -/
  | espLogI
  /-- `mmwlan_mesh_start` -/
  | meshStart
  /-- `mmwlan_ap_enable`, which arms `ap_sta_status_cb` -/
  | apEnable
  /-- `xTaskCreate` of `gw_arp_announce_task`, which sets its handle -/
  | createAnnounceTask
  /-- `mmwlan_register_rx_pkt_ext_cb` for a vif -/
  | registerRx (side : GwSide)
  /-- `mmwlan_mesh_register_ae_rx_cb` -/
  | registerAeRx
  deriving DecidableEq

/-- What each call returns. -/
def GateResponse : GateCall → Type
  | .nowMs => UInt32
  | .lookupLocked .. => Option (Mac × GwSide)
  | .announceLocked _ => List ArpView
  | .apClientN => ℕ
  | .learnLocked .. | .announceTask | .isApClient _ | .alloc _ | .txPkt .. | .meshTxProxied ..
  | .meshTxGroupProxied .. | .netifIsUp _ | .pbufAlloc _ | .netifInput .. | .meshStart | .apEnable
  | .registerRx _ => Bool
  | .forgetMac _ | .notifyGive | .notifyTake | .apStaAuthorized _ | .apStaUnknown _
  | .mmpktRelease | .pbufFree | .espLogI | .createAnnounceTask | .registerAeRx => Unit

/-- What a function of the gate does in its task. -/
abbrev GateThread := Foundation.Thread GateResponse

/-- The calls a task of the gate made, with what they returned. -/
abbrev GateCalls := List (Foundation.Called GateResponse)

/-- A received packet: its bytes, unless it has no data start. -/
abbrev Mmpkt := Option Bytes

/-- The two addresses of the gate itself: `g_ap_bssid` and `g_mesh_mac`. -/
structure GateMacs where
  apBssid : Mac
  meshMac : Mac

/-- A buffer on the stack. Its contents are unspecified, and nothing that is sent
depends on them. -/
def stackBuffer (size : ℕ) : Bytes := List.replicate size 0

theorem length_stackBuffer (size : ℕ) : (stackBuffer size).length = size :=
  List.length_replicate ..

namespace Datapath

open Foundation.Thread

def gwArpWakeAnnounce : GateThread Unit := do
  let created : Bool ← perform GateCall.announceTask
  if created then perform GateCall.notifyGive else pure ()

def gwArpLearn (ip : UInt32) (mac : Mac) (side : GwSide) : GateThread Unit :=
  if learnable ip mac then do
    let now : UInt32 ← perform GateCall.nowMs
    let isNew : Bool ← perform (GateCall.learnLocked now ip mac side)
    if isNew then gwArpWakeAnnounce else pure ()
  else pure ()

def gwArpLookup (ip : UInt32) : GateThread (Option (Mac × GwSide)) := do
  let now : UInt32 ← perform GateCall.nowMs
  perform (GateCall.lookupLocked now ip)

def gwArpSnoop (eth : Bytes) (side : GwSide) : GateThread Unit :=
  if eth.length < 14 then pure ()
  else if byteAt eth 12 = 0x08 ∧ byteAt eth 13 = 0x06 ∧ 14 + 28 ≤ eth.length then
    gwArpLearn (ipAt eth (14 + 14)) (macAt eth (14 + 8)) side
  else if byteAt eth 12 = 0x08 ∧ byteAt eth 13 = 0x00 ∧ 14 + 20 ≤ eth.length then
    gwArpLearn (ipAt eth (14 + 12)) (macAt eth 6) side
  else pure ()

def gwTxApFrame (sender : Sender) (frame : Bytes) : GateThread Unit := do
  let allocated : Bool ← perform (GateCall.alloc frame.length)
  if allocated then
    let _ : Bool ← perform (GateCall.txPkt sender frame)
    pure ()
  else pure ()

/-- The frame is an ARP request. -/
def isArpRequest (eth : Bytes) : Bool :=
  14 + 28 ≤ eth.length && byteAt eth 12 = 0x08 && byteAt eth 13 = 0x06 &&
    byteAt eth (14 + 6) = 0x00 && byteAt eth (14 + 7) = 0x01

/-- The answer of `gw_proxy_arp`, over the link of the requester. -/
def gwProxyReply (fromSide : GwSide) (reqMac : Mac) (spa tpa : UInt32) (tmac : Mac) :
    GateThread Unit :=
  match fromSide with
  | .ap => gwTxApFrame .proxyArp (gwArpBuildReply (stackBuffer 42) reqMac spa tpa tmac)
  | .mesh => do
      let _ : Bool ← perform (GateCall.meshTxProxied .proxyArp reqMac tmac
        (snapArpReply (stackBuffer (8 + 28)) tmac tpa reqMac spa))
      pure ()

def gwProxyArp (eth : Bytes) (fromSide : GwSide) : GateThread Bool :=
  if isArpRequest eth then do
    let found : Option (Mac × GwSide) ← gwArpLookup (ipAt eth (14 + 24))
    match found with
    | none => pure false
    | some (tmac, tside) =>
        if tside = fromSide then pure false
        else do
          gwProxyReply fromSide (macAt eth (14 + 8)) (ipAt eth (14 + 14)) (ipAt eth (14 + 24)) tmac
          perform GateCall.espLogI
          pure true
  else pure false

def gwArpPushToMesh (spa : UInt32) (smac dstMac : Mac) (dpa : UInt32) : GateThread Unit := do
  let _ : Bool ← perform (GateCall.meshTxProxied .announce dstMac smac
    (snapArpReply (stackBuffer (8 + 28)) smac spa dstMac dpa))
  pure ()

/-- The body of the inner loop of `gw_arp_announce_once`: teach host `a` that
host `b` is at its address. -/
def gwArpTeach (a b : ArpView) : GateThread Unit :=
  if a.side = b.side then pure ()
  else
    match a.side with
    | .ap => gwTxApFrame .announce (gwArpBuildReply (stackBuffer 42) a.mac a.ip b.ip b.mac)
    | .mesh => gwArpPushToMesh b.ip b.mac a.mac a.ip

def gwArpAnnounceOnce : GateThread Unit := do
  let now : UInt32 ← perform GateCall.nowMs
  let view : List ArpView ← perform (GateCall.announceLocked now)
  forEach view fun a => forEach view fun b => gwArpTeach a b
  -- `pushed` counts the pairs the loops did not skip
  if view.any fun a => view.any fun b => a.side ≠ b.side then perform GateCall.espLogI else pure ()

/-- One round of the loop of `gw_arp_announce_task`. -/
def gwArpAnnounceTask : GateThread Unit := do
  let _ : Unit ← perform GateCall.notifyTake
  gwArpAnnounceOnce

/-- The frame is copied and handed to the netif of its vif, and the packet is
released. -/
def gwRxDeliver (mmpkt : Mmpkt) (side : GwSide) : GateThread Unit := do
  let frame := mmpkt.getD []
  let up : Bool ← perform (GateCall.netifIsUp side)
  if up ∧ 0 < frame.length ∧ frame.length ≤ 0xFFFF then
    let copied : Bool ← perform (GateCall.pbufAlloc frame.length)
    let _ : Unit ← perform GateCall.mmpktRelease
    if copied then
      let taken : Bool ← perform (GateCall.netifInput side frame)
      if taken then pure () else perform GateCall.pbufFree
    else pure ()
  else perform GateCall.mmpktRelease

/-- The buffer of the mesh RX callback. -/
def mesh2ApSize : ℕ := 14 + 1514

/-- What `gw_mesh_rx_cb` copies of a packet into its buffer. -/
def meshCopied : Mmpkt → Bytes
  | some eth => if 14 ≤ eth.length ∧ eth.length ≤ mesh2ApSize then eth else []
  | none => []

/-- `gw_mesh_rx_cb` up to `answered`. -/
def meshAnswered (copy : Bytes) : GateThread Bool :=
  if 0 < copy.length then do
    gwArpSnoop copy .mesh
    gwProxyArp copy .mesh
  else pure false

/-- Whether `gw_mesh_rx_cb` injects the frame onto the AP: the count is read only
for a group frame. -/
def meshBridged (copy : Bytes) : GateThread Bool :=
  if 0 < copy.length ∧ byteAt copy 0 &&& 0x01 ≠ 0 then do
    let clients : ℕ ← perform GateCall.apClientN
    pure (decide (0 < clients))
  else pure false

/-- A frame from the mesh is put on the AP vif, if a packet can be had for it. -/
def meshToAp (frame : Bytes) : GateThread Unit := do
  let allocated : Bool ← perform (GateCall.alloc frame.length)
  if allocated then
    let sent : Bool ← perform (GateCall.txPkt .bridge frame)
    if sent then perform GateCall.espLogI else pure ()
  else pure ()

def gwMeshRxCb (mmpkt : Mmpkt) : GateThread Unit := do
  let answered : Bool ← meshAnswered (meshCopied mmpkt)
  if answered then perform GateCall.mmpktRelease
  else
    let bridged : Bool ← meshBridged (meshCopied mmpkt)
    if bridged then
      meshToAp (meshCopied mmpkt)
      gwRxDeliver mmpkt .mesh
    else gwRxDeliver mmpkt .mesh

/-- The buffer of the AP RX callback. -/
def ap2MeshSize : ℕ := 8 + 1514

/-- What the AP RX callback does with a frame: `do_unicast_proxy`,
`do_group_proxy` or neither. -/
inductive ApBridging where
  | unicast (dst src : Mac) (payload : Bytes)
  | group (src : Mac) (payload : Bytes)
  | deliver
  deriving DecidableEq

/-- The payload `[LLC/SNAP][L3]` of an Ethernet frame. -/
def snapPayload (eth : Bytes) : Bytes :=
  [0xaa, 0xaa, 0x03, 0x00, 0x00, 0x00, byteAt eth 12, byteAt eth 13] ++ eth.drop 14

/-- The classification of a frame by `gw_ap_rx_cb`. -/
def apBridging (macs : GateMacs) : Mmpkt → ApBridging
  | none => .deliver
  | some eth =>
      if 14 ≤ eth.length then
        let l3 := eth.length - 14
        let isGroup : Bool := byteAt eth 0 &&& 0x01 ≠ 0
        let forGate : Bool := macAt eth 0 = macs.apBssid || macAt eth 0 = macs.meshMac
        if l3 ≤ ap2MeshSize - 8 then
          if isGroup then .group (macAt eth 6) (snapPayload eth)
          else if forGate then .deliver
          else .unicast (macAt eth 0) (macAt eth 6) (snapPayload eth)
        else .deliver
      else .deliver

/-- The start of `gw_ap_rx_cb`: whether the frame is answered. -/
def apAnswered : Mmpkt → GateThread Bool
  | none => pure false
  | some eth =>
      if 14 ≤ eth.length then do
        gwArpSnoop eth .ap
        gwProxyArp eth .ap
      else pure false

/-- The unicast proxying of `gw_ap_rx_cb`. -/
def apUnicast (mmpkt : Mmpkt) (dst src : Mac) (payload : Bytes) : GateThread Unit := do
  let proxied : Bool ← perform (GateCall.meshTxProxied .bridge dst src payload)
  if proxied then
    let _ : Unit ← perform GateCall.espLogI
    perform GateCall.mmpktRelease
  else gwRxDeliver mmpkt .ap

/-- The group proxying of `gw_ap_rx_cb`. -/
def apGroup (mmpkt : Mmpkt) (src : Mac) (payload : Bytes) : GateThread Unit := do
  let flooded : Bool ← perform (GateCall.meshTxGroupProxied src payload)
  if flooded then
    let _ : Unit ← perform GateCall.espLogI
    gwRxDeliver mmpkt .ap
  else gwRxDeliver mmpkt .ap

/-- `gw_ap_rx_cb` behind its classification of a frame. -/
def apSettled (macs : GateMacs) (mmpkt : Mmpkt) : GateThread Unit :=
  match apBridging macs mmpkt with
  | .unicast dst src payload => apUnicast mmpkt dst src payload
  | .group src payload => apGroup mmpkt src payload
  | .deliver => gwRxDeliver mmpkt .ap

def gwApRxCb (macs : GateMacs) (mmpkt : Mmpkt) : GateThread Unit := do
  let answered : Bool ← apAnswered mmpkt
  if answered then perform GateCall.mmpktRelease else apSettled macs mmpkt

/-- The buffer of the AE callback. -/
def ae2ApSize : ℕ := 14 + 1514

/-- The Ethernet frame rebuilt from a proxied payload. -/
def ethernetFrame (eaddr1 eaddr2 : Mac) (payload : Bytes) : Bytes :=
  eaddr1.toList ++ (eaddr2.toList ++ ([byteAt payload 6, byteAt payload 7] ++ payload.drop 8))

/-- The payload starts with LLC/SNAP and its frame fits the buffer. -/
def snapFits (payload : Bytes) : Bool :=
  8 ≤ payload.length && byteAt payload 0 = 0xaa && byteAt payload 1 = 0xaa &&
    byteAt payload 2 = 0x03 && payload.length - 8 ≤ ae2ApSize - 14

def gateAeRxCb (eaddr1 eaddr2 : Mac) (payload : Bytes) : GateThread Bool := do
  let client : Bool ← perform (GateCall.isApClient eaddr1)
  if client then
    if snapFits payload then
      gwArpSnoop (ethernetFrame eaddr1 eaddr2 payload) .mesh
      meshToAp (ethernetFrame eaddr1 eaddr2 payload)
      pure true
    else pure true
  else pure false

def apStaStatusCb (status : Option ApStaStatus) : GateThread Unit :=
  match status with
  | none => pure ()
  | some status =>
      match status.state with
      | .authorized => do
          let _ : Unit ← perform (GateCall.apStaAuthorized status.macAddr)
          perform GateCall.espLogI
      | .unknown => do
          let _ : Unit ← perform (GateCall.apStaUnknown status.macAddr)
          let _ : Unit ← perform (GateCall.forgetMac status.macAddr)
          perform GateCall.espLogI
      | .other _ => pure ()

/-- `app_main` from the start of the mesh on: the AP, the announce task, and only
then the RX callbacks. A callback that cannot be registered aborts. -/
def appMain : GateThread Unit := do
  let meshUp : Bool ← perform GateCall.meshStart
  if meshUp then
    let apUp : Bool ← perform GateCall.apEnable
    if apUp then
      let _ : Unit ← perform GateCall.createAnnounceTask
      let meshRegistered : Bool ← perform (GateCall.registerRx .mesh)
      if meshRegistered then
        let apRegistered : Bool ← perform (GateCall.registerRx .ap)
        if apRegistered then perform GateCall.registerAeRx else pure ()
      else pure ()
    else pure ()
  else pure ()

end Datapath

end Rimba.Gate
