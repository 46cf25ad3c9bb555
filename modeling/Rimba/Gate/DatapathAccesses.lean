import Rimba.Foundation.Memory
import Rimba.Gate.ArpCodec

/-! # The memory accesses of the RX paths

The RX callbacks of `Rimba.Gate.Datapath` again, with every byte they read or write,
for their log lines too: the received frame or payload is an area of just its bytes,
a buffer an area nothing was written to. An access outside an area, of a byte that
was not written, and a length that falls below zero are faults. Where C leaves out
the rest of a condition, its bytes are read here all the same.
-/

namespace Rimba.Gate

open Foundation

/-- What a function of the gate does in its task, with its memory accesses. -/
abbrev GateFaulting := Foundation.Faulting GateResponse

/-- The cells of a frame, a payload or a buffer. -/
abbrev ByteArea := Area UInt8

namespace Accesses

open Foundation.Faulting

/-- A byte is read. -/
def readByte (area : ByteArea) (offset : ℕ) : GateFaulting UInt8 := access (area.read offset)

/-- Six bytes are read. -/
def readMac (area : ByteArea) (offset : ℕ) : GateFaulting Mac :=
  access ((area.readMany offset 6).map fun bytes => macAt bytes 0)

/-- Four bytes are read into a `uint32_t`. -/
def readIp (area : ByteArea) (offset : ℕ) : GateFaulting UInt32 :=
  access ((area.readMany offset 4).map fun bytes => ipAt bytes 0)

/-- `memcpy` of `count` bytes from one area to another. -/
def copy (target : ByteArea) (offset : ℕ) (source : ByteArea) (start count : ℕ) :
    GateFaulting ByteArea := do
  let bytes ← access (source.readMany start count)
  access (target.write offset bytes)

/-- `gw_arp_learn`, given where the hardware address is. -/
def gwArpLearn (ip : UInt32) (area : ByteArea) (mac : ℕ) (side : GwSide) : GateFaulting Unit := do
  let first ← readByte area mac
  if ip = 0 ∨ first &&& 0x01 ≠ 0 then pure ()
  else
    let now : UInt32 ← call GateCall.nowMs
    let sender ← readMac area mac
    let isNew : Bool ← call (GateCall.learnLocked now ip sender side)
    if isNew then safely Datapath.gwArpWakeAnnounce else pure ()

def gwArpSnoop (eth : ByteArea) (elen : ℕ) (side : GwSide) : GateFaulting Unit :=
  if elen < 14 then pure ()
  else do
    let first ← readByte eth 12
    let second ← readByte eth 13
    if first = 0x08 ∧ second = 0x06 ∧ 14 + 28 ≤ elen then do
      let spa ← readIp eth (14 + 14)
      gwArpLearn spa eth (14 + 8) side
    else if first = 0x08 ∧ second = 0x00 ∧ 14 + 20 ≤ elen then do
      let sip ← readIp eth (14 + 12)
      gwArpLearn sip eth 6 side
    else pure ()

/-- `mmpkt_append_data` to a packet allocated for `len` bytes, and
`mmwlan_tx_pkt`. -/
def sendOnAp (sender : Sender) (frame : ByteArea) (len : ℕ) : GateFaulting Bool := do
  let pkt ← copy (.unwritten len) 0 frame 0 len
  let bytes ← access (pkt.readMany 0 len)
  call (GateCall.txPkt sender bytes)

def gwTxApFrame (sender : Sender) (frame : ByteArea) (len : ℕ) : GateFaulting Unit := do
  let allocated : Bool ← call (GateCall.alloc len)
  if allocated then
    let _ : Bool ← sendOnAp sender frame len
    pure ()
  else pure ()

/-- The answer of `gw_proxy_arp`, over the link of the requester. -/
def gwProxyReply (fromSide : GwSide) (reqMac : Mac) (spa tpa : UInt32) (tmac : Mac) :
    GateFaulting Unit :=
  match fromSide with
  | .ap => do
      let reply ← access ((Area.unwritten 42).writeAll (gwArpBuildReplyWrites reqMac spa tpa tmac))
      gwTxApFrame .proxyArp reply 42
  | .mesh => do
      let snap ← access ((Area.unwritten (8 + 28)).writeAll (gwProxyArpWrites reqMac spa tpa tmac))
      let payload ← access (snap.readMany 0 (8 + 28))
      let _ : Bool ← call (GateCall.meshTxProxied .proxyArp reqMac tmac payload)
      pure ()

def gwProxyArp (eth : ByteArea) (elen : ℕ) (fromSide : GwSide) : GateFaulting Bool :=
  if elen < 14 + 28 then pure false
  else do
    let first ← readByte eth 12
    let second ← readByte eth 13
    if first ≠ 0x08 ∨ second ≠ 0x06 then pure false
    else
      let third ← readByte eth (14 + 6)
      let fourth ← readByte eth (14 + 7)
      if third ≠ 0x00 ∨ fourth ≠ 0x01 then pure false
      else
        let tpa ← readIp eth (14 + 24)
        let found : Option (Mac × GwSide) ← safely (Datapath.gwArpLookup tpa)
        match found with
        | none => pure false
        | some (tmac, tside) =>
            if tside = fromSide then pure false
            else do
              let spa ← readIp eth (14 + 14)
              let reqMac ← readMac eth (14 + 8)
              gwProxyReply fromSide reqMac spa tpa tmac
              -- the log line shows the requester, the last byte of `tpa` and `tmac`
              let _ ← readMac eth (14 + 8)
              let _ ← readByte ((ipOctets tpa).map some) 3
              call GateCall.espLogI
              pure true

/-- The area of a received packet, unless it has no data start. -/
def packetArea (mmpkt : Mmpkt) : Option ByteArea := mmpkt.map fun bytes => bytes.map some

/-- `mmpkt_get_data_length` -/
def packetLength (mmpkt : Mmpkt) : ℕ := (mmpkt.getD []).length

def gwRxDeliver (mmpkt : Mmpkt) (side : GwSide) : GateFaulting Unit := do
  let len := packetLength mmpkt
  let up : Bool ← call (GateCall.netifIsUp side)
  if up ∧ 0 < len ∧ len ≤ 0xFFFF then
    let copied : Bool ← call (GateCall.pbufAlloc len)
    if copied then
      -- the buffer is allocated for `(u16_t)len` bytes
      let payload ← copy (.unwritten (len % 2 ^ 16)) 0 ((packetArea mmpkt).getD []) 0 len
      let _ : Unit ← call GateCall.mmpktRelease
      let frame ← access (payload.readMany 0 len)
      let taken : Bool ← call (GateCall.netifInput side frame)
      if taken then pure () else call GateCall.pbufFree
    else call GateCall.mmpktRelease
  else call GateCall.mmpktRelease

/-- A frame from the mesh is put on the AP vif, with what is read of it before it is
sent and what its log line shows. -/
def meshToAp {Value : Type} (frame : ByteArea) (len : ℕ) (before : GateFaulting Value)
    (logged : Value → GateFaulting Unit) : GateFaulting Unit := do
  let allocated : Bool ← call (GateCall.alloc len)
  if allocated then
    let value ← before
    let sent : Bool ← sendOnAp .bridge frame len
    if sent then do
      logged value
      call GateCall.espLogI
    else pure ()
  else pure ()

/-- `et` of `gw_mesh_rx_cb`, by its two bytes. -/
def meshEthertype (frame : ByteArea) : GateFaulting (UInt8 × UInt8) := do
  let first ← readByte frame 12
  let second ← readByte frame 13
  pure (first, second)

/-- What the log line of `gw_mesh_rx_cb` shows of a bridged frame. -/
def meshBridgedLog (frame : ByteArea) (len : ℕ) (et : UInt8 × UInt8) : GateFaulting Unit := do
  let _ ← readMac frame 6
  if et = (0x08, 0x06) ∧ 14 + 28 ≤ len then
    let _ ← readByte frame (14 + 7)
    let _ ← readByte frame (14 + 17)
    let _ ← readByte frame (14 + 27)
    pure ()
  else
    let _ ← readMac frame 0
    pure ()

/-- What `gw_mesh_rx_cb` copies of a packet: its buffer, and `buflen`. -/
def meshCopied (mmpkt : Mmpkt) : GateFaulting (ByteArea × ℕ) :=
  match packetArea mmpkt with
  | some eth =>
      if 14 ≤ packetLength mmpkt ∧ packetLength mmpkt ≤ Datapath.mesh2ApSize then do
        let buffer ← copy (.unwritten Datapath.mesh2ApSize) 0 eth 0 (packetLength mmpkt)
        pure (buffer, packetLength mmpkt)
      else pure (.unwritten Datapath.mesh2ApSize, 0)
  | none => pure (.unwritten Datapath.mesh2ApSize, 0)

/-- `gw_mesh_rx_cb` up to `answered`. -/
def meshAnswered (buffer : ByteArea) (buflen : ℕ) : GateFaulting Bool :=
  if 0 < buflen then do
    gwArpSnoop buffer buflen .mesh
    gwProxyArp buffer buflen .mesh
  else pure false

/-- Whether `gw_mesh_rx_cb` injects the frame onto the AP. -/
def meshBridged (buffer : ByteArea) (buflen : ℕ) : GateFaulting Bool :=
  if 0 < buflen then do
    let first ← readByte buffer 0
    if first &&& 0x01 ≠ 0 then
      let clients : ℕ ← call GateCall.apClientN
      pure (decide (0 < clients))
    else pure false
  else pure false

def gwMeshRxCb (mmpkt : Mmpkt) : GateFaulting Unit := do
  let copied ← meshCopied mmpkt
  let answered ← meshAnswered copied.1 copied.2
  if answered then call GateCall.mmpktRelease
  else
    let bridged ← meshBridged copied.1 copied.2
    if bridged then
      meshToAp copied.1 copied.2 (meshEthertype copied.1) (meshBridgedLog copied.1 copied.2)
      gwRxDeliver mmpkt .mesh
    else gwRxDeliver mmpkt .mesh

/-- The locals of `gw_ap_rx_cb` behind its classification of a frame. -/
structure ApLocals where
  doUnicastProxy : Bool
  doGroupProxy : Bool
  dst : ByteArea
  src : ByteArea
  l3 : ℕ
  buffer : ByteArea

/-- The locals before the classification. -/
def ApLocals.initial : ApLocals :=
  ⟨false, false, .unwritten 6, .unwritten 6, 0, .unwritten Datapath.ap2MeshSize⟩

/-- The classification of a frame by `gw_ap_rx_cb`. -/
def apBridging (macs : GateMacs) (mmpkt : Mmpkt) : GateFaulting ApLocals :=
  match packetArea mmpkt with
  | none => pure .initial
  | some eth =>
      if 14 ≤ packetLength mmpkt then do
        let l3 ← access (subtract (packetLength mmpkt) 14)
        let first ← readByte eth 0
        let da ← readMac eth 0
        let isGroup : Bool := first &&& 0x01 ≠ 0
        let forGate : Bool := da = macs.apBssid || da = macs.meshMac
        if l3 ≤ Datapath.ap2MeshSize - 8 then do
          let dst ← copy (.unwritten 6) 0 eth 0 6
          let src ← copy (.unwritten 6) 0 eth 6 6
          let high ← readByte eth 12
          let low ← readByte eth 13
          let buffer ← access ((Area.unwritten Datapath.ap2MeshSize).writeAll
            [(0, [0xaa]), (1, [0xaa]), (2, [0x03]), (3, [0x00]), (4, [0x00]), (5, [0x00]),
              (6, [high]), (7, [low])])
          let buffer ← copy buffer 8 eth 14 l3
          pure ⟨!isGroup && !forGate, isGroup, dst, src, l3, buffer⟩
        else pure { ApLocals.initial with l3 := l3 }
      else pure .initial

/-- The start of `gw_ap_rx_cb`: whether the frame is answered. -/
def apAnswered (mmpkt : Mmpkt) : GateFaulting Bool :=
  match packetArea mmpkt with
  | none => pure false
  | some eth =>
      if 14 ≤ packetLength mmpkt then do
        gwArpSnoop eth (packetLength mmpkt) .ap
        gwProxyArp eth (packetLength mmpkt) .ap
      else pure false

/-- The unicast proxying of `gw_ap_rx_cb`, with its log line. -/
def apUnicast (locals : ApLocals) : GateFaulting Bool :=
  if locals.doUnicastProxy then do
    let dst ← readMac locals.dst 0
    let src ← readMac locals.src 0
    let payload ← access (locals.buffer.readMany 0 (8 + locals.l3))
    let proxied : Bool ← call (GateCall.meshTxProxied .bridge dst src payload)
    if proxied then do
      let _ ← readMac locals.src 0
      let _ ← readMac locals.dst 0
      call GateCall.espLogI
      pure true
    else pure false
  else pure false

/-- What the log line of `gw_ap_rx_cb` shows of a flooded frame. -/
def apGroupLog (locals : ApLocals) : GateFaulting Unit := do
  let first ← readByte locals.buffer 6
  let second ← readByte locals.buffer 7
  let _ ← readMac locals.src 0
  if first = 0x08 ∧ second = 0x06 ∧ 28 ≤ locals.l3 then
    let _ ← readByte locals.buffer (8 + 7)
    let _ ← readByte locals.buffer (8 + 17)
    let _ ← readByte locals.buffer (8 + 27)
    pure ()
  else
    let _ ← readMac locals.dst 0
    pure ()

/-- The group proxying of `gw_ap_rx_cb`, with its log line. -/
def apGroup (locals : ApLocals) : GateFaulting Unit :=
  if locals.doGroupProxy then do
    let src ← readMac locals.src 0
    let payload ← access (locals.buffer.readMany 0 (8 + locals.l3))
    let flooded : Bool ← call (GateCall.meshTxGroupProxied src payload)
    if flooded then do
      apGroupLog locals
      call GateCall.espLogI
    else pure ()
  else pure ()

def gwApRxCb (macs : GateMacs) (mmpkt : Mmpkt) : GateFaulting Unit := do
  let answered ← apAnswered mmpkt
  if answered then call GateCall.mmpktRelease
  else
    let locals ← apBridging macs mmpkt
    let proxied ← apUnicast locals
    if proxied then call GateCall.mmpktRelease
    else
      apGroup locals
      gwRxDeliver mmpkt .ap

/-- The cells of an address the driver hands over. -/
def macArea (mac : Mac) : ByteArea := mac.toList.map some

/-- The frame that `gate_ae_rx_cb` rebuilds in its buffer. -/
def ethernetFrame (eaddr1 eaddr2 : Mac) (payload : ByteArea) (l3 : ℕ) : GateFaulting ByteArea := do
  let buffer ← copy (.unwritten Datapath.ae2ApSize) 0 (macArea eaddr1) 0 6
  let buffer ← copy buffer 6 (macArea eaddr2) 0 6
  let buffer ← copy buffer 12 payload 6 1
  let buffer ← copy buffer 13 payload 7 1
  copy buffer 14 payload 8 l3

/-- What the log line of `gate_ae_rx_cb` shows. -/
def aeLog (eaddr1 eaddr2 : Mac) : GateFaulting Unit := do
  let _ ← readMac (macArea eaddr1) 0
  let _ ← readMac (macArea eaddr2) 0
  pure ()

/-- A payload of an AP client is decapsulated. -/
def aeDecapsulated (eaddr1 eaddr2 : Mac) (payload : ByteArea) (len : ℕ) : GateFaulting Unit :=
  if 8 ≤ len then do
    let first ← readByte payload 0
    let second ← readByte payload 1
    let third ← readByte payload 2
    if first = 0xaa ∧ second = 0xaa ∧ third = 0x03 then
      let l3 ← access (subtract len 8)
      if l3 ≤ Datapath.ae2ApSize - 14 then do
        let buffer ← ethernetFrame eaddr1 eaddr2 payload l3
        gwArpSnoop buffer (14 + l3) .mesh
        meshToAp buffer (14 + l3) (pure ()) fun _ => aeLog eaddr1 eaddr2
      else pure ()
    else pure ()
  else pure ()

def gateAeRxCb (eaddr1 eaddr2 : Mac) (payload : Bytes) : GateFaulting Bool := do
  let client : Bool ← call (GateCall.isApClient eaddr1)
  if client then do
    aeDecapsulated eaddr1 eaddr2 (payload.map some) payload.length
    pure true
  else pure false

end Accesses

end Rimba.Gate
