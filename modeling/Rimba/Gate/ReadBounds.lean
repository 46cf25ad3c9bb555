import Rimba.Gate.DatapathAccesses

/-! # The RX paths stay inside their areas

Whatever is received, no memory access of an RX callback faults: with their accesses
the callbacks are the threads of `Rimba.Gate.Datapath`
(`Rimba.Gate.rxPaths_safe`).
-/

namespace Rimba.Gate

open Foundation Foundation.Faulting

namespace Accesses

variable {Value : Type}

theorem byteAt_slice {bytes : Bytes} {offset count i : ℕ} (inside : i < count) :
    byteAt ((bytes.drop offset).take count) i = byteAt bytes (offset + i) := by
  rw [byteAt, byteAt, List.getD_eq_getElem?_getD, List.getD_eq_getElem?_getD,
    List.getElem?_take_of_lt inside, List.getElem?_drop]

theorem macAt_slice (bytes : Bytes) (offset : ℕ) :
    macAt ((bytes.drop offset).take 6) 0 = macAt bytes offset := by
  apply Vector.ext
  intro i inRange
  simp only [macAt, Vector.getElem_ofFn, Nat.zero_add]
  exact byteAt_slice inRange

theorem ipAt_slice (bytes : Bytes) (offset : ℕ) :
    ipAt ((bytes.drop offset).take 4) 0 = ipAt bytes offset := by
  have octet {i : ℕ} (inRange : i < 4) := @byteAt_slice bytes offset 4 i inRange
  rw [ipAt, ipAt, octet (by decide : 0 < 4), octet (by decide : 0 + 1 < 4),
    octet (by decide : 0 + 2 < 4), octet (by decide : 0 + 3 < 4)]
  rfl

theorem readByte_bind {bytes : Bytes} {room offset : ℕ} (inside : offset < bytes.length)
    (later : UInt8 → GateFaulting Value) :
    readByte (.holding bytes room) offset >>= later = later (byteAt bytes offset) := by
  rw [readByte, Area.read_holding inside, access_bind, byteAt, List.getD_eq_getElem?_getD,
    List.getElem?_eq_getElem inside, Option.getD_some]

theorem readMac_bind {bytes : Bytes} {room offset : ℕ} (inside : offset + 6 ≤ bytes.length)
    (later : Mac → GateFaulting Value) :
    readMac (.holding bytes room) offset >>= later = later (macAt bytes offset) := by
  rw [readMac, Area.readMany_holding inside, Option.map_some, access_bind, macAt_slice]

theorem readIp_bind {bytes : Bytes} {room offset : ℕ} (inside : offset + 4 ≤ bytes.length)
    (later : UInt32 → GateFaulting Value) :
    readIp (.holding bytes room) offset >>= later = later (ipAt bytes offset) := by
  rw [readIp, Area.readMany_holding inside, Option.map_some, access_bind, ipAt_slice]

/-- A copy behind what a buffer holds. -/
theorem copy_behind {items source : Bytes} {room spare offset start count : ℕ}
    (behind : offset = items.length) (inside : start + count ≤ source.length)
    (fits : count ≤ room) :
    copy (.holding items room) offset (.holding source spare) start count =
      pure (.holding (items ++ (source.drop start).take count) (room - count)) := by
  have size : ((source.drop start).take count).length = count := by
    rw [List.length_take, List.length_drop]
    omega
  have written := @Area.write_holding _ items ((source.drop start).take count) room (by omega)
  rw [size] at written
  rw [copy, Area.readMany_holding inside, access_bind, behind, written]
  rfl

theorem copy_bind {items source : Bytes} {room spare offset start count : ℕ}
    (behind : offset = items.length) (inside : start + count ≤ source.length)
    (fits : count ≤ room) (later : ByteArea → GateFaulting Value) :
    copy (.holding items room) offset (.holding source spare) start count >>= later =
      later (.holding (items ++ (source.drop start).take count) (room - count)) := by
  rw [copy_behind behind inside fits, pure_bind]

/-- A copy to the start of a buffer. -/
theorem copy_unwritten_bind {source : Bytes} {size spare start count : ℕ}
    (inside : start + count ≤ source.length) (fits : count ≤ size)
    (later : ByteArea → GateFaulting Value) :
    copy (.unwritten size) 0 (.holding source spare) start count >>= later =
      later (.holding ((source.drop start).take count) (size - count)) :=
  @copy_bind Value [] source size spare 0 start count rfl inside fits later

theorem gwArpLearn_safe {bytes : Bytes} {room offset : ℕ} (inside : offset + 6 ≤ bytes.length)
    (ip : UInt32) (side : GwSide) :
    gwArpLearn ip (.holding bytes room) offset side =
      safely (Datapath.gwArpLearn ip (macAt bytes offset) side) := by
  have first : byteAt bytes offset = (macAt bytes offset)[0] := by
    rw [macAt, Vector.getElem_ofFn]
    rfl
  have refused : (ip = 0 ∨ byteAt bytes offset &&& 0x01 ≠ 0) ↔
      ¬ learnable ip (macAt bytes offset) = true := by
    rw [first, learnable, Mac.group, Bool.and_eq_true, Bool.not_eq_true', decide_eq_true_eq,
      decide_eq_false_iff_not, not_and_or, not_not, not_not]
  rw [gwArpLearn, readByte_bind (by omega), Datapath.gwArpLearn]
  by_cases guarded : learnable ip (macAt bytes offset) = true
  · rw [if_neg fun guard => refused.mp guard guarded, if_pos guarded]
    apply safely_bind
    intro now
    rw [readMac_bind inside]
    apply safely_bind
    intro isNew
    apply safely_ite
    · exact fun _ => rfl
    · exact fun _ => rfl
  · rw [if_pos (refused.mpr guarded), if_neg guarded]
    rfl

theorem gwArpSnoop_safe (eth : Bytes) (room : ℕ) (side : GwSide) :
    gwArpSnoop (.holding eth room) eth.length side = safely (Datapath.gwArpSnoop eth side) := by
  apply safely_ite
  · exact fun _ => rfl
  · intro long
    rw [readByte_bind (by omega), readByte_bind (by omega)]
    apply safely_ite
    · intro arp
      rw [readIp_bind (by omega)]
      exact gwArpLearn_safe (by omega) _ side
    · intro other
      apply safely_ite
      · intro ipv4
        rw [readIp_bind (by omega)]
        exact gwArpLearn_safe (by omega) _ side
      · exact fun _ => rfl

/-- A frame is copied into a packet allocated for it, and sent. -/
theorem sendOnAp_safe (sender : Sender) (frame : Bytes) (room : ℕ) :
    sendOnAp sender (.holding frame room) frame.length = call (GateCall.txPkt sender frame) := by
  have whole : (frame.drop 0).take frame.length = frame := List.take_length
  have inside : 0 + frame.length ≤ frame.length := (Nat.zero_add _).le
  apply (@copy_bind Bool [] frame frame.length room 0 0 frame.length rfl inside le_rfl _).trans
  rw [whole, List.nil_append, Area.readMany_holding inside, whole]
  rfl

theorem gwTxApFrame_safe (sender : Sender) (frame : Bytes) (room : ℕ) :
    gwTxApFrame sender (.holding frame room) frame.length =
      safely (Datapath.gwTxApFrame sender frame) := by
  apply safely_bind
  intro allocated
  apply safely_ite
  · intro had
    rw [sendOnAp_safe]
    exact safely_bind fun _ => rfl
  · exact fun _ => rfl

theorem gwProxyReply_safe (fromSide : GwSide) (reqMac : Mac) (spa tpa : UInt32) (tmac : Mac) :
    gwProxyReply fromSide reqMac spa tpa tmac =
      safely (Datapath.gwProxyReply fromSide reqMac spa tpa tmac) := by
  cases fromSide with
  | ap =>
      obtain ⟨consecutive, whole⟩ := consecutive_gwArpBuildReply reqMac spa tpa tmac
      have length := length_gwArpBuildReply (length_stackBuffer 42) reqMac spa tpa tmac
      have sent := gwTxApFrame_safe .proxyArp
        (gwArpBuildReply (stackBuffer 42) reqMac spa tpa tmac) 0
      rw [length] at sent
      rw [gwProxyReply, Area.writeAll_unwritten consecutive whole (length_stackBuffer 42),
        access_bind, ← gwArpBuildReply, sent]
      rfl
  | mesh =>
      obtain ⟨consecutive, whole⟩ := consecutive_gwProxyArp reqMac spa tpa tmac
      have size := (Buffer.writeAll_whole consecutive
        ((length_stackBuffer (8 + 28)).trans whole)).symm ▸ whole.symm
      have inside := (Nat.zero_add (8 + 28)).le.trans size.ge
      have all := List.take_of_length_le size.le
      rw [gwProxyReply, Area.writeAll_unwritten consecutive whole (length_stackBuffer (8 + 28)),
        access_bind, Area.readMany_holding inside, access_bind, List.drop_zero, all,
        gwProxyReply_mesh]
      exact safely_bind fun _ => rfl

/-- What `gw_proxy_arp` does behind its lookup. -/
theorem gwProxyArp_found {eth : Bytes} (long : 14 + 28 ≤ eth.length) (room : ℕ)
    (fromSide : GwSide) (found : Option (Mac × GwSide)) :
    (match found with
      | none => pure false
      | some (tmac, tside) =>
          if tside = fromSide then pure false
          else do
            let spa ← readIp (.holding eth room) (14 + 14)
            let reqMac ← readMac (.holding eth room) (14 + 8)
            gwProxyReply fromSide reqMac spa (ipAt eth (14 + 24)) tmac
            let _ ← readMac (.holding eth room) (14 + 8)
            let _ ← readByte ((ipOctets (ipAt eth (14 + 24))).map some) 3
            call GateCall.espLogI
            pure true : GateFaulting Bool) =
      safely (match found with
        | none => pure false
        | some (tmac, tside) =>
            if tside = fromSide then pure false
            else do
              Datapath.gwProxyReply fromSide (macAt eth (14 + 8)) (ipAt eth (14 + 14))
                (ipAt eth (14 + 24)) tmac
              Thread.perform GateCall.espLogI
              pure true) := by
  rcases found with _ | ⟨tmac, tside⟩
  · rfl
  · apply safely_ite
    · exact fun _ => rfl
    · intro other
      rw [readIp_bind (by omega), readMac_bind (by omega), gwProxyReply_safe]
      apply safely_bind
      intro _
      have last : 3 < (ipOctets (ipAt eth (14 + 24))).length := by
        rw [length_ipOctets]
        decide
      rw [readMac_bind (by omega), ← Area.holding_zero, readByte_bind last]
      exact safely_bind fun _ => rfl

theorem gwProxyArp_safe (eth : Bytes) (room : ℕ) (fromSide : GwSide) :
    gwProxyArp (.holding eth room) eth.length fromSide =
      safely (Datapath.gwProxyArp eth fromSide) := by
  have guards : Datapath.isArpRequest eth = true ↔ ¬ eth.length < 14 + 28 ∧
      ¬ (byteAt eth 12 ≠ 0x08 ∨ byteAt eth 13 ≠ 0x06) ∧
        ¬ (byteAt eth (14 + 6) ≠ 0x00 ∨ byteAt eth (14 + 7) ≠ 0x01) := by
    simp only [Datapath.isArpRequest, Bool.and_eq_true, decide_eq_true_eq, not_lt, not_or, not_not,
      ne_eq, and_assoc]
  rw [gwProxyArp, Datapath.gwProxyArp]
  by_cases short : eth.length < 14 + 28
  · rw [if_pos short, if_neg fun request => (guards.mp request).1 short]
    rfl
  · rw [if_neg short, readByte_bind (by omega), readByte_bind (by omega)]
    by_cases other : byteAt eth 12 ≠ 0x08 ∨ byteAt eth 13 ≠ 0x06
    · rw [if_pos other, if_neg fun request => (guards.mp request).2.1 other]
      rfl
    · rw [if_neg other, readByte_bind (by omega), readByte_bind (by omega)]
      by_cases reply : byteAt eth (14 + 6) ≠ 0x00 ∨ byteAt eth (14 + 7) ≠ 0x01
      · rw [if_pos reply, if_neg fun request => (guards.mp request).2.2 reply]
        rfl
      · rw [if_neg reply, if_pos (guards.mpr ⟨short, other, reply⟩), readIp_bind (by omega)]
        exact safely_bind fun found => gwProxyArp_found (by omega) room fromSide found

theorem packetArea_some (eth : Bytes) : packetArea (some eth) = some (.holding eth 0) := by
  rw [Area.holding_zero]
  rfl

theorem gwRxDeliver_safe (mmpkt : Mmpkt) (side : GwSide) :
    gwRxDeliver mmpkt side = safely (Datapath.gwRxDeliver mmpkt side) := by
  have area : (packetArea mmpkt).getD [] = .holding (mmpkt.getD []) 0 := by
    cases mmpkt with
    | none => rfl
    | some eth => rw [packetArea_some]; rfl
  apply safely_bind
  intro up
  apply safely_ite
  · rintro ⟨_, some, fits⟩
    apply safely_bind
    intro copied
    cases (copied : Bool) with
    | false => rfl
    | true =>
        have inside : 0 + (mmpkt.getD []).length ≤ (mmpkt.getD []).length := (Nat.zero_add _).le
        have room : packetLength mmpkt % 2 ^ 16 = (mmpkt.getD []).length :=
          Nat.mod_eq_of_lt (by omega)
        have whole : ((mmpkt.getD []).drop 0).take (mmpkt.getD []).length = mmpkt.getD [] :=
          List.take_length
        simp only [↓reduceIte, area, room]
        apply (@copy_bind Unit [] _ _ 0 0 0 _ rfl inside le_rfl _).trans
        rw [whole, List.nil_append]
        apply safely_bind
        intro _
        rw [packetLength, Area.readMany_holding inside, access_bind, whole]
        apply safely_bind
        intro taken
        apply safely_ite
        · exact fun _ => rfl
        · exact fun _ => rfl
  · exact fun _ => rfl

theorem meshToAp_safe (frame : Bytes) (room : ℕ) {before : GateFaulting Value} {value : Value}
    {logged : Value → GateFaulting Unit} (reads : before = pure value)
    (shows : logged value = pure ()) :
    meshToAp (.holding frame room) frame.length before logged =
      safely (Datapath.meshToAp frame) := by
  apply safely_bind
  intro allocated
  apply safely_ite
  · intro had
    rw [reads, pure_bind, sendOnAp_safe]
    apply safely_bind
    intro sent
    apply safely_ite
    · intro _
      rw [shows]
      rfl
    · exact fun _ => rfl
  · exact fun _ => rfl

theorem meshEthertype_safe {eth : Bytes} (long : 14 ≤ eth.length) (room : ℕ) :
    meshEthertype (.holding eth room) = pure (byteAt eth 12, byteAt eth 13) := by
  rw [meshEthertype, readByte_bind (by omega), readByte_bind (by omega)]

theorem meshBridgedLog_safe {eth : Bytes} (long : 14 ≤ eth.length) (room : ℕ)
    (et : UInt8 × UInt8) : meshBridgedLog (.holding eth room) eth.length et = pure () := by
  rw [meshBridgedLog, readMac_bind (by omega)]
  split
  · next arp =>
      rw [readByte_bind (by omega), readByte_bind (by omega), readByte_bind (by omega)]
  · rw [readMac_bind (by omega)]

/-- The buffer of the mesh callback holds what `Datapath.meshCopied` says. -/
theorem meshCopied_safe (mmpkt : Mmpkt) :
    ∃ room, meshCopied mmpkt = pure (.holding (Datapath.meshCopied mmpkt) room,
      (Datapath.meshCopied mmpkt).length) := by
  rcases mmpkt with _ | eth
  · exact ⟨Datapath.mesh2ApSize, rfl⟩
  · rw [meshCopied, packetArea_some, packetLength, Datapath.meshCopied]
    by_cases fits : 14 ≤ eth.length ∧ eth.length ≤ Datapath.mesh2ApSize
    · have inside : 0 + eth.length ≤ eth.length := (Nat.zero_add _).le
      have whole : (eth.drop 0).take eth.length = eth := List.take_length
      refine ⟨Datapath.mesh2ApSize - eth.length, ?_⟩
      simp only [Option.getD_some, fits, and_self, ↓reduceIte]
      apply (@copy_bind _ [] eth _ 0 0 0 _ rfl inside fits.2 _).trans
      rw [whole, List.nil_append]
    · refine ⟨Datapath.mesh2ApSize, ?_⟩
      simp only [Option.getD_some, fits, ↓reduceIte]
      rfl

theorem meshAnswered_safe (copy : Bytes) (room : ℕ) :
    meshAnswered (.holding copy room) copy.length = safely (Datapath.meshAnswered copy) := by
  apply safely_ite
  · intro some
    rw [gwArpSnoop_safe]
    exact safely_bind fun _ => gwProxyArp_safe copy room .mesh
  · exact fun _ => rfl

theorem meshBridged_safe (copy : Bytes) (room : ℕ) :
    meshBridged (.holding copy room) copy.length = safely (Datapath.meshBridged copy) := by
  rw [meshBridged, Datapath.meshBridged]
  by_cases some : 0 < copy.length
  · rw [if_pos some, readByte_bind some]
    by_cases group : byteAt copy 0 &&& 0x01 ≠ 0
    · rw [if_pos group, if_pos ⟨some, group⟩]
      exact safely_bind fun _ => rfl
    · rw [if_neg group, if_neg fun both => group both.2]
      rfl
  · rw [if_neg some, if_neg fun both => some both.1]
    rfl

/-- The buffer of the mesh callback holds nothing, or a header at least. -/
theorem meshCopied_long (mmpkt : Mmpkt) :
    Datapath.meshCopied mmpkt = [] ∨ 14 ≤ (Datapath.meshCopied mmpkt).length := by
  rcases mmpkt with _ | eth
  · exact .inl rfl
  · by_cases fits : 14 ≤ eth.length ∧ eth.length ≤ Datapath.mesh2ApSize
    · rw [Datapath.meshCopied, if_pos fits]
      exact .inr fits.1
    · exact .inl (if_neg fits)

theorem gwMeshRxCb_safe (mmpkt : Mmpkt) :
    gwMeshRxCb mmpkt = safely (Datapath.gwMeshRxCb mmpkt) := by
  obtain ⟨room, copied⟩ := meshCopied_safe mmpkt
  rw [gwMeshRxCb, copied, pure_bind, meshAnswered_safe]
  apply safely_bind
  intro answered
  apply safely_ite
  · exact fun _ => rfl
  · intro _
    rw [meshBridged_safe]
    rcases meshCopied_long mmpkt with empty | long
    · rw [empty]
      exact gwRxDeliver_safe mmpkt .mesh
    · apply safely_bind
      intro bridged
      apply safely_ite
      · intro _
        rw [meshToAp_safe _ _ (meshEthertype_safe long room) (meshBridgedLog_safe long room _)]
        exact safely_bind fun _ => gwRxDeliver_safe mmpkt .mesh
      · exact fun _ => gwRxDeliver_safe mmpkt .mesh

theorem apAnswered_safe (mmpkt : Mmpkt) :
    apAnswered mmpkt = safely (Datapath.apAnswered mmpkt) := by
  rcases mmpkt with _ | eth
  · rfl
  · rw [apAnswered, packetArea_some, packetLength, Datapath.apAnswered]
    apply safely_ite
    · intro long
      rw [Option.getD_some, gwArpSnoop_safe]
      exact safely_bind fun _ => gwProxyArp_safe eth 0 .ap
    · exact fun _ => rfl

/-- The locals of `gw_ap_rx_cb` for a frame that is proxied. -/
def proxiedLocals (macs : GateMacs) (eth : Bytes) : ApLocals where
  doUnicastProxy := !decide (byteAt eth 0 &&& 0x01 ≠ 0) &&
    !(decide (macAt eth 0 = macs.apBssid) || decide (macAt eth 0 = macs.meshMac))
  doGroupProxy := decide (byteAt eth 0 &&& 0x01 ≠ 0)
  dst := .holding (macAt eth 0).toList 0
  src := .holding (macAt eth 6).toList 0
  l3 := eth.length - 14
  buffer := .holding (Datapath.snapPayload eth) (Datapath.ap2MeshSize - (eth.length - 6))

/-- The buffer of the AP callback holds the payload of a frame that fits it. -/
theorem apBridging_fits (macs : GateMacs) {eth : Bytes} (long : 14 ≤ eth.length)
    (fits : eth.length - 14 ≤ Datapath.ap2MeshSize - 8) :
    apBridging macs (some eth) = pure (proxiedLocals macs eth) := by
  rw [apBridging, packetArea_some, packetLength, Option.getD_some]
  simp only [long, ↓reduceIte]
  rw [subtract_of_le long, access_bind, readByte_bind (by omega), readMac_bind (by omega)]
  simp only [fits, ↓reduceIte]
  have size : Datapath.ap2MeshSize = 8 + 1514 := rfl
  have dst := toList_macAt (by omega : 0 + 6 ≤ eth.length)
  have src := toList_macAt (by omega : 6 + 6 ≤ eth.length)
  have header := @Area.writeAll_holding UInt8
    [(0, [0xaa]), (1, [0xaa]), (2, [0x03]), (3, [0x00]), (4, [0x00]), (5, [0x00]),
      (6, [byteAt eth 12]), (7, [byteAt eth 13])] [] Datapath.ap2MeshSize
    (by simp only [Buffer.Consecutive, List.length_nil, List.length_cons, and_self])
    (by rw [size]; exact Nat.le_add_right 8 1514)
  have rest : (eth.drop 14).take (eth.length - 14) = eth.drop 14 :=
    List.take_of_length_le (by rw [List.length_drop])
  rw [copy_unwritten_bind (by omega) le_rfl, copy_unwritten_bind (by omega) le_rfl,
    readByte_bind (by omega), readByte_bind (by omega)]
  change access ((Area.holding [] Datapath.ap2MeshSize).writeAll _) >>= _ = _
  rw [header, access_bind]
  apply (@copy_bind _ _ eth _ 0 8 14 _ rfl (by omega) fits _).trans
  have room : Datapath.ap2MeshSize - 8 - (eth.length - 14) =
      Datapath.ap2MeshSize - (eth.length - 6) := by omega
  rw [rest, ← dst, ← src, proxiedLocals, ← room]
  rfl

/-- A packet that does not fit the buffer is not proxied. -/
theorem apBridging_unfit (macs : GateMacs) {eth : Bytes}
    (unfit : ¬ (14 ≤ eth.length ∧ eth.length - 14 ≤ Datapath.ap2MeshSize - 8)) :
    ∃ locals, apBridging macs (some eth) = pure locals ∧ locals.doUnicastProxy = false ∧
      locals.doGroupProxy = false := by
  rw [apBridging, packetArea_some, packetLength, Option.getD_some]
  by_cases long : 14 ≤ eth.length
  · have overlong : ¬ eth.length - 14 ≤ Datapath.ap2MeshSize - 8 := fun fits => unfit ⟨long, fits⟩
    simp only [long, ↓reduceIte]
    rw [subtract_of_le long, access_bind, readByte_bind (by omega), readMac_bind (by omega)]
    simp only [overlong, ↓reduceIte]
    exact ⟨_, rfl, rfl, rfl⟩
  · simp only [long, ↓reduceIte]
    exact ⟨_, rfl, rfl, rfl⟩

theorem length_snapPayload {eth : Bytes} :
    (Datapath.snapPayload eth).length = 8 + (eth.length - 14) := by
  rw [Datapath.snapPayload, List.length_append, List.length_drop]
  rfl

theorem macInside (mac : Mac) : 0 + 6 ≤ mac.toList.length := by
  rw [Vector.length_toList]

theorem macAt_toList (mac : Mac) : macAt mac.toList 0 = mac := by
  have read := macAt_append [] mac []
  rwa [List.append_nil] at read

/-- Inside the buffer of a proxied frame is its payload. -/
theorem buffer_bind (macs : GateMacs) (eth : Bytes) {offset : ℕ}
    (inside : offset < 8 + (eth.length - 14)) (later : UInt8 → GateFaulting Value) :
    readByte (proxiedLocals macs eth).buffer offset >>= later =
      later (byteAt (Datapath.snapPayload eth) offset) :=
  readByte_bind (inside.trans_eq length_snapPayload.symm) later

theorem dst_bind (macs : GateMacs) (eth : Bytes) (later : Mac → GateFaulting Value) :
    readMac (proxiedLocals macs eth).dst 0 >>= later = later (macAt eth 0) := by
  apply (readMac_bind (macInside (macAt eth 0)) later).trans
  rw [macAt_toList]

theorem src_bind (macs : GateMacs) (eth : Bytes) (later : Mac → GateFaulting Value) :
    readMac (proxiedLocals macs eth).src 0 >>= later = later (macAt eth 6) := by
  apply (readMac_bind (macInside (macAt eth 6)) later).trans
  rw [macAt_toList]

/-- The payload of a proxied frame is read whole. -/
theorem payload_bind (macs : GateMacs) (eth : Bytes) (later : Bytes → GateFaulting Value) :
    access ((proxiedLocals macs eth).buffer.readMany 0 (8 + (proxiedLocals macs eth).l3)) >>=
      later = later (Datapath.snapPayload eth) := by
  have payload := @length_snapPayload eth
  have inside : 0 + (8 + (eth.length - 14)) ≤ (Datapath.snapPayload eth).length := by omega
  change access ((Area.holding (Datapath.snapPayload eth) _).readMany 0 (8 + (eth.length - 14))) >>=
    later = _
  rw [Area.readMany_holding inside, access_bind, ← payload, List.drop_zero, List.take_length]

theorem apGroupLog_safe (macs : GateMacs) (eth : Bytes) :
    apGroupLog (proxiedLocals macs eth) = pure () := by
  rw [apGroupLog, buffer_bind macs eth (by omega), buffer_bind macs eth (by omega), src_bind]
  by_cases arp : byteAt (Datapath.snapPayload eth) 6 = 0x08 ∧
      byteAt (Datapath.snapPayload eth) 7 = 0x06 ∧ 28 ≤ (proxiedLocals macs eth).l3
  · have long : 28 ≤ eth.length - 14 := arp.2.2
    rw [if_pos arp, buffer_bind macs eth (by omega), buffer_bind macs eth (by omega),
      buffer_bind macs eth (by omega)]
  · rw [if_neg arp, dst_bind]

/-- A frame that is not proxied to one client goes on to the group proxying. -/
theorem apUnicast_skipped {locals : ApLocals} (skipped : locals.doUnicastProxy = false) :
    apUnicast locals = pure false := by
  rw [apUnicast, skipped]
  rfl

theorem apGroup_skipped {locals : ApLocals} (skipped : locals.doGroupProxy = false) :
    apGroup locals = pure () := by
  rw [apGroup, skipped]
  rfl

/-- A frame for another host is handed to the mesh, and delivered when the mesh
does not take it. -/
theorem apUnicast_safe {macs : GateMacs} {eth : Bytes}
    (unicast : (proxiedLocals macs eth).doUnicastProxy = true)
    (ungrouped : (proxiedLocals macs eth).doGroupProxy = false) :
    (do
      let proxied ← apUnicast (proxiedLocals macs eth)
      if proxied then call GateCall.mmpktRelease
      else
        apGroup (proxiedLocals macs eth)
        gwRxDeliver (some eth) .ap : GateFaulting Unit) =
      safely (Datapath.apUnicast (some eth) (macAt eth 0) (macAt eth 6)
        (Datapath.snapPayload eth)) := by
  have asked : apUnicast (proxiedLocals macs eth) = safely (do
      let proxied : Bool ← Thread.perform (GateCall.meshTxProxied .bridge (macAt eth 0)
        (macAt eth 6) (Datapath.snapPayload eth))
      if proxied then
        let _ : Unit ← Thread.perform GateCall.espLogI
        pure true
      else pure false) := by
    rw [apUnicast, if_pos unicast, dst_bind, src_bind, payload_bind]
    apply safely_bind
    intro proxied
    apply safely_ite
    · intro _
      rw [src_bind, dst_bind]
      exact safely_bind fun _ => rfl
    · exact fun _ => rfl
  rw [asked, apGroup_skipped ungrouped, pure_bind, gwRxDeliver_safe]
  apply congrArg (Thread.call _)
  funext proxied
  cases (proxied : Bool) with
  | true => rfl
  | false => rfl

/-- A group frame is handed to the mesh, and delivered in any case. -/
theorem apGroup_safe {macs : GateMacs} {eth : Bytes}
    (group : (proxiedLocals macs eth).doGroupProxy = true) :
    (do
      apGroup (proxiedLocals macs eth)
      gwRxDeliver (some eth) .ap : GateFaulting Unit) =
      safely (Datapath.apGroup (some eth) (macAt eth 6) (Datapath.snapPayload eth)) := by
  have asked : apGroup (proxiedLocals macs eth) = safely (do
      let flooded : Bool ← Thread.perform (GateCall.meshTxGroupProxied (macAt eth 6)
        (Datapath.snapPayload eth))
      if flooded then Thread.perform GateCall.espLogI else pure ()) := by
    rw [apGroup, if_pos group, src_bind, payload_bind]
    apply safely_bind
    intro flooded
    apply safely_ite
    · intro _
      rw [apGroupLog_safe]
      rfl
    · exact fun _ => rfl
  rw [asked, gwRxDeliver_safe]
  apply congrArg (Thread.call _)
  funext flooded
  cases (flooded : Bool) with
  | true => rfl
  | false => rfl

/-- The AP callback behind `answered`, for a frame that fits its buffer. -/
theorem apProxied_safe (macs : GateMacs) {eth : Bytes} (long : 14 ≤ eth.length)
    (fits : eth.length - 14 ≤ Datapath.ap2MeshSize - 8) :
    (do
      let proxied ← apUnicast (proxiedLocals macs eth)
      if proxied then call GateCall.mmpktRelease
      else
        apGroup (proxiedLocals macs eth)
        gwRxDeliver (some eth) .ap : GateFaulting Unit) =
      safely (Datapath.apSettled macs (some eth)) := by
  rw [Datapath.apSettled, Datapath.apBridging]
  simp only [long, fits, ↓reduceIte]
  cases group : decide (byteAt eth 0 &&& 0x01 ≠ 0) with
  | true =>
      have skipped : (proxiedLocals macs eth).doUnicastProxy = false := by
        rw [proxiedLocals, group]
        rfl
      rw [apUnicast_skipped skipped, pure_bind]
      exact apGroup_safe group
  | false =>
      cases forGate : decide (macAt eth 0 = macs.apBssid) ||
          decide (macAt eth 0 = macs.meshMac) with
      | true =>
          have skipped : (proxiedLocals macs eth).doUnicastProxy = false := by
            rw [proxiedLocals, group, forGate]
            rfl
          rw [apUnicast_skipped skipped, pure_bind, apGroup_skipped group]
          exact gwRxDeliver_safe (some eth) .ap
      | false =>
          have unicast : (proxiedLocals macs eth).doUnicastProxy = true := by
            rw [proxiedLocals, group, forGate]
            rfl
          exact apUnicast_safe unicast group

theorem gwApRxCb_safe (macs : GateMacs) (mmpkt : Mmpkt) :
    gwApRxCb macs mmpkt = safely (Datapath.gwApRxCb macs mmpkt) := by
  rw [gwApRxCb, apAnswered_safe, Datapath.gwApRxCb]
  apply safely_bind
  intro answered
  apply safely_ite
  · exact fun _ => rfl
  · intro _
    rcases mmpkt with _ | eth
    · exact gwRxDeliver_safe none .ap
    · by_cases fits : 14 ≤ eth.length ∧ eth.length - 14 ≤ Datapath.ap2MeshSize - 8
      · rw [apBridging_fits macs fits.1 fits.2, pure_bind]
        exact apProxied_safe macs fits.1 fits.2
      · obtain ⟨locals, bridging, noUnicast, noGroup⟩ := apBridging_unfit macs fits
        have delivered : Datapath.apBridging macs (some eth) = .deliver := by
          by_cases long : 14 ≤ eth.length
          · have overlong : ¬ eth.length - 14 ≤ Datapath.ap2MeshSize - 8 :=
              fun short => fits ⟨long, short⟩
            simp only [Datapath.apBridging, long, overlong, ↓reduceIte]
          · simp only [Datapath.apBridging, long, ↓reduceIte]
        rw [bridging, pure_bind, apUnicast_skipped noUnicast, apGroup_skipped noGroup,
          Datapath.apSettled, delivered]
        exact gwRxDeliver_safe (some eth) .ap

theorem length_ethernetFrame (eaddr1 eaddr2 : Mac) (payload : Bytes) :
    (Datapath.ethernetFrame eaddr1 eaddr2 payload).length = 14 + (payload.length - 8) := by
  simp only [Datapath.ethernetFrame, List.length_append, Vector.length_toList, List.length_cons,
    List.length_nil, List.length_drop]
  omega

/-- One byte of a payload, as a copy of one byte takes it. -/
theorem slice_one {bytes : Bytes} {offset : ℕ} (inside : offset < bytes.length) :
    (bytes.drop offset).take 1 = [byteAt bytes offset] := by
  rw [List.drop_eq_getElem_cons inside, List.take_succ_cons, List.take_zero, byteAt,
    List.getD_eq_getElem?_getD, List.getElem?_eq_getElem inside, Option.getD_some]

/-- The buffer of the AE callback holds the rebuilt frame. -/
theorem ethernetFrame_safe (eaddr1 eaddr2 : Mac) {payload : Bytes} (header : 8 ≤ payload.length)
    (fits : payload.length - 8 ≤ Datapath.ae2ApSize - 14) :
    ethernetFrame eaddr1 eaddr2 (.holding payload 0) (payload.length - 8) =
      pure (.holding (Datapath.ethernetFrame eaddr1 eaddr2 payload)
        (Datapath.ae2ApSize - 14 - (payload.length - 8))) := by
  have size : Datapath.ae2ApSize = 14 + 1514 := rfl
  have whole (mac : Mac) : (mac.toList.drop 0).take 6 = mac.toList :=
    List.take_of_length_le (by rw [List.drop_zero, Vector.length_toList])
  have rest : (payload.drop 8).take (payload.length - 8) = payload.drop 8 :=
    List.take_of_length_le (by rw [List.length_drop])
  rw [ethernetFrame, macArea, macArea, ← Area.holding_zero, ← Area.holding_zero,
    copy_unwritten_bind (macInside eaddr1) (by omega), whole,
    copy_bind (by rw [Vector.length_toList]) (macInside eaddr2) (by omega), whole,
    copy_bind (by simp only [List.length_append, Vector.length_toList]) (by omega) (by omega),
    slice_one (by omega),
    copy_bind (by simp only [List.length_append, Vector.length_toList, List.length_cons,
      List.length_nil]) (by omega) (by omega), slice_one (by omega),
    copy_behind (by simp only [List.length_append, Vector.length_toList, List.length_cons,
      List.length_nil]) (by omega) (by omega), rest]
  simp only [Datapath.ethernetFrame, List.append_assoc, List.cons_append, List.nil_append,
    Nat.sub_sub, size]

theorem aeLog_safe (eaddr1 eaddr2 : Mac) : aeLog eaddr1 eaddr2 = pure () := by
  rw [aeLog, macArea, macArea, ← Area.holding_zero, ← Area.holding_zero,
    readMac_bind (macInside eaddr1), readMac_bind (macInside eaddr2)]

theorem aeDecapsulated_safe (eaddr1 eaddr2 : Mac) (payload : Bytes) :
    aeDecapsulated eaddr1 eaddr2 (.holding payload 0) payload.length =
      safely (if Datapath.snapFits payload then do
        Datapath.gwArpSnoop (Datapath.ethernetFrame eaddr1 eaddr2 payload) .mesh
        Datapath.meshToAp (Datapath.ethernetFrame eaddr1 eaddr2 payload)
      else pure ()) := by
  have guards : Datapath.snapFits payload = true ↔ 8 ≤ payload.length ∧
      (byteAt payload 0 = 0xaa ∧ byteAt payload 1 = 0xaa ∧ byteAt payload 2 = 0x03) ∧
        payload.length - 8 ≤ Datapath.ae2ApSize - 14 := by
    simp only [Datapath.snapFits, Bool.and_eq_true, decide_eq_true_eq, and_assoc]
  rw [aeDecapsulated]
  by_cases header : 8 ≤ payload.length
  · rw [if_pos header, readByte_bind (by omega), readByte_bind (by omega),
      readByte_bind (by omega)]
    by_cases snap : byteAt payload 0 = 0xaa ∧ byteAt payload 1 = 0xaa ∧ byteAt payload 2 = 0x03
    · rw [if_pos snap, subtract_of_le header, access_bind]
      by_cases fits : payload.length - 8 ≤ Datapath.ae2ApSize - 14
      · have length := length_ethernetFrame eaddr1 eaddr2 payload
        rw [if_pos fits, if_pos (guards.mpr ⟨header, snap, fits⟩),
          ethernetFrame_safe eaddr1 eaddr2 header fits, pure_bind, ← length, gwArpSnoop_safe]
        exact safely_bind fun _ => meshToAp_safe _ _ rfl (aeLog_safe eaddr1 eaddr2)
      · rw [if_neg fits, if_neg fun all => fits (guards.mp all).2.2]
        rfl
    · rw [if_neg snap, if_neg fun all => snap (guards.mp all).2.1]
      rfl
  · rw [if_neg header, if_neg fun all => header (guards.mp all).1]
    rfl

theorem gateAeRxCb_safe (eaddr1 eaddr2 : Mac) (payload : Bytes) :
    gateAeRxCb eaddr1 eaddr2 payload = safely (Datapath.gateAeRxCb eaddr1 eaddr2 payload) := by
  apply safely_bind
  intro client
  apply safely_ite
  · intro _
    rw [← Area.holding_zero, aeDecapsulated_safe]
    cases Datapath.snapFits payload with
    | true =>
        apply (@safely_bind _ _ _ _ _ _ _ fun _ => (safely_ret true)).trans
        exact congrArg safely (Thread.andThen_assoc _ _ _)
    | false => rfl
  · exact fun _ => rfl

end Accesses

/-- **The RX paths stay inside.** Whatever is received, of any length, the callbacks
and the two functions they share, on the filled part of a buffer with any room behind
it, read nothing that is outside their areas or was not written, write nothing outside
them, and no length falls below zero. -/
theorem rxPaths_safe (macs : GateMacs) (mmpkt : Mmpkt) (eth : Bytes) (room : ℕ) (side : GwSide)
    (eaddr1 eaddr2 : Mac) (payload : Bytes) :
    NeverFaults (Accesses.gwArpSnoop (.holding eth room) eth.length side) ∧
    NeverFaults (Accesses.gwProxyArp (.holding eth room) eth.length side) ∧
    NeverFaults (Accesses.gwMeshRxCb mmpkt) ∧
    NeverFaults (Accesses.gwApRxCb macs mmpkt) ∧
    NeverFaults (Accesses.gateAeRxCb eaddr1 eaddr2 payload) := by
  rw [Accesses.gwArpSnoop_safe, Accesses.gwProxyArp_safe, Accesses.gwMeshRxCb_safe,
    Accesses.gwApRxCb_safe, Accesses.gateAeRxCb_safe]
  exact ⟨neverFaults_safely _, neverFaults_safely _, neverFaults_safely _, neverFaults_safely _,
    neverFaults_safely _⟩

end Rimba.Gate
