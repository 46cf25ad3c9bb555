import Rimba.Foundation.Buffer
import Rimba.Gate.ArpTable

/-! # The bytes of frames and of ARP replies

Offsets into received frames, and the two encoders of the gate: an Ethernet ARP
reply (`gw_arp_build_reply`) and the SNAP payload of a proxied one, which
`gw_proxy_arp` and `gw_arp_push_to_mesh` each write for themselves. The binding
a reply teaches is read back from its bytes by the offsets `gw_arp_snoop` uses
(`Rimba.Gate.taught_gwArpBuildReply`, `Rimba.Gate.taught_snapArpReply`).
-/

namespace Rimba.Gate

/-- The bytes of a frame or of a payload. -/
abbrev Bytes := List UInt8

/-- `bytes[offset]` -/
def byteAt (bytes : Bytes) (offset : ℕ) : UInt8 := bytes.getD offset 0

/-- Six bytes copied out at an offset. -/
def macAt (bytes : Bytes) (offset : ℕ) : Mac := Vector.ofFn fun i => byteAt bytes (offset + i)

/-- Four bytes copied out at an offset into a `uint32_t` of the little-endian
target. -/
def ipAt (bytes : Bytes) (offset : ℕ) : UInt32 :=
  .ofNat ((byteAt bytes offset).toNat + 0x100 * (byteAt bytes (offset + 1)).toNat +
    0x10000 * (byteAt bytes (offset + 2)).toNat + 0x1000000 * (byteAt bytes (offset + 3)).toNat)

/-- The four bytes of a `uint32_t` in memory. -/
def ipOctets (ip : UInt32) : Bytes :=
  [.ofNat ip.toNat, .ofNat (ip.toNat / 0x100), .ofNat (ip.toNat / 0x10000),
    .ofNat (ip.toNat / 0x1000000)]

/-- The writes of `gw_arp_build_reply` into `out`. -/
def gwArpBuildReplyWrites (reqMac : Mac) (reqIp tpa : UInt32) (tpaMac : Mac) : List (ℕ × Bytes) :=
  [(0, reqMac.toList), (6, tpaMac.toList), (12, [0x08]), (13, [0x06]), (14, [0x00]), (15, [0x01]),
    (16, [0x08]), (17, [0x00]), (18, [6]), (19, [4]), (20, [0x00]), (21, [0x02]),
    (22, tpaMac.toList), (28, ipOctets tpa), (32, reqMac.toList), (38, ipOctets reqIp)]

/-- `gw_arp_build_reply`: the 42 bytes of an Ethernet ARP reply, written into a
buffer. -/
def gwArpBuildReply (out : Bytes) (reqMac : Mac) (reqIp tpa : UInt32) (tpaMac : Mac) : Bytes :=
  Foundation.Buffer.writeAll out (gwArpBuildReplyWrites reqMac reqIp tpa tpaMac)

/-- The writes both proxied replies make into `snap`: LLC/SNAP, then an ARP reply that
binds `spa` to `sha`, to the host `tha`. -/
def snapArpWrites (sha : Mac) (spa : UInt32) (tha : Mac) (tpa : UInt32) : List (ℕ × Bytes) :=
  [(0, [0xaa]), (1, [0xaa]), (2, [0x03]), (3, [0x00]), (4, [0x00]), (5, [0x00]), (6, [0x08]),
    (7, [0x06]), (8 + 0, [0]), (8 + 1, [1]), (8 + 2, [0x08]), (8 + 3, [0]), (8 + 4, [6]),
    (8 + 5, [4]), (8 + 6, [0]), (8 + 7, [2]), (8 + 8, sha.toList), (8 + 14, ipOctets spa),
    (8 + 18, tha.toList), (8 + 24, ipOctets tpa)]

/-- The writes of the mesh branch of `gw_proxy_arp`. -/
def gwProxyArpWrites (reqMac : Mac) (spa tpa : UInt32) (tmac : Mac) : List (ℕ × Bytes) :=
  snapArpWrites tmac tpa reqMac spa

/-- The writes of `gw_arp_push_to_mesh`. -/
def gwArpPushToMeshWrites (spa : UInt32) (smac dstMac : Mac) (dpa : UInt32) : List (ℕ × Bytes) :=
  snapArpWrites smac spa dstMac dpa

/-- The 36 bytes of a proxied ARP reply, written into a buffer. -/
def snapArpReply (snap : Bytes) (sha : Mac) (spa : UInt32) (tha : Mac) (tpa : UInt32) : Bytes :=
  Foundation.Buffer.writeAll snap (snapArpWrites sha spa tha tpa)

theorem length_ipOctets (ip : UInt32) : (ipOctets ip).length = 4 := rfl

theorem byteAt_append (front back : Bytes) (offset : ℕ) :
    byteAt (front ++ back) (front.length + offset) = byteAt back offset := by
  simp only [byteAt, List.getD_eq_getElem?_getD, List.getElem?_append_right (Nat.le_add_right ..),
    Nat.add_sub_cancel_left]

theorem macAt_append (front : Bytes) (mac : Mac) (back : Bytes) :
    macAt (front ++ (mac.toList ++ back)) front.length = mac := by
  apply Vector.ext
  intro i inRange
  simp only [macAt, Vector.getElem_ofFn, byteAt_append]
  have inList : i < mac.toList.length := by rwa [Vector.length_toList]
  rw [byteAt, List.getD_eq_getElem?_getD, List.getElem?_append_left inList,
    List.getElem?_eq_getElem inList, Option.getD_some, Vector.getElem_toList]

theorem ipAt_append (front : Bytes) (ip : UInt32) (back : Bytes) :
    ipAt (front ++ (ipOctets ip ++ back)) front.length = ip := by
  have octet (i : ℕ) := byteAt_append front (ipOctets ip ++ back) i
  apply UInt32.toNat_inj.mp
  have bound := ip.toNat_lt
  have first := octet 0
  rw [Nat.add_zero] at first
  rw [ipAt, first, octet 1, octet 2, octet 3]
  simp only [ipOctets, byteAt, List.cons_append, List.getD_cons_zero, List.getD_cons_succ,
    UInt8.toNat_ofNat', UInt32.toNat_ofNat']
  omega

/-- The bytes copied out of a frame are those of the frame. -/
theorem toList_macAt {bytes : Bytes} {offset : ℕ} (inside : offset + 6 ≤ bytes.length) :
    (macAt bytes offset).toList = (bytes.drop offset).take 6 := by
  apply List.ext_getElem
  · rw [Vector.length_toList, List.length_take, List.length_drop]
    omega
  · intro i inMac inSlice
    rw [Vector.length_toList] at inMac
    have inBytes : offset + i < bytes.length := by omega
    simp only [Vector.getElem_toList, macAt, Vector.getElem_ofFn, byteAt, List.getElem_take,
      List.getElem_drop, List.getD_eq_getElem?_getD, List.getElem?_eq_getElem inBytes,
      Option.getD_some]

/-- The writes of `gw_arp_build_reply` follow each other and fill 42 bytes. -/
theorem consecutive_gwArpBuildReply (reqMac : Mac) (reqIp tpa : UInt32) (tpaMac : Mac) :
    Foundation.Buffer.Consecutive 0 (gwArpBuildReplyWrites reqMac reqIp tpa tpaMac) ∧
      42 = (Foundation.Buffer.written (gwArpBuildReplyWrites reqMac reqIp tpa tpaMac)).length := by
  constructor
  · simp only [gwArpBuildReplyWrites, Foundation.Buffer.Consecutive, Vector.length_toList,
      List.length_cons, List.length_nil, length_ipOctets, and_self]
  · simp only [gwArpBuildReplyWrites, Foundation.Buffer.written, List.flatMap_cons,
      List.flatMap_nil, List.length_append, Vector.length_toList, List.length_cons,
      List.length_nil, length_ipOctets]

/-- The writes of a proxied reply follow each other and fill 36 bytes. -/
theorem consecutive_snapArp (sha : Mac) (spa : UInt32) (tha : Mac) (tpa : UInt32) :
    Foundation.Buffer.Consecutive 0 (snapArpWrites sha spa tha tpa) ∧
      8 + 28 = (Foundation.Buffer.written (snapArpWrites sha spa tha tpa)).length := by
  constructor
  · simp only [snapArpWrites, Foundation.Buffer.Consecutive, Vector.length_toList,
      List.length_cons, List.length_nil, length_ipOctets, and_self]
  · simp only [snapArpWrites, Foundation.Buffer.written, List.flatMap_cons, List.flatMap_nil,
      List.length_append, Vector.length_toList, List.length_cons, List.length_nil,
      length_ipOctets]

theorem gwArpBuildReply_eq {out : Bytes} (size : out.length = 42) (reqMac : Mac)
    (reqIp tpa : UInt32) (tpaMac : Mac) :
    gwArpBuildReply out reqMac reqIp tpa tpaMac =
      reqMac.toList ++ (tpaMac.toList ++ ([0x08, 0x06, 0x00, 0x01, 0x08, 0x00, 6, 4, 0x00, 0x02] ++
        (tpaMac.toList ++ (ipOctets tpa ++ (reqMac.toList ++ ipOctets reqIp))))) := by
  obtain ⟨consecutive, whole⟩ := consecutive_gwArpBuildReply reqMac reqIp tpa tpaMac
  rw [gwArpBuildReply, Foundation.Buffer.writeAll_whole consecutive (size.trans whole)]
  simp only [gwArpBuildReplyWrites, Foundation.Buffer.written, List.flatMap_cons,
    List.flatMap_nil, List.cons_append, List.nil_append, List.append_nil]

theorem snapArpReply_eq {snap : Bytes} (size : snap.length = 8 + 28) (sha : Mac) (spa : UInt32)
    (tha : Mac) (tpa : UInt32) :
    snapArpReply snap sha spa tha tpa =
      [0xaa, 0xaa, 0x03, 0x00, 0x00, 0x00, 0x08, 0x06] ++ ([0, 1, 0x08, 0, 6, 4, 0, 2] ++
        (sha.toList ++ (ipOctets spa ++ (tha.toList ++ ipOctets tpa)))) := by
  obtain ⟨consecutive, whole⟩ := consecutive_snapArp sha spa tha tpa
  rw [snapArpReply, Foundation.Buffer.writeAll_whole consecutive (size.trans whole)]
  simp only [snapArpWrites, Foundation.Buffer.written, List.flatMap_cons, List.flatMap_nil,
    List.cons_append, List.nil_append, List.append_nil]

/-- The binding an ARP packet at an offset claims for its sender: the address
and the hardware address at the offsets `gw_arp_snoop` reads. -/
def taught (bytes : Bytes) (arp : ℕ) : UInt32 × Mac :=
  (ipAt bytes (arp + 14), macAt bytes (arp + 8))

/-- The host an ARP reply at an offset is meant for: the address at the offset
`gw_proxy_arp` reads of a request. -/
def taughtHost (bytes : Bytes) (arp : ℕ) : UInt32 := ipAt bytes (arp + 24)

theorem taught_gwArpBuildReply {out : Bytes} (size : out.length = 42) (reqMac : Mac)
    (reqIp tpa : UInt32) (tpaMac : Mac) :
    taught (gwArpBuildReply out reqMac reqIp tpa tpaMac) 14 = (tpa, tpaMac) ∧
      macAt (gwArpBuildReply out reqMac reqIp tpa tpaMac) 0 = reqMac ∧
        taughtHost (gwArpBuildReply out reqMac reqIp tpa tpaMac) 14 = reqIp := by
  rw [gwArpBuildReply_eq size]
  have dst := macAt_append [] reqMac (tpaMac.toList ++
    ([0x08, 0x06, 0x00, 0x01, 0x08, 0x00, 6, 4, 0x00, 0x02] ++
      (tpaMac.toList ++ (ipOctets tpa ++ (reqMac.toList ++ ipOctets reqIp)))))
  have sha := macAt_append
    (reqMac.toList ++ (tpaMac.toList ++ [0x08, 0x06, 0x00, 0x01, 0x08, 0x00, 6, 4, 0x00, 0x02]))
    tpaMac (ipOctets tpa ++ (reqMac.toList ++ ipOctets reqIp))
  have spa := ipAt_append
    (reqMac.toList ++ (tpaMac.toList ++ ([0x08, 0x06, 0x00, 0x01, 0x08, 0x00, 6, 4, 0x00, 0x02] ++
      tpaMac.toList))) tpa (reqMac.toList ++ ipOctets reqIp)
  have host := ipAt_append
    (reqMac.toList ++ (tpaMac.toList ++ ([0x08, 0x06, 0x00, 0x01, 0x08, 0x00, 6, 4, 0x00, 0x02] ++
      (tpaMac.toList ++ (ipOctets tpa ++ reqMac.toList))))) reqIp []
  simp only [List.append_assoc, List.length_append, Vector.length_toList, List.length_cons,
    List.length_nil, Nat.reduceAdd, length_ipOctets, List.append_nil] at dst sha spa host
  rw [taught, taughtHost, sha, spa, host]
  exact ⟨rfl, dst, rfl⟩

theorem taught_snapArpReply {snap : Bytes} (size : snap.length = 8 + 28) (sha : Mac) (spa : UInt32)
    (tha : Mac) (tpa : UInt32) :
    taught (snapArpReply snap sha spa tha tpa) 8 = (spa, sha) ∧
      taughtHost (snapArpReply snap sha spa tha tpa) 8 = tpa := by
  rw [snapArpReply_eq size]
  have atMac := macAt_append
    ([0xaa, 0xaa, 0x03, 0x00, 0x00, 0x00, 0x08, 0x06] ++ [0, 1, 0x08, 0, 6, 4, 0, 2]) sha
    (ipOctets spa ++ (tha.toList ++ ipOctets tpa))
  have atIp := ipAt_append
    ([0xaa, 0xaa, 0x03, 0x00, 0x00, 0x00, 0x08, 0x06] ++ ([0, 1, 0x08, 0, 6, 4, 0, 2] ++
      sha.toList)) spa (tha.toList ++ ipOctets tpa)
  have host := ipAt_append
    ([0xaa, 0xaa, 0x03, 0x00, 0x00, 0x00, 0x08, 0x06] ++ ([0, 1, 0x08, 0, 6, 4, 0, 2] ++
      (sha.toList ++ (ipOctets spa ++ tha.toList)))) tpa []
  simp only [List.append_assoc, List.length_append, Vector.length_toList, List.length_cons,
    List.length_nil, Nat.reduceAdd, length_ipOctets, List.append_nil] at atMac atIp host
  rw [taught, taughtHost, atMac, atIp, host]
  exact ⟨rfl, rfl⟩

end Rimba.Gate
