import Rimba.Gate.DatapathCalls

/-! # One ARP reply, three encoders and one decoder

`gw_arp_build_reply`, the mesh branch of `gw_proxy_arp` and
`gw_arp_push_to_mesh` each write an ARP reply by hand-set offsets. Each covers
its buffer once, and behind the link header the bytes are the same
(`Rimba.Gate.arpReply`). Of an Ethernet reply `gw_arp_snoop` learns the binding
it was built with, and `gw_proxy_arp` never answers one
(`Rimba.Gate.arpBuilders_agree`).
-/

namespace Rimba.Gate

open Foundation Foundation.Thread

/-- The 28 bytes of an ARP reply that binds `spa` to `sha`, to the host `tha`. -/
def arpReply (sha : Mac) (spa : UInt32) (tha : Mac) (tpa : UInt32) : Bytes :=
  [0, 1, 0x08, 0, 6, 4, 0, 2] ++ (sha.toList ++ (ipOctets spa ++ (tha.toList ++ ipOctets tpa)))

/-- What the mesh branch of `gw_proxy_arp` sends. -/
theorem gwProxyReply_mesh (reqMac : Mac) (spa tpa : UInt32) (tmac : Mac) :
    Datapath.gwProxyReply .mesh reqMac spa tpa tmac =
      (do
        let _ : Bool ← perform (GateCall.meshTxProxied .proxyArp reqMac tmac
          (Buffer.writeAll (stackBuffer (8 + 28)) (gwProxyArpWrites reqMac spa tpa tmac)))
        pure ()) := rfl

/-- The writes of the mesh branch of `gw_proxy_arp` cover its buffer once. -/
theorem consecutive_gwProxyArp (reqMac : Mac) (spa tpa : UInt32) (tmac : Mac) :
    Buffer.Consecutive 0 (gwProxyArpWrites reqMac spa tpa tmac) ∧
      8 + 28 = (Buffer.written (gwProxyArpWrites reqMac spa tpa tmac)).length :=
  consecutive_snapArp tmac tpa reqMac spa

theorem covers_gwArpBuildReply (reqMac : Mac) (reqIp tpa : UInt32) (tpaMac : Mac) :
    Buffer.Covers 42 (gwArpBuildReplyWrites reqMac reqIp tpa tpaMac) :=
  Buffer.covers_of_consecutive (consecutive_gwArpBuildReply reqMac reqIp tpa tpaMac).1
    (consecutive_gwArpBuildReply reqMac reqIp tpa tpaMac).2

theorem covers_gwProxyArp (reqMac : Mac) (spa tpa : UInt32) (tmac : Mac) :
    Buffer.Covers (8 + 28) (gwProxyArpWrites reqMac spa tpa tmac) :=
  Buffer.covers_of_consecutive (consecutive_gwProxyArp reqMac spa tpa tmac).1
    (consecutive_gwProxyArp reqMac spa tpa tmac).2

theorem covers_gwArpPushToMesh (spa : UInt32) (smac dstMac : Mac) (dpa : UInt32) :
    Buffer.Covers (8 + 28) (gwArpPushToMeshWrites spa smac dstMac dpa) :=
  covers_gwProxyArp dstMac dpa spa smac

theorem gwArpBuildReply_arp {out : Bytes} (size : out.length = 42) (reqMac : Mac)
    (reqIp tpa : UInt32) (tpaMac : Mac) :
    gwArpBuildReply out reqMac reqIp tpa tpaMac =
      (reqMac.toList ++ (tpaMac.toList ++ [0x08, 0x06])) ++
        arpReply tpaMac tpa reqMac reqIp := by
  rw [gwArpBuildReply_eq size]
  simp only [arpReply, List.append_assoc, List.cons_append, List.nil_append]

theorem snapArpReply_arp {snap : Bytes} (size : snap.length = 8 + 28) (sha : Mac) (spa : UInt32)
    (tha : Mac) (tpa : UInt32) :
    snapArpReply snap sha spa tha tpa =
      [0xaa, 0xaa, 0x03, 0x00, 0x00, 0x00, 0x08, 0x06] ++ arpReply sha spa tha tpa :=
  snapArpReply_eq size sha spa tha tpa

theorem length_arpReply (sha : Mac) (spa : UInt32) (tha : Mac) (tpa : UInt32) :
    (arpReply sha spa tha tpa).length = 28 := by
  simp only [arpReply, List.length_append, Vector.length_toList, List.length_cons,
    List.length_nil, length_ipOctets]

/-- The binding a call learns. -/
def GateCall.binding : GateCall → Option (UInt32 × Mac × GwSide)
  | .learnLocked _ ip mac side => some (ip, mac, side)
  | _ => none

/-- The bindings learned along some calls. -/
def learnedBindings (calls : GateCalls) : List (UInt32 × Mac × GwSide) :=
  calls.filterMap fun called => called.command.binding

/-- The bytes of an Ethernet reply behind its two addresses. -/
theorem byteAt_gwArpBuildReply {out : Bytes} (size : out.length = 42) (reqMac : Mac)
    (reqIp tpa : UInt32) (tpaMac : Mac) (offset : ℕ) :
    byteAt (gwArpBuildReply out reqMac reqIp tpa tpaMac) (12 + offset) =
      byteAt ([0x08, 0x06] ++ arpReply tpaMac tpa reqMac reqIp) offset := by
  have addressed := byteAt_append (reqMac.toList ++ tpaMac.toList)
    ([0x08, 0x06] ++ arpReply tpaMac tpa reqMac reqIp) offset
  rw [gwArpBuildReply_arp size]
  simpa only [List.append_assoc, List.length_append, Vector.length_toList] using addressed

theorem length_gwArpBuildReply {out : Bytes} (size : out.length = 42) (reqMac : Mac)
    (reqIp tpa : UInt32) (tpaMac : Mac) :
    (gwArpBuildReply out reqMac reqIp tpa tpaMac).length = 42 := by
  rw [gwArpBuildReply_arp size]
  simp only [List.length_append, Vector.length_toList, List.length_cons, List.length_nil,
    length_arpReply]

/-- A snoop of an Ethernet reply is a learn of the binding it was built with. -/
theorem gwArpSnoop_gwArpBuildReply {out : Bytes} (size : out.length = 42) (reqMac : Mac)
    (reqIp tpa : UInt32) (tpaMac : Mac) (side : GwSide) :
    Datapath.gwArpSnoop (gwArpBuildReply out reqMac reqIp tpa tpaMac) side =
      Datapath.gwArpLearn tpa tpaMac side := by
  have length := length_gwArpBuildReply size reqMac reqIp tpa tpaMac
  have first := byteAt_gwArpBuildReply size reqMac reqIp tpa tpaMac 0
  have second := byteAt_gwArpBuildReply size reqMac reqIp tpa tpaMac 1
  obtain ⟨binding, _⟩ := taught_gwArpBuildReply size reqMac reqIp tpa tpaMac
  obtain ⟨ip, mac⟩ := Prod.mk.inj binding
  have whole : ¬ 42 < 14 := by decide
  rw [Datapath.gwArpSnoop, length, if_neg whole, if_pos ⟨first, second, le_rfl⟩, ip, mac]

/-- An Ethernet reply is no request. -/
theorem isArpRequest_gwArpBuildReply {out : Bytes} (size : out.length = 42) (reqMac : Mac)
    (reqIp tpa : UInt32) (tpaMac : Mac) :
    Datapath.isArpRequest (gwArpBuildReply out reqMac reqIp tpa tpaMac) = false := by
  have operation : byteAt (gwArpBuildReply out reqMac reqIp tpa tpaMac) (14 + 7) = 2 :=
    byteAt_gwArpBuildReply size reqMac reqIp tpa tpaMac 9
  have reply : (2 : UInt8) ≠ 0x01 := by decide
  simp only [Datapath.isArpRequest, operation, reply, decide_false, Bool.and_false]

/-- A learn past its guard enters its binding once. -/
theorem learnedBindings_gwArpLearn {ip : UInt32} {mac : Mac} {side : GwSide} {calls : GateCalls}
    (guarded : learnable ip mac = true) (runs : Runs (Datapath.gwArpLearn ip mac side) calls ()) :
    learnedBindings calls = [(ip, mac, side)] := by
  rw [Datapath.gwArpLearn, if_pos guarded] at runs
  obtain ⟨now, _, rfl, locking⟩ := runs_perform_bind.mp runs
  obtain ⟨isNew, rest, rfl, waking⟩ := runs_perform_bind.mp locking
  have woken : learnedBindings rest = [] := by
    cases (isNew : Bool) with
    | false =>
        obtain ⟨rfl, _⟩ := runs_ret.mp waking
        rfl
    | true =>
        obtain ⟨created, rest, rfl, giving⟩ := runs_perform_bind.mp waking
        cases (created : Bool) with
        | false =>
            obtain ⟨rfl, _⟩ := runs_ret.mp giving
            rfl
        | true =>
            obtain ⟨_, rest, rfl, ended⟩ := runs_perform_bind.mp giving
            obtain ⟨rfl, _⟩ := runs_ret.mp ended
            rfl
  calc learnedBindings (⟨.nowMs, now⟩ :: ⟨.learnLocked now ip mac side, isNew⟩ :: rest)
      = (ip, mac, side) :: learnedBindings rest := rfl
    _ = [(ip, mac, side)] := by rw [woken]

/-- **The encoders agree, and the decoder reads them.** Whatever is in their
buffers, the three encoders leave the same ARP reply behind the link header, and
each writes every byte of its buffer exactly once. A snoop of the Ethernet form
learns the binding it was built with, when that can be learned at all, and no
frame so built is answered. -/
theorem arpBuilders_agree (reqMac : Mac) (reqIp tpa : UInt32) (tpaMac : Mac)
    (out : Vector UInt8 42) (proxied pushed : Vector UInt8 (8 + 28)) :
    ((gwArpBuildReply out.toList reqMac reqIp tpa tpaMac).drop 14 =
        arpReply tpaMac tpa reqMac reqIp ∧
      (Buffer.writeAll proxied.toList (gwProxyArpWrites reqMac reqIp tpa tpaMac)).drop 8 =
        arpReply tpaMac tpa reqMac reqIp ∧
      (Buffer.writeAll pushed.toList (gwArpPushToMeshWrites tpa tpaMac reqMac reqIp)).drop 8 =
        arpReply tpaMac tpa reqMac reqIp ∧
      (arpReply tpaMac tpa reqMac reqIp).length = 28) ∧
    (Buffer.Covers 42 (gwArpBuildReplyWrites reqMac reqIp tpa tpaMac) ∧
      Buffer.Covers (8 + 28) (gwProxyArpWrites reqMac reqIp tpa tpaMac) ∧
      Buffer.Covers (8 + 28) (gwArpPushToMeshWrites tpa tpaMac reqMac reqIp)) ∧
    ∀ side,
      (tpa ≠ 0 → tpaMac.group = false → ∀ calls,
        Runs (Datapath.gwArpSnoop (gwArpBuildReply out.toList reqMac reqIp tpa tpaMac) side) calls
          () → learnedBindings calls = [(tpa, tpaMac, side)]) ∧
      ∀ calls answered,
        Runs (Datapath.gwProxyArp (gwArpBuildReply out.toList reqMac reqIp tpa tpaMac) side) calls
          answered → calls = [] ∧ answered = false := by
  have whole : out.toList.length = 42 := Vector.length_toList
  refine ⟨⟨?_, ?_, ?_, length_arpReply tpaMac tpa reqMac reqIp⟩,
    ⟨covers_gwArpBuildReply reqMac reqIp tpa tpaMac, covers_gwProxyArp reqMac reqIp tpa tpaMac,
      covers_gwArpPushToMesh tpa tpaMac reqMac reqIp⟩, fun side => ⟨?_, ?_⟩⟩
  · rw [gwArpBuildReply_arp whole]
    apply List.drop_left'
    simp only [List.length_append, Vector.length_toList, List.length_cons, List.length_nil]
  · change (snapArpReply proxied.toList tpaMac tpa reqMac reqIp).drop 8 = _
    rw [snapArpReply_arp Vector.length_toList]
    exact List.drop_left' rfl
  · change (snapArpReply pushed.toList tpaMac tpa reqMac reqIp).drop 8 = _
    rw [snapArpReply_arp Vector.length_toList]
    exact List.drop_left' rfl
  · intro nonzero unicast calls runs
    rw [gwArpSnoop_gwArpBuildReply whole] at runs
    apply learnedBindings_gwArpLearn _ runs
    simp only [learnable, nonzero, unicast, ne_eq, not_false_eq_true, decide_true, Bool.not_false,
      Bool.and_self]
  · intro calls answered runs
    simp only [Datapath.gwProxyArp, isArpRequest_gwArpBuildReply whole, Bool.false_eq_true,
      ↓reduceIte] at runs
    exact runs_ret.mp runs

end Rimba.Gate
