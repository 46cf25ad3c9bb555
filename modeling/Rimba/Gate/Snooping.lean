import Rimba.Gate.ArpCodec
import Rimba.Gate.ProxyAnswer

/-! # What is snooped of a frame

`gw_arp_snoop` tells an ARP packet and an IPv4 one by the EtherType and the length of
the frame and looks at no other field of their headers, so the binding it learns is at
fixed offsets. Of a packet with the header these offsets are made for, it is the
sender's (`Rimba.Gate.snoops_sender`); of an ARP packet with another hardware type it is
learned all the same (`Rimba.Gate.otherHardware_learned`).
-/

namespace Rimba.Gate

open Foundation Foundation.Thread

/-- `count` bytes at an offset. -/
def bytesAt (bytes : Bytes) (offset count : ℕ) : Bytes := (bytes.drop offset).take count

/-- A big-endian word at an offset. -/
def wordAt (bytes : Bytes) (offset : ℕ) : ℕ :=
  0x100 * (byteAt bytes offset).toNat + (byteAt bytes (offset + 1)).toNat

/-- The fields of an ARP packet. -/
structure ArpPacket where
  htype : ℕ
  ptype : ℕ
  hlen : ℕ
  plen : ℕ
  oper : ℕ
  sha : Bytes
  spa : Bytes
  tha : Bytes
  tpa : Bytes
  deriving DecidableEq

/-- The ARP packet of an Ethernet frame, its addresses as long as it says. -/
def arpPacket (eth : Bytes) : Option ArpPacket :=
  let hlen := (byteAt eth 18).toNat
  let plen := (byteAt eth 19).toNat
  if wordAt eth 12 = 0x0806 ∧ 22 ≤ eth.length ∧ 22 + 2 * (hlen + plen) ≤ eth.length then
    some
      { htype := wordAt eth 14
        ptype := wordAt eth 16
        hlen := hlen
        plen := plen
        oper := wordAt eth 20
        sha := bytesAt eth 22 hlen
        spa := bytesAt eth (22 + hlen) plen
        tha := bytesAt eth (22 + hlen + plen) hlen
        tpa := bytesAt eth (22 + 2 * hlen + plen) plen }
  else none

/-- IPv4 over Ethernet. -/
structure ArpPacket.WellFormed (packet : ArpPacket) : Prop where
  htype : packet.htype = 1
  ptype : packet.ptype = 0x0800
  hlen : packet.hlen = 6
  plen : packet.plen = 4

/-- What is read of an IPv4 packet. -/
structure Ipv4Packet where
  version : ℕ
  source : Bytes
  deriving DecidableEq

/-- The packet of an Ethernet frame of the IPv4 type. -/
def ipv4Packet (eth : Bytes) : Option Ipv4Packet :=
  if wordAt eth 12 = 0x0800 ∧ 34 ≤ eth.length then
    some ⟨(byteAt eth 14).toNat / 0x10, bytesAt eth 26 4⟩
  else none

/-- The frame carries an ARP packet of IPv4 over Ethernet, or an IPv4 packet. -/
def WellFormedFrame (eth : Bytes) : Prop :=
  (∃ packet, arpPacket eth = some packet ∧ packet.WellFormed) ∨
    ∃ packet, ipv4Packet eth = some packet ∧ packet.version = 4

/-- The packet's sender: that of the ARP packet, or the source of the IPv4 packet with
that of the frame. -/
def SenderOf (eth : Bytes) (ip : UInt32) (mac : Mac) : Prop :=
  (∃ packet, arpPacket eth = some packet ∧ packet.spa = ipOctets ip ∧ packet.sha = mac.toList) ∨
    ∃ packet, ipv4Packet eth = some packet ∧ packet.source = ipOctets ip ∧
      bytesAt eth 6 6 = mac.toList

/-- The addresses at the offsets of the two packets. -/
def senderFields (eth : Bytes) : Option (UInt32 × Mac) :=
  if wordAt eth 12 = 0x0806 ∧ 42 ≤ eth.length then some (ipAt eth 28, macAt eth 22)
  else if wordAt eth 12 = 0x0800 ∧ 34 ≤ eth.length then some (ipAt eth 26, macAt eth 6)
  else none

/-- The binding that is learned of a frame. -/
def snooped (eth : Bytes) : Option (UInt32 × Mac) :=
  (senderFields eth).filter fun binding => learnable binding.1 binding.2

/-- What the snoop of a frame comes to. -/
structure SnoopsSender (eth : Bytes) (side : GwSide) : Prop where
  /-- The binding is learned, and nothing else, whatever other tasks do meanwhile. -/
  learns : ∀ calls, Runs (Datapath.gwArpSnoop eth side) calls () →
    learnedBindings calls = (snooped eth).toList.map fun binding =>
      (binding.1, binding.2, side)
  /-- On its own the snoop leaves the table of that learn. -/
  table : ∀ state calls final,
    Alone gateServe state (Datapath.gwArpSnoop eth side) calls final () →
    ∃ now, final.table = (snooped eth).elim state.table fun binding =>
      (gwArpLearnLocked state.table now binding.1 binding.2 side).1
  /-- Of a well-formed packet it is the sender's, unless that is not learned at all. -/
  sender : WellFormedFrame eth → ∃ ip mac, SenderOf eth ip mac ∧
    snooped eth = if learnable ip mac then some (ip, mac) else none

/-- The address copied out of a frame is made of its bytes. -/
theorem ipOctets_ipAt {bytes : Bytes} {offset : ℕ} (inside : offset + 4 ≤ bytes.length) :
    ipOctets (ipAt bytes offset) = bytesAt bytes offset 4 := by
  have here (i : ℕ) (low : i < 4) : byteAt bytes (offset + i) = bytes[offset + i] := by
    rw [byteAt, List.getD_eq_getElem?_getD, List.getElem?_eq_getElem (by omega), Option.getD_some]
  have sliced : bytesAt bytes offset 4 =
      [byteAt bytes offset, byteAt bytes (offset + 1), byteAt bytes (offset + 2),
        byteAt bytes (offset + 3)] := by
    apply List.ext_getElem
    · rw [bytesAt, List.length_take, List.length_drop]
      exact Nat.min_eq_left (by omega)
    · intro i inSlice inOctets
      have low : i < 4 := inOctets
      simp only [bytesAt, List.getElem_take, List.getElem_drop, ← here i low]
      rcases i with _ | _ | _ | _ | i
      · rfl
      · rfl
      · rfl
      · rfl
      · omega
  have bound (i : ℕ) := (byteAt bytes i).toNat_lt
  have first := bound offset
  have second := bound (offset + 1)
  have third := bound (offset + 2)
  have fourth := bound (offset + 3)
  have whole : (ipAt bytes offset).toNat = (byteAt bytes offset).toNat +
      0x100 * (byteAt bytes (offset + 1)).toNat + 0x10000 * (byteAt bytes (offset + 2)).toNat +
        0x1000000 * (byteAt bytes (offset + 3)).toNat := by
    rw [ipAt, UInt32.toNat_ofNat']
    exact Nat.mod_eq_of_lt (by omega)
  rw [sliced, ipOctets, whole]
  simp only [List.cons.injEq, and_true, ← UInt8.toNat_inj, UInt8.toNat_ofNat']
  omega

theorem wordAt_eq_iff {bytes : Bytes} {offset : ℕ} {high low : UInt8} :
    wordAt bytes offset = 0x100 * high.toNat + low.toNat ↔
      byteAt bytes offset = high ∧ byteAt bytes (offset + 1) = low := by
  have boundLow := (byteAt bytes (offset + 1)).toNat_lt
  have bound := low.toNat_lt
  rw [wordAt, ← UInt8.toNat_inj, ← UInt8.toNat_inj]
  omega

theorem arpType_iff {eth : Bytes} :
    wordAt eth 12 = 0x0806 ↔ byteAt eth 12 = 0x08 ∧ byteAt eth 13 = 0x06 :=
  @wordAt_eq_iff eth 12 0x08 0x06

theorem ipv4Type_iff {eth : Bytes} :
    wordAt eth 12 = 0x0800 ↔ byteAt eth 12 = 0x08 ∧ byteAt eth 13 = 0x00 :=
  @wordAt_eq_iff eth 12 0x08 0x00

/-- A snoop is a learn of the addresses at the offsets. -/
theorem gwArpSnoop_eq (eth : Bytes) (side : GwSide) :
    Datapath.gwArpSnoop eth side = (senderFields eth).elim (pure ()) fun binding =>
      Datapath.gwArpLearn binding.1 binding.2 side := by
  rw [Datapath.gwArpSnoop, senderFields]
  by_cases short : eth.length < 14
  · have noArp : ¬ (wordAt eth 12 = 0x0806 ∧ 42 ≤ eth.length) := by omega
    have noIpv4 : ¬ (wordAt eth 12 = 0x0800 ∧ 34 ≤ eth.length) := by omega
    rw [if_pos short, if_neg noArp, if_neg noIpv4, Option.elim_none]
  · rw [if_neg short]
    simp only [arpType_iff, ipv4Type_iff, and_assoc]
    split_ifs <;> rfl

/-- A learn that is guarded off enters nothing. -/
theorem learnedBindings_of_unlearnable {ip : UInt32} {mac : Mac} {side : GwSide}
    {calls : GateCalls} (unguarded : learnable ip mac ≠ true)
    (runs : Runs (Datapath.gwArpLearn ip mac side) calls ()) : learnedBindings calls = [] := by
  rw [Datapath.gwArpLearn, if_neg unguarded] at runs
  obtain ⟨rfl, _⟩ := runs_ret.mp runs
  rfl

theorem learnedBindings_gwArpSnoop {eth : Bytes} {side : GwSide} {calls : GateCalls}
    (runs : Runs (Datapath.gwArpSnoop eth side) calls ()) :
    learnedBindings calls = (snooped eth).toList.map fun binding =>
      (binding.1, binding.2, side) := by
  rw [gwArpSnoop_eq] at runs
  rw [snooped]
  cases fields : senderFields eth with
  | none =>
      rw [fields] at runs
      obtain ⟨rfl, _⟩ := runs_ret.mp runs
      rfl
  | some binding =>
      rw [fields] at runs
      by_cases guarded : learnable binding.1 binding.2 = true
      · rw [Option.filter_some, if_pos guarded]
        exact learnedBindings_gwArpLearn guarded runs
      · rw [Option.filter_some, if_neg guarded]
        exact learnedBindings_of_unlearnable guarded runs

theorem table_snooped {eth : Bytes} {side : GwSide} {state final : GateState} {calls : GateCalls}
    (alone : Alone gateServe state (Datapath.gwArpSnoop eth side) calls final ()) :
    ∃ now, final.table = (snooped eth).elim state.table fun binding =>
      (gwArpLearnLocked state.table now binding.1 binding.2 side).1 := by
  rw [gwArpSnoop_eq] at alone
  rw [snooped]
  cases fields : senderFields eth with
  | none =>
      rw [fields] at alone
      obtain ⟨_, rfl, _⟩ := alone_ret.mp alone
      exact ⟨0, rfl⟩
  | some binding =>
      rw [fields] at alone
      obtain ⟨now, learned⟩ := table_gwArpLearn alone
      refine ⟨now, ?_⟩
      rw [learned, gwArpLearn]
      by_cases guarded : learnable binding.1 binding.2 = true
      · rw [Option.filter_some, if_pos guarded, if_pos guarded, Option.elim_some]
      · rw [Option.filter_some, if_neg guarded, if_neg guarded, Option.elim_none]

theorem arpPacket_eq_some {eth : Bytes} {packet : ArpPacket} (read : arpPacket eth = some packet)
    (wellFormed : packet.WellFormed) :
    (wordAt eth 12 = 0x0806 ∧ 42 ≤ eth.length) ∧ packet.sha = bytesAt eth 22 6 ∧
      packet.spa = bytesAt eth 28 4 := by
  rw [arpPacket] at read
  split_ifs at read with fits
  obtain ⟨ethertype, -, long⟩ := fits
  cases read
  obtain ⟨-, -, hlen, plen⟩ := wellFormed
  simp only at hlen plen
  rw [hlen, plen] at long
  simp only [hlen, plen, and_self, and_true]
  exact ⟨ethertype, long⟩

theorem ipv4Packet_eq_some {eth : Bytes} {packet : Ipv4Packet}
    (read : ipv4Packet eth = some packet) :
    (wordAt eth 12 = 0x0800 ∧ 34 ≤ eth.length) ∧ packet.source = bytesAt eth 26 4 := by
  rw [ipv4Packet] at read
  split_ifs at read with fits
  cases read
  exact ⟨fits, rfl⟩

/-- The fields of a well-formed packet are its sender's. -/
theorem senderFields_of_wellFormed {eth : Bytes} (wellFormed : WellFormedFrame eth) :
    ∃ ip mac, SenderOf eth ip mac ∧ senderFields eth = some (ip, mac) := by
  rw [senderFields]
  rcases wellFormed with ⟨packet, read, valid⟩ | ⟨packet, read, -⟩
  · obtain ⟨⟨ethertype, long⟩, sha, spa⟩ := arpPacket_eq_some read valid
    refine ⟨ipAt eth 28, macAt eth 22, .inl ⟨packet, read, ?_, ?_⟩, if_pos ⟨ethertype, long⟩⟩
    · rw [spa, ipOctets_ipAt (by omega)]
    · rw [sha, toList_macAt (by omega), bytesAt]
  · obtain ⟨⟨ethertype, long⟩, source⟩ := ipv4Packet_eq_some read
    have noArp : ¬ (wordAt eth 12 = 0x0806 ∧ 42 ≤ eth.length) := by omega
    rw [if_neg noArp, if_pos ⟨ethertype, long⟩]
    refine ⟨ipAt eth 26, macAt eth 6, .inr ⟨packet, read, ?_, ?_⟩, rfl⟩
    · rw [source, ipOctets_ipAt (by omega)]
    · rw [toList_macAt (by omega), bytesAt]

/-- **What is learned of a frame.** Every snoop learns the addresses at the offsets of an
ARP packet or of an IPv4 one, told apart by the EtherType and the length of the frame, or
nothing; and of a well-formed packet these are the addresses of its sender. -/
theorem snoops_sender (eth : Bytes) (side : GwSide) : SnoopsSender eth side where
  learns _ runs := learnedBindings_gwArpSnoop runs
  table _ _ _ alone := table_snooped alone
  sender wellFormed := by
    obtain ⟨ip, mac, sender, fields⟩ := senderFields_of_wellFormed wellFormed
    refine ⟨ip, mac, sender, ?_⟩
    rw [snooped, fields, Option.filter_some]

/-- An ARP packet of hardware type 6, otherwise like that of a host 10.9.9.2. -/
def otherHardwareFrame : Bytes :=
  List.replicate 6 0xff ++ [0x02, 0, 0, 0, 0, 1] ++ [0x08, 0x06] ++
    [0, 6, 0x08, 0, 6, 4, 0, 1] ++ [0x02, 0, 0, 0, 0, 1] ++ [10, 9, 9, 2] ++
      List.replicate 6 0 ++ [10, 9, 9, 105]

/-- The calls by which its sender is learned. -/
def otherHardwareCalls : GateCalls :=
  [⟨.nowMs, (1000 : UInt32)⟩,
    ⟨.learnLocked 1000 (ipAt otherHardwareFrame 28) (macAt otherHardwareFrame 22) .mesh, true⟩,
    ⟨.announceTask, false⟩]

/-- The gate behind the snoop. -/
def otherHardwareKnown : GateState :=
  { GateState.boot with
    table := (gwArpLearnLocked .empty 1000 (ipAt otherHardwareFrame 28)
      (macAt otherHardwareFrame 22) .mesh).1 }

theorem otherHardware_run :
    Alone gateServe .boot (Datapath.gwArpSnoop otherHardwareFrame .mesh) otherHardwareCalls
      otherHardwareKnown () := by
  rw [Datapath.gwArpSnoop, if_neg (by decide), if_pos (by decide), Datapath.gwArpLearn,
    if_pos (by decide)]
  apply alone_perform_bind.mpr
  refine ⟨⟨1000, false⟩, _, rfl, ?_⟩
  apply alone_perform_bind.mpr
  refine ⟨⟨1000, false⟩, _, rfl, ?_⟩
  apply alone_perform_bind.mpr
  refine ⟨⟨1000, false⟩, _, rfl, ?_⟩
  apply Alone.ret

theorem otherHardware_malformed : ¬ WellFormedFrame otherHardwareFrame := by
  rintro (⟨packet, read, wellFormed⟩ | ⟨packet, read, -⟩)
  · have hardware : (arpPacket otherHardwareFrame).map ArpPacket.htype = some 6 := by decide
    rw [read, Option.map_some, wellFormed.htype] at hardware
    exact absurd hardware (by decide)
  · have none : ipv4Packet otherHardwareFrame = .none := by decide
    rw [none] at read
    cases read

/-- A packet of another hardware type is learned like any. -/
theorem otherHardware_learned :
    ¬ ∀ (eth : Bytes) (side : GwSide) (state final : GateState) (calls : GateCalls),
      Alone gateServe state (Datapath.gwArpSnoop eth side) calls final () →
        final.table ≠ state.table → WellFormedFrame eth := by
  intro always
  apply otherHardware_malformed
  apply always _ _ _ _ _ otherHardware_run
  intro unchanged
  have held : (otherHardwareKnown.table 0).used = true := by decide
  rw [unchanged] at held
  exact absurd held (by decide)

end Rimba.Gate
