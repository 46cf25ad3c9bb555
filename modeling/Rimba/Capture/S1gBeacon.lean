import Rimba.Capture.Elements
import Rimba.Capture.Pcap
import Rimba.Capture.Radiotap
import Rimba.Foundation.OrderedDict

/-! # Decoding S1G beacons

The main loop of `raw_s1g_beacon_decode.py` walks the elements of each S1G beacon of a
capture and counts the beacon as decoded when the walk ends with the frame. The
elements start where the frame control says. A frame that ends before that leaves
nothing to walk, and nothing is a complete chain, so it is counted as a beacon without
elements; a beacon is decoded exactly as it should be when it reaches its elements
(`Rimba.Capture.decodesExactly_iff`). Every beacon is decoded or reported
(`Rimba.Capture.mainLoop_accounts`).
-/

namespace Rimba.Capture

open Foundation (ofLittle OrderedDict)

/-- `s1g_ie_offset` -/
def s1gIeOffset (fc : ℕ) : ℕ :=
  15 + (if fc &&& 0x0100 ≠ 0 then 3 else 0) + (if fc &&& 0x0200 ≠ 0 then 4 else 0) +
    (if fc &&& 0x0400 ≠ 0 then 1 else 0)

/-- The frame without its FCS, which is there unless the radiotap flags deny it. -/
def frameBody (rt : Radiotap) (f : Octets) : Octets :=
  if rt.flags.getD 0x10 &&& 0x10 ≠ 0 then f.take (f.length - 4) else f

/-- What the main loop collects. Of each `Counter` it is the keys that were counted. -/
structure Tally where
  nS1g : ℕ
  perSa : List String
  fcVals : List ℕ
  offsets : List ℕ
  chains : List (List UInt8)
  rpsVals : List Octets
  caps6 : List UInt8
  dtimSplit : List String
  rssi : List Int8
  tsfts : List ℕ
  undecodable : List (ℕ × String)

namespace Tally

/-- Before the first packet. -/
def start : Tally := ⟨0, [], [], [], [], [], [], [], [], [], []⟩

/-- What is counted of an element. -/
def element (tally : Tally) (element : Element) : Tally :=
  if element.eid = 208 then { tally with rpsVals := tally.rpsVals ++ [element.encode] }
  else if element.eid = 217 ∧ 6 < element.payload.length then
    { tally with caps6 := tally.caps6 ++ [element.payload.getD 6 0] }
  else if element.eid = 5 ∧ 2 ≤ element.payload.length then
    { tally with dtimSplit := tally.dtimSplit ++
        [if element.payload.getD 0 0 = 0 then "DTIM" else "non-DTIM"] }
  else tally

/-- A beacon whose chain was walked to its end. -/
def decode (tally : Tally) (rt : Radiotap) (ies : List Element) : Tally :=
  ies.foldl Tally.element
    { tally with
      rssi := tally.rssi ++ rt.rssi.toList
      tsfts := tally.tsfts ++ rt.tsft.toList
      chains := tally.chains ++ [ies.map Element.eid] }

/-- `undecodable.append((ts_us, why))` -/
def report (tally : Tally) (ts : ℕ) (why : String) : Tally :=
  { tally with undecodable := tally.undecodable ++ [(ts, why)] }

/-- `"0x%04x" % fc` -/
def hexWord (fc : ℕ) : String :=
  "0x" ++ hexOctet (UInt8.ofNat (fc / 256)) ++ hexOctet (UInt8.ofNat (fc % 256))

/-- The loop's body for a beacon, from where its body is taken. -/
def beacon (tally : Tally) (ts : ℕ) (rt : Radiotap) (f : Octets) : Tally :=
  let body := frameBody rt f
  let fc := ofLittle (slice f 0 2)
  let off := s1gIeOffset fc
  let seen := { tally with fcVals := tally.fcVals ++ [fc], offsets := tally.offsets ++ [off] }
  let (ies, ok) := walkIes (body.drop off)
  if ok then seen.decode rt ies
  else seen.report ts ("IE walk did not land on frame end (fc=" ++ hexWord fc ++ " off=" ++
    toString off ++ " len=" ++ toString body.length ++ ")")

/-- The body of the main loop; `none` when it raises. -/
def packet (wantSa : Option String) (tally : Tally) (ts : ℕ) (pkt : Octets) : Option Tally := do
  match ← parseRadiotap pkt with
  | none => some (tally.report ts "radiotap malformed")
  | some (rtlen, rt) =>
      let f := pkt.drop rtlen
      if f.length < 15 ∨ f.getD 0 0 ≠ 0x1c then some tally
      else
        let sa := mac (slice f 4 10)
        let seen := { tally with nS1g := tally.nS1g + 1, perSa := tally.perSa ++ [sa] }
        if wantSa.any fun want => sa ≠ want then some seen else some (seen.beacon ts rt f)

/-- `sum(chains.values())` -/
def decoded (tally : Tally) : ℕ := (OrderedDict.empty.tally tally.chains).values.sum

end Tally

/-- The main loop. -/
def mainLoop (wantSa : Option String) (pkts : List Packet) : Option Tally :=
  pkts.foldlM (fun tally pkt => tally.packet wantSa pkt.ts pkt.data) .start

/-- A packet with a radiotap header in front of an S1G beacon. -/
structure BeaconPacket (pkt : Octets) (rtlen : ℕ) (rt : Radiotap) : Prop where
  header : parseRadiotap pkt = some (some (rtlen, rt))
  long : 15 ≤ (pkt.drop rtlen).length
  beacon : (pkt.drop rtlen).getD 0 0 = 0x1c

/-- Where the elements of a frame start. -/
def ieOffset (f : Octets) : ℕ := s1gIeOffset (ofLittle (slice f 0 2))

/-- The frame reaches its elements, and from there on is nothing but elements. -/
def CompleteBeacon (rt : Radiotap) (f : Octets) : Prop :=
  ieOffset f ≤ (frameBody rt f).length ∧
    ∃ chain, (frameBody rt f).drop (ieOffset f) = elements.encodeAll chain

/-- A beacon is counted as decoded when it is complete, and else reported. -/
structure DecodesExactly (tally after : Tally) (rt : Radiotap) (f : Octets) : Prop where
  decoded : after.decoded = tally.decoded + 1 ↔ CompleteBeacon rt f
  reported : ¬ CompleteBeacon rt f →
    after.decoded = tally.decoded ∧ after.undecodable.length = tally.undecodable.length + 1

namespace Tally

variable (tally : Tally)

theorem decoded_eq : tally.decoded = tally.chains.length := by
  have counted := OrderedDict.sum_tally (fun _ => true) tally.chains
  rw [List.filter_true, List.countP_true] at counted
  exact counted

/-- The counts of elements leave the chains and the reports alone. -/
theorem foldl_element (ies : List Element) :
    (ies.foldl Tally.element tally).chains = tally.chains ∧
      (ies.foldl Tally.element tally).undecodable = tally.undecodable ∧
      (ies.foldl Tally.element tally).nS1g = tally.nS1g := by
  induction ies generalizing tally with
  | nil => exact ⟨rfl, rfl, rfl⟩
  | cons first later ih =>
      have step : (tally.element first).chains = tally.chains ∧
          (tally.element first).undecodable = tally.undecodable ∧
          (tally.element first).nS1g = tally.nS1g := by
        unfold element
        split
        · exact ⟨rfl, rfl, rfl⟩
        · split
          · exact ⟨rfl, rfl, rfl⟩
          · split <;> exact ⟨rfl, rfl, rfl⟩
      obtain ⟨chains, undecodable, nS1g⟩ := ih (tally.element first)
      exact ⟨chains.trans step.1, undecodable.trans step.2.1, nS1g.trans step.2.2⟩

variable (ts : ℕ) (rt : Radiotap) (f : Octets)

/-- A beacon whose walk ends with it is decoded. -/
theorem beacon_of_walked (walked : (walkIes ((frameBody rt f).drop (ieOffset f))).2 = true) :
    (tally.beacon ts rt f).decoded = tally.decoded + 1 ∧
      (tally.beacon ts rt f).undecodable = tally.undecodable ∧
      (tally.beacon ts rt f).nS1g = tally.nS1g := by
  obtain ⟨chains, undecodable, nS1g⟩ := foldl_element
    { tally with
      fcVals := tally.fcVals ++ [ofLittle (slice f 0 2)]
      offsets := tally.offsets ++ [ieOffset f]
      rssi := tally.rssi ++ rt.rssi.toList
      tsfts := tally.tsfts ++ rt.tsft.toList
      chains := tally.chains ++
        [(walkIes ((frameBody rt f).drop (ieOffset f))).1.map Element.eid] }
    (walkIes ((frameBody rt f).drop (ieOffset f))).1
  rw [ieOffset] at walked
  rw [decoded_eq, decoded_eq, beacon]
  simp only [walked, ↓reduceIte, decode]
  exact ⟨(congrArg List.length chains).trans (List.length_append ..), undecodable, nS1g⟩

/-- Another one is reported. -/
theorem beacon_of_not_walked
    (stopped : (walkIes ((frameBody rt f).drop (ieOffset f))).2 = false) :
    (tally.beacon ts rt f).decoded = tally.decoded ∧
      (tally.beacon ts rt f).undecodable.length = tally.undecodable.length + 1 ∧
      (tally.beacon ts rt f).nS1g = tally.nS1g := by
  rw [ieOffset] at stopped
  rw [decoded_eq, decoded_eq, beacon]
  simp only [stopped, Bool.false_eq_true, ↓reduceIte, report, List.length_append,
    List.length_singleton, and_self]

end Tally

/-- The walk ends with some octets when they are a chain. -/
theorem walked_iff (octets : Octets) :
    (walkIes octets).2 = true ↔ ∃ chain, octets = elements.encodeAll chain := by
  constructor
  · intro walked
    have whole := Foundation.Framing.rest_eq_nil_iff.mp ((walkIes_snd octets).mp walked)
    exact ⟨_, whole.symm⟩
  · rintro ⟨chain, rfl⟩
    exact (walkIes_snd _).mpr (Foundation.Framing.Parses.encoded chain).rest_eq

/-- What the loop's body does of a beacon when it looks at every source. -/
theorem packet_of_beacon {pkt : Octets} {rtlen : ℕ} {rt : Radiotap}
    (frame : BeaconPacket pkt rtlen rt) (tally : Tally) (ts : ℕ) :
    ∃ seen : Tally, seen.decoded = tally.decoded ∧ seen.undecodable = tally.undecodable ∧
      seen.nS1g = tally.nS1g + 1 ∧
      tally.packet none ts pkt = some (seen.beacon ts rt (pkt.drop rtlen)) := by
  have goes : ¬ ((pkt.drop rtlen).length < 15 ∨ (pkt.drop rtlen).getD 0 0 ≠ 0x1c) := by
    rintro (short | other)
    · have long := frame.long
      omega
    · exact other frame.beacon
  refine ⟨{ tally with
    nS1g := tally.nS1g + 1
    perSa := tally.perSa ++ [mac (slice (pkt.drop rtlen) 4 10)] }, rfl, rfl, rfl, ?_⟩
  rw [Tally.packet, frame.header]
  simp only [Option.bind_eq_bind, Option.bind_some, if_neg goes]
  rfl

/-- A beacon that ends before its elements leaves nothing to walk, and nothing is a
chain. -/
theorem decoded_of_short {pkt : Octets} {rtlen : ℕ} {rt : Radiotap}
    (frame : BeaconPacket pkt rtlen rt) (tally : Tally) (ts : ℕ)
    (short : (frameBody rt (pkt.drop rtlen)).length < ieOffset (pkt.drop rtlen)) :
    ¬ ∃ after, tally.packet none ts pkt = some after ∧
      DecodesExactly tally after rt (pkt.drop rtlen) := by
  rintro ⟨after, got, exactly⟩
  obtain ⟨seen, decoded, -, -, packet⟩ := packet_of_beacon frame tally ts
  obtain rfl := Option.some.inj (packet.symm.trans got)
  have nothing : (frameBody rt (pkt.drop rtlen)).drop (ieOffset (pkt.drop rtlen)) = [] :=
    List.drop_eq_nil_of_le short.le
  have ends := (walked_iff _).mpr ⟨[], nothing⟩
  obtain ⟨counted, -⟩ := seen.beacon_of_walked ts rt (pkt.drop rtlen) ends
  rw [decoded] at counted
  exact absurd (exactly.decoded.mp counted).1 (Nat.not_le.mpr short)

/-- A beacon is decoded exactly as it should be when, without its FCS, it reaches its
elements. -/
theorem decodesExactly_iff {pkt : Octets} {rtlen : ℕ} {rt : Radiotap}
    (frame : BeaconPacket pkt rtlen rt) (tally : Tally) (ts : ℕ) :
    (∃ after, tally.packet none ts pkt = some after ∧
        DecodesExactly tally after rt (pkt.drop rtlen)) ↔
      ieOffset (pkt.drop rtlen) ≤ (frameBody rt (pkt.drop rtlen)).length := by
  constructor
  · intro exactly
    by_contra short
    exact decoded_of_short frame tally ts (Nat.not_le.mp short) exactly
  · intro reaches
    obtain ⟨seen, decoded, undecodable, -, packet⟩ := packet_of_beacon frame tally ts
    generalize pkt.drop rtlen = f at packet reaches
    have walked := walked_iff ((frameBody rt f).drop (ieOffset f))
    have complete : CompleteBeacon rt f ↔
        (walkIes ((frameBody rt f).drop (ieOffset f))).2 = true := by
      rw [walked, CompleteBeacon]
      exact and_iff_right reaches
    refine ⟨_, packet, ?_, ?_⟩
    · rw [complete, ← decoded]
      cases ends : (walkIes ((frameBody rt f).drop (ieOffset f))).2 with
      | true => exact ⟨fun _ => rfl, fun _ => (seen.beacon_of_walked ts rt f ends).1⟩
      | false =>
          have same := (seen.beacon_of_not_walked ts rt f ends).1
          simp only [same, Bool.false_eq_true, iff_false]
          omega
    · intro incomplete
      have stopped := Bool.eq_false_iff.mpr (mt complete.mpr incomplete)
      obtain ⟨same, one, -⟩ := seen.beacon_of_not_walked ts rt f stopped
      exact ⟨same.trans decoded, by rw [one, undecodable]⟩

/-- A radiotap header without fields. -/
def bareHeader : RtHeader :=
  ⟨0, none, none, none, fun _ => none, fun _ => false, [], fun _ => 0, []⟩

theorem bareHeader_read (f : Octets) :
    parseRadiotap (bareHeader.encode ++ f) = some (some (8, .empty)) :=
  @parseRadiotap_encode bareHeader ⟨by decide, by decide⟩ f

/-- A beacon with a TIM element, and its FCS. -/
def wholeBeacon : Octets :=
  bareHeader.encode ++ (0x1c :: List.replicate 14 0 ++ [5, 2, 0, 1] ++ [1, 2, 3, 4])

theorem wholeBeacon_packet : BeaconPacket wholeBeacon 8 .empty :=
  ⟨bareHeader_read _, by decide, by decide⟩

theorem wholeBeacon_decodes :
    BeaconPacket wholeBeacon 8 .empty ∧
      ∃ after, Tally.start.packet none 0 wholeBeacon = some after ∧
        DecodesExactly .start after .empty (wholeBeacon.drop 8) :=
  ⟨wholeBeacon_packet, (decodesExactly_iff wholeBeacon_packet .start 0).mpr (by decide)⟩

/-- A beacon of 15 octets, the last four of them its FCS. -/
def cutBeacon : Octets := bareHeader.encode ++ (0x1c :: List.replicate 14 0)

theorem cutBeacon_packet : BeaconPacket cutBeacon 8 .empty :=
  ⟨bareHeader_read _, by decide, by decide⟩

/-- It ends inside its own header, and is counted as decoded. -/
theorem cutBeacon_decoded :
    BeaconPacket cutBeacon 8 .empty ∧
      ¬ ∃ after, Tally.start.packet none 0 cutBeacon = some after ∧
        DecodesExactly .start after .empty (cutBeacon.drop 8) :=
  ⟨cutBeacon_packet, decoded_of_short cutBeacon_packet .start 0 (by decide)⟩

/-- Every packet is skipped, decoded or reported, and only a packet without a sound
radiotap header is reported and not counted as a beacon. -/
theorem packet_accounts (tally : Tally) (ts : ℕ) (pkt : Octets) :
    ∃ after, tally.packet none ts pkt = some after ∧
      after.decoded + after.undecodable.length + tally.nS1g =
        tally.decoded + tally.undecodable.length + after.nS1g +
          if parseRadiotap pkt = some none then 1 else 0 := by
  cases read : parseRadiotap pkt with
  | none => exact absurd read (parseRadiotap_ne_none pkt)
  | some header =>
      cases header with
      | none =>
          refine ⟨tally.report ts "radiotap malformed", by rw [Tally.packet, read]; rfl, ?_⟩
          rw [Tally.decoded_eq, Tally.decoded_eq, if_pos rfl]
          simp only [Tally.report, List.length_append, List.length_singleton]
          omega
      | some header =>
          obtain ⟨rtlen, rt⟩ := header
          simp only [Option.some.injEq, reduceCtorEq, ↓reduceIte, Nat.add_zero]
          by_cases other : (pkt.drop rtlen).length < 15 ∨ (pkt.drop rtlen).getD 0 0 ≠ 0x1c
          · refine ⟨tally, ?_, rfl⟩
            rw [Tally.packet, read]
            exact if_pos other
          · obtain ⟨long, beacon⟩ := not_or.mp other
            obtain ⟨seen, decoded, undecodable, nS1g, packet⟩ := packet_of_beacon
              ⟨read, Nat.not_lt.mp long, not_not.mp beacon⟩ tally ts
            refine ⟨_, packet, ?_⟩
            rw [← decoded, ← undecodable]
            cases ends : (walkIes ((frameBody rt (pkt.drop rtlen)).drop
              (ieOffset (pkt.drop rtlen)))).2 with
            | true =>
                obtain ⟨one, same, count⟩ := seen.beacon_of_walked ts rt (pkt.drop rtlen) ends
                rw [one, same, count, nS1g]
                omega
            | false =>
                obtain ⟨same, one, count⟩ := seen.beacon_of_not_walked ts rt (pkt.drop rtlen) ends
                rw [one, same, count, nS1g]
                omega

/-- Without a source to look for, the main loop does not raise, and the beacons it has
seen are those it decoded and those it reported. -/
theorem mainLoop_accounts (pkts : List Packet) : ∃ tally, mainLoop none pkts = some tally ∧
    tally.decoded + tally.undecodable.length =
      tally.nS1g + pkts.countP fun pkt => parseRadiotap pkt.data = some none := by
  have run : ∀ before : Tally, ∃ tally,
      pkts.foldlM (fun tally pkt => tally.packet none pkt.ts pkt.data) before = some tally ∧
        tally.decoded + tally.undecodable.length + before.nS1g =
          before.decoded + before.undecodable.length + tally.nS1g +
            pkts.countP fun pkt => parseRadiotap pkt.data = some none := by
    induction pkts with
    | nil => exact fun before => ⟨before, rfl, rfl⟩
    | cons pkt pkts ih =>
        intro before
        obtain ⟨middle, first, count⟩ := packet_accounts before pkt.ts pkt.data
        obtain ⟨tally, later, counts⟩ := ih middle
        refine ⟨tally, ?_, ?_⟩
        · rw [List.foldlM_cons, first]
          exact later
        · rw [List.countP_cons]
          simp only [decide_eq_true_eq]
          omega
  obtain ⟨tally, ran, counts⟩ := run .start
  refine ⟨tally, ran, ?_⟩
  have nothing : Tally.start.decoded + Tally.start.undecodable.length = 0 := rfl
  have unseen : Tally.start.nS1g = 0 := rfl
  omega

end Rimba.Capture
