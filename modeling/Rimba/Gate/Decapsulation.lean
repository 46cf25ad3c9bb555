import Rimba.Gate.Bridge

/-! # What the mesh-to-AP leg accepts

`gw_ap_rx_cb` writes all six bytes of the RFC 1042 header and `gate_ae_rx_cb`
looks at the first three. What it puts on the AP vif is the frame of a payload
the other leg could have produced exactly when the other three are zero
(`Rimba.Gate.decapsulates_iff`); a payload under another organization's
identifier is delivered with its protocol number taken for an ethertype
(`Rimba.Gate.otherOrganization_retyped`).
-/

namespace Rimba.Gate

open Foundation Foundation.Thread

/-- The RFC 1042 header: LLC for SNAP, and the organization of the ethertypes. -/
def rfc1042 : Bytes := [0xaa, 0xaa, 0x03, 0x00, 0x00, 0x00]

/-- Whatever is put on the AP vif for one of the gate's clients came under the
RFC 1042 header, and encapsulates to the payload again. -/
def Decapsulates (eaddr1 eaddr2 : Mac) (payload : Bytes) : Prop :=
  ∀ clients calls consumed, gateIsApClient clients eaddr1 = true → AnsweredBy clients calls →
    Runs (Datapath.gateAeRxCb eaddr1 eaddr2 payload) calls consumed →
      ∀ frame ∈ apFrames calls, rfc1042 <+: payload ∧ Datapath.snapPayload frame = payload

/-- The payload names the organization of the ethertypes. -/
def NamesEthertype (payload : Bytes) : Prop :=
  byteAt payload 3 = 0 ∧ byteAt payload 4 = 0 ∧ byteAt payload 5 = 0

theorem drop_eq_byteAt_cons {bytes : Bytes} {offset : ℕ} (inside : offset < bytes.length) :
    bytes.drop offset = byteAt bytes offset :: bytes.drop (offset + 1) := by
  rw [List.drop_eq_getElem_cons inside, byteAt, List.getD_eq_getElem?_getD,
    List.getElem?_eq_getElem inside, Option.getD_some]

/-- The bytes of a frame rebuilt from a payload, behind its two addresses. -/
theorem byteAt_ethernetFrame (eaddr1 eaddr2 : Mac) (payload : Bytes) (offset : ℕ) :
    byteAt (Datapath.ethernetFrame eaddr1 eaddr2 payload) (12 + offset) =
      byteAt ([byteAt payload 6, byteAt payload 7] ++ payload.drop 8) offset := by
  have addressed := byteAt_append (eaddr1.toList ++ eaddr2.toList)
    ([byteAt payload 6, byteAt payload 7] ++ payload.drop 8) offset
  rw [List.length_append, Vector.length_toList, Vector.length_toList] at addressed
  rwa [Datapath.ethernetFrame, ← List.append_assoc]

/-- A frame rebuilt from a payload encapsulates to its ethertype and what is
behind it, under the RFC 1042 header. -/
theorem snapPayload_ethernetFrame (eaddr1 eaddr2 : Mac) {payload : Bytes}
    (whole : 8 ≤ payload.length) :
    Datapath.snapPayload (Datapath.ethernetFrame eaddr1 eaddr2 payload) =
      rfc1042 ++ payload.drop 6 := by
  have first : byteAt (Datapath.ethernetFrame eaddr1 eaddr2 payload) 12 = byteAt payload 6 :=
    byteAt_ethernetFrame eaddr1 eaddr2 payload 0
  have second : byteAt (Datapath.ethernetFrame eaddr1 eaddr2 payload) 13 = byteAt payload 7 :=
    byteAt_ethernetFrame eaddr1 eaddr2 payload 1
  have rest : (Datapath.ethernetFrame eaddr1 eaddr2 payload).drop 14 = payload.drop 8 := by
    have regrouped : Datapath.ethernetFrame eaddr1 eaddr2 payload =
        (eaddr1.toList ++ (eaddr2.toList ++ [byteAt payload 6, byteAt payload 7])) ++
          payload.drop 8 := by
      simp only [Datapath.ethernetFrame, List.append_assoc]
    rw [regrouped]
    apply List.drop_left'
    simp only [List.length_append, Vector.length_toList, List.length_cons, List.length_nil]
  rw [Datapath.snapPayload, first, second, rest, drop_eq_byteAt_cons (by omega : 6 < _),
    drop_eq_byteAt_cons (by omega : 7 < _)]
  rfl

/-- The payloads that are decapsulated at all. -/
theorem snapFits_iff {payload : Bytes} :
    Datapath.snapFits payload = true ↔
      8 ≤ payload.length ∧ payload.length ≤ 8 + 1514 ∧ byteAt payload 0 = 0xaa ∧
        byteAt payload 1 = 0xaa ∧ byteAt payload 2 = 0x03 := by
  have size : Datapath.ae2ApSize = 14 + 1514 := rfl
  simp only [Datapath.snapFits, Bool.and_eq_true, decide_eq_true_eq]
  constructor
  · rintro ⟨⟨⟨⟨whole, first⟩, second⟩, third⟩, fits⟩
    exact ⟨whole, by omega, first, second, third⟩
  · rintro ⟨whole, fits, first, second, third⟩
    exact ⟨⟨⟨⟨whole, first⟩, second⟩, third⟩, by omega⟩

/-- A payload that is decapsulated is its six header bytes and the rest. -/
theorem snapFits_eq {payload : Bytes} (fits : Datapath.snapFits payload = true) :
    payload = [0xaa, 0xaa, 0x03, byteAt payload 3, byteAt payload 4, byteAt payload 5] ++
      payload.drop 6 := by
  obtain ⟨whole, _, first, second, third⟩ := snapFits_iff.mp fits
  have split := drop_eq_byteAt_cons (by omega : 0 < payload.length)
  rw [drop_eq_byteAt_cons (by omega : 0 + 1 < _), drop_eq_byteAt_cons (by omega : 0 + 1 + 1 < _),
    drop_eq_byteAt_cons (by omega : 0 + 1 + 1 + 1 < _),
    drop_eq_byteAt_cons (by omega : 0 + 1 + 1 + 1 + 1 < _),
    drop_eq_byteAt_cons (by omega : 0 + 1 + 1 + 1 + 1 + 1 < _), List.drop_zero, first, second,
    third] at split
  exact split

/-- The header is RFC 1042's when it names the organization of the ethertypes. -/
theorem rfc1042_prefix_iff {payload : Bytes} (fits : Datapath.snapFits payload = true) :
    rfc1042 <+: payload ↔ NamesEthertype payload := by
  rw [snapFits_eq fits]
  generalize payload.drop 6 = rest
  simp only [rfc1042, NamesEthertype, List.cons_append, List.nil_append, List.cons_prefix_cons,
    List.nil_prefix, and_true, true_and]
  constructor
  · rintro ⟨third, fourth, fifth⟩
    exact ⟨third.symm, fourth.symm, fifth.symm⟩
  · rintro ⟨third, fourth, fifth⟩
    exact ⟨third.symm, fourth.symm, fifth.symm⟩

/-- A payload that is not decapsulated puts nothing on the AP vif. -/
theorem apFrames_of_unfit {eaddr1 eaddr2 : Mac} {payload : Bytes} {calls : GateCalls}
    {consumed : Bool} (runs : Runs (Datapath.gateAeRxCb eaddr1 eaddr2 payload) calls consumed)
    (unfit : Datapath.snapFits payload = false) : apFrames calls = [] := by
  obtain ⟨client, rest, rfl, serving⟩ := runs_perform_bind.mp runs
  simp only [unfit, Bool.false_eq_true, ↓reduceIte] at serving
  cases (client : Bool) with
  | true =>
      obtain ⟨rfl, _⟩ := runs_ret.mp serving
      rfl
  | false =>
      obtain ⟨rfl, _⟩ := runs_ret.mp serving
      rfl

/-- A frame put on the AP vif with a packet for it. -/
def putOnAp (frame : Bytes) : GateCalls :=
  [⟨.alloc frame.length, true⟩, ⟨.txPkt .bridge frame, true⟩, ⟨.espLogI, ()⟩]

/-- A payload that is decapsulated can reach the AP vif. -/
theorem decapsulated_run (eaddr1 eaddr2 : Mac) {payload : Bytes}
    (fits : Datapath.snapFits payload = true) :
    ∃ clients calls, gateIsApClient clients eaddr1 = true ∧ AnsweredBy clients calls ∧
      Runs (Datapath.gateAeRxCb eaddr1 eaddr2 payload) calls true ∧
        Datapath.ethernetFrame eaddr1 eaddr2 payload ∈ apFrames calls := by
  obtain ⟨snooped, _, snooping, _⟩ := exists_runs GateCall.someResponse
    (Datapath.gwArpSnoop (Datapath.ethernetFrame eaddr1 eaddr2 payload) .mesh)
  have sending : Runs (Datapath.meshToAp (Datapath.ethernetFrame eaddr1 eaddr2 payload))
      (putOnAp (Datapath.ethernetFrame eaddr1 eaddr2 payload)) () := by
    apply Runs.call
    apply Runs.call
    apply Runs.call
    apply Runs.ret
  have client : gateIsApClient (apStaAuthorizedLocked .empty eaddr1) eaddr1 = true := by
    apply gateIsApClient_iff.mpr
    exact (mem_apStaAuthorizedLocked (.inr (by decide : 0 < gateMaxClients))).mpr (.inr rfl)
  refine ⟨apStaAuthorizedLocked .empty eaddr1,
    ⟨.isApClient eaddr1, true⟩ ::
      (snooped ++ (putOnAp (Datapath.ethernetFrame eaddr1 eaddr2 payload) ++ [])),
    client, ?_, ?_, ?_⟩
  · intro mac answer asked
    rcases List.mem_cons.mp asked with same | later
    · cases same
      exact client.symm
    · rcases List.mem_append.mp later with inSnoop | inSend
      · exact absurd (snooping.only (gwArpSnoop_only _ .mesh) _ inSnoop) Bool.false_ne_true
      · have made := @List.mem_map_of_mem _ _ _ _ Called.command inSend
        simp only [putOnAp, List.append_nil, List.map_cons, List.map_nil, List.mem_cons,
          List.not_mem_nil, reduceCtorEq, or_self] at made
  · apply Runs.call
    simp only [fits, ↓reduceIte]
    exact snooping.bind (sending.bind (.ret true))
  · have sent : (⟨.txPkt .bridge (Datapath.ethernetFrame eaddr1 eaddr2 payload), true⟩ :
        Called GateResponse) ∈ putOnAp (Datapath.ethernetFrame eaddr1 eaddr2 payload) :=
      List.mem_cons_of_mem _ List.mem_cons_self
    apply List.mem_filterMap.mpr
    exact ⟨_, List.mem_cons_of_mem _
      (List.mem_append_right snooped (List.mem_append_left _ sent)), rfl⟩

/-- **When decapsulation undoes encapsulation.** What is put on the AP vif came
under the RFC 1042 header and encapsulates to the payload again, exactly when a
payload of LLC for SNAP that fits the buffer names the organization of the
ethertypes. -/
theorem decapsulates_iff (eaddr1 eaddr2 : Mac) (payload : Bytes) :
    Decapsulates eaddr1 eaddr2 payload ↔
      (Datapath.snapFits payload = true → NamesEthertype payload) := by
  constructor
  · intro decapsulates fits
    obtain ⟨clients, calls, client, answered, runs, sent⟩ := decapsulated_run eaddr1 eaddr2 fits
    have header := (decapsulates clients calls true client answered runs _ sent).1
    exact (rfc1042_prefix_iff fits).mp header
  · intro names clients calls consumed client answered runs frame sent
    cases fits : Datapath.snapFits payload with
    | false =>
        rw [apFrames_of_unfit runs fits] at sent
        cases sent
    | true =>
        rw [apFrames_gateAeRxCb runs answered client fits] at sent
        have named := names fits
        split at sent
        · cases List.mem_singleton.mp sent
          refine ⟨(rfc1042_prefix_iff fits).mpr named, ?_⟩
          rw [snapPayload_ethernetFrame _ _ (snapFits_iff.mp fits).1]
          obtain ⟨third, fourth, fifth⟩ := named
          have whole := snapFits_eq fits
          rw [third, fourth, fifth] at whole
          exact whole.symm
        · cases sent

/-- A payload for the client 2 of a gate, under the organization of bridged
frames. -/
def bridgeTunnelPayload : Bytes := [0xaa, 0xaa, 0x03, 0x00, 0x00, 0xf8, 0x88, 0xb5, 1, 2, 3, 4]

/-- A protocol number of another organization is taken for an ethertype. -/
theorem otherOrganization_retyped :
    ¬ ∀ eaddr1 eaddr2 payload, Decapsulates eaddr1 eaddr2 payload := by
  intro always
  obtain ⟨clients, calls, client, answered, runs, sent⟩ :=
    @decapsulated_run (.station 2) (.station 9) bridgeTunnelPayload (by decide)
  have header := (always _ _ _ clients calls true client answered runs _ sent).1
  exact absurd header (by decide)

end Rimba.Gate
