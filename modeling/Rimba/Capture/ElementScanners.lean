import Mathlib.Data.List.GetD
import Rimba.Capture.Elements
import Rimba.Foundation.OrderedDict
import Rimba.Foundation.SizedBuffer

/-! # The scanners of a chain

`find_ie` of the mesh fixtures and `scan_ies` of `mesh_beacon_cap.py` look elements up
in a chain that `walk_ies` lists. Python counts without bound; `find_ie` counts with 32
bits, and where the chain stops it compares a sum with the buffer's length that may
have wrapped. The three agree about an element id when it is listed before or the sum
fits, and only then (`Rimba.Capture.scannersAgree_iff`). A frame is nowhere near that
length. On what it finds `peer_beacon_cb` opens a peering
(`Rimba.Capture.peerBeaconCb_opens_iff`).
-/

namespace Rimba.Capture

open Foundation (Pass OrderedDict SizedBuffer toNat_word word_add_octet)
open Foundation.Loop (Reaches EndsAt Faults)

/-- One pass of the loop of `find_ie`. Its result is the offset of the payload and its
length, or `NULL`. -/
def findIePass (ies : SizedBuffer) (want : UInt8) (i : UInt32) :
    Pass UInt32 (Option (UInt32 × UInt8)) :=
  if i + 2 ≤ ies.len then
    match ies.bytes[i.toNat]?, ies.bytes[(i + 1).toNat]? with
    | some id, some ieLen =>
        if ies.len < i + 2 + ieLen.toUInt32 then .done none
        else if id = want then .done (some (i + 2, ieLen))
        else .next (i + 2 + ieLen.toUInt32)
    | _, _ => .fault
  else .done none

/-- The loop of `scan_ies`, and where it is left. -/
def scanIesFrom (ies : Octets) (out : OrderedDict UInt8 Octets) (i : ℕ) :
    OrderedDict UInt8 Octets × ℕ :=
  if room : i + 2 ≤ ies.length then
    if ies.length < i + 2 + ies[i + 1].toNat then (out, i)
    else
      scanIesFrom ies
        (out.setDefault (ies.get ⟨i, Nat.lt_of_succ_lt room⟩)
          (slice ies (i + 2) (i + 2 + ies[i + 1].toNat)))
        (i + 2 + ies[i + 1].toNat)
  else (out, i)
termination_by ies.length - i

/-- `scan_ies` -/
def scanIes (ies : Octets) : OrderedDict UInt8 Octets := (scanIesFrom ies .empty 0).1

/-- The first element with an id among those `walk_ies` lists. -/
def firstElement (ies : Octets) (want : UInt8) : Option Element :=
  (walkIes ies).1.find? fun element => element.eid = want

/-- The octets a result of `find_ie` points at. -/
def payloadAt (ies : Octets) (result : UInt32 × UInt8) : Octets :=
  slice ies result.1.toNat (result.1.toNat + result.2.toNat)

/-- The three scanners agree about an element id: `find_ie` ends without a fault with
the payload of the first listed element, inside the buffer, `scan_ies` maps the id to
it, and `scan_ies` and, when it finds nothing, `find_ie` stop where `walk_ies` does. -/
structure ScannersAgree (ies : SizedBuffer) (want : UInt8) : Prop where
  finds : ∃ stop result, EndsAt (findIePass ies want) 0 stop result ∧
    result.map (payloadAt ies.bytes) = (firstElement ies.bytes want).map Element.payload ∧
    (∀ found ∈ result, found.1.toNat + found.2.toNat ≤ ies.bytes.length) ∧
    (result = none → stop.toNat = (walkIesFrom ies.bytes [] 0).i)
  inside : ¬ Faults (findIePass ies want) 0
  maps : (scanIes ies.bytes).get? want = (firstElement ies.bytes want).map Element.payload
  stops : (scanIesFrom ies.bytes .empty 0).2 = (walkIesFrom ies.bytes [] 0).i

/-- The sum that is compared with the length where the walk stops, before it wraps. -/
def stopSum (ies : Octets) : ℕ :=
  let i := (walkIesFrom ies [] 0).i
  i + 2 + (ies.getD (i + 1) 0).toNat

theorem scanIesFrom_eq (ies : Octets) (out : List Element) (i : ℕ) (dict : OrderedDict UInt8 Octets)
    (held : dict =
      out.foldl (fun dict element => dict.setDefault element.eid element.payload) .empty) :
    scanIesFrom ies dict i = ((walkIesFrom ies out i).out.foldl
      (fun dict element => dict.setDefault element.eid element.payload) .empty,
      (walkIesFrom ies out i).i) := by
  fun_induction walkIesFrom ies out i generalizing dict with
  | case1 out i room cut => rw [scanIesFrom, dif_pos room, if_pos cut, held]
  | case2 out i room fits ih =>
      rw [scanIesFrom, dif_pos room, if_neg fits]
      refine ih _ ?_
      rw [List.foldl_append, held]
      rfl
  | case3 out i short => rw [scanIesFrom, dif_neg short, held]

theorem get?_scanIes (ies : Octets) (want : UInt8) :
    (scanIes ies).get? want = (firstElement ies want).map Element.payload := by
  rw [scanIes, scanIesFrom_eq ies [] 0 .empty rfl, OrderedDict.get?_foldl_setDefault]
  rfl

variable (ies : SizedBuffer) (want : UInt8)

theorem word_add_one (i : ℕ) : UInt32.ofNat i + 1 = UInt32.ofNat (i + 1) :=
  (UInt32.ofNat_add i 1).symm

theorem word_add_two (i : ℕ) : UInt32.ofNat i + 2 = UInt32.ofNat (i + 2) :=
  (UInt32.ofNat_add i 2).symm

/-- A pass where there is room for the two octets of an element. -/
theorem findIePass_of_room {i : ℕ} (room : i + 2 ≤ ies.bytes.length) :
    findIePass ies want (UInt32.ofNat i) =
      if ies.bytes.length < (i + 2 + ies.bytes[i + 1].toNat) % UInt32.size then .done none
      else if ies.bytes[i] = want then .done (some (UInt32.ofNat (i + 2), ies.bytes[i + 1]))
      else .next (UInt32.ofNat (i + 2 + ies.bytes[i + 1].toNat)) := by
  have fits := ies.fits
  have here := ies.get_word (by omega : i < ies.bytes.length)
  have behind := ies.get_word (by omega : i + 1 < ies.bytes.length)
  have enters := (ies.word_le_len (by omega)).mpr room
  have sum : (ies.len < UInt32.ofNat (i + 2 + ies.bytes[i + 1].toNat)) =
      (ies.bytes.length < (i + 2 + ies.bytes[i + 1].toNat) % UInt32.size) := by
    rw [UInt32.lt_iff_toNat_lt, SizedBuffer.toNat_len, UInt32.toNat_ofNat']
  rw [findIePass, word_add_two, word_add_one, if_pos enters, here, behind]
  simp only [word_add_octet, sum]

/-- A pass where there is none ends the loop, unless the sum wraps. -/
theorem findIePass_of_short {i : ℕ} (inside : i ≤ ies.bytes.length)
    (short : ¬ i + 2 ≤ ies.bytes.length) :
    findIePass ies want (UInt32.ofNat i) = if i + 2 < UInt32.size then .done none else .fault := by
  have fits := ies.fits
  have words : UInt32.size = 4294967296 := rfl
  rw [findIePass, word_add_two, word_add_one]
  by_cases small : i + 2 < UInt32.size
  · rw [if_neg (mt (ies.word_le_len small).mp short), if_pos small]
  · have wraps : UInt32.ofNat (i + 2) ≤ ies.len := by
      rw [UInt32.le_iff_toNat_le, UInt32.toNat_ofNat', SizedBuffer.toNat_len]
      omega
    rw [if_pos wraps, if_neg small]
    -- one of the two octets is the one behind the buffer's last
    by_cases last : i = ies.bytes.length
    · rw [ies.get_word_outside (by omega) (Nat.le_of_eq last.symm)]
    · rw [ies.get_word_outside (by omega : i + 1 < UInt32.size) (by omega)]
      cases ies.bytes[(UInt32.ofNat i).toNat]? <;> rfl

/-- Where the walk stops, the sum decides whether the scan does. -/
theorem findIePass_stopped {i : ℕ} (inside : i ≤ ies.bytes.length)
    (stuck : headElement (ies.bytes.drop i) = none) :
    findIePass ies want (UInt32.ofNat i) = .done none ↔
      i + 2 + (ies.bytes.getD (i + 1) 0).toNat < UInt32.size := by
  have fits := ies.fits
  by_cases room : i + 2 ≤ ies.bytes.length
  · have second : ies.bytes.getD (i + 1) 0 = ies.bytes[i + 1] := by
      rw [List.getD_eq_getElem _ _ (by omega)]
    have cut : ies.bytes.length < i + 2 + ies.bytes[i + 1].toNat := by
      by_contra whole
      rw [headElement_drop room, if_neg whole] at stuck
      cases stuck
    have octet := ies.bytes[i + 1].toNat_lt
    have words : UInt32.size = 4294967296 := rfl
    rw [findIePass_of_room ies want room, second]
    by_cases small : i + 2 + ies.bytes[i + 1].toNat < UInt32.size
    · rw [Nat.mod_eq_of_lt small, if_pos cut]
      exact ⟨fun _ => small, fun _ => rfl⟩
    · have wraps : ¬ ies.bytes.length < (i + 2 + ies.bytes[i + 1].toNat) % UInt32.size := by
        rw [words] at small fits ⊢
        omega
      rw [if_neg wraps]
      refine ⟨fun ends => ?_, fun fits => absurd fits small⟩
      split at ends <;> cases ends
  · have second : ies.bytes.getD (i + 1) 0 = 0 := List.getD_eq_default _ _ (by omega)
    rw [findIePass_of_short ies want inside room, second]
    by_cases small : i + 2 < UInt32.size
    · rw [if_pos small]
      exact ⟨fun _ => small, fun _ => rfl⟩
    · rw [if_neg small]
      refine ⟨fun ends => ?_, fun fits => absurd fits small⟩
      cases ends

section

variable {ies : SizedBuffer} {want : UInt8} {rest : Octets}

/-- The state of the scan behind some elements. -/
def scanned (passed : List Element) : UInt32 := UInt32.ofNat (elements.encodeAll passed).length

/-- What `find_ie` returns for an element it finds. -/
def foundAt (passed : List Element) (element : Element) : UInt32 × UInt8 :=
  (UInt32.ofNat ((elements.encodeAll passed).length + 2), UInt8.ofNat element.payload.length)

theorem length_split {passed : List Element} {element : Element}
    (whole : ies.bytes = elements.encodeAll passed ++ (elements.encode element ++ rest)) :
    ies.bytes.length =
      (elements.encodeAll passed).length + (2 + element.payload.length + rest.length) := by
  have taken : (elements.encode element).length = 2 + element.payload.length :=
    element.length_encode
  rw [whole, List.length_append, List.length_append, taken]

/-- A pass at an element: it is returned when it has the id, else stepped over. -/
theorem findIePass_element {passed : List Element} {element : Element}
    (whole : ies.bytes = elements.encodeAll passed ++ (elements.encode element ++ rest)) :
    findIePass ies want (scanned passed) =
      if element.eid = want then .done (some (foundAt passed element))
      else .next (scanned (passed ++ [element])) := by
  have fits := ies.fits
  have size := length_split whole
  have room : (elements.encodeAll passed).length + 2 ≤ ies.bytes.length := by omega
  have here : ies.bytes.drop (elements.encodeAll passed).length =
      elements.encode element ++ rest := by
    rw [whole, List.drop_left]
  rw [drop_eq_cons_cons room] at here
  obtain ⟨id, behind⟩ := List.cons.inj here
  obtain ⟨ln, -⟩ := List.cons.inj behind
  have next : scanned (passed ++ [element]) =
      UInt32.ofNat ((elements.encodeAll passed).length + 2 + element.payload.length) := by
    have taken : (elements.encode element).length = 2 + element.payload.length :=
      element.length_encode
    rw [scanned, Foundation.Framing.encodeAll_append, Foundation.Framing.encodeAll_cons,
      Foundation.Framing.encodeAll_nil, List.append_nil, List.length_append, taken, Nat.add_assoc]
  rw [scanned, findIePass_of_room ies want room, id, ln, element.toNat_length,
    Nat.mod_eq_of_lt (by omega), if_neg (by omega), next, foundAt]

/-- What is returned is the payload, in the buffer. -/
theorem payloadAt_foundAt {passed : List Element} {element : Element}
    (whole : ies.bytes = elements.encodeAll passed ++ (elements.encode element ++ rest)) :
    payloadAt ies.bytes (foundAt passed element) = element.payload ∧
      (foundAt passed element).1.toNat + (foundAt passed element).2.toNat ≤ ies.bytes.length := by
  have fits := ies.fits
  have size := length_split whole
  have start : (foundAt passed element).1.toNat = (elements.encodeAll passed).length + 2 :=
    toNat_word (by omega)
  have count : (foundAt passed element).2.toNat = element.payload.length := element.toNat_length
  have behind : ies.bytes.drop ((elements.encodeAll passed).length + 2) =
      element.payload ++ rest := by
    rw [whole, ← List.drop_drop, List.drop_left]
    rfl
  constructor
  · rw [payloadAt, start, count, slice, behind, Nat.add_sub_cancel_left, List.take_left]
  · omega

end

/-- The part of the scan that is about listed ids: the loop ends at the first. -/
theorem finds_listed {element : Element} (listed : firstElement ies.bytes want = some element) :
    ∃ stop found, EndsAt (findIePass ies want) 0 stop (some found) ∧
      payloadAt ies.bytes found = element.payload ∧
      found.1.toNat + found.2.toNat ≤ ies.bytes.length := by
  have whole := (walkIes_parses ies.bytes).1.whole
  obtain ⟨passed, later, -, -, split, ended⟩ :=
    Foundation.Framing.ends_at_first (fun _ _ _ here => findIePass_element here) whole listed
  exact ⟨scanned passed, foundAt passed element, ended, payloadAt_foundAt split⟩

/-- The scan reaches the offset where the walk stops when the id is not listed. -/
theorem reaches_stop (absent : firstElement ies.bytes want = none) :
    Reaches (findIePass ies want) 0 (UInt32.ofNat (walkIesFrom ies.bytes [] 0).i) := by
  have reaches := Foundation.Framing.reaches_of_find?_eq_none
    (fun _ _ _ here => findIePass_element here) (walkIes_parses ies.bytes).1.whole absent
  rw [walkIes_i]
  exact reaches

/-- An element id is listed, or the sum that is compared where the walk stops does
not wrap. -/
def ScanDecided (ies : SizedBuffer) (want : UInt8) : Prop :=
  (firstElement ies.bytes want).isSome ∨ stopSum ies.bytes < UInt32.size

theorem scanDecided_of_agree (agree : ScannersAgree ies want) : ScanDecided ies want := by
  cases first : firstElement ies.bytes want with
  | some element => exact .inl (by rw [first]; rfl)
  | none =>
      obtain ⟨stop, result, ended, finds, -, stops⟩ := agree.finds
      rw [first, Option.map_none, Option.map_eq_none_iff] at finds
      subst finds
      obtain ⟨parses, inside, -⟩ := walkIes_parses ies.bytes
      have same : UInt32.ofNat (walkIesFrom ies.bytes [] 0).i = stop := by
        rw [← stops rfl, UInt32.ofNat_toNat]
      have ends := ended.ends
      rw [← same] at ends
      exact .inr ((findIePass_stopped ies want inside parses.stuck).mp ends)

theorem agree_of_scanDecided (decided : ScanDecided ies want) : ScannersAgree ies want := by
  have stops : (scanIesFrom ies.bytes .empty 0).2 = (walkIesFrom ies.bytes [] 0).i := by
    rw [scanIesFrom_eq ies.bytes [] 0 .empty rfl]
  have maps := get?_scanIes ies.bytes want
  obtain ⟨parses, inside, -⟩ := walkIes_parses ies.bytes
  cases first : firstElement ies.bytes want with
  | some element =>
      obtain ⟨stop, found, ended, payload, bound⟩ := finds_listed ies want first
      refine ⟨⟨stop, some found, ended, ?_, ?_, ?_⟩, ended.faultless, maps, stops⟩
      · rw [first, Option.map_some, Option.map_some, payload]
      · intro other member
        cases member
        exact bound
      · intro nothing
        cases nothing
  | none =>
      have small : stopSum ies.bytes < UInt32.size := by
        rcases decided with listed | small
        · rw [first] at listed
          cases listed
        · exact small
      have ended : EndsAt (findIePass ies want) 0
          (UInt32.ofNat (walkIesFrom ies.bytes [] 0).i) none :=
        ⟨reaches_stop ies want first,
          (findIePass_stopped ies want inside parses.stuck).mpr small⟩
      refine ⟨⟨_, none, ended, ?_, ?_, ?_⟩, ended.faultless, maps, stops⟩
      · rw [first]
        rfl
      · intro other member
        cases member
      · intro _
        have fits := ies.fits
        exact toNat_word (by omega)

/-- In a buffer that is shorter by an octet's worth than the largest, the sum never
wraps. -/
theorem scanDecided_of_short (short : ies.bytes.length + 255 < UInt32.size) :
    ScanDecided ies want := by
  refine .inr ?_
  obtain ⟨parses, inside, -⟩ := walkIes_parses ies.bytes
  have octet := (ies.bytes.getD ((walkIesFrom ies.bytes [] 0).i + 1) 0).toNat_lt
  by_cases room : (walkIesFrom ies.bytes [] 0).i + 2 ≤ ies.bytes.length
  · simp only [stopSum]
    omega
  · have nothing : ies.bytes.getD ((walkIesFrom ies.bytes [] 0).i + 1) 0 = 0 :=
      List.getD_eq_default _ _ (by omega)
    simp only [stopSum, nothing, UInt8.toNat_zero]
    omega

/-- The scanners agree about an element id of a buffer when it is listed before or the
sum fits, and only then; so they agree about every id of a buffer that is short
enough. -/
theorem scannersAgree_iff :
    (∀ ies want, ScannersAgree ies want ↔ ScanDecided ies want) ∧
      ∀ ies want, ies.bytes.length + 255 < UInt32.size → ScannersAgree ies want :=
  ⟨fun ies want => ⟨scanDecided_of_agree ies want, agree_of_scanDecided ies want⟩,
    fun ies want short => agree_of_scanDecided ies want (scanDecided_of_short ies want short)⟩

/-- A chain with a Mesh ID element, and an octet behind it. -/
def meshIdBuffer : SizedBuffer := ⟨[114, 2, 0x72, 0x73, 0], by decide⟩

theorem meshIdBuffer_agree :
    meshIdBuffer.bytes.length + 255 < UInt32.size ∧ ScannersAgree meshIdBuffer 114 :=
  ⟨by decide, scannersAgree_iff.2 meshIdBuffer 114 (by decide)⟩

/-- An element without a payload. -/
def emptyElement : Element := ⟨0, [], Nat.zero_le _⟩

theorem parses_zeros (count : ℕ) :
    elements.Parses (List.replicate (2 * count) 0) (List.replicate count emptyElement) [] := by
  induction count with
  | zero => exact .encoded []
  | succ count ih =>
      exact (Foundation.Framing.Parses.cons ih : elements.Parses _ (emptyElement :: _) _)

/-- As many zeros as leave the length two short of wrapping. -/
def zeros : SizedBuffer :=
  ⟨List.replicate (2 * 2147483647) 0, by rw [List.length_replicate]; decide⟩

/-- The walk ends where the buffer does, and there `find_ie` reads on. -/
theorem zeros_disagree : ¬ ScannersAgree zeros 1 := by
  intro agree
  have parses := parses_zeros 2147483647
  have chain : (walkIes zeros.bytes).1 = List.replicate 2147483647 emptyElement :=
    (walkIes_fst _).trans parses.items_eq
  have absent : firstElement zeros.bytes 1 = none := by
    rw [firstElement, chain, List.find?_eq_none]
    intro element member
    rw [List.eq_of_mem_replicate member]
    decide
  have stops : (walkIesFrom zeros.bytes [] 0).i = 4294967294 := by
    have whole := congrArg List.length parses.whole
    rw [List.append_nil, List.length_replicate] at whole
    rw [walkIes_i, chain, ← whole]
  rcases scanDecided_of_agree zeros 1 agree with listed | small
  · rw [absent] at listed
    cases listed
  · rw [stopSum, stops] at small
    have words : UInt32.size = 4294967296 := rfl
    omega

/-- `BEACON_IE_OFFSET` -/
def beaconIeOffset : ℕ := 24 + 12

/-- What `peer_beacon_cb` hands to `find_ie`. -/
def beaconIes (buf : SizedBuffer) : SizedBuffer :=
  ⟨buf.bytes.drop beaconIeOffset, by
    rw [List.length_drop]
    exact Nat.lt_of_le_of_lt (Nat.sub_le _ _) buf.fits⟩

/-- `peer_beacon_cb`: the station it opens a peering with, of what `find_ie` returns for
the Mesh ID element. -/
def peerBeaconCb (meshMac meshId : Octets) (buf : SizedBuffer) (found : Option (UInt32 × UInt8)) :
    Option Octets :=
  if buf.bytes.length ≤ beaconIeOffset then none
  else if slice buf.bytes 10 16 = meshMac then none
  else
    found.bind fun id =>
      if id.2.toNat = meshId.length ∧ payloadAt (beaconIes buf).bytes id = meshId then
        some (slice buf.bytes 10 16)
      else none

theorem length_payloadAt {ies : Octets} {found : UInt32 × UInt8}
    (inside : found.1.toNat + found.2.toNat ≤ ies.length) :
    (payloadAt ies found).length = found.2.toNat := by
  rw [payloadAt, slice, List.length_take, List.length_drop]
  omega

/-- The callback opens a peering with another station exactly when the first Mesh ID
element of its beacon names the mesh. -/
theorem peerBeaconCb_opens_iff (meshMac meshId : Octets) {buf : SizedBuffer} {stop : UInt32}
    {result : Option (UInt32 × UInt8)} (decided : ScanDecided (beaconIes buf) 114)
    (ended : EndsAt (findIePass (beaconIes buf) 114) 0 stop result) (sa : Octets) :
    peerBeaconCb meshMac meshId buf result = some sa ↔
      beaconIeOffset < buf.bytes.length ∧ sa = slice buf.bytes 10 16 ∧ sa ≠ meshMac ∧
        (firstElement (beaconIes buf).bytes 114).map Element.payload = some meshId := by
  obtain ⟨stop', result', ended', finds, bound, -⟩ := (agree_of_scanDecided _ _ decided).finds
  obtain ⟨-, rfl⟩ := ended.unique ended'
  rw [← finds, peerBeaconCb]
  by_cases short : buf.bytes.length ≤ beaconIeOffset
  · rw [if_pos short]
    constructor
    · intro opened
      cases opened
    · rintro ⟨long, -⟩
      omega
  rw [if_neg short]
  by_cases own : slice buf.bytes 10 16 = meshMac
  · rw [if_pos own]
    constructor
    · intro opened
      cases opened
    · rintro ⟨-, same, other, -⟩
      exact absurd (same.trans own) other
  rw [if_neg own]
  cases result with
  | none => simp only [Option.bind_none, Option.map_none, reduceCtorEq, and_false]
  | some found =>
      have size := length_payloadAt (bound found rfl)
      rw [Option.bind_some, Option.map_some]
      constructor
      · intro opened
        split at opened
        case isTrue names =>
            cases opened
            exact ⟨by omega, rfl, own, congrArg some names.2⟩
        case isFalse => cases opened
      · rintro ⟨-, rfl, -, names⟩
        have same := Option.some.inj names
        rw [if_pos ⟨by rw [← size, same], same⟩]

end Rimba.Capture
