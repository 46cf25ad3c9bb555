import Rimba.Capture.CcmpHeader
import Rimba.Capture.Pcap

/-! # What the MIC covers

`mesh_ccmp_verify.py` decrypts the body of a frame under the nonce and the additional data
it derives, once as if the frame had no checksum behind it and once as if it had one. Two
frames come to the same verdicts under every decryption exactly when they have the same body
and agree on what is covered (`Rimba.Capture.mic_covers`): the addresses, the fragment
number, the traffic id, the packet number, and the frame control but for the bits that may
change on the way. The sequence number and the key id are not covered.
-/

namespace Rimba.Capture

open Foundation (little ofLittle length_little ofLittle_little)

/-- A bit of the frame control is covered: not the retry, the power-management, the
more-data and the protected bit, not those of a data frame's subtype below the QoS bit, and
not the order bit of a QoS data frame. -/
def CoveredBit (fc bit : ℕ) : Prop :=
  bit < 16 ∧ bit ∉ [11, 12, 13, 14] ∧ (fc >>> 2 &&& 3 = 2 → bit ∉ [4, 5, 6]) ∧
    (qos fc = 1 → bit ≠ 15)

/-- The bits that a mask of 16 bits keeps. -/
theorem testBit_mask {mask : ℕ} {cleared : List ℕ} (small : mask < 2 ^ 16)
    (low : ∀ bit < 16, mask.testBit bit = true ↔ bit ∉ cleared) (bit : ℕ) :
    mask.testBit bit = true ↔ bit < 16 ∧ bit ∉ cleared := by
  by_cases inside : bit < 16
  · rw [low bit inside]
    exact ⟨fun kept => ⟨inside, kept⟩, fun both => both.2⟩
  · have high : mask < 2 ^ bit := small.trans_le (Nat.pow_le_pow_right (by decide) (by omega))
    rw [Nat.testBit_lt_two_pow high]
    exact ⟨fun impossible => absurd impossible Bool.false_ne_true,
      fun both => absurd both.1 inside⟩

/-- The masks keep what is covered. -/
theorem testBit_maskedControl (fc bit : ℕ) :
    (maskedControl fc).testBit bit = true ↔
      bit = 14 ∨ fc.testBit bit = true ∧ CoveredBit fc bit := by
  have subtype : ∀ bit, Nat.testBit 0xff8f bit = true ↔ bit < 16 ∧ bit ∉ [4, 5, 6] :=
    testBit_mask (by decide) (by decide)
  have order : ∀ bit, Nat.testBit 0x7fff bit = true ↔ bit < 16 ∧ bit ∉ [15] :=
    testBit_mask (by decide) (by decide)
  have changed : ∀ bit, Nat.testBit 0xc7ff bit = true ↔ bit < 16 ∧ bit ∉ [11, 12, 13] :=
    testBit_mask (by decide) (by decide)
  have guarded : Nat.testBit 0x4000 bit = true ↔ bit = 14 := by
    have power : (0x4000 : ℕ) = 2 ^ 14 := rfl
    rw [power, Nat.testBit_two_pow, decide_eq_true_eq, eq_comm]
  by_cases data : fc >>> 2 &&& 3 = 2 <;> by_cases quality : qos fc = 1 <;>
    simp only [maskedControl, CoveredBit, data, quality, ↓reduceIte, Nat.testBit_or,
      Nat.testBit_and, Bool.or_eq_true, Bool.and_eq_true, subtype, order, changed, guarded,
      List.mem_cons, List.not_mem_nil, or_false] <;> grind

/-- Numbers that agree in the bits of a mask are the same under it. -/
theorem land_eq_land {mask a b : ℕ} (width : ℕ) (small : mask < 2 ^ width)
    (same : ∀ bit < width, mask.testBit bit = true → a.testBit bit = b.testBit bit) :
    a &&& mask = b &&& mask := by
  refine Nat.eq_of_testBit_eq fun bit => ?_
  rw [Nat.testBit_and, Nat.testBit_and]
  cases kept : mask.testBit bit with
  | false => rw [Bool.and_false, Bool.and_false]
  | true =>
      have inside : bit < width := by
        by_contra outside
        have high := small.trans_le (Nat.pow_le_pow_right (by decide) (Nat.not_lt.mp outside))
        exact absurd (kept.symm.trans (Nat.testBit_lt_two_pow high)) (by decide)
      rw [same bit inside kept]

/-- Frame controls that agree in the bits that are covered of every frame are of one type,
with as many addresses and the same QoS control. -/
theorem alike_of_testBit {a b : ℕ}
    (same : ∀ bit ∈ [2, 3, 7, 8, 9], a.testBit bit = b.testBit bit) :
    a >>> 2 &&& 3 = b >>> 2 &&& 3 ∧ addr4 a = addr4 b ∧ qos a = qos b := by
  have type : a >>> 2 &&& 3 = b >>> 2 &&& 3 := by
    refine land_eq_land 2 (by decide) fun bit inside _ => ?_
    rw [Nat.testBit_shiftRight, Nat.testBit_shiftRight]
    have range : ∀ bit < 2, 2 + bit ∈ [2, 3, 7, 8, 9] := by decide
    exact same _ (range bit inside)
  have addresses : a &&& 0x0300 = b &&& 0x0300 := by
    refine land_eq_land 10 (by decide) fun bit inside kept => ?_
    have range : ∀ bit < 10, Nat.testBit 0x0300 bit = true → bit ∈ [2, 3, 7, 8, 9] := by decide
    exact same _ (range bit inside kept)
  have quality : (a >>> 4 &&& 0xf) &&& 0x08 = (b >>> 4 &&& 0xf) &&& 0x08 := by
    rw [Nat.and_assoc, Nat.and_assoc]
    refine land_eq_land 4 (by decide) fun bit inside kept => ?_
    rw [Nat.testBit_shiftRight, Nat.testBit_shiftRight]
    have range : ∀ bit < 4, Nat.testBit (0xf &&& 0x08) bit = true → 4 + bit ∈ [2, 3, 7, 8, 9] := by
      decide
    exact same _ (range bit inside kept)
  exact ⟨type, by rw [addr4, addr4, addresses], by rw [qos, qos, type, quality]⟩

theorem coveredBit_congr {a b : ℕ} (type : a >>> 2 &&& 3 = b >>> 2 &&& 3) (same : qos a = qos b)
    (bit : ℕ) : CoveredBit a bit ↔ CoveredBit b bit := by
  rw [CoveredBit, CoveredBit, type, same]

/-- These are covered of every frame. -/
theorem coveredBit_always {bit : ℕ} (fc : ℕ) (kept : bit ∈ [2, 3, 7, 8, 9]) :
    CoveredBit fc bit := by
  have apart : ∀ bit ∈ [2, 3, 7, 8, 9],
      bit < 16 ∧ bit ∉ [11, 12, 13, 14] ∧ bit ∉ [4, 5, 6] ∧ bit ≠ 15 := by decide
  obtain ⟨inside, fixed, outside, other⟩ := apart bit kept
  exact ⟨inside, fixed, fun _ => outside, fun _ => other⟩

/-- **The frame control.** It is masked to the same when what is covered of it agrees. -/
theorem maskedControl_eq_iff {a b : ℕ} : maskedControl a = maskedControl b ↔
    ∀ bit, CoveredBit a bit → a.testBit bit = b.testBit bit := by
  constructor
  · intro masked
    have both : ∀ bit, CoveredBit a bit → CoveredBit b bit → a.testBit bit = b.testBit bit := by
      intro bit here there
      have free : bit ≠ 14 := by
        rintro rfl
        exact here.2.1 (by decide)
      have kept := testBit_maskedControl a bit
      rw [masked, testBit_maskedControl] at kept
      simp only [free, here, there, and_true, false_or] at kept
      exact (Bool.eq_iff_iff.mpr kept).symm
    obtain ⟨type, -, quality⟩ := alike_of_testBit fun bit always =>
      both bit (coveredBit_always a always) (coveredBit_always b always)
    exact fun bit covered => both bit covered ((coveredBit_congr type quality bit).mp covered)
  · intro same
    obtain ⟨type, -, quality⟩ := alike_of_testBit fun bit kept =>
      same bit (coveredBit_always a kept)
    refine Nat.eq_of_testBit_eq fun bit => ?_
    rw [Bool.eq_iff_iff, testBit_maskedControl, testBit_maskedControl,
      ← coveredBit_congr type quality]
    refine or_congr_right (and_congr_left fun covered => ?_)
    rw [same bit covered]

theorem little_inj {a b : ℕ} (smallA : a < 256 ^ 2) (smallB : b < 256 ^ 2)
    (same : little 2 a = little 2 b) : a = b := by
  rw [← ofLittle_little smallA, same, ofLittle_little smallB]

theorem maskedControl_lt (fc : ℕ) : maskedControl fc < 256 ^ 2 := by
  have masked : ∀ control, control &&& 0xc7ff < 2 ^ 16 := fun control =>
    Nat.and_lt_two_pow _ (by decide)
  exact Nat.or_lt_two_pow (masked _) (by decide)

/-- The octets before the CCMP header. -/
def hdrLen (f : Octets) : ℕ := 24 + addr4 (frameControl f) * 6 + qos (frameControl f) * 2

/-- Two frames agree on what is covered: the frame control in its covered bits, the
addresses, the fragment number, the traffic id and the packet number. -/
structure CoveredAlike (f g : Octets) : Prop where
  control : ∀ bit, CoveredBit (frameControl f) bit →
    (frameControl f).testBit bit = (frameControl g).testBit bit
  addresses : slice f 4 22 = slice g 4 22
  fragment : ofLittle (slice f 22 24) &&& 0x000f = ofLittle (slice g 22 24) &&& 0x000f
  fourth : slice f 24 (24 + addr4 (frameControl f) * 6) =
    slice g 24 (24 + addr4 (frameControl f) * 6)
  traffic : qos (frameControl f) = 1 →
    f.getD (24 + addr4 (frameControl f) * 6) 0 &&& 0x0f =
      g.getD (24 + addr4 (frameControl f) * 6) 0 &&& 0x0f
  packet : pnOctets (slice f (hdrLen f) (hdrLen f + 8)) =
    pnOctets (slice g (hdrLen g) (hdrLen g + 8))

/-- The octets behind the addresses and the sequence control as they are authenticated. -/
def coveredTail (f : Octets) : Octets :=
  slice f 24 (24 + addr4 (frameControl f) * 6) ++
    if qos (frameControl f) = 1 then [f.getD (24 + addr4 (frameControl f) * 6) 0 &&& 0x0f, 0]
    else []

/-- The first octet of the nonce. -/
def firstOfNonce (f : Octets) : UInt8 :=
  if qos (frameControl f) = 1 then f.getD (24 + addr4 (frameControl f) * 6) 0 &&& 0x0f
  else if frameControl f >>> 2 &&& 3 = 0 then 0x10 else 0

/-- The masks of the QoS control. -/
theorem maskedTail_append {addr4 : ℕ} {front : Octets} (size : front.length = addr4 * 6)
    (low high : UInt8) :
    maskedTail addr4 1 (front ++ [low, high]) = some (front ++ [low &&& 0x0f, 0]) := by
  have inside : addr4 * 6 + 1 < (front ++ [low, high]).length := by
    rw [List.length_append, size]
    exact Nat.lt_succ_self _
  have read : (front ++ [low, high]).getD (addr4 * 6) 0 = low := by
    rw [← size, List.getD_append_right _ _ _ _ (le_refl _), Nat.sub_self]
    rfl
  rw [maskedTail, if_pos rfl, if_pos inside, read, ← size,
    List.set_append_right _ _ (le_refl _), List.set_append_right _ _ (Nat.le_add_right _ 1),
    Nat.sub_self, Nat.add_sub_cancel_left]
  rfl

theorem length_slice {octets : Octets} {lo hi : ℕ} (inside : hi ≤ octets.length) :
    (slice octets lo hi).length = hi - lo := by
  rw [slice, List.length_take, List.length_drop]
  omega

/-- Two octets of a list. -/
theorem slice_two {octets : Octets} {lo : ℕ} (inside : lo + 2 ≤ octets.length) :
    slice octets lo (lo + 2) = [octets.getD lo 0, octets.getD (lo + 1) 0] := by
  rw [slice, Nat.add_sub_cancel_left]
  refine List.ext_getElem ?_ fun i left right => ?_
  · simp only [List.length_take, List.length_drop, List.length_cons, List.length_nil]
    omega
  · rw [List.getElem_take, List.getElem_drop]
    have low : i = 0 ∨ i = 1 := by
      simp only [List.length_cons, List.length_nil] at right
      omega
    obtain rfl | rfl := low
    · exact (List.getD_eq_getElem _ _ (by omega)).symm
    · exact (List.getD_eq_getElem _ _ (by omega)).symm

/-- The masks of the octets behind the sequence control. -/
theorem maskedTail_eq {f : Octets} (long : hdrLen f + 8 ≤ f.length) :
    maskedTail (addr4 (frameControl f)) (qos (frameControl f)) (slice f 24 (hdrLen f)) =
      some (coveredTail f) := by
  have bit := qos_le (frameControl f)
  unfold hdrLen at long ⊢
  unfold coveredTail
  by_cases quality : qos (frameControl f) = 1
  · have split := slice_join f (Nat.le_add_right 24 (addr4 (frameControl f) * 6))
      (Nat.le_add_right (24 + addr4 (frameControl f) * 6) 2)
    rw [quality] at long ⊢
    rw [Nat.one_mul, ← split, slice_two (by omega), if_pos rfl]
    exact maskedTail_append (by rw [length_slice (by omega), Nat.add_sub_cancel_left]) _ _
  · have none : qos (frameControl f) = 0 := by omega
    rw [none, maskedTail, if_neg (by decide), if_neg (by decide), Nat.zero_mul, Nat.add_zero,
      List.append_nil]

/-- What is derived of a frame that reaches behind its CCMP header. -/
def derivedHeader (f : Octets) : CcmpHeader where
  addr4 := addr4 (frameControl f)
  qos := qos (frameControl f)
  hdrLen := hdrLen f
  keyId := (((slice f (hdrLen f) (hdrLen f + 8)).getD 3 0 >>> 6) &&& 3).toNat
  pn := pnOctets (slice f (hdrLen f) (hdrLen f + 8))
  nonce := firstOfNonce f :: (slice f 10 16 ++ pnOctets (slice f (hdrLen f) (hdrLen f + 8)))
  aad := little 2 (maskedControl (frameControl f)) ++ (slice f 4 22 ++
    (little 2 (ofLittle (slice f 22 24) &&& 0x000f) ++ coveredTail f))

/-- Of a frame that is shorter, nothing is derived. -/
theorem meshCcmp_eq (f : Octets) :
    meshCcmp f = if hdrLen f + 8 ≤ f.length then some (derivedHeader f) else none := by
  have bit := qos_le (frameControl f)
  have ccmp : (slice f (hdrLen f) (hdrLen f + 8)).length = min 8 (f.length - hdrLen f) := by
    rw [slice, List.length_take, List.length_drop, Nat.add_sub_cancel_left]
  by_cases long : hdrLen f + 8 ≤ f.length
  · have reach := long
    unfold hdrLen at reach
    rw [if_pos long, meshCcmp, if_neg (by omega)]
    dsimp only
    rw [← hdrLen, if_neg (by omega), maskedTail_eq long]
    rfl
  · rw [if_neg long, meshCcmp]
    by_cases short : f.length < 2
    · rw [if_pos short]
    · rw [if_neg short]
      dsimp only
      rw [← hdrLen, if_pos (by omega)]
/-- The fields that are authenticated, and those of the nonce. -/
theorem derived_alike_iff {f g : Octets} (longF : hdrLen f + 8 ≤ f.length)
    (longG : hdrLen g + 8 ≤ g.length) :
    (derivedHeader f).aad = (derivedHeader g).aad ∧
        (derivedHeader f).nonce = (derivedHeader g).nonce ↔ CoveredAlike f g := by
  have reachF : 32 ≤ f.length := by
    unfold hdrLen at longF
    omega
  have reachG : 32 ≤ g.length := by
    unfold hdrLen at longG
    omega
  constructor
  · rintro ⟨aad, nonce⟩
    obtain ⟨masked, behind⟩ := List.append_inj aad (by rw [length_little, length_little])
    obtain ⟨addresses, behind⟩ := List.append_inj behind
      (by rw [length_slice (by omega), length_slice (by omega)])
    obtain ⟨fragment, tail⟩ := List.append_inj behind (by rw [length_little, length_little])
    obtain ⟨-, pn⟩ := List.append_inj (List.cons.inj nonce).2
      (by rw [length_slice (by omega), length_slice (by omega)])
    have control := little_inj (maskedControl_lt _) (maskedControl_lt _) masked
    have covered := maskedControl_eq_iff.mp control
    obtain ⟨-, four, quality⟩ := alike_of_testBit fun bit always =>
      covered bit (coveredBit_always _ always)
    have small (n : ℕ) : n &&& 0x000f < 256 ^ 2 := lt_of_le_of_lt Nat.and_le_right (by decide)
    unfold coveredTail at tail
    unfold hdrLen at longF longG
    obtain ⟨fourth, traffic⟩ := List.append_inj tail
      (by rw [length_slice (by omega), length_slice (by omega), four])
    rw [← four] at fourth traffic
    rw [← quality] at traffic
    refine ⟨covered, addresses, little_inj (small _) (small _) fragment, fourth, ?_, pn⟩
    intro quality
    rw [if_pos quality, if_pos quality] at traffic
    exact (List.cons.inj traffic).1
  · intro alike
    have masked := maskedControl_eq_iff.mpr alike.control
    obtain ⟨type, four, quality⟩ := alike_of_testBit fun bit always =>
      alike.control bit (coveredBit_always _ always)
    have tail : coveredTail f = coveredTail g := by
      unfold coveredTail
      rw [← four, ← quality, ← alike.fourth]
      by_cases read : qos (frameControl f) = 1
      · rw [if_pos read, if_pos read, alike.traffic read]
      · rw [if_neg read, if_neg read]
    have first : firstOfNonce f = firstOfNonce g := by
      unfold firstOfNonce
      rw [← four, ← quality, ← type]
      by_cases read : qos (frameControl f) = 1
      · rw [if_pos read, if_pos read, alike.traffic read]
      · rw [if_neg read, if_neg read]
    have sender (octets : Octets) : slice octets 10 16 = slice (slice octets 4 22) 6 12 := by
      rw [slice, slice, slice, List.drop_take, List.take_take, List.drop_drop]
      rfl
    refine ⟨?_, ?_⟩
    · rw [derivedHeader, derivedHeader, masked, alike.addresses, alike.fragment, tail]
    · rw [derivedHeader, derivedHeader, first, sender f, sender g, alike.addresses,
        alike.packet]

/-- A line of the check, of an attempt that takes so many octets for a checksum. -/
inductive MicLine where
  | verified (fcs ctLen : ℕ) (plaintext : Octets)
  | failed (fcs ctLen : ℕ) (error : String)

/-- `ok` is set with the line. -/
def MicLine.ok : MicLine → Bool
  | verified _ _ _ => true
  | failed _ _ _ => false

/-- `AESCCM(key, tag_length=8).decrypt` of a nonce, data and what is authenticated besides:
the plaintext or the exception. -/
abbrev Decrypt := Octets → Octets → Octets → Except String Octets

/-- `ct_mic` -/
def ctMic (f : Octets) (bodyStart fcs : ℕ) : Octets := slice f bodyStart (f.length - fcs)

/-- One round of the loop; `none` where it continues. -/
def micAttempt (decrypt : Decrypt) (f : Octets) (derived : CcmpHeader) (fcs : ℕ) :
    Option MicLine :=
  let data := ctMic f (derived.hdrLen + 8) fcs
  if data.length < 9 then none
  else
    match decrypt derived.nonce data derived.aad with
    | .ok pt => some (.verified fcs (data.length - 8) (pt.take 24))
    | .error e => some (.failed fcs (data.length - 8) e)

/-- The lines of the check and the exit status; `none` when the tool raises before it. -/
def micVerify (decrypt : Decrypt) (f : Octets) : Option (List MicLine × ℕ) := do
  let derived ← meshCcmp f
  let printed := [0, 4].filterMap (micAttempt decrypt f derived)
  some (printed, if printed.any MicLine.ok = true then 0 else 2)

/-- The octets behind the CCMP header. -/
def micBody (f : Octets) : Octets := f.drop (hdrLen f + 8)

variable {f g : Octets}

theorem ctMic_eq (f : Octets) (fcs : ℕ) :
    ctMic f (hdrLen f + 8) fcs = (micBody f).take ((micBody f).length - fcs) := by
  rw [ctMic, slice, micBody, List.length_drop, Nat.sub_right_comm]

/-- The lines of a frame that does not raise. -/
def micLines (decrypt : Decrypt) (f : Octets) : List MicLine :=
  [0, 4].filterMap (micAttempt decrypt f (derivedHeader f))

theorem micVerify_eq (decrypt : Decrypt) (f : Octets) : micVerify decrypt f =
    if hdrLen f + 8 ≤ f.length then
      some (micLines decrypt f, if (micLines decrypt f).any MicLine.ok = true then 0 else 2)
    else none := by
  rw [micVerify, meshCcmp_eq]
  by_cases long : hdrLen f + 8 ≤ f.length
  · rw [if_pos long, if_pos long]
    rfl
  · rw [if_neg long, if_neg long]
    rfl

theorem derivedHeader_hdrLen (f : Octets) : (derivedHeader f).hdrLen = hdrLen f := rfl

/-- The lines are made of the derived header and the body. -/
theorem micVerify_congr (decrypt : Decrypt) (longF : hdrLen f + 8 ≤ f.length)
    (longG : hdrLen g + 8 ≤ g.length) (aad : (derivedHeader f).aad = (derivedHeader g).aad)
    (nonce : (derivedHeader f).nonce = (derivedHeader g).nonce) (body : micBody f = micBody g) :
    micVerify decrypt f = micVerify decrypt g := by
  have attempt (fcs : ℕ) : micAttempt decrypt f (derivedHeader f) fcs =
      micAttempt decrypt g (derivedHeader g) fcs := by
    have data : ctMic f ((derivedHeader f).hdrLen + 8) fcs =
        ctMic g ((derivedHeader g).hdrLen + 8) fcs := by
      rw [derivedHeader_hdrLen, derivedHeader_hdrLen, ctMic_eq, ctMic_eq, body]
    rw [micAttempt, micAttempt, data, aad, nonce]
  have lines : micLines decrypt f = micLines decrypt g :=
    congrArg (List.filterMap · [0, 4]) (funext attempt)
  rw [micVerify_eq, micVerify_eq, if_pos longF, if_pos longG, lines]

/-- A decryption that accepts one thing only. -/
def acceptsOnly (nonce data aad : Octets) : Decrypt := fun otherNonce otherData otherAad =>
  if otherNonce = nonce ∧ otherData = data ∧ otherAad = aad then .ok [] else .error "InvalidTag"

/-- An attempt is ok when there is enough to decrypt and it is decrypted. -/
theorem micAttempt_ok (decrypt : Decrypt) (derived : CcmpHeader) (fcs : ℕ) :
    (∃ line, micAttempt decrypt f derived fcs = some line ∧ line.ok = true) ↔
      9 ≤ (ctMic f (derived.hdrLen + 8) fcs).length ∧
        ∃ pt, decrypt derived.nonce (ctMic f (derived.hdrLen + 8) fcs) derived.aad = .ok pt := by
  rw [micAttempt]
  by_cases short : (ctMic f (derived.hdrLen + 8) fcs).length < 9
  · rw [if_pos short]
    constructor
    · rintro ⟨line, impossible, -⟩
      cases impossible
    · exact fun both => absurd short (Nat.not_lt.mpr both.1)
  · rw [if_neg short]
    have enough := Nat.not_lt.mp short
    cases outcome : decrypt derived.nonce (ctMic f (derived.hdrLen + 8) fcs) derived.aad with
    | ok pt => exact ⟨fun _ => ⟨enough, pt, rfl⟩, fun _ => ⟨_, rfl, rfl⟩⟩
    | error e =>
        constructor
        · rintro ⟨line, made, fine⟩
          cases made
          cases fine
        · rintro ⟨-, pt, impossible⟩
          cases impossible

/-- The exit status is 0 when one of the two attempts is ok. -/
theorem micVerify_exit (decrypt : Decrypt) (f : Octets) :
    (micVerify decrypt f).map Prod.snd = some 0 ↔ hdrLen f + 8 ≤ f.length ∧
      ∃ fcs ∈ [0, 4], 9 ≤ (ctMic f (hdrLen f + 8) fcs).length ∧
        ∃ pt, decrypt (derivedHeader f).nonce (ctMic f (hdrLen f + 8) fcs)
          (derivedHeader f).aad = .ok pt := by
  have tried (fcs : ℕ) := micAttempt_ok (f := f) decrypt (derivedHeader f) fcs
  simp only [derivedHeader_hdrLen] at tried
  have fine : (micLines decrypt f).any MicLine.ok = true ↔
      ∃ fcs ∈ [0, 4], ∃ line, micAttempt decrypt f (derivedHeader f) fcs = some line ∧
        line.ok = true := by
    rw [List.any_eq_true]
    constructor
    · rintro ⟨line, printed, fine⟩
      obtain ⟨fcs, one, made⟩ := List.mem_filterMap.mp printed
      exact ⟨fcs, one, line, made, fine⟩
    · rintro ⟨fcs, one, line, made, fine⟩
      exact ⟨line, List.mem_filterMap.mpr ⟨fcs, one, made⟩, fine⟩
  simp only [tried] at fine
  rw [micVerify_eq, ← fine]
  by_cases long : hdrLen f + 8 ≤ f.length
  · rw [if_pos long, Option.map_some, Option.some.injEq]
    by_cases any : (micLines decrypt f).any MicLine.ok = true
    · rw [if_pos any]
      exact ⟨fun _ => ⟨long, any⟩, fun _ => rfl⟩
    · rw [if_neg any]
      exact ⟨fun impossible => absurd impossible (Nat.succ_ne_zero 1),
        fun both => absurd both.2 any⟩
  · rw [if_neg long]
    exact ⟨fun impossible => absurd impossible.symm (Option.some_ne_none _),
      fun both => absurd both.1 long⟩

/-- Where the decryption accepts only what the whole body of `f` needs, `g` is verified only
with the header of `f`, and with a body that is no shorter. -/
theorem verified_by_acceptsOnly (body : 9 ≤ (micBody f).length)
    (same : ∀ decrypt, (micVerify decrypt f).map Prod.snd = (micVerify decrypt g).map Prod.snd) :
    hdrLen g + 8 ≤ g.length ∧ (derivedHeader f).nonce = (derivedHeader g).nonce ∧
      (derivedHeader f).aad = (derivedHeader g).aad ∧
      ∃ fcs ∈ [0, 4], (micBody g).take ((micBody g).length - fcs) = micBody f := by
  have whole : ctMic f (hdrLen f + 8) 0 = micBody f := by
    rw [ctMic_eq, Nat.sub_zero, List.take_length]
  have long : hdrLen f + 8 ≤ f.length := by
    rw [micBody, List.length_drop] at body
    omega
  let decrypt := acceptsOnly (derivedHeader f).nonce (micBody f) (derivedHeader f).aad
  have own : (micVerify decrypt f).map Prod.snd = some 0 := by
    refine (micVerify_exit decrypt f).mpr ⟨long, 0, List.mem_cons_self, ?_, [], ?_⟩
    · rw [whole]
      exact body
    · rw [whole]
      exact if_pos ⟨rfl, rfl, rfl⟩
  rw [same decrypt] at own
  obtain ⟨longG, fcs, tried, -, pt, accepted⟩ := (micVerify_exit decrypt g).mp own
  have only : (derivedHeader g).nonce = (derivedHeader f).nonce ∧
      ctMic g (hdrLen g + 8) fcs = micBody f ∧
        (derivedHeader g).aad = (derivedHeader f).aad := by
    by_contra other
    rw [show decrypt = acceptsOnly _ _ _ from rfl, acceptsOnly, if_neg other] at accepted
    cases accepted
  obtain ⟨nonce, data, aad⟩ := only
  rw [ctMic_eq] at data
  exact ⟨longG, nonce.symm, aad.symm, fcs, tried, data⟩

/-- A QoS data frame with four addresses as it is sent, and as it is sent again. -/
def sentOnce (control sequence : UInt8) : Octets :=
  [0x88, control, 0, 0] ++ List.replicate 18 2 ++ [sequence, 0] ++ List.replicate 6 4 ++
    [0x03, 0x01] ++ [9, 0, 0, 0x20, 0, 0, 0, 0] ++ List.replicate 20 7

/-- **What the MIC covers.** Of a frame with enough of a body to be tried, another frame has
the same verdicts under every decryption exactly when it agrees on what is covered and has
the same body, and already when its exit status is always the same. -/
theorem mic_covers {f : Octets} (g : Octets) (body : 9 ≤ (micBody f).length) :
    ((∀ decrypt, micVerify decrypt f = micVerify decrypt g) ↔
        CoveredAlike f g ∧ micBody f = micBody g) ∧
      ((∀ decrypt, (micVerify decrypt f).map Prod.snd = (micVerify decrypt g).map Prod.snd) ↔
        CoveredAlike f g ∧ micBody f = micBody g) := by
  have longer {octets : Octets} (enough : 9 ≤ (micBody octets).length) :
      hdrLen octets + 8 ≤ octets.length := by
    rw [micBody, List.length_drop] at enough
    omega
  have covered : CoveredAlike f g ∧ micBody f = micBody g →
      ∀ decrypt, micVerify decrypt f = micVerify decrypt g := by
    rintro ⟨alike, bodies⟩ decrypt
    have longG := longer (bodies ▸ body)
    obtain ⟨aad, nonce⟩ := (derived_alike_iff (longer body) longG).mpr alike
    exact micVerify_congr decrypt (longer body) longG aad nonce bodies
  have status : (∀ decrypt,
      (micVerify decrypt f).map Prod.snd = (micVerify decrypt g).map Prod.snd) →
        CoveredAlike f g ∧ micBody f = micBody g := by
    intro same
    obtain ⟨longG, nonce, aad, fcs, tried, data⟩ := verified_by_acceptsOnly body same
    have noShorter : (micBody f).length ≤ (micBody g).length := by
      rw [← data]
      exact List.length_take_le' _ _
    obtain ⟨-, -, -, other, -, back⟩ := verified_by_acceptsOnly (body.trans noShorter)
      fun decrypt => (same decrypt).symm
    have noLonger : (micBody g).length ≤ (micBody f).length := by
      rw [← back]
      exact List.length_take_le' _ _
    refine ⟨(derived_alike_iff (longer body) longG).mp ⟨aad, nonce⟩, ?_⟩
    rw [← data]
    refine List.take_of_length_le ?_
    have size := congrArg List.length data
    rw [List.length_take] at size
    omega
  exact ⟨⟨fun same => status fun decrypt => congrArg _ (same decrypt), covered⟩,
    ⟨status, fun both decrypt => congrArg _ (covered both decrypt)⟩⟩

/-- The retry bit and the sequence number may change. -/
theorem mic_covers_sentOnce :
    9 ≤ (micBody (sentOnce 0x43 0x10)).length ∧ ∀ decrypt,
      micVerify decrypt (sentOnce 0x43 0x10) = micVerify decrypt (sentOnce 0x4b 0x20) := by
  have body : 9 ≤ (micBody (sentOnce 0x43 0x10)).length := by decide
  have alike : CoveredAlike (sentOnce 0x43 0x10) (sentOnce 0x4b 0x20) :=
    ⟨maskedControl_eq_iff.mp (by decide), by decide, by decide, by decide, by decide, by decide⟩
  have same : micBody (sentOnce 0x43 0x10) = micBody (sentOnce 0x4b 0x20) := by decide
  exact ⟨body, (mic_covers _ body).1.mpr ⟨alike, same⟩⟩

end Rimba.Capture
