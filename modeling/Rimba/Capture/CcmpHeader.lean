import Mathlib.Data.List.GetD
import Rimba.Capture.Frame
import Rimba.Foundation.Octets

/-! # The CCMP header of a frame

`mesh_ccmp_verify.py` derives from a frame what its CCMP check needs, the packet number
and the key id among it. `group_ccmp_pn` reads these two from the group frames of an
access point, which have three addresses, and starts behind three. Of such frames the
two read the same, which is what was encoded
(`Rimba.Capture.groupCcmpPn_reads`); of a frame with a fourth address
`group_ccmp_pn` reads octets of that address instead
(`Rimba.Capture.fourAddress_differs`).
-/

namespace Rimba.Capture

open Foundation (little ofLittle ofBig)

/-- What is derived of a frame before it is decrypted. -/
structure CcmpHeader where
  addr4 : ℕ
  qos : ℕ
  hdrLen : ℕ
  keyId : ℕ
  pn : Octets
  nonce : Octets
  aad : Octets

/-- `f[0] | (f[1] << 8)` -/
def frameControl (f : Octets) : ℕ := ofLittle (slice f 0 2)

/-- `addr4` -/
def addr4 (fc : ℕ) : ℕ := if fc &&& 0x0300 = 0x0300 then 1 else 0

/-- `qos` -/
def qos (fc : ℕ) : ℕ := if fc >>> 2 &&& 3 = 2 ∧ (fc >>> 4 &&& 0xf) &&& 0x08 ≠ 0 then 1 else 0

/-- The frame control as it is authenticated. -/
def maskedControl (fc : ℕ) : ℕ :=
  let data := if fc >>> 2 &&& 3 = 2 then fc &&& 0xff8f else fc
  let ordered := if qos fc = 1 then data &&& 0x7fff else data
  (ordered &&& 0xc7ff) ||| 0x4000

/-- The addresses and the QoS control as they are authenticated; `none` when they are
cut. -/
def maskedTail (addr4 qos : ℕ) (tail : Octets) : Option Octets :=
  if qos = 1 then
    if addr4 * 6 + 1 < tail.length then
      some ((tail.set (addr4 * 6) (tail.getD (addr4 * 6) 0 &&& 0x0f)).set (addr4 * 6 + 1) 0)
    else none
  else some tail

/-- What `mesh_ccmp_verify.py` derives of a frame; `none` when it raises. -/
def meshCcmp (f : Octets) : Option CcmpHeader :=
  if f.length < 2 then none
  else
    let fc := frameControl f
    let hdrLen := 24 + addr4 fc * 6 + qos fc * 2
    let ccmp := slice f hdrLen (hdrLen + 8)
    if f.length < 24 ∨ (qos fc = 1 ∧ f.length ≤ 24 + addr4 fc * 6) ∨ ccmp.length < 8 then none
    else do
      let first : UInt8 :=
        if qos fc = 1 then f.getD (24 + addr4 fc * 6) 0 &&& 0x0f
        else if fc >>> 2 &&& 3 = 0 then 0x10 else 0
      let tail ← maskedTail (addr4 fc) (qos fc) (slice f 24 hdrLen)
      let pn := [ccmp.getD 7 0, ccmp.getD 6 0, ccmp.getD 5 0, ccmp.getD 4 0, ccmp.getD 1 0,
        ccmp.getD 0 0]
      some
        { addr4 := addr4 fc
          qos := qos fc
          hdrLen
          keyId := ((ccmp.getD 3 0 >>> 6) &&& 3).toNat
          pn
          nonce := first :: (slice f 10 16 ++ pn)
          aad := little 2 (maskedControl fc) ++ (slice f 4 22 ++
            (little 2 (ofLittle (slice f 22 24) &&& 0x000f) ++ tail)) }

/-- Where `group_ccmp_pn` has the CCMP header. -/
def groupHdr (f : Octets) : ℕ := 24 + if (frameType f).2 &&& 0x8 ≠ 0 then 2 else 0

/-- A frame `group_ccmp_pn` reads: protected data to a group, from the access point, and
with a packet number. -/
structure GroupData (ap : String) (f : Octets) : Prop where
  long : 34 ≤ f.length
  data : (frameType f).1 = 2
  guarded : f.getD 1 0 &&& 0x40 ≠ 0
  group : f.getD 4 0 &&& 1 ≠ 0
  sender : mac (slice f 10 16) = ap
  extIv : (slice f (groupHdr f) (groupHdr f + 8)).getD 3 0 &&& 0x20 ≠ 0

/-- The packet number in a CCMP header, either side of the key id. -/
def splitPn (c : Octets) : ℕ :=
  (c.getD 0 0).toNat + (c.getD 1 0).toNat * 2 ^ 8 + (c.getD 4 0).toNat * 2 ^ 16 +
    (c.getD 5 0).toNat * 2 ^ 24 + (c.getD 6 0).toNat * 2 ^ 32 + (c.getD 7 0).toNat * 2 ^ 40

variable {f : Octets}

theorem length_ccmp {hdr : ℕ} (inside : hdr + 8 ≤ f.length) :
    (slice f hdr (hdr + 8)).length = 8 := by
  rw [slice, List.length_take, List.length_drop]
  omega

theorem groupHdr_le : groupHdr f ≤ 26 := by
  unfold groupHdr
  split <;> omega

/-- What is read of a frame that is read. -/
def groupFrame (f : Octets) : GroupFrame :=
  let c := slice f (groupHdr f) (groupHdr f + 8)
  ⟨splitPn c, (c.getD 3 0 >>> 6).toNat, f.length⟩

theorem groupCcmpPn_eq {d : Octets} (ap : String) (past : pastRadiotap d = some f) :
    groupCcmpPn d ap =
      if f.length < 34 then none
      else if (frameType f).1 ≠ 2 then none
      else if f.getD 1 0 &&& 0x40 = 0 then none
      else if f.getD 4 0 &&& 1 = 0 then none
      else if mac (slice f 10 16) ≠ ap then none
      else if ((slice f (groupHdr f) (groupHdr f + 8)).length < 8 ||
        (slice f (groupHdr f) (groupHdr f + 8)).getD 3 0 &&& 0x20 = 0) = true then none
      else some (groupFrame f) := by
  rw [groupCcmpPn, past]
  rfl

/-- Frames of the access point are read, and no others. -/
theorem groupCcmpPn_eq_some_iff {d : Octets} {ap : String} {got : GroupFrame}
    (past : pastRadiotap d = some f) :
    groupCcmpPn d ap = some got ↔ GroupData ap f ∧ got = groupFrame f := by
  rw [groupCcmpPn_eq ap past]
  constructor
  · intro read
    split at read
    · cases read
    case isFalse long =>
    split at read
    · cases read
    case isFalse data =>
    split at read
    · cases read
    case isFalse guarded =>
    split at read
    · cases read
    case isFalse group =>
    split at read
    · cases read
    case isFalse sender =>
    split at read
    · cases read
    case isFalse whole =>
    rw [Bool.or_eq_true, not_or, decide_eq_true_eq, decide_eq_true_eq] at whole
    exact ⟨⟨Nat.not_lt.mp long, not_not.mp data, guarded, group, not_not.mp sender, whole.2⟩,
      (Option.some.inj read).symm⟩
  · rintro ⟨frame, rfl⟩
    have long := frame.long
    have header := groupHdr_le (f := f)
    have size := length_ccmp (f := f) (by omega : groupHdr f + 8 ≤ f.length)
    have whole : ¬ ((slice f (groupHdr f) (groupHdr f + 8)).length < 8 ||
        (slice f (groupHdr f) (groupHdr f + 8)).getD 3 0 &&& 0x20 = 0) = true := by
      rw [size, Bool.or_eq_true, not_or, decide_eq_true_eq, decide_eq_true_eq]
      exact ⟨by omega, frame.extIv⟩
    rw [if_neg (Nat.not_lt.mpr long), if_neg (not_not.mpr frame.data), if_neg frame.guarded,
      if_neg frame.group, if_neg (not_not.mpr frame.sender), if_neg whole]

theorem frameControl_eq (long : 2 ≤ f.length) :
    frameControl f = (f.getD 0 0).toNat + 256 * (f.getD 1 0).toNat := by
  cases f with
  | nil => exact absurd long (Nat.not_le.mpr (Nat.zero_lt_succ _))
  | cons first behind =>
      cases behind with
      | nil => exact absurd long (Nat.not_le.mpr (Nat.lt_succ_self _))
      | cons second behind =>
          have read : slice (first :: second :: behind) 0 2 = [first, second] := rfl
          rw [frameControl, read, Foundation.ofLittle_cons, Foundation.ofLittle_cons,
            Foundation.ofLittle_nil]
          rfl

/-- The type and the subtype are in the first octet. -/
theorem frameControl_type (long : 2 ≤ f.length) :
    frameControl f >>> 2 &&& 3 = (frameType f).1.toNat ∧
      frameControl f >>> 4 &&& 0xf = (frameType f).2.toNat := by
  have octet := (f.getD 0 0).toNat_lt
  have two (n : ℕ) : n &&& 3 = n % 4 := Nat.and_two_pow_sub_one_eq_mod n 2
  have four (n : ℕ) : n &&& 0xf = n % 16 := Nat.and_two_pow_sub_one_eq_mod n 4
  have type : (frameType f).1.toNat = (f.getD 0 0).toNat / 4 % 4 := by
    rw [frameType, UInt8.toNat_and, UInt8.toNat_shiftRight]
    exact (two _).trans (congrArg (· % 4) (Nat.shiftRight_eq_div_pow _ 2))
  have subtype : (frameType f).2.toNat = (f.getD 0 0).toNat / 16 % 16 := by
    rw [frameType, UInt8.toNat_and, UInt8.toNat_shiftRight]
    exact (four _).trans (congrArg (· % 16) (Nat.shiftRight_eq_div_pow _ 4))
  rw [type, subtype, frameControl_eq long, two, four, Nat.shiftRight_eq_div_pow,
    Nat.shiftRight_eq_div_pow]
  omega

/-- Of a data frame both parsers find the QoS control. -/
theorem qos_of_data (long : 2 ≤ f.length) (data : (frameType f).1 = 2) :
    groupHdr f = 24 + qos (frameControl f) * 2 := by
  obtain ⟨type, subtype⟩ := frameControl_type long
  have bit : ((frameType f).2 &&& 0x8 ≠ 0) ↔ (frameType f).2.toNat &&& 0x08 ≠ 0 := by
    rw [ne_eq, ← UInt8.toNat_inj, UInt8.toNat_and]
    rfl
  have two : (frameType f).1.toNat = 2 := by rw [data]; rfl
  rw [groupHdr, qos, type, subtype, two]
  by_cases quality : (frameType f).2 &&& 0x8 ≠ 0
  · rw [if_pos quality, if_pos ⟨rfl, bit.mp quality⟩]
  · rw [if_neg quality, if_neg fun both => quality (bit.mpr both.2)]

theorem qos_le (fc : ℕ) : qos fc ≤ 1 := by
  unfold qos
  split <;> omega

theorem maskedTail_isSome {addr4 qos : ℕ} {tail : Octets}
    (size : tail.length = addr4 * 6 + qos * 2) : (maskedTail addr4 qos tail).isSome = true := by
  unfold maskedTail
  by_cases quality : qos = 1
  · rw [if_pos quality, if_pos (by omega)]
    rfl
  · rw [if_neg quality]
    rfl

/-- The octets of a packet number, the most significant first. -/
def pnOctets (c : Octets) : Octets :=
  [c.getD 7 0, c.getD 6 0, c.getD 5 0, c.getD 4 0, c.getD 1 0, c.getD 0 0]

/-- A frame that reaches behind its CCMP header does not raise. -/
theorem meshCcmp_of_long {hdr : ℕ}
    (start : hdr = 24 + addr4 (frameControl f) * 6 + qos (frameControl f) * 2)
    (long : hdr + 8 ≤ f.length) :
    ∃ derived, meshCcmp f = some derived ∧ derived.hdrLen = hdr ∧
      derived.keyId = (((slice f hdr (hdr + 8)).getD 3 0 >>> 6) &&& 3).toNat ∧
      derived.pn = pnOctets (slice f hdr (hdr + 8)) := by
  have bit := qos_le (frameControl f)
  have size := length_ccmp long
  have whole : ¬ (f.length < 24 ∨
      (qos (frameControl f) = 1 ∧ f.length ≤ 24 + addr4 (frameControl f) * 6) ∨
        (slice f hdr (hdr + 8)).length < 8) := by
    omega
  have tailSize : (slice f 24 hdr).length =
      addr4 (frameControl f) * 6 + qos (frameControl f) * 2 := by
    rw [slice, List.length_take, List.length_drop]
    omega
  obtain ⟨tail, masked⟩ := Option.isSome_iff_exists.mp (maskedTail_isSome tailSize)
  rw [meshCcmp, if_neg (by omega)]
  simp only [← start]
  rw [if_neg whole, masked]
  exact ⟨_, rfl, rfl, rfl, rfl⟩

theorem splitPn_eq (c : Octets) : splitPn c =
    ofLittle [c.getD 0 0, c.getD 1 0, c.getD 4 0, c.getD 5 0, c.getD 6 0, c.getD 7 0] := by
  simp only [Foundation.ofLittle_cons, Foundation.ofLittle_nil, splitPn]
  omega

/-- Either side of the key id, in either order, it is one packet number. -/
theorem ofBig_pnOctets (c : Octets) : ofBig (pnOctets c) = splitPn c :=
  (splitPn_eq c).symm

theorem toNat_shiftRight_six (octet : UInt8) : (octet >>> 6).toNat = octet.toNat / 64 := by
  rw [UInt8.toNat_shiftRight]
  exact Nat.shiftRight_eq_div_pow _ 6

theorem keyId_eq (octet : UInt8) : ((octet >>> 6) &&& 3).toNat = (octet >>> 6).toNat := by
  have bound := octet.toNat_lt
  have low := toNat_shiftRight_six octet
  have two : (octet >>> 6).toNat &&& 3 = (octet >>> 6).toNat % 4 :=
    Nat.and_two_pow_sub_one_eq_mod _ 2
  rw [UInt8.toNat_and]
  exact two.trans (Nat.mod_eq_of_lt (by omega))

/-- The frame has no fourth address. -/
def ThreeAddress (f : Octets) : Prop := addr4 (frameControl f) = 0

instance : DecidablePred ThreeAddress :=
  fun f => inferInstanceAs (Decidable (addr4 (frameControl f) = 0))

/-- What is derived of a frame of the access point with three addresses is what
`group_ccmp_pn` reads. -/
theorem meshCcmp_of_groupData {ap : String} (frame : GroupData ap f) (three : ThreeAddress f) :
    ∃ derived, meshCcmp f = some derived ∧ derived.hdrLen = groupHdr f ∧
      derived.keyId = (groupFrame f).keyId ∧ ofBig derived.pn = (groupFrame f).pn := by
  have long := frame.long
  have header := groupHdr_le (f := f)
  have start : groupHdr f = 24 + addr4 (frameControl f) * 6 + qos (frameControl f) * 2 := by
    rw [qos_of_data (by omega) frame.data, three]
  obtain ⟨derived, got, hdrLen, keyId, pn⟩ := meshCcmp_of_long start (by omega)
  refine ⟨derived, got, hdrLen, ?_, ?_⟩
  · rw [keyId, keyId_eq]
    rfl
  · rw [pn, ofBig_pnOctets]
    rfl

/-- A CCMP header with a packet number of 48 bits. The octet between its halves is
reserved, and so are five bits of the next. -/
structure CcmpFields where
  pn : ℕ
  keyId : ℕ
  reserved : UInt8
  spare : ℕ
  pnFits : pn < 2 ^ 48
  keyIdFits : keyId < 4
  spareFits : spare < 32

/-- The eight octets of the header; bit 5 of the key-id octet says that there is a packet
number. -/
def CcmpFields.encode (fields : CcmpFields) : Octets :=
  let low := little 6 fields.pn
  low.take 2 ++ (fields.reserved :: UInt8.ofNat (fields.keyId * 64 + 32 + fields.spare) ::
    low.drop 2)

/-- A packet number and a key id are read back from a CCMP header. -/
theorem read_encode (fields : CcmpFields) :
    splitPn fields.encode = fields.pn ∧ (fields.encode.getD 3 0 >>> 6).toNat = fields.keyId ∧
      fields.encode.getD 3 0 &&& 0x20 ≠ 0 ∧ fields.encode.length = 8 := by
  have keyId := fields.keyIdFits
  have spare := fields.spareFits
  have octet : (fields.encode.getD 3 0).toNat = fields.keyId * 64 + 32 + fields.spare := by
    have read : fields.encode.getD 3 0 = UInt8.ofNat (fields.keyId * 64 + 32 + fields.spare) := rfl
    rw [read, UInt8.toNat_ofNat']
    omega
  refine ⟨?_, ?_, ?_, rfl⟩
  · have whole : fields.pn < 256 ^ 6 := fields.pnFits
    have halves : [fields.encode.getD 0 0, fields.encode.getD 1 0, fields.encode.getD 4 0,
        fields.encode.getD 5 0, fields.encode.getD 6 0, fields.encode.getD 7 0] =
          little 6 fields.pn := rfl
    rw [splitPn_eq, halves, Foundation.ofLittle_little whole]
  · rw [toNat_shiftRight_six, octet]
    omega
  · have bit : (fields.keyId * 64 + 32 + fields.spare).testBit 5 = true := by
      rw [Nat.testBit_eq_decide_div_mod_eq, decide_eq_true_eq]
      omega
    have masked : ((fields.keyId * 64 + 32 + fields.spare) &&& 32).testBit 5 = true := by
      rw [Nat.testBit_and, bit]
      rfl
    intro zero
    have cleared : (fields.keyId * 64 + 32 + fields.spare) &&& 32 = 0 := by
      rw [← octet]
      exact (UInt8.toNat_and _ _).symm.trans (congrArg UInt8.toNat zero)
    rw [cleared] at masked
    exact absurd masked (by decide)

/-- A frame of the access point as it is built: its MAC header, the CCMP header and what
is encrypted. -/
structure ApFrame (ap : String) where
  header : Octets
  ccmp : CcmpFields
  body : Octets
  size : header.length = groupHdr header
  long : 34 ≤ (header ++ (ccmp.encode ++ body)).length
  data : (frameType header).1 = 2
  guarded : header.getD 1 0 &&& 0x40 ≠ 0
  group : header.getD 4 0 &&& 1 ≠ 0
  sender : mac (slice header 10 16) = ap

namespace ApFrame

variable {ap : String} (frame : ApFrame ap)

/-- The octets of the frame. -/
def octets : Octets := frame.header ++ (frame.ccmp.encode ++ frame.body)

theorem length_header : 24 ≤ frame.header.length := by
  rw [frame.size, groupHdr]
  omega

theorem getD_octets {index : ℕ} (inside : index < 24) :
    frame.octets.getD index 0 = frame.header.getD index 0 := by
  have size := frame.length_header
  rw [octets, List.getD_append _ _ _ _ (by omega)]

theorem groupHdr_octets : groupHdr frame.octets = frame.header.length := by
  have first := frame.getD_octets (by decide : 0 < 24)
  rw [frame.size, groupHdr, groupHdr, frameType, frameType, first]

/-- It is read with the packet number and the key id that were encoded. -/
theorem groupFrame_octets : GroupData ap frame.octets ∧
    groupFrame frame.octets = ⟨frame.ccmp.pn, frame.ccmp.keyId, frame.octets.length⟩ := by
  obtain ⟨pn, keyId, extIv, size⟩ := read_encode frame.ccmp
  have first := frame.getD_octets (by decide : 0 < 24)
  have header := frame.length_header
  have read : slice frame.octets (groupHdr frame.octets) (groupHdr frame.octets + 8) =
      frame.ccmp.encode := by
    rw [groupHdr_octets]
    exact slice_append rfl (congrArg (frame.header.length + ·) size)
  have sender : slice frame.octets 10 16 = slice frame.header 10 16 := by
    rw [octets, slice, slice, List.drop_append_of_le_length (by omega),
      List.take_append_of_le_length (by rw [List.length_drop]; omega)]
  refine ⟨⟨frame.long, ?_, ?_, ?_, ?_, ?_⟩, ?_⟩
  · rw [frameType, first]
    exact frame.data
  · rw [frame.getD_octets (by decide)]
    exact frame.guarded
  · rw [frame.getD_octets (by decide)]
    exact frame.group
  · rw [sender, frame.sender]
  · rw [read]
    exact extIv
  · simp only [groupFrame, read, pn, keyId]

end ApFrame

/-- Of every frame with three addresses that `group_ccmp_pn` reads the other tool derives
the same packet number and key id, and of a frame that was built they are those
encoded. -/
theorem groupCcmpPn_reads :
    (∀ d ap got f, groupCcmpPn d ap = some got → pastRadiotap d = some f → ThreeAddress f →
        ∃ derived, meshCcmp f = some derived ∧ derived.keyId = got.keyId ∧
          ofBig derived.pn = got.pn) ∧
      ∀ d ap (frame : ApFrame ap), pastRadiotap d = some frame.octets →
        ThreeAddress frame.octets →
          groupCcmpPn d ap = some ⟨frame.ccmp.pn, frame.ccmp.keyId, frame.octets.length⟩ := by
  refine ⟨fun d ap got f read past three => ?_, fun d ap frame past three => ?_⟩
  · obtain ⟨accepted, rfl⟩ := (groupCcmpPn_eq_some_iff past).mp read
    obtain ⟨derived, ran, _, keyId, pn⟩ := meshCcmp_of_groupData accepted three
    exact ⟨derived, ran, keyId, pn⟩
  · obtain ⟨accepted, reads⟩ := frame.groupFrame_octets
    exact (groupCcmpPn_eq_some_iff past).mpr ⟨accepted, reads.symm⟩

/-- The MAC header of a QoS frame to everyone. -/
def qosHeader : Octets :=
  [0x88, 0x42, 0, 0, 0xff, 0xff, 0xff, 0xff, 0xff, 0xff, 2, 0, 0, 0, 0, 1, 2, 0, 0, 0, 0, 1, 0,
    0, 0, 0]

def qosFrame : ApFrame (mac (slice qosHeader 10 16)) where
  header := qosHeader
  ccmp := ⟨0x010203040506, 2, 0, 0, by decide, by decide, by decide⟩
  body := []
  size := by decide
  long := by decide
  data := by decide
  guarded := by decide
  group := by decide
  sender := rfl

theorem qosFrame_reads :
    groupCcmpPn ([0, 0, 4, 0] ++ qosFrame.octets) (mac (slice qosHeader 10 16)) =
        some ⟨0x010203040506, 2, 34⟩ ∧
      ∃ derived, meshCcmp qosFrame.octets = some derived ∧ derived.keyId = 2 ∧
        ofBig derived.pn = 0x010203040506 :=
  have past : pastRadiotap ([0, 0, 4, 0] ++ qosFrame.octets) = some qosFrame.octets := rfl
  have three : ThreeAddress qosFrame.octets := by decide
  have read := groupCcmpPn_reads.2 _ _ qosFrame past three
  ⟨read, groupCcmpPn_reads.1 _ _ _ _ read past three⟩

/-- A frame to a group with all four addresses, the last from octet 24 on. -/
def fourAddressFrame : Octets :=
  [0x08, 0x43, 0, 0, 0xff, 0xff, 0xff, 0xff, 0xff, 0xff, 2, 0, 0, 0, 0, 1, 2, 0, 0, 0, 0, 1, 0,
    0, 1, 0, 0, 0x20, 0, 0, 2, 0, 0, 0x20, 0, 0, 0, 0]

/-- Behind a fourth address the packet number is 2, but `group_ccmp_pn` reads another
one from that address. -/
theorem fourAddress_differs : ∃ got derived,
    groupCcmpPn ([0, 0, 4, 0] ++ fourAddressFrame) (mac [2, 0, 0, 0, 0, 1]) = some got ∧
      pastRadiotap ([0, 0, 4, 0] ++ fourAddressFrame) = some fourAddressFrame ∧
      meshCcmp fourAddressFrame = some derived ∧ derived.hdrLen = 30 ∧
      ofBig derived.pn = 2 ∧ got.pn = 1 + 2 * 2 ^ 32 :=
  have past : pastRadiotap ([0, 0, 4, 0] ++ fourAddressFrame) = some fourAddressFrame := rfl
  have accepted : GroupData (mac [2, 0, 0, 0, 0, 1]) fourAddressFrame :=
    ⟨by decide, by decide, by decide, by decide, rfl, by decide⟩
  have ⟨derived, ran, hdrLen, _, pn⟩ :=
    @meshCcmp_of_long fourAddressFrame 30 (by decide) (by decide)
  ⟨groupFrame fourAddressFrame, derived, (groupCcmpPn_eq_some_iff past).mpr ⟨accepted, rfl⟩, past,
    ran, hdrLen, by rw [pn]; decide, by decide⟩

end Rimba.Capture
