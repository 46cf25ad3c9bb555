import Rimba.Foundation.Framing
import Rimba.Foundation.Octets
import Rimba.Foundation.SizedBuffer

/-! # The walks over the MAC statistics

The RAW fixture reads the statistics of the firmware as TLVs: a tag, a length and that
many octets, one behind the other. `tlv_find` looks one up by its tag, and
`dump_tag_inventory` prints them. Both stop at a TLV without a value and at one the
payload ends in. In a buffer whose length leaves room for one more TLV neither reads
behind the end, and a tag `tlv_find` does not find is one the inventory does not list
(`Rimba.RawRps.tlvWalks_agree`).
-/

namespace Rimba.RawRps

open Foundation (Framing Pass SizedBuffer little ofLittle toNat_word word_add_half)
open Foundation.Loop (Reaches EndsAt Faults)

/-- `STATS_TLV_HDR_LEN` -/
def statsTlvHdrLen : UInt32 := 4

/-- `(uint16_t)lo | ((uint16_t)hi << 8)` -/
def rdLe16 (lo hi : UInt8) : UInt16 := lo.toUInt16 ||| (hi.toUInt16 <<< 8)

/-- The tag and the length at an offset; `none` when an octet of them is behind the
buffer's end. -/
def tlvHeader (buf : SizedBuffer) (off : UInt32) : Option (UInt16 × UInt16) := do
  let tagLo ← buf.bytes[off.toNat]?
  let tagHi ← buf.bytes[(off + 1).toNat]?
  let lenLo ← buf.bytes[(off + 2).toNat]?
  let lenHi ← buf.bytes[(off + 3).toNat]?
  some (rdLe16 tagLo tagHi, rdLe16 lenLo lenHi)

/-- One pass of a walk at an offset. It ends where there is no room for a header, and
where the TLV is malformed; else what it does with the TLV is its own. -/
def tlvWalkPass {State Result : Type} (buf : SizedBuffer) (off : UInt32) (short : Result)
    (malformed : UInt16 → UInt16 → Result) (here : UInt16 → UInt16 → UInt32 → Pass State Result) :
    Pass State Result :=
  if off + statsTlvHdrLen ≤ buf.len then
    match tlvHeader buf off with
    | none => .fault
    | some (tag, len) =>
        let off := off + statsTlvHdrLen
        if len = 0 ∨ buf.len < off + len.toUInt32 then .done (malformed tag len)
        else here tag len off
  else .done short

/-- One pass of the loop of `tlv_find`. Its result is the offset of the value and its
length, or `NULL`. -/
def tlvFindPass (buf : SizedBuffer) (want : UInt16) (off : UInt32) :
    Pass UInt32 (Option (UInt32 × UInt16)) :=
  tlvWalkPass buf off none (fun _ _ => none) fun tag len off =>
    if tag = want then .done (some (off, len)) else .next (off + len.toUInt32)

/-- What `dump_tag_inventory` prints. -/
inductive InventoryLine where
  /-- A TLV's tag and its length. -/
  | tlv (tag len : UInt16)
  /-- The offset, the tag and the length where the walk stopped. -/
  | stopped (offset : UInt32) (tag len : UInt16)
  /-- How many TLVs there are, and the length of the buffer. -/
  | total (n : ℕ) (bufLen : UInt32)
  deriving DecidableEq, Repr

/-- `dump_tag_inventory` between two passes: its locals and what it has printed. -/
structure Inventory where
  off : UInt32
  n : ℕ
  printed : List InventoryLine

def Inventory.start : Inventory := ⟨0, 0, []⟩

/-- What has been printed when the loop is left with some last lines. -/
def Inventory.finish (inventory : Inventory) (buf : SizedBuffer) (last : List InventoryLine) :
    List InventoryLine :=
  inventory.printed ++ (last ++ [.total inventory.n buf.len])

/-- One pass of the loop of `dump_tag_inventory`. -/
def dumpTagInventoryPass (buf : SizedBuffer) (inventory : Inventory) :
    Pass Inventory (List InventoryLine) :=
  tlvWalkPass buf inventory.off (inventory.finish buf [])
    (fun tag len =>
      let off := inventory.off + statsTlvHdrLen
      inventory.finish buf [.stopped (off - statsTlvHdrLen) tag len])
    fun tag len off => .next
      ⟨off + len.toUInt32, inventory.n + 1, inventory.printed ++ [.tlv tag len]⟩

/-- A TLV with a value, whose length is two octets. -/
@[ext] structure Tlv where
  tag : UInt16
  value : List UInt8
  nonempty : value ≠ []
  fits : value.length < UInt16.size

namespace Tlv

/-- The length as it is encoded. -/
def len (tlv : Tlv) : UInt16 := UInt16.ofNat tlv.value.length

/-- The tag and the length, each with its low octet first, and the value. -/
def encode (tlv : Tlv) : List UInt8 :=
  little 2 tlv.tag.toNat ++ (little 2 tlv.value.length ++ tlv.value)

theorem toNat_len (tlv : Tlv) : tlv.len.toNat = tlv.value.length :=
  UInt16.toNat_ofNat_of_lt' tlv.fits

theorem len_ne_zero (tlv : Tlv) : tlv.len ≠ 0 := by
  intro zero
  have size := tlv.toNat_len
  rw [zero] at size
  exact tlv.nonempty (List.length_eq_zero_iff.mp size.symm)

@[simp] theorem length_encode (tlv : Tlv) : tlv.encode.length = 4 + tlv.value.length := by
  rw [encode, List.length_append, List.length_append, Foundation.length_little,
    Foundation.length_little]
  omega

end Tlv

theorem toNat_rdLe16 (lo hi : UInt8) : (rdLe16 lo hi).toNat = lo.toNat + 256 * hi.toNat := by
  have low := lo.toNat_lt
  have high := hi.toNat_lt
  have apart := Nat.two_pow_add_eq_or_of_lt (i := 8) low hi.toNat
  have shifted : (hi.toUInt16 <<< 8).toNat = 2 ^ 8 * hi.toNat := by
    rw [UInt16.toNat_shiftLeft, UInt8.toNat_toUInt16]
    have amount : (8 : UInt16).toNat % 16 = 8 := rfl
    rw [amount, Nat.shiftLeft_eq]
    omega
  rw [rdLe16, UInt16.toNat_or, shifted, UInt8.toNat_toUInt16, Nat.or_comm, ← apart]
  omega

/-- The two octets are those of their number. -/
theorem little_rdLe16 (lo hi : UInt8) : little 2 (rdLe16 lo hi).toNat = [lo, hi] := by
  have number : (rdLe16 lo hi).toNat = ofLittle [lo, hi] := by
    rw [toNat_rdLe16, Foundation.ofLittle_cons, Foundation.ofLittle_cons, Foundation.ofLittle_nil]
    omega
  rw [number]
  exact Foundation.little_of_length rfl

/-- A number of two octets is read back. -/
theorem rdLe16_little {n : ℕ} (fits : n < UInt16.size) :
    ∃ lo hi, little 2 n = [lo, hi] ∧ rdLe16 lo hi = UInt16.ofNat n := by
  refine ⟨_, _, rfl, UInt16.toNat.inj ?_⟩
  have back : ofLittle (little 2 n) = n := Foundation.ofLittle_little fits
  rw [UInt16.toNat_ofNat_of_lt' fits, toNat_rdLe16]
  exact back

theorem take_ne_nil {behind : List UInt8} {len : UInt16} (positive : len ≠ 0)
    (inside : len.toNat ≤ behind.length) : behind.take len.toNat ≠ [] := by
  intro empty
  have size := congrArg List.length empty
  rw [List.length_take, Nat.min_eq_left inside] at size
  exact positive (UInt16.toNat.inj size)

theorem length_take_lt (behind : List UInt8) (len : UInt16) :
    (behind.take len.toNat).length < UInt16.size :=
  Nat.lt_of_le_of_lt (List.length_take_le _ _) len.toNat_lt

/-- An encoded TLV is the four octets of its header, and its value. -/
theorem Tlv.encode_eq (tlv : Tlv) : ∃ tagLo tagHi lenLo lenHi,
    tlv.encode = tagLo :: tagHi :: lenLo :: lenHi :: tlv.value ∧
      rdLe16 tagLo tagHi = tlv.tag ∧ rdLe16 lenLo lenHi = tlv.len := by
  obtain ⟨tagLo, tagHi, tagOctets, tag⟩ := rdLe16_little tlv.tag.toNat_lt
  obtain ⟨lenLo, lenHi, lenOctets, len⟩ := rdLe16_little tlv.fits
  refine ⟨tagLo, tagHi, lenLo, lenHi, ?_, ?_, len⟩
  · rw [Tlv.encode, tagOctets, lenOctets]
    rfl
  · rw [tag, UInt16.ofNat_toNat]

/-- The complete TLV some octets start with. -/
def headTlv : List UInt8 → Option Tlv
  | tagLo :: tagHi :: lenLo :: lenHi :: behind =>
      let len := rdLe16 lenLo lenHi
      if whole : len ≠ 0 ∧ len.toNat ≤ behind.length then
        some
          { tag := rdLe16 tagLo tagHi
            value := behind.take len.toNat
            nonempty := take_ne_nil whole.1 whole.2
            fits := length_take_lt behind len }
      else none
  | _ => none

theorem headTlv_encode (tlv : Tlv) (rest : List UInt8) :
    headTlv (tlv.encode ++ rest) = some tlv := by
  obtain ⟨tagLo, tagHi, lenLo, lenHi, octets, tag, len⟩ := tlv.encode_eq
  have size : (rdLe16 lenLo lenHi).toNat = tlv.value.length := by rw [len, tlv.toNat_len]
  have whole : rdLe16 lenLo lenHi ≠ 0 ∧
      (rdLe16 lenLo lenHi).toNat ≤ (tlv.value ++ rest).length := by
    refine ⟨by rw [len]; exact tlv.len_ne_zero, ?_⟩
    rw [size, List.length_append]
    omega
  rw [octets]
  simp only [List.cons_append, headTlv, dif_pos whole]
  exact congrArg some (Tlv.ext tag (List.take_left' size.symm))

theorem encode_of_headTlv {octets : List UInt8} {tlv : Tlv} (read : headTlv octets = some tlv) :
    tlv.encode <+: octets := by
  unfold headTlv at read
  split at read
  case h_2 => cases read
  case h_1 tagLo tagHi lenLo lenHi behind =>
      by_cases whole : rdLe16 lenLo lenHi ≠ 0 ∧ (rdLe16 lenLo lenHi).toNat ≤ behind.length
      · simp only [dif_pos whole] at read
        cases read
        refine ⟨behind.drop (rdLe16 lenLo lenHi).toNat, ?_⟩
        rw [Tlv.encode, List.length_take, Nat.min_eq_left whole.2, little_rdLe16, little_rdLe16,
          List.append_assoc, List.append_assoc, List.take_append_drop]
        rfl
      · simp only [dif_neg whole] at read
        cases read

/-- TLVs end by themselves. -/
def tlvs : Framing UInt8 Tlv where
  encode := Tlv.encode
  head := headTlv
  encode_ne_nil tlv empty := by
    have size := congrArg List.length empty
    rw [Tlv.length_encode, List.length_nil] at size
    omega
  head_encode := headTlv_encode
  encode_of_head := encode_of_headTlv

/-- Enough octets for a header start with one. -/
theorem exists_header {octets : List UInt8} (enough : 4 ≤ octets.length) :
    ∃ tagLo tagHi lenLo lenHi behind, octets = tagLo :: tagHi :: lenLo :: lenHi :: behind := by
  refine ⟨octets[0], octets[1], octets[2], octets[3], octets.drop 4, ?_⟩
  have first : octets.drop 0 = octets[0] :: octets.drop 1 := List.drop_eq_getElem_cons _
  have second : octets.drop 1 = octets[1] :: octets.drop 2 := List.drop_eq_getElem_cons _
  have third : octets.drop 2 = octets[2] :: octets.drop 3 := List.drop_eq_getElem_cons _
  have fourth : octets.drop 3 = octets[3] :: octets.drop 4 := List.drop_eq_getElem_cons _
  rw [← fourth, ← third, ← second, ← first, List.drop_zero]

/-- Octets that do not start with a TLV: too few for a header, or a header with the
length 0 or with one that is longer than what is behind it. -/
inductive Malformed : List UInt8 → Prop
  | short {octets : List UInt8} (few : octets.length < 4) : Malformed octets
  | header (tagLo tagHi lenLo lenHi : UInt8) {behind : List UInt8}
      (bad : rdLe16 lenLo lenHi = 0 ∨ behind.length < (rdLe16 lenLo lenHi).toNat) :
      Malformed (tagLo :: tagHi :: lenLo :: lenHi :: behind)

theorem headTlv_eq_none_iff {octets : List UInt8} : headTlv octets = none ↔ Malformed octets := by
  constructor
  · intro stuck
    unfold headTlv at stuck
    split at stuck
    case h_1 tagLo tagHi lenLo lenHi behind =>
        by_cases whole : rdLe16 lenLo lenHi ≠ 0 ∧ (rdLe16 lenLo lenHi).toNat ≤ behind.length
        · simp only [dif_pos whole] at stuck
          cases stuck
        · refine .header tagLo tagHi lenLo lenHi ?_
          rwa [not_and_or, not_not, Nat.not_le] at whole
    case h_2 other =>
        refine .short ?_
        by_contra enough
        obtain ⟨tagLo, tagHi, lenLo, lenHi, behind, rfl⟩ := exists_header (Nat.not_lt.mp enough)
        exact other tagLo tagHi lenLo lenHi behind rfl
  · intro malformed
    cases malformed with
    | short few =>
        unfold headTlv
        split
        case h_1 => simp only [List.length_cons] at few; omega
        case h_2 => rfl
    | header tagLo tagHi lenLo lenHi bad =>
        rw [headTlv, dif_neg]
        rintro ⟨positive, inside⟩
        rcases bad with zero | behind
        · exact positive zero
        · omega

section

variable {State Result : Type} {buf : SizedBuffer} {short : Result}
  {malformed : UInt16 → UInt16 → Result} {here : UInt16 → UInt16 → UInt32 → Pass State Result}
  {front : List UInt8}

/-- Shorter than the largest buffer by a TLV's worth. -/
def Roomy (buf : SizedBuffer) : Prop := buf.bytes.length < 2 ^ 32 - 2 ^ 16

instance : DecidablePred Roomy :=
  fun buf => inferInstanceAs (Decidable (buf.bytes.length < 2 ^ 32 - 2 ^ 16))

/-- The header behind some octets. -/
theorem tlvHeader_behind {tagLo tagHi lenLo lenHi : UInt8} {behind : List UInt8}
    (whole : buf.bytes = front ++ tagLo :: tagHi :: lenLo :: lenHi :: behind) :
    tlvHeader buf (UInt32.ofNat front.length) =
      some (rdLe16 tagLo tagHi, rdLe16 lenLo lenHi) := by
  have one : buf.bytes[(UInt32.ofNat front.length + 1).toNat]? = some tagHi :=
    buf.get_behind whole 1 rfl
  have two : buf.bytes[(UInt32.ofNat front.length + 2).toNat]? = some lenLo :=
    buf.get_behind whole 2 rfl
  have three : buf.bytes[(UInt32.ofNat front.length + 3).toNat]? = some lenHi :=
    buf.get_behind whole 3 rfl
  have zero : buf.bytes[(UInt32.ofNat front.length).toNat]? = some tagLo := by
    rw [← UInt32.add_zero (UInt32.ofNat front.length)]
    exact buf.get_behind whole 0 rfl
  rw [tlvHeader, zero, one, two, three]
  rfl

/-- Behind a header the sums do not wrap. -/
theorem toNat_value (roomy : Roomy buf) (start : ℕ) (inside : start + 4 ≤ buf.bytes.length)
    (len : UInt16) :
    UInt32.ofNat start + statsTlvHdrLen = UInt32.ofNat (start + 4) ∧
      UInt32.ofNat (start + 4) ≤ buf.len ∧
      (buf.len < UInt32.ofNat (start + 4) + len.toUInt32 ↔
        buf.bytes.length < start + 4 + len.toNat) := by
  have limit : buf.bytes.length < 4294967296 - 65536 := roomy
  have words : UInt32.size = 4294967296 := rfl
  have half : len.toNat < 65536 := len.toNat_lt
  refine ⟨(UInt32.ofNat_add _ _).symm, (buf.word_le_len (by omega)).mpr inside, ?_⟩
  rw [word_add_half]
  exact buf.len_lt_word (by omega)

/-- At a TLV a walk does with it what it does. -/
theorem tlvWalkPass_tlv (roomy : Roomy buf) {tlv : Tlv} {rest : List UInt8}
    (whole : buf.bytes = front ++ (tlv.encode ++ rest)) :
    tlvWalkPass buf (UInt32.ofNat front.length) short malformed here =
      here tlv.tag tlv.len (UInt32.ofNat (front.length + 4)) := by
  obtain ⟨tagLo, tagHi, lenLo, lenHi, octets, tag, len⟩ := tlv.encode_eq
  have size := congrArg List.length whole
  rw [List.length_append, List.length_append, tlv.length_encode] at size
  obtain ⟨behind, enters, ends⟩ := toNat_value roomy front.length (by omega) tlv.len
  have header : tlvHeader buf (UInt32.ofNat front.length) = some (tlv.tag, tlv.len) := by
    rw [octets] at whole
    rw [← tag, ← len]
    exact tlvHeader_behind whole
  have good : ¬ (tlv.len = 0 ∨
      buf.len < UInt32.ofNat (front.length + 4) + tlv.len.toUInt32) := by
    rw [ends, tlv.toNat_len, not_or]
    exact ⟨tlv.len_ne_zero, by omega⟩
  simp only [tlvWalkPass, behind, if_pos enters, header, if_neg good]

/-- Where the octets left are malformed a walk ends. -/
theorem tlvWalkPass_malformed (roomy : Roomy buf) {rest : List UInt8}
    (whole : buf.bytes = front ++ rest) (bad : Malformed rest) :
    tlvWalkPass buf (UInt32.ofNat front.length) short malformed here = .done short ∨
      ∃ tag len, tlvWalkPass buf (UInt32.ofNat front.length) short malformed here =
        .done (malformed tag len) := by
  have size := congrArg List.length whole
  rw [List.length_append] at size
  cases bad with
  | short few =>
      have limit : buf.bytes.length < 4294967296 - 65536 := roomy
      have words : UInt32.size = 4294967296 := rfl
      have behind : UInt32.ofNat front.length + statsTlvHdrLen = UInt32.ofNat (front.length + 4) :=
        (UInt32.ofNat_add _ _).symm
      have leaves : ¬ UInt32.ofNat (front.length + 4) ≤ buf.len := by
        rw [buf.word_le_len (by omega)]
        omega
      exact .inl (by rw [tlvWalkPass, behind, if_neg leaves])
  | header tagLo tagHi lenLo lenHi bad =>
      simp only [List.length_cons] at size
      obtain ⟨behind, enters, ends⟩ :=
        toNat_value roomy front.length (by omega) (rdLe16 lenLo lenHi)
      have header := tlvHeader_behind whole
      have stops : rdLe16 lenLo lenHi = 0 ∨
          buf.len < UInt32.ofNat (front.length + 4) + (rdLe16 lenLo lenHi).toUInt32 := by
        rw [ends]
        exact bad.imp_right fun few => by omega
      exact .inr ⟨rdLe16 tagLo tagHi, rdLe16 lenLo lenHi, by
        simp only [tlvWalkPass, behind, if_pos enters, header, if_pos stops]⟩

end

/-- The line for a TLV. -/
def Tlv.line (tlv : Tlv) : InventoryLine := .tlv tlv.tag tlv.len

/-- The tag and the length on a line that lists a TLV. -/
def InventoryLine.listed : InventoryLine → Option (UInt16 × UInt16)
  | .tlv tag len => some (tag, len)
  | _ => none

/-- The octets a result of `tlv_find` points at. -/
def valueAt (bytes : List UInt8) (found : UInt32 × UInt16) : List UInt8 :=
  (bytes.drop found.1.toNat).take found.2.toNat

/-- A result of `tlv_find` is behind the header of the first of some TLVs with the tag,
and has its length. -/
def PointsAtFirst (items : List Tlv) (want : UInt16) (found : UInt32 × UInt16) : Prop :=
  ∃ passed tlv later, items = passed ++ tlv :: later ∧ (∀ other ∈ passed, other.tag ≠ want) ∧
    tlv.tag = want ∧ found.1.toNat = (tlvs.encodeAll passed).length + 4 ∧
    found.2.toNat = tlv.value.length

/-- Both walks end over a buffer without reading behind its end. The inventory lists some
TLVs, and `tlv_find` returns the first of them with a tag, its value intact inside the
buffer, and `NULL` only when none is listed. -/
structure WalksAgree (buf : SizedBuffer) (want : UInt16) (items : List Tlv) : Prop where
  lists : ∃ last lines, EndsAt (dumpTagInventoryPass buf) .start last lines ∧
    lines.filterMap InventoryLine.listed = items.map fun tlv => (tlv.tag, tlv.len)
  finds : ∃ last result, EndsAt (tlvFindPass buf want) 0 last result ∧
    result.map (valueAt buf.bytes) = (items.find? fun tlv => tlv.tag = want).map Tlv.value ∧
    (∀ found ∈ result, PointsAtFirst items want found ∧
      found.1.toNat + found.2.toNat ≤ buf.bytes.length) ∧
    (result = none ↔ ∀ tlv ∈ items, tlv.tag ≠ want)
  inside : ¬ Faults (dumpTagInventoryPass buf) .start ∧ ¬ Faults (tlvFindPass buf want) 0

section

variable {buf : SizedBuffer} {want : UInt16} {items : List Tlv} {rest : List UInt8}

/-- `off` behind some TLVs. -/
def offBehind (passed : List Tlv) : UInt32 := UInt32.ofNat (tlvs.encodeAll passed).length

theorem offBehind_append (passed : List Tlv) (tlv : Tlv) :
    UInt32.ofNat ((tlvs.encodeAll passed).length + 4) + tlv.len.toUInt32 =
      offBehind (passed ++ [tlv]) := by
  have taken : (tlvs.encode tlv).length = 4 + tlv.value.length := tlv.length_encode
  rw [word_add_half, tlv.toNat_len, offBehind, Framing.encodeAll_append, Framing.encodeAll_cons,
    Framing.encodeAll_nil, List.append_nil, List.length_append, taken, Nat.add_assoc]

/-- The locals of `dump_tag_inventory` behind some TLVs. -/
def inventoryBehind (passed : List Tlv) : Inventory :=
  ⟨offBehind passed, passed.length, passed.map Tlv.line⟩

theorem dumpTagInventoryPass_tlv (roomy : Roomy buf) {passed : List Tlv} {tlv : Tlv}
    (whole : buf.bytes = tlvs.encodeAll passed ++ (tlvs.encode tlv ++ rest)) :
    dumpTagInventoryPass buf (inventoryBehind passed) =
      .next (inventoryBehind (passed ++ [tlv])) := by
  have behind := offBehind_append passed tlv
  rw [dumpTagInventoryPass, inventoryBehind, offBehind, tlvWalkPass_tlv roomy whole, behind,
    inventoryBehind, List.length_append, List.map_append]
  rfl

/-- What `tlv_find` returns for a TLV it finds. -/
def foundAt (passed : List Tlv) (tlv : Tlv) : UInt32 × UInt16 :=
  (UInt32.ofNat ((tlvs.encodeAll passed).length + 4), tlv.len)

theorem tlvFindPass_tlv (roomy : Roomy buf) {passed : List Tlv} {tlv : Tlv}
    (whole : buf.bytes = tlvs.encodeAll passed ++ (tlvs.encode tlv ++ rest)) :
    tlvFindPass buf want (offBehind passed) =
      if tlv.tag = want then .done (some (foundAt passed tlv))
      else .next (offBehind (passed ++ [tlv])) := by
  rw [tlvFindPass, offBehind, tlvWalkPass_tlv roomy whole, offBehind_append, foundAt]

/-- The inventory lists the TLVs in front of the malformed rest. -/
theorem inventory_lists (roomy : Roomy buf) (whole : buf.bytes = tlvs.encodeAll items ++ rest)
    (bad : Malformed rest) : ∃ last lines, EndsAt (dumpTagInventoryPass buf) .start last lines ∧
      lines.filterMap InventoryLine.listed = items.map fun tlv => (tlv.tag, tlv.len) := by
  have steps : ∀ passed tlv rest,
      buf.bytes = tlvs.encodeAll passed ++ (tlvs.encode tlv ++ rest) → True →
        dumpTagInventoryPass buf (inventoryBehind passed) =
          .next (inventoryBehind (passed ++ [tlv])) := by
    intro passed tlv rest here _
    exact dumpTagInventoryPass_tlv roomy here
  have reaches : Reaches (dumpTagInventoryPass buf) .start (inventoryBehind items) :=
    Framing.reaches_all steps (fun _ _ => trivial) whole
  have listed : (items.map Tlv.line).filterMap InventoryLine.listed =
      items.map fun tlv => (tlv.tag, tlv.len) := by
    rw [List.filterMap_map]
    exact congrFun List.filterMap_eq_map items
  rcases tlvWalkPass_malformed roomy whole bad with ends | ⟨tag, len, ends⟩
  · exact ⟨_, _, ⟨reaches, ends⟩, by
      rw [Inventory.finish, List.filterMap_append]
      exact (List.append_nil _).trans listed⟩
  · exact ⟨_, _, ⟨reaches, ends⟩, by
      rw [Inventory.finish, List.filterMap_append]
      exact (List.append_nil _).trans listed⟩

/-- Octets behind a front, some of which are a header and a value, hold that value. -/
theorem valueAt_behind {front : List UInt8} {tlv : Tlv} (fits : front.length + 4 < UInt32.size)
    (whole : buf.bytes = front ++ (tlv.encode ++ rest)) :
    valueAt buf.bytes (UInt32.ofNat (front.length + 4), tlv.len) = tlv.value := by
  obtain ⟨tagLo, tagHi, lenLo, lenHi, octets, -, -⟩ := tlv.encode_eq
  have behind : buf.bytes.drop (front.length + 4) = tlv.value ++ rest := by
    rw [whole, ← List.drop_drop, List.drop_left, octets]
    rfl
  rw [valueAt, toNat_word fits, tlv.toNat_len, behind, List.take_left]

/-- A tag that is listed is found at the first TLV with it. -/
theorem finds_first (roomy : Roomy buf) (whole : buf.bytes = tlvs.encodeAll items ++ rest)
    {tlv : Tlv} (first : items.find? (fun tlv => tlv.tag = want) = some tlv) :
    ∃ last found, EndsAt (tlvFindPass buf want) 0 last (some found) ∧
      valueAt buf.bytes found = tlv.value ∧ PointsAtFirst items want found ∧
      found.1.toNat + found.2.toNat ≤ buf.bytes.length := by
  obtain ⟨passed, later, split, before, here, ended⟩ :=
    Framing.ends_at_first (fun _ _ _ here => tlvFindPass_tlv roomy here) whole first
  have tag : tlv.tag = want := of_decide_eq_true (List.find?_eq_some_iff_append.mp first).1
  have size := congrArg List.length here
  have taken : (tlvs.encode tlv).length = 4 + tlv.value.length := tlv.length_encode
  rw [List.length_append, List.length_append, taken] at size
  have fits := buf.fits
  have start : (foundAt passed tlv).1.toNat = (tlvs.encodeAll passed).length + 4 :=
    toNat_word (by omega)
  have count : (foundAt passed tlv).2.toNat = tlv.value.length := tlv.toNat_len
  refine ⟨offBehind passed, foundAt passed tlv, ended, valueAt_behind (by omega) here,
    ⟨passed, tlv, later, split, before, tag, start, count⟩, ?_⟩
  rw [start, count]
  omega

/-- A tag that is not is not found. -/
theorem finds_none (roomy : Roomy buf) (whole : buf.bytes = tlvs.encodeAll items ++ rest)
    (bad : Malformed rest) (absent : items.find? (fun tlv => tlv.tag = want) = none) :
    ∃ last, EndsAt (tlvFindPass buf want) 0 last none := by
  have reaches :=
    Framing.reaches_of_find?_eq_none (fun _ _ _ here => tlvFindPass_tlv roomy here) whole absent
  rcases tlvWalkPass_malformed roomy whole bad with ends | ⟨tag, len, ends⟩
  · exact ⟨_, reaches, ends⟩
  · exact ⟨_, reaches, ends⟩

/-- The walks over TLVs with a malformed rest behind them agree. -/
theorem walksAgree_of_malformed (roomy : Roomy buf)
    (whole : buf.bytes = tlvs.encodeAll items ++ rest) (bad : Malformed rest) (want : UInt16) :
    WalksAgree buf want items := by
  obtain ⟨last, lines, dumped, listed⟩ := inventory_lists roomy whole bad
  cases first : items.find? fun tlv => tlv.tag = want with
  | some tlv =>
      obtain ⟨stop, found, ended, value, points, bound⟩ := finds_first roomy whole first
      refine ⟨⟨last, lines, dumped, listed⟩, ⟨stop, some found, ended, ?_, ?_, ?_⟩,
        dumped.faultless, ended.faultless⟩
      · rw [first, Option.map_some, Option.map_some, value]
      · intro other member
        cases member
        exact ⟨points, bound⟩
      · have tag : tlv.tag = want := of_decide_eq_true (List.find?_eq_some_iff_append.mp first).1
        exact iff_of_false (Option.some_ne_none _) fun absent =>
          absent tlv (List.mem_of_find?_eq_some first) tag
  | none =>
      obtain ⟨stop, ended⟩ := finds_none roomy whole bad first
      refine ⟨⟨last, lines, dumped, listed⟩, ⟨stop, none, ended, ?_, ?_, ?_⟩,
        dumped.faultless, ended.faultless⟩
      · rw [first]
        rfl
      · intro other member
        cases member
      · refine iff_of_true rfl fun tlv member => ?_
        simpa using List.find?_eq_none.mp first tlv member

end

/-- Over every buffer that leaves room for one more TLV both walks end inside it and agree
about the TLVs in front of its malformed rest; when it is encoded TLVs with a malformed
tail behind them, about those. -/
theorem tlvWalks_agree :
    (∀ buf, Roomy buf → ∃ items rest, buf.bytes = tlvs.encodeAll items ++ rest ∧
        Malformed rest ∧ ∀ want, WalksAgree buf want items) ∧
      ∀ buf items tail, Roomy buf → Malformed tail → buf.bytes = tlvs.encodeAll items ++ tail →
        ∀ want, WalksAgree buf want items := by
  constructor
  · intro buf roomy
    obtain ⟨whole, stuck⟩ : tlvs.Parses buf.bytes _ _ := Framing.parses buf.bytes
    have bad := headTlv_eq_none_iff.mp stuck
    exact ⟨_, _, whole, bad, walksAgree_of_malformed roomy whole bad⟩
  · intro buf items tail roomy bad whole
    exact walksAgree_of_malformed roomy whole bad

/-- A beacon counter and the RAW counters' tag, and a TLV that is cut. -/
def rawStats : List Tlv :=
  [⟨4170, [7, 0], by decide, by decide⟩, ⟨4210, [1, 2, 3], by decide, by decide⟩]

def rawBuffer : SizedBuffer := ⟨tlvs.encodeAll rawStats ++ [0, 0, 9, 0, 5], by decide⟩

theorem rawBuffer_agrees : WalksAgree rawBuffer 4210 rawStats ∧
    ∃ items rest, rawBuffer.bytes = tlvs.encodeAll items ++ rest ∧ Malformed rest ∧
      ∀ want, WalksAgree rawBuffer want items :=
  have roomy : Roomy rawBuffer := by decide
  ⟨tlvWalks_agree.2 rawBuffer rawStats _ roomy (.header 0 0 9 0 (.inr (by decide))) rfl 4210,
    tlvWalks_agree.1 rawBuffer roomy⟩

/-- `TAG_RAW` -/
def tagRaw : UInt16 := 4210

/-- `RAW_STATS_LEN` -/
def rawStatsLen : UInt16 := 60

/-- What `mmwlan_get_morse_stats` gives: octets behind a status, which their length
counts. -/
structure MorseStats where
  buf : List UInt8
  len : UInt32
  held : len.toNat ≤ buf.length + 4

namespace MorseStats

/-- `tlv_len` -/
def tlvLen (stats : MorseStats) : UInt32 := if 4 ≤ stats.len then stats.len - 4 else 0

/-- What the walks are handed. -/
def payload (stats : MorseStats) : SizedBuffer :=
  ⟨stats.buf.take stats.tlvLen.toNat,
    Nat.lt_of_le_of_lt (List.length_take_le _ _) stats.tlvLen.toNat_lt⟩

/-- The payload has the length the walks are handed with it. -/
theorem payload_len (stats : MorseStats) : stats.payload.len = stats.tlvLen := by
  have held := stats.held
  have size : stats.tlvLen.toNat ≤ stats.buf.length := by
    rw [tlvLen]
    by_cases counted : 4 ≤ stats.len
    · rw [if_pos counted, UInt32.toNat_sub_of_le _ _ counted]
      exact Nat.sub_le_of_le_add held
    · rw [if_neg counted]
      exact Nat.zero_le _
  rw [SizedBuffer.len, payload, List.length_take, Nat.min_eq_left size, UInt32.ofNat_toNat]

end MorseStats

/-- `rd_le32` -/
def rdLe32 (bytes : List UInt8) (p : ℕ) : ℕ := ofLittle ((bytes.drop p).take 4)

/-- What `report_raw_counters` says about the RAW counters. -/
inductive RawReport where
  | readFailed
  | absent
  | wrongLength (len : UInt16)
  | counters (words : List ℕ)
  deriving DecidableEq, Repr

/-- `report_raw_counters` up to the RAW counters, of what `tlv_find` returns for them. -/
def reportRawCounters (stats : Option MorseStats) (raw : Option (UInt32 × UInt16)) : RawReport :=
  match stats with
  | none => .readFailed
  | some stats =>
      match raw with
      | none => .absent
      | some (off, len) =>
          if len ≠ rawStatsLen then .wrongLength len
          else
            .counters
              ((List.range 15).map fun i => rdLe32 stats.payload.bytes (off.toNat + 4 * i))

theorem rdLe32_value {bytes : List UInt8} {found : UInt32 × UInt16} {i : ℕ}
    (inside : 4 * i + 4 ≤ found.2.toNat) :
    rdLe32 bytes (found.1.toNat + 4 * i) = rdLe32 (valueAt bytes found) (4 * i) := by
  rw [rdLe32, rdLe32, valueAt, List.drop_take, List.take_take, List.drop_drop,
    Nat.min_eq_left (by omega)]

/-- The report is about the first TLV with the RAW tag. Without one it says so and counts
nothing, and only one of the right length is read. -/
theorem reportRawCounters_eq {stats : MorseStats} (roomy : Roomy stats.payload) {last : UInt32}
    {raw : Option (UInt32 × UInt16)}
    (ended : EndsAt (tlvFindPass stats.payload tagRaw) 0 last raw) :
    reportRawCounters (some stats) raw =
      match (tlvs.items stats.payload.bytes).find? fun tlv => tlv.tag = tagRaw with
      | none => .absent
      | some tlv =>
          if tlv.len ≠ rawStatsLen then .wrongLength tlv.len
          else .counters ((List.range 15).map fun i => rdLe32 tlv.value (4 * i)) := by
  have split : tlvs.Parses stats.payload.bytes _ _ := Framing.parses stats.payload.bytes
  have bad := headTlv_eq_none_iff.mp split.stuck
  cases first : (tlvs.items stats.payload.bytes).find? fun tlv => tlv.tag = tagRaw with
  | none =>
      obtain ⟨stop, ended'⟩ := finds_none roomy split.whole bad first
      obtain ⟨-, rfl⟩ := ended.unique ended'
      rfl
  | some tlv =>
      obtain ⟨stop, found, ended', value, points, bound⟩ := finds_first roomy split.whole first
      obtain ⟨-, rfl⟩ := ended.unique ended'
      have size : found.2 = tlv.len := by
        refine UInt16.toNat.inj ?_
        rw [tlv.toNat_len, ← value, valueAt, List.length_take, List.length_drop]
        omega
      simp only [reportRawCounters, size]
      by_cases other : tlv.len ≠ rawStatsLen
      · rw [if_pos other, if_pos other]
      · rw [if_neg other, if_neg other, ← value]
        refine congrArg RawReport.counters (List.map_congr_left fun i member => ?_)
        have bound := List.mem_range.mp member
        refine rdLe32_value ?_
        rw [size, not_not.mp other]
        have whole : rawStatsLen.toNat = 60 := rfl
        omega

end Rimba.RawRps
