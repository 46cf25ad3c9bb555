import Mathlib.Data.List.GetD
import Rimba.Capture.Frame
import Rimba.Foundation.Octets

/-! # Radiotap headers

`parse_radiotap` walks the fields in front of a captured frame: a chain of present
words says which there are, and each is aligned from the start of the packet. It never
raises and reads nothing outside the length a header declares
(`Rimba.Capture.parseRadiotap_of_sound`), and of a header laid out by the field table it
reads what was laid out (`Rimba.Capture.parseRadiotap_encode`).
-/

namespace Rimba.Capture

open Foundation (little ofLittle)

/-- The octets `struct.unpack_from` reads; `none` when it raises. -/
def unpackFrom (pkt : Octets) (off size : ℕ) : Option Octets :=
  if off + size ≤ pkt.length then some (slice pkt off (off + size)) else none

/-- A row of `RT_FIELDS`. -/
structure RtField where
  bit : ℕ
  align : ℕ
  size : ℕ
  deriving DecidableEq

/-- `RT_FIELDS` -/
def rtFields : List RtField :=
  [⟨0, 8, 8⟩, ⟨1, 1, 1⟩, ⟨2, 1, 1⟩, ⟨3, 2, 4⟩, ⟨4, 1, 2⟩, ⟨5, 1, 1⟩, ⟨6, 1, 1⟩, ⟨7, 2, 2⟩,
    ⟨8, 2, 2⟩, ⟨9, 2, 2⟩, ⟨10, 1, 1⟩, ⟨11, 1, 1⟩, ⟨12, 1, 1⟩, ⟨13, 1, 1⟩, ⟨14, 2, 2⟩]

/-- The fields the tool keeps. -/
structure Radiotap where
  tsft : Option ℕ
  flags : Option UInt8
  rssi : Option Int8
  deriving DecidableEq

/-- `{}` -/
def Radiotap.empty : Radiotap := ⟨none, none, none⟩

/-- The loop over the present words: the words, and the offset behind them. -/
def presentsFrom (pkt : Octets) (rtlen : ℕ) (presents : List ℕ) (off : ℕ) :
    Option (List ℕ × ℕ) :=
  if off + 4 ≤ rtlen then do
    let word := ofLittle (← unpackFrom pkt off 4)
    if word.testBit 31 then presentsFrom pkt rtlen (presents ++ [word]) (off + 4)
    else some (presents ++ [word], off + 4)
  else some (presents, off)
termination_by rtlen - off

/-- What is kept of a field. -/
def Radiotap.read (out : Radiotap) (pkt : Octets) (bit off : ℕ) : Option Radiotap :=
  if bit = 0 then (unpackFrom pkt off 8).map fun octets => { out with tsft := ofLittle octets }
  else if bit = 1 then (pkt[off]?).map fun octet => { out with flags := octet }
  else if bit = 5 then
    (unpackFrom pkt off 1).map fun octets => { out with rssi := (octets.getD 0 0).toInt8 }
  else some out

/-- `(off + align - 1) // align * align` -/
def RtField.start (field : RtField) (off : ℕ) : ℕ :=
  (off + field.align - 1) / field.align * field.align

/-- The loop over the fields. -/
def fieldsFrom (pkt : Octets) (rtlen p0 : ℕ) :
    List RtField → ℕ → Radiotap → Option Radiotap
  | [], _, out => some out
  | field :: fields, off, out =>
      if p0.testBit field.bit then
        if rtlen < field.start off + field.size then some out
        else do
          let read ← out.read pkt field.bit (field.start off)
          fieldsFrom pkt rtlen p0 fields (field.start off + field.size) read
      else fieldsFrom pkt rtlen p0 fields off out

/-- `parse_radiotap`. The inner `none` is the answer that the header is malformed. -/
def parseRadiotap (pkt : Octets) : Option (Option (ℕ × Radiotap)) :=
  if pkt.length < 8 then some none
  else do
    let fixed ← unpackFrom pkt 0 4
    let version := fixed.getD 0 0
    let rtlen := ofLittle (fixed.drop 2)
    if version ≠ 0 ∨ rtlen < 8 ∨ pkt.length < rtlen then some none
    else do
      let (presents, off) ← presentsFrom pkt rtlen [] 4
      let out ← fieldsFrom pkt rtlen (presents.head?.getD 0) rtFields off .empty
      some (some (rtlen, out))

/-- The length a header declares. -/
def declaredLen (pkt : Octets) : ℕ := ofLittle (slice pkt 2 4)

/-- The part of a header that is always there is malformed. -/
def Malformed (pkt : Octets) : Prop :=
  pkt.length < 8 ∨ pkt.getD 0 0 ≠ 0 ∨ declaredLen pkt < 8 ∨ pkt.length < declaredLen pkt

variable {pkt : Octets} {rtlen off size : ℕ}

/-- Inside the declared length the octets behind it make no difference. -/
theorem unpackFrom_take (inside : off + size ≤ rtlen) (whole : rtlen ≤ pkt.length) :
    unpackFrom pkt off size = some (slice pkt off (off + size)) ∧
      unpackFrom (pkt.take rtlen) off size = some (slice pkt off (off + size)) := by
  have cut : off + size ≤ (pkt.take rtlen).length := by
    rw [List.length_take]
    omega
  have same : slice (pkt.take rtlen) off (off + size) = slice pkt off (off + size) := by
    rw [slice, slice, List.drop_take, List.take_take, Nat.min_eq_left (by omega)]
  rw [unpackFrom, unpackFrom, if_pos (by omega), if_pos cut, same]
  exact ⟨rfl, rfl⟩

/-- One pass of the loop over the present words. -/
theorem presentsFrom_word {presents : List ℕ} {octets : Octets} (inside : off + 4 ≤ rtlen)
    (read : unpackFrom pkt off 4 = some octets) :
    presentsFrom pkt rtlen presents off =
      if (ofLittle octets).testBit 31 then
        presentsFrom pkt rtlen (presents ++ [ofLittle octets]) (off + 4)
      else some (presents ++ [ofLittle octets], off + 4) := by
  rw [presentsFrom, if_pos inside, read]
  rfl

/-- The present words are read without raising, the same of the header alone. -/
theorem presentsFrom_take (whole : rtlen ≤ pkt.length) (presents : List ℕ) (off : ℕ) :
    ∃ words, presentsFrom pkt rtlen presents off = some words ∧
      presentsFrom (pkt.take rtlen) rtlen presents off = some words := by
  fun_induction presentsFrom pkt rtlen presents off with
  | case1 presents off inside ih =>
      obtain ⟨here, there⟩ := unpackFrom_take inside whole
      obtain ⟨words, later, later'⟩ := ih (slice pkt off (off + 4))
      rw [presentsFrom_word inside there, here]
      cases chained : (ofLittle (slice pkt off (off + 4))).testBit 31 with
      | true =>
          refine ⟨words, ?_, later'⟩
          simp only [Option.bind_eq_bind, Option.bind_some, chained, ↓reduceIte]
          exact later
      | false =>
          refine ⟨_, ?_, rfl⟩
          simp only [Option.bind_eq_bind, Option.bind_some, chained, Bool.false_eq_true, ↓reduceIte]
  | case2 presents off outside =>
      rw [presentsFrom, if_neg outside]
      exact ⟨_, rfl, rfl⟩

/-- The octets of a field that are read. -/
def keptSize (bit : ℕ) : ℕ := if bit = 0 then 8 else if bit = 1 ∨ bit = 5 then 1 else 0

/-- No field is read beyond its size. -/
theorem keptSize_le : ∀ field ∈ rtFields, keptSize field.bit ≤ field.size := by decide

theorem Radiotap.read_take {bit : ℕ} (out : Radiotap) (inside : off + keptSize bit ≤ rtlen)
    (whole : rtlen ≤ pkt.length) :
    ∃ read, out.read pkt bit off = some read ∧ out.read (pkt.take rtlen) bit off = some read := by
  unfold Radiotap.read
  unfold keptSize at inside
  by_cases tsft : bit = 0
  · rw [if_pos tsft] at inside
    obtain ⟨here, there⟩ := unpackFrom_take inside whole
    rw [if_pos tsft, if_pos tsft, here, there]
    exact ⟨_, rfl, rfl⟩
  rw [if_neg tsft] at inside
  rw [if_neg tsft, if_neg tsft]
  by_cases flags : bit = 1
  · rw [if_pos (Or.inl flags)] at inside
    have here : (pkt.take rtlen)[off]? = pkt[off]? := List.getElem?_take_of_lt (by omega)
    rw [if_pos flags, if_pos flags, here, List.getElem?_eq_getElem (by omega)]
    exact ⟨_, rfl, rfl⟩
  rw [if_neg flags, if_neg flags]
  by_cases rssi : bit = 5
  · rw [if_pos (Or.inr rssi)] at inside
    obtain ⟨here, there⟩ := unpackFrom_take inside whole
    rw [if_pos rssi, if_pos rssi, here, there]
    exact ⟨_, rfl, rfl⟩
  · rw [if_neg rssi, if_neg rssi]
    exact ⟨_, rfl, rfl⟩

/-- The fields are read without raising, the same of the header alone. -/
theorem fieldsFrom_take (p0 : ℕ) (whole : rtlen ≤ pkt.length) {fields : List RtField}
    (kept : ∀ field ∈ fields, keptSize field.bit ≤ field.size) (off : ℕ) (out : Radiotap) :
    ∃ read, fieldsFrom pkt rtlen p0 fields off out = some read ∧
      fieldsFrom (pkt.take rtlen) rtlen p0 fields off out = some read := by
  induction fields generalizing off out with
  | nil => exact ⟨out, rfl, rfl⟩
  | cons field fields ih =>
      have later := ih fun other member => kept other (List.mem_cons_of_mem field member)
      rw [fieldsFrom, fieldsFrom]
      cases p0.testBit field.bit with
      | false => exact later off out
      | true =>
          by_cases cut : rtlen < field.start off + field.size
          · rw [if_pos rfl, if_pos rfl, if_pos cut, if_pos cut]
            exact ⟨out, rfl, rfl⟩
          · have size := kept field (List.mem_cons_self ..)
            obtain ⟨read, here, there⟩ :=
              out.read_take (by omega : field.start off + keptSize field.bit ≤ rtlen) whole
            rw [if_pos rfl, if_pos rfl, if_neg cut, if_neg cut, here, there]
            exact later _ read

/-- The fixed part of a header that is long enough for it. -/
theorem fixed_eq (long : 8 ≤ pkt.length) :
    unpackFrom pkt 0 4 = some (slice pkt 0 4) ∧ (slice pkt 0 4).getD 0 0 = pkt.getD 0 0 ∧
      ofLittle ((slice pkt 0 4).drop 2) = declaredLen pkt := by
  refine ⟨if_pos (by omega), ?_, ?_⟩
  · simp only [slice, List.drop_zero, List.getD_eq_getElem?_getD,
      List.getElem?_take_of_lt (by omega : 0 < 4 - 0)]
  · rw [declaredLen, slice, slice, List.drop_zero, List.drop_take]

/-- What the parser does of a packet that is long enough for the fixed part. -/
theorem parseRadiotap_of_long (long : 8 ≤ pkt.length) :
    parseRadiotap pkt =
      if pkt.getD 0 0 ≠ 0 ∨ declaredLen pkt < 8 ∨ pkt.length < declaredLen pkt then some none
      else
        (presentsFrom pkt (declaredLen pkt) [] 4).bind fun words =>
          (fieldsFrom pkt (declaredLen pkt) (words.1.head?.getD 0) rtFields words.2 .empty).bind
            fun out => some (some (declaredLen pkt, out)) := by
  obtain ⟨read, version, rtlen⟩ := fixed_eq long
  rw [parseRadiotap, if_neg (by omega), read]
  simp only [Option.bind_eq_bind, Option.bind_some, version, rtlen]

theorem parseRadiotap_of_malformed (malformed : Malformed pkt) :
    parseRadiotap pkt = some none := by
  by_cases short : pkt.length < 8
  · rw [parseRadiotap, if_pos short]
  · rw [parseRadiotap_of_long (by omega), if_pos (malformed.resolve_left short)]

/-- A header whose fixed part is sound is read without raising, the same of itself
alone. -/
theorem parseRadiotap_of_sound (sound : ¬ Malformed pkt) :
    ∃ out, parseRadiotap pkt = some (some (declaredLen pkt, out)) ∧
      parseRadiotap (pkt.take (declaredLen pkt)) = some (some (declaredLen pkt, out)) := by
  obtain ⟨long, sound⟩ := not_or.mp sound
  have whole : declaredLen pkt ≤ pkt.length := by omega
  obtain ⟨words, here, there⟩ := presentsFrom_take whole [] 4
  obtain ⟨out, read, read'⟩ := fieldsFrom_take (words.1.head?.getD 0) whole keptSize_le words.2
    .empty
  have size : (pkt.take (declaredLen pkt)).length = declaredLen pkt := by
    rw [List.length_take, Nat.min_eq_left whole]
  have version : (pkt.take (declaredLen pkt)).getD 0 0 = pkt.getD 0 0 := by
    simp only [List.getD_eq_getElem?_getD,
      List.getElem?_take_of_lt (by omega : 0 < declaredLen pkt)]
  have declared : declaredLen (pkt.take (declaredLen pkt)) = declaredLen pkt := by
    have inside : (2 : ℕ) + 2 ≤ declaredLen pkt := by omega
    have cut : slice (pkt.take (declaredLen pkt)) 2 4 = slice pkt 2 4 := by
      rw [slice, slice, List.drop_take, List.take_take, Nat.min_eq_left (by omega)]
    rw [declaredLen, cut, declaredLen]
  refine ⟨out, ?_, ?_⟩
  · rw [parseRadiotap_of_long (by omega), if_neg sound, here, Option.bind_some, read]
    rfl
  · have alone : ¬ (pkt.getD 0 0 ≠ 0 ∨ declaredLen pkt < 8 ∨ declaredLen pkt < declaredLen pkt) :=
      fun broken => sound (broken.imp_right (Or.imp_right (absurd · (Nat.lt_irrefl _))))
    rw [parseRadiotap_of_long (by omega), version, declared, size, if_neg alone, there,
      Option.bind_some, read']
    rfl

/-- Nothing is raised. -/
theorem parseRadiotap_ne_none (pkt : Octets) : parseRadiotap pkt ≠ none := by
  by_cases malformed : Malformed pkt
  · rw [parseRadiotap_of_malformed malformed]
    exact Option.some_ne_none _
  · obtain ⟨out, read, -⟩ := parseRadiotap_of_sound malformed
    rw [read]
    exact Option.some_ne_none _

/-- A header as it is built. Of the fields that are not kept the octets are given; the
bits of the first present word above the field table, the present words chained
behind it, the octets between fields and those behind the last are any. -/
structure RtHeader where
  pad : UInt8
  tsft : Option UInt64
  flags : Option UInt8
  rssi : Option Int8
  others : ℕ → Option Octets
  upper : ℕ → Bool
  more : List (ℕ → Bool)
  filler : ℕ → UInt8
  trailing : Octets

namespace RtHeader

variable (header : RtHeader)

/-- The octets of a field that is present. -/
def value (bit : ℕ) : Option Octets :=
  if bit = 0 then header.tsft.map fun time => little 8 time.toNat
  else if bit = 1 then header.flags.map fun flags => [flags]
  else if bit = 5 then header.rssi.map fun level => [level.toUInt8]
  else header.others bit

/-- A present word; bit 31 says that another follows. -/
def presentWord (bits : ℕ → Bool) (chained : Bool) : ℕ :=
  Nat.ofBits fun bit : Fin 32 => if bit.val = 31 then chained else bits bit.val

/-- The bits of the first present word. -/
def present (bit : ℕ) : Bool := if bit < 15 then (header.value bit).isSome else header.upper bit

/-- The chain of present words. -/
def chain (bits : ℕ → Bool) : List (ℕ → Bool) → List ℕ
  | [] => [presentWord bits false]
  | next :: more => presentWord bits true :: chain next more

/-- The fields in bit order, each behind the octets that align it. -/
def layout : List RtField → ℕ → Octets
  | [], _ => []
  | field :: fields, off =>
      match header.value field.bit with
      | none => layout fields off
      | some octets =>
          ((List.range (field.start off - off)).map fun k => header.filler (off + k)) ++
            (octets ++ layout fields (field.start off + field.size))

/-- The present words and what is behind them. -/
def body : Octets :=
  let words := (chain header.present header.more).flatMap (little 4)
  words ++ (header.layout rtFields (4 + words.length) ++ header.trailing)

/-- The header. -/
def encode : Octets := [0, header.pad] ++ (little 2 (4 + header.body.length) ++ header.body)

/-- The fields that are not kept have the sizes of the table, and a word holds the
length. -/
structure Fits : Prop where
  sizes : ∀ field ∈ rtFields, ∀ octets ∈ header.others field.bit, octets.length = field.size
  length : 4 + header.body.length < 65536

/-- The fields that are kept. -/
def kept : Radiotap := ⟨header.tsft.map UInt64.toNat, header.flags, header.rssi⟩

theorem unpackFrom_append {front octets behind : Octets} (start : front.length = off)
    (taken : octets.length = size) :
    unpackFrom (front ++ (octets ++ behind)) off size = some octets := by
  subst start taken
  have inside : front.length + octets.length ≤ (front ++ (octets ++ behind)).length := by
    rw [List.length_append, List.length_append]
    omega
  rw [unpackFrom, if_pos inside, slice_append rfl rfl]

theorem presentWord_lt (bits : ℕ → Bool) (chained : Bool) :
    presentWord bits chained < 256 ^ 4 :=
  Nat.ofBits_lt_two_pow _

theorem testBit_presentWord (bits : ℕ → Bool) (chained : Bool) {bit : ℕ} (low : bit < 32) :
    (presentWord bits chained).testBit bit = if bit = 31 then chained else bits bit :=
  Nat.testBit_ofBits_lt _ bit low

theorem length_words (words : List ℕ) : (words.flatMap (little 4)).length = 4 * words.length := by
  induction words with
  | nil => rfl
  | cons word words ih =>
      rw [List.flatMap_cons, List.length_append, ih, Foundation.length_little, List.length_cons]
      omega

/-- The present words are read back, up to the one that is not chained. -/
theorem presentsFrom_chain (more : List (ℕ → Bool)) (bits : ℕ → Bool) (front behind : Octets)
    (presents : List ℕ)
    (inside : front.length + 4 * (chain bits more).length ≤ rtlen) :
    presentsFrom (front ++ ((chain bits more).flatMap (little 4) ++ behind)) rtlen presents
        front.length =
      some (presents ++ chain bits more, front.length + 4 * (chain bits more).length) := by
  induction more generalizing bits front presents with
  | nil =>
      have read : unpackFrom (front ++ (little 4 (presentWord bits false) ++ behind))
          front.length 4 =
          some (little 4 (presentWord bits false)) :=
        unpackFrom_append rfl (Foundation.length_little _ _)
      have word := Foundation.ofLittle_little (presentWord_lt bits false)
      have last : (presentWord bits false).testBit 31 = false :=
        testBit_presentWord bits false (by norm_num)
      have room : front.length + 4 ≤ rtlen := inside
      simp only [chain, List.flatMap_cons, List.flatMap_nil, List.append_nil]
      rw [presentsFrom_word room read, word, last]
      rfl
  | cons next more ih =>
      have size : (chain bits (next :: more)).length = (chain next more).length + 1 := rfl
      have read : unpackFrom (front ++ (little 4 (presentWord bits true) ++
          ((chain next more).flatMap (little 4) ++ behind))) front.length 4 =
            some (little 4 (presentWord bits true)) :=
        unpackFrom_append rfl (Foundation.length_little _ _)
      have word := Foundation.ofLittle_little (presentWord_lt bits true)
      have chained : (presentWord bits true).testBit 31 = true :=
        testBit_presentWord bits true (by norm_num)
      have onward : (front ++ little 4 (presentWord bits true)).length = front.length + 4 := by
        rw [List.length_append, Foundation.length_little]
      have later := ih next (front ++ little 4 (presentWord bits true))
        (presents ++ [presentWord bits true]) (by omega)
      rw [onward, List.append_assoc, List.append_assoc, List.singleton_append] at later
      simp only [chain, List.flatMap_cons, List.append_assoc]
      rw [presentsFrom_word (by omega) read, word, chained, if_pos rfl, later]
      refine congrArg some (Prod.ext rfl ?_)
      rw [List.length_cons]
      omega

/-- What is kept behind a field, of what was kept before it. -/
def collect (out : Radiotap) (bit : ℕ) : Radiotap :=
  if bit = 0 then { out with tsft := header.kept.tsft.or out.tsft }
  else if bit = 1 then { out with flags := header.kept.flags.or out.flags }
  else if bit = 5 then { out with rssi := header.kept.rssi.or out.rssi }
  else out

/-- The fields that are kept, and the others. -/
theorem bit_cases (bit : ℕ) : bit = 0 ∨ bit = 1 ∨ bit = 5 ∨ (bit ≠ 0 ∧ bit ≠ 1 ∧ bit ≠ 5) := by
  omega

theorem value_other {bit : ℕ} (other : bit ≠ 0 ∧ bit ≠ 1 ∧ bit ≠ 5) :
    header.value bit = header.others bit := by
  rw [value, if_neg other.1, if_neg other.2.1, if_neg other.2.2]

theorem collect_other (out : Radiotap) {bit : ℕ} (other : bit ≠ 0 ∧ bit ≠ 1 ∧ bit ≠ 5) :
    header.collect out bit = out := by
  rw [collect, if_neg other.1, if_neg other.2.1, if_neg other.2.2]

theorem collect_of_absent (out : Radiotap) {bit : ℕ} (absent : header.value bit = none) :
    header.collect out bit = out := by
  rcases bit_cases bit with rfl | rfl | rfl | other
  · have tsft : header.tsft = none := Option.map_eq_none_iff.mp absent
    rw [collect, if_pos rfl, kept, tsft]
    rfl
  · have flags : header.flags = none := Option.map_eq_none_iff.mp absent
    rw [collect, if_neg one_ne_zero, if_pos rfl, kept, flags]
    rfl
  · have rssi : header.rssi = none := Option.map_eq_none_iff.mp absent
    rw [collect, if_neg (by decide), if_neg (by decide), if_pos rfl, kept, rssi]
    rfl
  · exact header.collect_other out other

/-- A field that is present is read back. -/
theorem read_of_present (out : Radiotap) {bit : ℕ} {front octets behind : Octets}
    (present : header.value bit = some octets) :
    out.read (front ++ (octets ++ behind)) bit front.length = some (header.collect out bit) := by
  rcases bit_cases bit with rfl | rfl | rfl | other
  · obtain ⟨time, tsft, rfl⟩ := Option.map_eq_some_iff.mp present
    have fits : time.toNat < 256 ^ 8 := time.toNat_lt
    rw [Radiotap.read, collect, if_pos rfl, if_pos rfl,
      unpackFrom_append rfl (Foundation.length_little _ _), kept, tsft, Option.map_some,
      Foundation.ofLittle_little fits]
    rfl
  · obtain ⟨octet, flags, rfl⟩ := Option.map_eq_some_iff.mp present
    have here : (front ++ ([octet] ++ behind))[front.length]? = some octet := by
      rw [List.getElem?_append_right (Nat.le_refl _), Nat.sub_self]
      rfl
    rw [Radiotap.read, collect, if_neg one_ne_zero, if_neg one_ne_zero, if_pos rfl, if_pos rfl,
      here, kept, flags]
    rfl
  · obtain ⟨level, rssi, rfl⟩ := Option.map_eq_some_iff.mp present
    have read : unpackFrom (front ++ ([level.toUInt8] ++ behind)) front.length 1 =
        some [level.toUInt8] := unpackFrom_append rfl rfl
    have back : level.toUInt8.toInt8 = level := rfl
    have five : (5 : ℕ) ≠ 0 ∧ (5 : ℕ) ≠ 1 := by decide
    rw [Radiotap.read, collect, if_neg five.1, if_neg five.1, if_neg five.2, if_neg five.2,
      if_pos rfl, if_pos rfl, read, kept, rssi, Option.map_some, List.getD_cons_zero, back]
    rfl
  · rw [Radiotap.read, header.collect_other out other, if_neg other.1, if_neg other.2.1,
      if_neg other.2.2]

/-- Behind the last field everything that is kept was. -/
theorem foldl_collect : rtFields.foldl (fun out field => header.collect out field.bit) .empty =
    header.kept := by
  simp only [rtFields, List.foldl_cons, List.foldl_nil, collect, Radiotap.empty, Nat.reduceEqDiff,
    OfNat.ofNat_ne_zero, OfNat.ofNat_ne_one, one_ne_zero, ↓reduceIte, Option.or_none]

/-- The sizes of the fields that are kept. -/
theorem size_of_kept : ∀ field ∈ rtFields, (field.bit = 0 → field.size = 8) ∧
    (field.bit = 1 → field.size = 1) ∧ (field.bit = 5 → field.size = 1) := by decide

theorem length_value (fits : header.Fits) {field : RtField} (row : field ∈ rtFields)
    {octets : Octets} (present : header.value field.bit = some octets) :
    octets.length = field.size := by
  obtain ⟨eight, one, one'⟩ := size_of_kept field row
  rcases bit_cases field.bit with tsft | flags | rssi | other
  · rw [tsft] at present
    obtain ⟨time, -, rfl⟩ := Option.map_eq_some_iff.mp present
    rw [eight tsft, Foundation.length_little]
  · rw [flags] at present
    obtain ⟨octet, -, rfl⟩ := Option.map_eq_some_iff.mp present
    rw [one flags, List.length_singleton]
  · rw [rssi] at present
    obtain ⟨level, -, rfl⟩ := Option.map_eq_some_iff.mp present
    rw [one' rssi, List.length_singleton]
  · rw [header.value_other other] at present
    exact fits.sizes field row octets present

theorem align_pos : ∀ field ∈ rtFields, 0 < field.align := by decide

theorem le_start {field : RtField} (row : field ∈ rtFields) (off : ℕ) : off ≤ field.start off := by
  have positive := align_pos field row
  have whole := Nat.div_add_mod (off + field.align - 1) field.align
  have part := Nat.mod_lt (off + field.align - 1) positive
  rw [Nat.mul_comm] at whole
  rw [RtField.start]
  omega

/-- What fills the gap in front of a field reaches up to its start. -/
theorem length_gap {field : RtField} (row : field ∈ rtFields) (front : Octets)
    (filler : ℕ → UInt8) :
    (front ++ (List.range (field.start front.length - front.length)).map filler).length =
      field.start front.length := by
  have aligned := le_start row front.length
  rw [List.length_append, List.length_map, List.length_range]
  omega

/-- The fields are read back, from those that are present. -/
theorem fieldsFrom_layout {p0 : ℕ} (fits : header.Fits) {fields : List RtField}
    (rows : fields ⊆ rtFields)
    (present : ∀ field ∈ fields, p0.testBit field.bit = (header.value field.bit).isSome)
    (front behind : Octets) (out : Radiotap)
    (inside : front.length + (header.layout fields front.length).length ≤ rtlen) :
    fieldsFrom (front ++ (header.layout fields front.length ++ behind)) rtlen p0 fields
        front.length out =
      some (fields.foldl (fun out field => header.collect out field.bit) out) := by
  induction fields generalizing front out with
  | nil => rfl
  | cons field fields ih =>
      have row := rows (List.mem_cons_self ..)
      have later := ih (fun _ member => rows (List.mem_cons_of_mem field member))
        (fun other member => present other (List.mem_cons_of_mem field member))
      have bit := present field (List.mem_cons_self ..)
      rw [fieldsFrom, bit, List.foldl_cons]
      cases held : header.value field.bit with
      | none =>
          simp only [layout, held] at inside ⊢
          rw [Option.isSome_none, if_neg Bool.false_ne_true, header.collect_of_absent out held]
          exact later front out inside
      | some octets =>
          have size := header.length_value fits row held
          have start := length_gap row front fun k => header.filler (front.length + k)
          simp only [layout, held] at inside ⊢
          generalize (List.range (field.start front.length - front.length)).map
            (fun k => header.filler (front.length + k)) = gap at start inside ⊢
          have onward :
              (front ++ gap ++ octets).length = field.start front.length + field.size := by
            rw [List.length_append, start, size]
          have total := List.length_append.symm.trans start
          rw [List.length_append, List.length_append, size] at inside
          rw [Option.isSome_some, if_pos rfl, if_neg (by omega)]
          have read := @read_of_present header out field.bit (front ++ gap) octets
            (header.layout fields (field.start front.length + field.size) ++ behind) held
          rw [start] at read
          have rest := later (front ++ gap ++ octets) (header.collect out field.bit)
          rw [onward] at rest
          simp only [List.append_assoc] at read rest ⊢
          rw [read]
          exact rest (by omega)

theorem length_chain (bits : ℕ → Bool) (more : List (ℕ → Bool)) :
    (chain bits more).length = more.length + 1 := by
  induction more generalizing bits with
  | nil => rfl
  | cons next more ih => rw [chain, List.length_cons, ih, List.length_cons]

/-- The first present word says which fields of the table are present. -/
theorem testBit_head {field : RtField} (row : field ∈ rtFields) :
    ((chain header.present header.more).head?.getD 0).testBit field.bit =
      (header.value field.bit).isSome := by
  have low : ∀ field ∈ rtFields, field.bit < 15 := by decide
  have small := low field row
  have first : ∃ chained, (chain header.present header.more).head?.getD 0 =
      presentWord header.present chained := by
    cases header.more with
    | nil => exact ⟨false, rfl⟩
    | cons next more => exact ⟨true, rfl⟩
  obtain ⟨chained, first⟩ := first
  rw [first, testBit_presentWord _ _ (by omega), if_neg (by omega), present, if_pos small]

theorem length_encode : header.encode.length = 4 + header.body.length := by
  rw [encode, List.length_append, List.length_append, Foundation.length_little, List.length_cons,
    List.length_singleton]
  omega

/-- The body of a header is its present words and what is laid out behind them. -/
theorem length_body : header.body.length = 4 * (chain header.present header.more).length +
    ((header.layout rtFields (4 + 4 * (chain header.present header.more).length)).length +
      header.trailing.length) := by
  rw [body, List.length_append, List.length_append, length_words]

/-- The fixed part of a header that was built is sound, and declares its length. -/
theorem fixed_encode (fits : header.Fits) (frame : Octets) :
    declaredLen (header.encode ++ frame) = header.encode.length ∧
      (header.encode ++ frame).getD 0 0 = 0 ∧ 8 ≤ header.encode.length := by
  have size := header.length_encode
  refine ⟨?_, rfl, ?_⟩
  · have read : slice (header.encode ++ frame) 2 4 = little 2 (4 + header.body.length) := by
      have behind : (header.encode ++ frame).drop 2 =
          little 2 (4 + header.body.length) ++ (header.body ++ frame) := by
        rw [encode, List.append_assoc, List.append_assoc]
        rfl
      rw [slice, behind, List.take_left' (Foundation.length_little _ _)]
    have fit : 4 + header.body.length < 256 ^ 2 := fits.length
    rw [declaredLen, read, Foundation.ofLittle_little fit, size]
  · have words := header.length_body
    rw [length_chain] at words
    omega

end RtHeader

open RtHeader in
/-- Of a header that was built in front of a frame its length and the fields that are
kept are read. -/
theorem parseRadiotap_encode {header : RtHeader} (fits : header.Fits) (frame : Octets) :
    parseRadiotap (header.encode ++ frame) =
      some (some (header.encode.length, header.kept)) := by
  obtain ⟨declared, version, long⟩ := header.fixed_encode fits frame
  have size := header.length_encode
  have words := header.length_body
  have whole : header.encode.length ≤ (header.encode ++ frame).length := by
    rw [List.length_append]
    omega
  have sound : ¬ ((0 : UInt8) ≠ 0 ∨ header.encode.length < 8 ∨
      (header.encode ++ frame).length < header.encode.length) := by
    rintro (bad | bad | bad)
    · exact bad rfl
    · omega
    · omega
  have fixed : ([0, header.pad] ++ little 2 (4 + header.body.length)).length = 4 := by
    rw [List.length_append, Foundation.length_little]
    rfl
  have front : ([0, header.pad] ++ little 2 (4 + header.body.length) ++
      (chain header.present header.more).flatMap (little 4)).length =
        4 + 4 * (chain header.present header.more).length := by
    rw [List.length_append, fixed, length_words]
  have split : header.encode ++ frame = [0, header.pad] ++ little 2 (4 + header.body.length) ++
      ((chain header.present header.more).flatMap (little 4) ++
        (header.layout rtFields (4 + 4 * (chain header.present header.more).length) ++
          (header.trailing ++ frame))) := by
    rw [encode, body, length_words]
    simp only [List.append_assoc]
  have presents := presentsFrom_chain header.more header.present
    ([0, header.pad] ++ little 2 (4 + header.body.length))
    (header.layout rtFields (4 + 4 * (chain header.present header.more).length) ++
      (header.trailing ++ frame)) [] (by omega : _ ≤ header.encode.length)
  have fields := header.fieldsFrom_layout fits (List.Subset.refl _)
    (fun field row => header.testBit_head row)
    ([0, header.pad] ++ little 2 (4 + header.body.length) ++
      (chain header.present header.more).flatMap (little 4))
    (header.trailing ++ frame) .empty (by rw [front]; omega : _ ≤ header.encode.length)
  rw [fixed, List.nil_append] at presents
  rw [front, List.append_assoc] at fields
  rw [parseRadiotap_of_long (by omega), declared, version, if_neg sound, split, presents,
    Option.bind_some, fields, foldl_collect, Option.bind_some]

/-- What was laid out is read back. Of any octets a malformed fixed part is reported;
else nothing is raised, also when there is no more than the declared header. -/
theorem parseRadiotap_decodes :
    (∀ header : RtHeader, header.Fits → ∀ frame, parseRadiotap (header.encode ++ frame) =
        some (some (header.encode.length, header.kept))) ∧
      ∀ pkt, parseRadiotap pkt ≠ none ∧ (parseRadiotap pkt = some none ↔ Malformed pkt) ∧
        (¬ Malformed pkt → parseRadiotap (pkt.take (declaredLen pkt)) = parseRadiotap pkt) := by
  refine ⟨fun header fits frame => parseRadiotap_encode fits frame, fun pkt =>
    ⟨parseRadiotap_ne_none pkt, ⟨fun reported => ?_, parseRadiotap_of_malformed⟩,
      fun sound => ?_⟩⟩
  · by_contra sound
    obtain ⟨out, read, -⟩ := parseRadiotap_of_sound sound
    cases read.symm.trans reported
  · obtain ⟨out, here, there⟩ := parseRadiotap_of_sound sound
    exact there.trans here.symm

/-- A header with a second present word, an aligned channel field and octets behind its
fields. -/
def chainedHeader : RtHeader where
  pad := 0
  tsft := some 0x0102030405060708
  flags := some 0x10
  rssi := some (-42)
  others := fun bit => if bit = 3 then some [0x9a, 0x03, 0, 0] else none
  upper := fun _ => false
  more := [fun bit => bit == 5]
  filler := fun _ => 0xff
  trailing := [7, 7, 7]

theorem chainedHeader_fits : chainedHeader.Fits := ⟨by decide, by decide⟩

theorem chainedHeader_decodes :
    chainedHeader.Fits ∧ parseRadiotap (chainedHeader.encode ++ [0x1c, 0]) =
      some (some (34, ⟨some 0x0102030405060708, some 0x10, some (-42)⟩)) :=
  ⟨chainedHeader_fits, parseRadiotap_decodes.1 chainedHeader chainedHeader_fits [0x1c, 0]⟩

end Rimba.Capture
