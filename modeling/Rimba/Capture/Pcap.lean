import Rimba.Capture.Frame
import Rimba.Foundation.Framing
import Rimba.Foundation.Octets

/-! # Capture files

`read_pcap` reads a classic pcap file: a header that names the byte order and the
resolution of the timestamps by its magic, then records. It reads back every record of
a file that was written, and of a file that was cut behind its header the records that
were complete (`Rimba.Capture.readPcap_written`).
-/

namespace Rimba.Capture

open Foundation (Endian Framing)

/-- A packet as it is returned: its time in microseconds, its length on the air and the
octets that were captured. -/
structure Packet where
  ts : ℕ
  origlen : ℕ
  data : Octets
  deriving DecidableEq

/-- The byte order and `ts_div` of a magic. -/
def magicOf (magic : Octets) : Option (Endian × ℕ) :=
  if magic = [0xd4, 0xc3, 0xb2, 0xa1] then some (.little, 1)
  else if magic = [0xa1, 0xb2, 0xc3, 0xd4] then some (.big, 1)
  else if magic = [0x4d, 0x3c, 0xb2, 0xa1] then some (.little, 1000)
  else if magic = [0xa1, 0xb2, 0x3c, 0x4d] then some (.big, 1000)
  else none

/-- `struct.unpack_from(endian + "I", blob, off)[0]` -/
def wordAt (endian : Endian) (blob : Octets) (off : ℕ) : ℕ :=
  endian.number (slice blob off (off + 4))

/-- The packet at an offset. -/
def packetAt (endian : Endian) (tsDiv : ℕ) (blob : Octets) (off : ℕ) : Packet where
  ts := wordAt endian blob off * 1000000 + wordAt endian blob (off + 4) / tsDiv
  origlen := wordAt endian blob (off + 12)
  data := slice blob (off + 16) (off + 16 + wordAt endian blob (off + 8))

/-- The loop over the records. -/
def packetsFrom (endian : Endian) (tsDiv : ℕ) (blob : Octets) (pkts : List Packet) (off : ℕ) :
    List Packet :=
  if off + 16 ≤ blob.length then
    if blob.length < off + 16 + wordAt endian blob (off + 8) then pkts
    else
      packetsFrom endian tsDiv blob (pkts ++ [packetAt endian tsDiv blob off])
        (off + 16 + wordAt endian blob (off + 8))
  else pkts
termination_by blob.length - off

/-- `read_pcap`, with the text it exits with. -/
def readPcap (path : String) (blob : Octets) : Except String (ℕ × List Packet) :=
  if blob.length < 24 then .error (path ++ ": too short to be a pcap")
  else
    match magicOf (blob.take 4) with
    | none =>
        .error (path ++ ": not a classic pcap (magic " ++
          String.join ((blob.take 4).map hexOctet) ++ ") — pcapng is not supported")
    | some (endian, tsDiv) =>
        .ok (wordAt endian blob 20, packetsFrom endian tsDiv blob [] 24)

/-- A record. Four octets hold its times and lengths. -/
@[ext] structure Record where
  tsSec : UInt32
  tsFrac : UInt32
  origlen : UInt32
  data : Octets
  fits : data.length < UInt32.size
  deriving DecidableEq

/-- The times, the two lengths and the captured octets. -/
def Record.encode (endian : Endian) (record : Record) : Octets :=
  endian.octets 4 record.tsSec.toNat ++ (endian.octets 4 record.tsFrac.toNat ++
    (endian.octets 4 record.data.length ++ (endian.octets 4 record.origlen.toNat ++ record.data)))

/-- The resolution of timestamps. -/
inductive Resolution where
  | micro
  | nano
  deriving DecidableEq

/-- How many units of a resolution make up a microsecond. -/
def Resolution.perMicro : Resolution → ℕ
  | .micro => 1
  | .nano => 1000

/-- The magic number of a resolution. -/
def Resolution.magic : Resolution → ℕ
  | .micro => 0xa1b2c3d4
  | .nano => 0xa1b23c4d

/-- A record as it is to be returned. -/
def Record.packet (resolution : Resolution) (record : Record) : Packet where
  ts := record.tsSec.toNat * 1000000 + record.tsFrac.toNat / resolution.perMicro
  origlen := record.origlen.toNat
  data := record.data

/-- What a file starts with. Of the versions, the offset to UTC, the accuracy and the
length that is captured nothing is read. -/
structure PcapHeader where
  endian : Endian
  resolution : Resolution
  unread : Octets
  linktype : UInt32
  size : unread.length = 16

/-- The 24 octets of the header. -/
def PcapHeader.encode (header : PcapHeader) : Octets :=
  header.endian.octets 4 header.resolution.magic ++
    (header.unread ++ header.endian.octets 4 header.linktype.toNat)

variable (endian : Endian)

theorem length_slice_le (octets : Octets) (lo count : ℕ) :
    (slice octets lo (lo + count)).length ≤ count := by
  rw [slice, List.length_take]
  omega

theorem slice_join (octets : Octets) {lo mid hi : ℕ} (before : lo ≤ mid) (behind : mid ≤ hi) :
    slice octets lo mid ++ slice octets mid hi = slice octets lo hi := by
  have parts : hi - lo = (mid - lo) + (hi - mid) := by omega
  have start : lo + (mid - lo) = mid := by omega
  rw [slice, slice, slice, parts, List.take_add, List.drop_drop, start]

theorem wordAt_lt (blob : Octets) (off : ℕ) : wordAt endian blob off < UInt32.size := by
  have size := length_slice_le blob off 4
  exact Nat.lt_of_lt_of_le (endian.number_lt _) (Nat.pow_le_pow_right (by decide) size)

theorem wordAt_append {front behind : Octets} {n off : ℕ} (start : front.length = off)
    (fits : n < UInt32.size) :
    wordAt endian (front ++ (endian.octets 4 n ++ behind)) off = n := by
  have read : slice (front ++ (endian.octets 4 n ++ behind)) off (off + 4) = endian.octets 4 n :=
    slice_append start (by rw [Endian.length_octets])
  rw [wordAt, read, endian.number_octets fits]

theorem octets_wordAt {blob : Octets} {off : ℕ} (inside : off + 4 ≤ blob.length) :
    endian.octets 4 (wordAt endian blob off) = slice blob off (off + 4) := by
  refine endian.octets_number ?_
  rw [slice, List.length_take, List.length_drop]
  omega

/-- The complete record some octets start with. -/
def headRecord (octets : Octets) : Option Record :=
  if 16 + wordAt endian octets 8 ≤ octets.length then
    some
      { tsSec := UInt32.ofNat (wordAt endian octets 0)
        tsFrac := UInt32.ofNat (wordAt endian octets 4)
        origlen := UInt32.ofNat (wordAt endian octets 12)
        data := slice octets 16 (16 + wordAt endian octets 8)
        fits := Nat.lt_of_le_of_lt (length_slice_le _ _ _) (wordAt_lt endian octets 8) }
  else none

theorem length_encode_record (record : Record) :
    (record.encode endian).length = 16 + record.data.length := by
  simp only [Record.encode, List.length_append, Endian.length_octets]
  omega

/-- The fields of an encoded record are read back. -/
theorem wordAt_encode (record : Record) (rest : Octets) :
    wordAt endian (record.encode endian ++ rest) 0 = record.tsSec.toNat ∧
      wordAt endian (record.encode endian ++ rest) 4 = record.tsFrac.toNat ∧
      wordAt endian (record.encode endian ++ rest) 8 = record.data.length ∧
      wordAt endian (record.encode endian ++ rest) 12 = record.origlen.toNat ∧
      slice (record.encode endian ++ rest) 16 (16 + record.data.length) = record.data := by
  have four (n : ℕ) : (endian.octets 4 n).length = 4 := endian.length_octets 4 n
  simp only [Record.encode, List.append_assoc]
  generalize sec : endian.octets 4 record.tsSec.toNat = first
  generalize frac : endian.octets 4 record.tsFrac.toNat = second
  generalize len : endian.octets 4 record.data.length = third
  generalize orig : endian.octets 4 record.origlen.toNat = fourth
  have one : first.length = 4 := by rw [← sec, four]
  have two : (first ++ second).length = 8 := by rw [List.length_append, one, ← frac, four]
  have three : (first ++ (second ++ third)).length = 12 := by
    rw [← List.append_assoc, List.length_append, two, ← len, four]
  have all : (first ++ (second ++ (third ++ fourth))).length = 16 := by
    rw [← List.append_assoc second, ← List.append_assoc, List.length_append, three, ← orig, four]
  refine ⟨?_, ?_, ?_, ?_, ?_⟩
  · rw [← sec]
    exact wordAt_append endian (List.length_nil) record.tsSec.toNat_lt
  · rw [← frac]
    exact wordAt_append endian one record.tsFrac.toNat_lt
  · rw [← List.append_assoc, ← len]
    exact wordAt_append endian two record.fits
  · rw [← List.append_assoc second, ← List.append_assoc, ← orig]
    exact wordAt_append endian three record.origlen.toNat_lt
  · rw [← List.append_assoc third, ← List.append_assoc second, ← List.append_assoc]
    exact slice_append all rfl

theorem headRecord_encode (record : Record) (rest : Octets) :
    headRecord endian (record.encode endian ++ rest) = some record := by
  obtain ⟨sec, frac, len, orig, data⟩ := wordAt_encode endian record rest
  have whole : 16 + wordAt endian (record.encode endian ++ rest) 8 ≤
      (record.encode endian ++ rest).length := by
    rw [len, List.length_append, length_encode_record]
    omega
  rw [headRecord, if_pos whole]
  refine congrArg some (Record.ext ?_ ?_ ?_ ?_)
  · exact (congrArg UInt32.ofNat sec).trans (UInt32.ofNat_toNat)
  · exact (congrArg UInt32.ofNat frac).trans (UInt32.ofNat_toNat)
  · exact (congrArg UInt32.ofNat orig).trans (UInt32.ofNat_toNat)
  · exact (congrArg (fun count => slice _ 16 (16 + count)) len).trans data

theorem encode_of_headRecord {octets : Octets} {record : Record}
    (read : headRecord endian octets = some record) : record.encode endian <+: octets := by
  rw [headRecord] at read
  split at read
  case isFalse => cases read
  case isTrue whole =>
      cases read
      have word (off : ℕ) : (UInt32.ofNat (wordAt endian octets off)).toNat =
          wordAt endian octets off := UInt32.toNat_ofNat_of_lt' (wordAt_lt endian octets off)
      have size : (slice octets 16 (16 + wordAt endian octets 8)).length =
          wordAt endian octets 8 := by
        rw [slice, List.length_take, List.length_drop]
        omega
      simp only [Record.encode, word, size]
      rw [octets_wordAt endian (by omega : 0 + 4 ≤ octets.length),
        octets_wordAt endian (by omega : 4 + 4 ≤ octets.length),
        octets_wordAt endian (by omega : 8 + 4 ≤ octets.length),
        octets_wordAt endian (by omega : 12 + 4 ≤ octets.length),
        slice_join octets (by omega) (by omega), slice_join octets (by omega) (by omega),
        slice_join octets (by omega) (by omega), slice_join octets (by omega) (by omega)]
      exact ⟨_, List.take_append_drop _ _⟩

/-- Records end by themselves. -/
def records : Framing UInt8 Record where
  encode := Record.encode endian
  head := headRecord endian
  encode_ne_nil record empty := by
    have size := length_encode_record endian record
    rw [empty, List.length_nil] at size
    omega
  head_encode := headRecord_encode endian
  encode_of_head := encode_of_headRecord endian

theorem slice_drop (octets : Octets) (off lo hi : ℕ) :
    slice (octets.drop off) lo hi = slice octets (off + lo) (off + hi) := by
  rw [slice, slice, List.drop_drop, Nat.add_sub_add_left]

theorem wordAt_drop (blob : Octets) (off lo : ℕ) :
    wordAt endian (blob.drop off) lo = wordAt endian blob (off + lo) := by
  rw [wordAt, wordAt, slice_drop, Nat.add_assoc]

/-- There is no record where the octets behind are too few for one. -/
theorem headRecord_drop_of_cut {blob : Octets} {off : ℕ}
    (cut : blob.length < off + 16 + wordAt endian blob (off + 8)) :
    headRecord endian (blob.drop off) = none := by
  have short : ¬ 16 + wordAt endian (blob.drop off) 8 ≤ (blob.drop off).length := by
    rw [wordAt_drop, List.length_drop]
    omega
  rw [headRecord, if_neg short]

/-- Else it is the packet the reader takes. -/
theorem headRecord_drop {blob : Octets} {off : ℕ} (resolution : Resolution)
    (whole : ¬ blob.length < off + 16 + wordAt endian blob (off + 8)) :
    ∃ record, headRecord endian (blob.drop off) = some record ∧
      record.packet resolution = packetAt endian resolution.perMicro blob off ∧
      (record.encode endian).length = 16 + wordAt endian blob (off + 8) := by
  have word (lo : ℕ) : (UInt32.ofNat (wordAt endian (blob.drop off) lo)).toNat =
      wordAt endian blob (off + lo) := by
    rw [UInt32.toNat_ofNat_of_lt' (wordAt_lt endian _ lo), wordAt_drop]
  have data : slice (blob.drop off) 16 (16 + wordAt endian (blob.drop off) 8) =
      slice blob (off + 16) (off + 16 + wordAt endian blob (off + 8)) := by
    rw [slice_drop, wordAt_drop, Nat.add_assoc]
  have inside : 16 + wordAt endian (blob.drop off) 8 ≤ (blob.drop off).length := by
    rw [wordAt_drop, List.length_drop]
    omega
  refine ⟨_, by rw [headRecord, if_pos inside], ?_, ?_⟩
  · simp only [Record.packet, packetAt, word, data, Nat.add_zero]
  · simp only [length_encode_record, data]
    rw [slice, List.length_take, List.length_drop]
    omega

/-- Behind the packets it has, the reader takes those of the records in front. -/
theorem packetsFrom_eq (resolution : Resolution) (blob : Octets) {taken : List Record}
    {rest : Octets} (pkts : List Packet) (off : ℕ)
    (parses : (records endian).Parses (blob.drop off) taken rest) :
    packetsFrom endian resolution.perMicro blob pkts off =
      pkts ++ taken.map (Record.packet resolution) := by
  fun_induction packetsFrom endian resolution.perMicro blob pkts off generalizing taken with
  | case1 pkts off room cut =>
      obtain rfl := parses.of_stuck (headRecord_drop_of_cut endian cut)
      rw [List.map_nil, List.append_nil]
  | case2 pkts off room whole ih =>
      obtain ⟨record, read, packet, size⟩ := headRecord_drop endian resolution whole
      obtain ⟨later, rfl, tail⟩ := parses.of_head read
      have onward : (blob.drop off).drop ((records endian).encode record).length =
          blob.drop (off + 16 + wordAt endian blob (off + 8)) := by
        have count : ((records endian).encode record).length =
            16 + wordAt endian blob (off + 8) := size
        rw [count, List.drop_drop, Nat.add_assoc]
      rw [onward] at tail
      rw [ih tail, List.map_cons, packet, List.append_assoc, List.singleton_append]
  | case3 pkts off short =>
      obtain rfl := parses.of_stuck (headRecord_drop_of_cut endian (by omega))
      rw [List.map_nil, List.append_nil]

/-- A file with a header and records. -/
def writePcap (header : PcapHeader) (recs : List Record) : Octets :=
  header.encode ++ (records header.endian).encodeAll recs

namespace PcapHeader

variable (header : PcapHeader)

theorem length_encode : header.encode.length = 24 := by
  simp only [encode, List.length_append, Endian.length_octets, header.size]

theorem take_encode (behind : Octets) :
    (header.encode ++ behind).take 4 = header.endian.octets 4 header.resolution.magic := by
  rw [encode, List.append_assoc]
  exact List.take_left' (header.endian.length_octets _ _)

/-- The magic names the byte order and the resolution. -/
theorem magicOf_octets : magicOf (header.endian.octets 4 header.resolution.magic) =
    some (header.endian, header.resolution.perMicro) := by
  cases header.endian <;> cases header.resolution <;> decide

theorem wordAt_linktype (behind : Octets) :
    wordAt header.endian (header.encode ++ behind) 20 = header.linktype.toNat := by
  have front : (header.endian.octets 4 header.resolution.magic ++ header.unread).length = 20 := by
    rw [List.length_append, Endian.length_octets, header.size]
  rw [encode, ← List.append_assoc, List.append_assoc]
  exact wordAt_append header.endian front header.linktype.toNat_lt

/-- What is read of the records behind a header. -/
theorem readPcap_eq (path : String) {behind rest : Octets} {recs : List Record}
    (parses : (records header.endian).Parses behind recs rest) :
    readPcap path (header.encode ++ behind) =
      .ok (header.linktype.toNat, recs.map (Record.packet header.resolution)) := by
  have long : ¬ (header.encode ++ behind).length < 24 := by
    rw [List.length_append, length_encode]
    omega
  have start : (header.encode ++ behind).drop 24 = behind :=
    List.drop_left' header.length_encode
  rw [← start] at parses
  have packets := packetsFrom_eq header.endian header.resolution (header.encode ++ behind) [] 24
    parses
  rw [readPcap, if_neg long, take_encode, magicOf_octets]
  simp only [wordAt_linktype, packets, List.nil_append]

end PcapHeader

/-- A file that was written is read back, with every record. Of a file that was cut
behind its header the records are read that end before the cut. -/
theorem readPcap_written (path : String) (header : PcapHeader) (recs : List Record) :
    readPcap path (writePcap header recs) =
        .ok (header.linktype.toNat, recs.map (Record.packet header.resolution)) ∧
      ∀ cut, 24 ≤ cut → ∃ complete, complete <+: recs ∧
        (∀ index < recs.length, index < complete.length ↔
          (writePcap header (recs.take (index + 1))).length ≤ cut) ∧
        readPcap path ((writePcap header recs).take cut) =
          .ok (header.linktype.toNat, complete.map (Record.packet header.resolution)) := by
  constructor
  · exact header.readPcap_eq path (.encoded recs)
  · intro cut behind
    have split : ∃ rest, (records header.endian).Parses
        (((records header.endian).encodeAll recs).take (cut - 24))
        ((records header.endian).fitting recs (cut - 24)) rest :=
      Framing.Parses.take recs (cut - 24)
    obtain ⟨rest, parses⟩ := split
    refine ⟨(records header.endian).fitting recs (cut - 24),
      Framing.fitting_front recs (cut - 24), ?_, ?_⟩
    · intro index inside
      rw [Framing.lt_length_fitting inside, writePcap, List.length_append,
        header.length_encode]
      omega
    · have kept : header.encode.length ≤ cut := header.length_encode.le.trans behind
      rw [writePcap, List.take_append, List.take_of_length_le kept, header.length_encode]
      exact header.readPcap_eq path parses

/-- The header of a file in nanoseconds, the most significant octet first. -/
def nanoHeader : PcapHeader := ⟨.big, .nano, List.replicate 16 0, 127, rfl⟩

/-- Two records, the second of them empty. -/
def twoRecords : List Record := [⟨1, 2999, 60, [7, 8], by decide⟩, ⟨2, 0, 0, [], by decide⟩]

theorem twoRecords_cut :
    24 ≤ 50 ∧ ∃ complete, complete <+: twoRecords ∧
      (∀ index < 2, index < complete.length ↔
        (writePcap nanoHeader (twoRecords.take (index + 1))).length ≤ 50) ∧
      readPcap "a.pcap" ((writePcap nanoHeader twoRecords).take 50) =
        .ok (127, complete.map (Record.packet .nano)) :=
  ⟨by decide, (readPcap_written "a.pcap" nanoHeader twoRecords).2 50 (by decide)⟩

end Rimba.Capture
