import Rimba.Gate.Identity
import Rimba.Regtest.Manifest

/-! # The harness and the firmware on a board's identity

`manifest.py` derives the mesh address and the static IP of a board from the text of
its efuse address, the firmware from the octets. On an accepted bench the two agree for
every board whose address has the group bit clear, and only then
(`Rimba.Regtest.identity_agrees`): the firmware clears the bit and the harness leaves it.
The IPs agree, and are distinct, in any case.
-/

namespace Rimba.Regtest

open Foundation
open Rimba.Gate (Mac byteAt macText splitOn_macText macText_injective setFirst byteAt_setFirst)

/-- Two digits, of either case. -/
def HexPair (piece : List Char) : Prop :=
  ∃ c d, piece = [c, d] ∧ (hexValue c).isSome ∧ (hexValue d).isSome

/-- What the expression matches is digits in pairs with colons between, and at most a
line break behind. -/
theorem macOctets_pieces {n : ℕ} {text : List Char} (matched : macOctets n text = true) :
    ∃ pieces rest, pieces.length = n + 1 ∧ text = [':'].intercalate pieces ++ rest ∧
      (rest = [] ∨ rest = ['\n']) ∧ ∀ piece ∈ pieces, HexPair piece := by
  fun_induction macOctets n text with
  | case1 c d rest =>
      simp only [Bool.and_eq_true, Bool.or_eq_true, decide_eq_true_eq] at matched
      obtain ⟨⟨first, second⟩, ends⟩ := matched
      refine ⟨[[c, d]], rest, rfl, ?_, ends, ?_⟩
      · rw [List.intercalate_singleton]
        rfl
      · exact List.forall_mem_singleton.mpr ⟨c, d, rfl, first, second⟩
  | case2 n c d colon rest ih =>
      simp only [Bool.and_eq_true, decide_eq_true_eq] at matched
      obtain ⟨⟨⟨first, second⟩, rfl⟩, later⟩ := matched
      obtain ⟨pieces, ends, length, rfl, ended, digits⟩ := ih later
      have some : pieces ≠ [] := List.ne_nil_of_length_eq_add_one length
      refine ⟨[c, d] :: pieces, ends, congrArg (· + 1) length, ?_, ended, ?_⟩
      · rw [List.intercalate_cons_of_ne_nil some]
        rfl
      · exact List.forall_mem_cons.mpr ⟨⟨c, d, rfl, first, second⟩, digits⟩
  | case3 => cases matched

/-- Pairs of digits are those of octets. -/
theorem exists_octets {pieces : List (List Char)} (pairs : ∀ piece ∈ pieces, HexPair piece) :
    ∃ octets : List UInt8, pieces.map (List.map Char.toLower) = octets.map octetText ∧
      pieces.map intHex = octets.map fun octet => some (octet.toNat : ℤ) := by
  induction pieces with
  | nil => exact ⟨[], rfl, rfl⟩
  | cons piece pieces ih =>
      obtain ⟨⟨c, d, rfl, first, second⟩, later⟩ := List.forall_mem_cons.mp pairs
      obtain ⟨octet, lower, read⟩ := exists_octet first second
      obtain ⟨octets, lowers, reads⟩ := ih later
      exact ⟨octet :: octets, congrArg₂ List.cons lower lowers, congrArg₂ List.cons read reads⟩

theorem HexPair.plain {piece : List Char} (pair : HexPair piece) :
    ∀ c ∈ piece, isSpace c = false ∧ c ≠ ':' := by
  obtain ⟨c, d, rfl, first, second⟩ := pair
  obtain ⟨high, first⟩ := Option.isSome_iff_exists.mp first
  obtain ⟨low, second⟩ := Option.isSome_iff_exists.mp second
  intro digit member
  rcases List.mem_pair.mp member with rfl | rfl
  · exact hexDigit_solid _ (mem_hexAlphabet first)
  · exact hexDigit_solid _ (mem_hexAlphabet second)

/-- A text that spells an address, in digits of either case. -/
structure Spells (text : List Char) (mac : Mac) : Prop where
  lower : text.map Char.toLower = macText mac
  read : (text.splitOn ':').map intHex = mac.toList.map fun octet => some (octet.toNat : ℤ)
  solid : ∀ c ∈ text, isSpace c = false

/-- Without white space around it, what the expression matches spells an address. -/
theorem spells_of_macRe {text : List Char} (matched : macRe (strip text) = true) :
    ∃ mac, Spells (strip text) mac := by
  obtain ⟨pieces, rest, length, whole, ends, pairs⟩ := macOctets_pieces matched
  have nothing : rest = [] := by
    rcases ends with nothing | rfl
    · exact nothing
    · exact absurd whole (strip_ne_append rfl)
  rw [nothing, List.append_nil] at whole
  have apart : (strip text).splitOn ':' = pieces := by
    rw [whole]
    apply List.splitOn_intercalate
    · intro piece member colon
      exact ((pairs piece member).plain _ colon).2 rfl
    · exact List.ne_nil_of_length_eq_add_one length
  obtain ⟨octets, lowers, reads⟩ := exists_octets pairs
  have size : octets.toArray.size = 6 := by
    rw [List.size_toArray, ← List.length_map octetText, ← lowers, List.length_map, length]
  refine ⟨⟨octets.toArray, size⟩, ?_, ?_, ?_⟩
  · rw [whole, map_intercalate, lowers]
    rfl
  · rw [apart, reads]
    rfl
  · rw [whole]
    exact forall_mem_intercalate (List.forall_mem_singleton.mpr rfl) fun piece member c inside =>
      ((pairs piece member).plain c inside).1

variable {text : List Char} {mac : Mac}

/-- `_mesh_mac` sets the second bit of the first octet, and clears none. -/
theorem meshMac_of_spells (spells : Spells text mac) :
    meshMac text = macText (setFirst mac (byteAt mac.toList 0 ||| 0x02)) := by
  have length : (mac.toList.map octetText).length = 6 := by
    rw [List.length_map, Vector.length_toList]
  have first : (mac.toList.map octetText).getD 0 [] = octetText (byteAt mac.toList 0) := by
    rw [List.getD_eq_getElem?_getD, Gate.getElem?_octets octetText mac (Nat.zero_lt_succ 5),
      Option.getD_some]
  have octet : hexText (Int.lor (byteAt mac.toList 0).toNat 0x02) =
      octetText (byteAt mac.toList 0 ||| 0x02) := by
    rw [← hexText_octet, UInt8.toNat_or]
    rfl
  simp only [meshMac, strip_of_solid spells.solid, spells.lower, splitOn_macText, length, ne_eq,
    not_true_eq_false, ↓reduceIte, first, intHex_octetText, octet]
  rw [macText, Gate.toList_setFirst, List.map_set]

/-- `_mesh_ip` derives what the firmware does. -/
theorem meshIp_of_spells (spells : Spells text mac) : meshIp text = Gate.meshIp mac := by
  have length := congrArg List.length spells.read
  rw [List.length_map, List.length_map, Vector.length_toList] at length
  have inside : 5 < (text.splitOn ':').length := by omega
  have sixth : intHex ((text.splitOn ':').getD 5 []) = some ((byteAt mac.toList 5).toNat : ℤ) := by
    have read := congrArg (fun values => values[5]?) spells.read
    simp only [List.getElem?_map, List.getElem?_eq_getElem inside, Option.map_some,
      Gate.getElem?_octets _ mac (Nat.lt_succ_self 5)] at read
    rw [List.getD_eq_getElem _ _ inside]
    exact Option.some.inj read
  have host : (100 + Int.land (byteAt mac.toList 5).toNat 0x3f).toNat = Gate.meshHost mac := by
    rw [Gate.meshHost, UInt8.toNat_and]
    rfl
  simp only [meshIp, strip_of_solid spells.solid, length, ne_eq, not_true_eq_false, ↓reduceIte,
    sixth]
  exact congrArg Gate.subnetText host

/-- The harness and the firmware agree on a bench: three boards with an address and an
IP of their own each, which are those the firmware derives from the address in the
efuse. -/
structure Agrees (bench : List BenchBoard) (efuse : Board → Mac) : Prop where
  boards : bench.map BenchBoard.name = [.board0, .board1, .board2]
  macs : (bench.map BenchBoard.meshMac).Nodup
  ips : (bench.map BenchBoard.meshIp).Nodup
  range : ∀ board ∈ bench, ∃ host, 100 ≤ host ∧ host ≤ 163 ∧ board.meshIp = Gate.subnetText host
  mac : ∀ board ∈ bench, board.meshMac = macText (Gate.meshMac (efuse board.name))
  ip : ∀ board ∈ bench, board.meshIp = Gate.meshIp (Gate.meshMac (efuse board.name))

/-- What `esp_read_mac` returns on each board is the address the bench has for it, in
lower case. -/
def ReadsEfuse (bench : List BenchBoard) (efuse : Board → Mac) : Prop :=
  ∀ board ∈ bench, macText (efuse board.name) = board.efuseMac.map Char.toLower

variable {env : Environment} {bench : List BenchBoard} {efuse : Board → Mac}

/-- Each address of an accepted bench spells one. -/
theorem exists_spells (accepted : requireBench env = .ok bench) {board : BenchBoard}
    (member : board ∈ bench) : ∃ mac, Spells board.efuseMac mac := by
  obtain ⟨built, _, matched, _⟩ := requireBench_sound accepted
  have found := matched board member
  rw [built] at member
  obtain ⟨name, _, rfl⟩ := List.mem_map.mp member
  change macRe (strip (strip _)) = true at found
  rw [strip_strip] at found
  exact spells_of_macRe found

/-- It is the address in the efuse. -/
theorem spells_of_accepted (accepted : requireBench env = .ok bench)
    (read : ReadsEfuse bench efuse) {board : BenchBoard} (member : board ∈ bench) :
    Spells board.efuseMac (efuse board.name) := by
  obtain ⟨mac, spells⟩ := exists_spells accepted member
  have same : efuse board.name = mac :=
    macText_injective ((read board member).trans spells.lower)
  rwa [same]

/-- There are boards with the addresses of an accepted bench. -/
theorem exists_readsEfuse (accepted : requireBench env = .ok bench) :
    ∃ efuse, ReadsEfuse bench efuse := by
  have built := (requireBench_ok accepted).1
  have entry (name : Board) : benchBoard env name ∈ bench := by
    rw [built]
    apply List.mem_map_of_mem
    cases name <;> decide
  choose efuse spells using fun name => exists_spells accepted (entry name)
  refine ⟨efuse, ?_⟩
  intro board member
  rw [built] at member
  obtain ⟨name, _, rfl⟩ := List.mem_map.mp member
  exact (spells name).lower.symm

/-- What an accepted bench has for a board, from what is in its efuse. -/
theorem derived_of_accepted (accepted : requireBench env = .ok bench)
    (read : ReadsEfuse bench efuse) {board : BenchBoard} (member : board ∈ bench) :
    board.meshMac = macText (setFirst (efuse board.name)
      (byteAt (efuse board.name).toList 0 ||| 0x02)) ∧
      board.meshIp = Gate.meshIp (efuse board.name) := by
  have spells := spells_of_accepted accepted read member
  rw [(requireBench_ok accepted).1] at member
  obtain ⟨name, _, rfl⟩ := List.mem_map.mp member
  obtain ⟨mac, ip⟩ := benchBoard_derived env name
  rw [mac, ip]
  exact ⟨meshMac_of_spells spells, meshIp_of_spells spells⟩

/-- The IP depends on the last octet only. -/
theorem meshIp_setFirst (mac : Mac) (first : UInt8) :
    Gate.meshIp (setFirst mac first) = Gate.meshIp mac := by
  rw [Gate.meshIp, Gate.meshHost, Gate.byteAt_setFirst_later (Nat.zero_lt_succ 4)]
  rfl

/-- The two octets are one when the group bit is clear. -/
theorem localOctet_iff (octet : UInt8) :
    octet ||| 0x02 = (octet ||| 0x02) &&& 0xFE ↔ octet &&& 0x01 = 0 := by
  have all : ∀ n < 256, UInt8.ofNat n ||| 0x02 = (UInt8.ofNat n ||| 0x02) &&& 0xFE ↔
      UInt8.ofNat n &&& 0x01 = 0 := by decide +kernel
  have here := all octet.toNat octet.toNat_lt
  rwa [UInt8.ofNat_toNat] at here

/-- The harness derives what the firmware does when the group bit is clear. -/
theorem meshMac_agrees_iff (mac : Mac) :
    macText (setFirst mac (byteAt mac.toList 0 ||| 0x02)) = macText (Gate.meshMac mac) ↔
      byteAt mac.toList 0 &&& 0x01 = 0 := by
  rw [macText_injective.eq_iff, ← localOctet_iff, Gate.meshMac]
  constructor
  · intro same
    have first := congrArg (fun mac : Mac => byteAt mac.toList 0) same
    rwa [byteAt_setFirst, byteAt_setFirst] at first
  · intro same
    rw [← same]

/-- The IPs of an accepted bench are distinct. -/
theorem nodup_meshIp (accepted : requireBench env = .ok bench) (read : ReadsEfuse bench efuse) :
    (bench.map BenchBoard.meshIp).Nodup := by
  have distinct := (requireBench_sound accepted).2.2.2
  have whole : (bench.filter fun board => board.meshIp ≠ []) = bench := by
    rw [List.filter_eq_self]
    intro board member
    rw [(derived_of_accepted accepted read member).2]
    rfl
  rwa [whole] at distinct

/-- Two addresses of an accepted bench are distinct in the last octet. -/
theorem nodup_meshMac (accepted : requireBench env = .ok bench) (read : ReadsEfuse bench efuse) :
    (bench.map BenchBoard.meshMac).Nodup := by
  have distinct := nodup_meshIp accepted read
  apply (List.nodup_map_iff_inj_on distinct.of_map).mpr
  intro board member other inside same
  obtain ⟨mac, ip⟩ := derived_of_accepted accepted read member
  obtain ⟨otherMac, otherIp⟩ := derived_of_accepted accepted read inside
  rw [mac, otherMac] at same
  have sameIp := congrArg Gate.meshIp (macText_injective same)
  rw [meshIp_setFirst, meshIp_setFirst, ← ip, ← otherIp] at sameIp
  exact List.inj_on_of_nodup_map distinct member inside sameIp

/-- **Identity.** For a bench that is accepted the harness and the firmware agree on
every board just when no address has the group bit set: the firmware clears it, and
the harness does not. -/
theorem identity_agrees (accepted : requireBench env = .ok bench)
    (read : ReadsEfuse bench efuse) :
    Agrees bench efuse ↔
      ∀ board ∈ bench, byteAt (efuse board.name).toList 0 &&& 0x01 = 0 := by
  constructor
  · intro agrees board member
    have derived := (derived_of_accepted accepted read member).1
    exact (meshMac_agrees_iff _).mp (derived.symm.trans (agrees.mac board member))
  · intro clear
    refine ⟨?_, nodup_meshMac accepted read, nodup_meshIp accepted read, ?_, ?_, ?_⟩
    · rw [(requireBench_ok accepted).1]
      rfl
    · intro board member
      obtain ⟨low, high⟩ := Gate.meshHost_range (efuse board.name)
      exact ⟨_, low, high, (derived_of_accepted accepted read member).2⟩
    · intro board member
      rw [(derived_of_accepted accepted read member).1]
      exact (meshMac_agrees_iff _).mpr (clear board member)
    · intro board member
      rw [(derived_of_accepted accepted read member).2]
      exact (meshIp_setFirst _ _).symm

/-- A bench whose first address starts with an octet. -/
def benchFrom (first : String) : Environment := fun name =>
  if name = "BENCH_BOARD" then some "proto1-fgh100m".toList
  else if name = "BOARD0_MAC" then some (first ++ ":72:a1:f8:ef:a4").toList
  else if name = "BOARD1_MAC" then some "e0:72:a1:f8:f9:40".toList
  else if name = "BOARD2_MAC" then some "E0:72:A1:F8:F0:08".toList
  else if name = "WIRED_BOARD" then some "board2".toList
  else none

/-- The efuses of its boards. -/
def efuseFrom (first : UInt8) : Board → Mac
  | .board0 => #v[first, 0x72, 0xa1, 0xf8, 0xef, 0xa4]
  | .board1 => #v[0xe0, 0x72, 0xa1, 0xf8, 0xf9, 0x40]
  | .board2 => #v[0xe0, 0x72, 0xa1, 0xf8, 0xf0, 0x08]

theorem identity_agrees_unicast :
    Agrees (buildBench (benchFrom "e0")) (efuseFrom 0xe0) := by
  have accepted : requireBench (benchFrom "e0") = .ok (buildBench (benchFrom "e0")) :=
    requireBench_of_clean (by decide +kernel) (by decide +kernel)
  have read : ReadsEfuse (buildBench (benchFrom "e0")) (efuseFrom 0xe0) := by
    unfold ReadsEfuse
    decide +kernel
  exact (identity_agrees accepted read).mpr (by decide +kernel)

/-- A bench with the group bit set in an address is accepted, and the harness expects
a mesh address the board never has. -/
theorem groupBit_accepted :
    requireBench (benchFrom "e1") = .ok (buildBench (benchFrom "e1")) ∧
      ReadsEfuse (buildBench (benchFrom "e1")) (efuseFrom 0xe1) ∧
      ¬ Agrees (buildBench (benchFrom "e1")) (efuseFrom 0xe1) := by
  refine ⟨requireBench_of_clean (by decide +kernel) (by decide +kernel), ?_, ?_⟩
  · unfold ReadsEfuse
    decide +kernel
  · intro agrees
    have expected := agrees.mac (benchBoard (benchFrom "e1") .board0) (by decide +kernel)
    revert expected
    decide +kernel

end Rimba.Regtest
