import Rimba.Foundation.ScanText
import Rimba.Gate.Identity
import Rimba.Regtest.FlashCache

/-! # The roles of a forced line

The multi-hop fixtures are one binary for three boards. Each board compares its own
mesh address with the three the binary was built with, and takes the part of the one
that is its own; an allowlist of peers, set from the same addresses, leaves no link
between the two ends. The addresses are build arguments, scanned from their text
(`Rimba.Line.parseMac_macText`). With three different addresses the boards that have
them take the three parts, and two of them accept each other exactly when one is the
relay (`Rimba.Line.LineMacs.forms_iff`).
-/

namespace Rimba.Line

open Foundation
open Rimba.Gate (Mac Bytes byteAt macText)
open Rimba.Regtest (MakeVars)

/-- `parse_mac`: a text that does not spell six numbers leaves `out` as it is. -/
def parseMac (s : List Char) (out : Mac) : Mac :=
  match scanFields 6 s with
  | some v => Vector.ofFn fun i => (v.getD i 0).toUInt8
  | none => out

/-- `mesh_ip_of` -/
def meshIpOf (mac : Mac) : List Char :=
  Gate.subnetText (100 + (byteAt mac.toList 5 &&& 0x3f).toNat)

/-- An address is parsed as it was written. -/
theorem parseMac_macText (mac out : Mac) : parseMac (macText mac) out = mac := by
  have ends : ∀ c ∈ ([] : List Char).head?, hexValue c = none := fun c none =>
    absurd none (Option.not_mem_none c)
  have scanned := scanFields_octets mac.toList ends
  rw [Vector.length_toList, List.append_nil] at scanned
  rw [parseMac, macText, scanned]
  refine Vector.ext fun i inside => ?_
  have within : i < (mac.toList.map UInt8.toUInt32).length := by
    rwa [List.length_map, Vector.length_toList]
  simp only [Vector.getElem_ofFn, List.getD_eq_getElem _ _ within, List.getElem_map,
    Vector.getElem_toList, UInt8.toUInt8_toUInt32]

/-- The addresses of a line: `MAC_ORIGIN`, `MAC_DEST` and `MAC_RELAY`. -/
structure LineMacs where
  origin : Mac
  dest : Mac
  relay : Mac

/-- Where a board stands in the line. -/
inductive LineRole where
  | origin
  | dest
  | relay
  deriving DecidableEq, Repr

/-- The make variable of a role, `IDF_EXTRA_D` passes it on as `TEST_` and its name. -/
def LineRole.macVar : LineRole → String
  | .origin => "MESH_ORIGIN_MAC"
  | .dest => "MESH_DEST_MAC"
  | .relay => "MESH_RELAY_MAC"

/-- The address of a role. -/
def LineMacs.mac (macs : LineMacs) : LineRole → Mac
  | .origin => macs.origin
  | .dest => macs.dest
  | .relay => macs.relay

/-- Addresses that agree in each role are the same. -/
theorem LineMacs.eq_of_mac {macs other : LineMacs}
    (same : ∀ role, macs.mac role = other.mac role) : macs = other := by
  cases macs
  cases other
  exact LineMacs.mk.injEq .. |>.mpr ⟨same .origin, same .dest, same .relay⟩

/-- The value a macro is compiled with: that of the build when it has one, which
`$(if $(…))` and `if(DEFINED …)` let through, and the `#ifndef` default else. -/
def macroText (vars : MakeVars) (name default : String) : String :=
  match vars.lookup name with
  | some value => if value = "" then default else value
  | none => default

/-- The addresses a binary parses at its start, with its defaults. -/
def lineMacs (defaults : LineRole → String) (vars : MakeVars) : LineMacs :=
  let mac role := parseMac (macroText vars (LineRole.macVar role) (defaults role)).toList
    (Vector.replicate 6 0)
  ⟨mac .origin, mac .dest, mac .relay⟩

theorem lineMacs_mac (defaults : LineRole → String) (vars : MakeVars) (role : LineRole) :
    (lineMacs defaults vars).mac role = parseMac
      (macroText vars role.macVar (defaults role)).toList (Vector.replicate 6 0) := by
  cases role <;> rfl

theorem macText_ne_nil (mac : Mac) : macText mac ≠ [] := by
  intro nothing
  have pieces := congrArg List.length (Gate.splitOn_macText mac)
  rw [nothing, List.length_map, Vector.length_toList] at pieces
  cases pieces

/-- An address the build was given is the one the binary has. -/
theorem lineMacs_of_lookup {defaults : LineRole → String} {vars : MakeVars} {role : LineRole}
    {mac : Mac} (given : vars.lookup role.macVar = some (String.ofList (macText mac))) :
    (lineMacs defaults vars).mac role = mac := by
  have written : String.ofList (macText mac) ≠ "" := fun nothing =>
    macText_ne_nil mac (String.ofList_injective nothing)
  rw [lineMacs_mac, macroText, given]
  dsimp only
  rw [if_neg written, String.toList_ofList, parseMac_macText]

namespace LineMacs

variable (macs : LineMacs) (own : Mac)

/-- `is_origin`, and `is_node` of the gate's line -/
def isOrigin : Bool := own = macs.origin

/-- `is_relay` -/
def isRelay : Bool := own = macs.relay

/-- `is_dest`, and `is_gate` of the gate's line -/
def isDest : Bool := own = macs.dest

/-- The peers a board accepts, set before its mesh starts. -/
def allowlist : List Mac :=
  if macs.isRelay own then [macs.origin, macs.dest]
  else if macs.isOrigin own then [macs.relay]
  else [macs.relay]

end LineMacs

/-- The fixtures that force a line. -/
inductive Fixture where
  | relay
  | largeFrame
  | leaf
  | relayNocrash
  | gateRelay
  deriving DecidableEq, Repr

/-- The app of a fixture. -/
def Fixture.app : Fixture → String
  | .relay => "test-mesh-relay"
  | .largeFrame => "test-mesh-large-frame"
  | .leaf => "test-mesh-leaf"
  | .relayNocrash => "test-mesh-relay-nocrash"
  | .gateRelay => "test-mesh-gate-relay"

/-- The `#ifndef` defaults of a fixture's addresses. -/
def Fixture.defaults (fixture : Fixture) (role : LineRole) : String :=
  match fixture, role with
  | .gateRelay, .relay => "e2:72:a1:f8:f9:40"
  | .gateRelay, .dest => "e2:72:a1:f8:f0:08"
  | _, .origin => "e2:72:a1:f8:ef:a4"
  | _, .dest => "e2:72:a1:f8:f9:40"
  | _, .relay => "e2:72:a1:f8:f0:08"

/-- The part `app_main` of a fixture takes on a board; in the gate's line a board with
another address has none. -/
def Fixture.part (fixture : Fixture) (macs : LineMacs) (own : Mac) : Option LineRole :=
  match fixture with
  | .relay | .largeFrame | .leaf =>
      some (if macs.isOrigin own then .origin else if macs.isRelay own then .relay else .dest)
  | .relayNocrash =>
      some (if macs.isRelay own then .relay else if macs.isDest own then .dest else .origin)
  | .gateRelay =>
      if macs.isOrigin own then some .origin
      else if macs.isRelay own then some .relay
      else if macs.isDest own then some .dest
      else none

/-- The part whose board reports the verdict. -/
def Fixture.reporter : Fixture → LineRole
  | .relay | .largeFrame | .leaf => .origin
  | .relayNocrash => .relay
  | .gateRelay => .dest

/-- The relay of the leaf fixture calls `mmwlan_mesh_set_multihop(false)`. -/
def Fixture.multihop (fixture : Fixture) (role : LineRole) : Bool :=
  !(fixture = .leaf && role = .relay)

namespace LineMacs

variable {macs : LineMacs} {own : LineRole → Mac}

/-- Two boards accept each other as peers. -/
def Accept (macs : LineMacs) (first second : Mac) : Prop :=
  second ∈ macs.allowlist first ∧ first ∈ macs.allowlist second

/-- The boards form the line of a fixture: each takes the part it was flashed for, and
two accept each other exactly when one is the relay. -/
structure Forms (macs : LineMacs) (fixture : Fixture) (own : LineRole → Mac) : Prop where
  part : ∀ role, fixture.part macs (own role) = some role
  accept : ∀ first second, macs.Accept (own first) (own second) ↔
    first ≠ second ∧ (first = .relay ∨ second = .relay)

theorem allowlist_relay {mac : Mac} (relay : mac = macs.relay) :
    macs.allowlist mac = [macs.origin, macs.dest] := by
  have is_relay : macs.isRelay mac = true := decide_eq_true relay
  rw [allowlist, if_pos is_relay]

theorem allowlist_end {mac : Mac} (other : mac ≠ macs.relay) :
    macs.allowlist mac = [macs.relay] := by
  have not_relay : macs.isRelay mac = false := decide_eq_false other
  rw [allowlist, not_relay, if_neg Bool.false_ne_true, ite_self]

variable (apart : ∀ first second, first ≠ second → own first ≠ macs.mac second)

include apart

/-- Boards of which two accept each other exactly when one is the relay have the
addresses the binary was built with. -/
theorem mac_of_accept (accept : ∀ first second, macs.Accept (own first) (own second) ↔
    first ≠ second ∧ (first = .relay ∨ second = .relay)) (role : LineRole) :
    own role = macs.mac role := by
  have relay : own .relay = macs.relay := by
    have accepts := ((accept .origin .relay).mpr ⟨by decide, .inr rfl⟩).1
    rw [allowlist_end (apart .origin .relay (by decide))] at accepts
    exact List.mem_singleton.mp accepts
  cases role with
  | relay => exact relay
  | origin =>
      have accepts := ((accept .relay .origin).mpr ⟨by decide, .inl rfl⟩).1
      rw [allowlist_relay relay] at accepts
      exact (List.mem_pair.mp accepts).resolve_right (apart .origin .dest (by decide))
  | dest =>
      have accepts := ((accept .relay .dest).mpr ⟨by decide, .inl rfl⟩).1
      rw [allowlist_relay relay] at accepts
      exact (List.mem_pair.mp accepts).resolve_left (apart .dest .origin (by decide))

end LineMacs

section

variable {macs : LineMacs} (distinct : Function.Injective macs.mac)

include distinct

/-- Boards with three different addresses take the three parts. -/
theorem Fixture.part_mac (fixture : Fixture) (role : LineRole) :
    fixture.part macs (macs.mac role) = some role := by
  have origin : macs.isOrigin (macs.mac role) = decide (role = .origin) :=
    decide_eq_decide.mpr (distinct.eq_iff (b := .origin))
  have relay : macs.isRelay (macs.mac role) = decide (role = .relay) :=
    decide_eq_decide.mpr (distinct.eq_iff (b := .relay))
  have dest : macs.isDest (macs.mac role) = decide (role = .dest) :=
    decide_eq_decide.mpr (distinct.eq_iff (b := .dest))
  rw [Fixture.part.eq_def, origin, relay, dest]
  cases fixture <;> cases role <;> rfl

/-- Two of them accept each other exactly when one is the relay. -/
theorem LineMacs.accept_mac (first second : LineRole) :
    macs.Accept (macs.mac first) (macs.mac second) ↔
      first ≠ second ∧ (first = .relay ∨ second = .relay) := by
  have peers (role peer : LineRole) : macs.mac peer ∈ macs.allowlist (macs.mac role) ↔
      if role = .relay then peer = .origin ∨ peer = .dest else peer = .relay := by
    by_cases relay : role = .relay
    · rw [if_pos relay, LineMacs.allowlist_relay (congrArg macs.mac relay), List.mem_pair]
      exact or_congr (distinct.eq_iff (b := .origin)) (distinct.eq_iff (b := .dest))
    · rw [if_neg relay, LineMacs.allowlist_end (distinct.ne relay), List.mem_singleton]
      exact distinct.eq_iff (b := .relay)
  rw [LineMacs.Accept, peers, peers]
  cases first <;> cases second <;> decide

/-- **When the line forms.** Boards whose addresses are not those of one another's
places form the line exactly when each has the address the binary was built with. -/
theorem LineMacs.forms_iff {fixture : Fixture} {own : LineRole → Mac}
    (apart : ∀ first second, first ≠ second → own first ≠ macs.mac second) :
    macs.Forms fixture own ↔ ∀ role, own role = macs.mac role := by
  refine ⟨fun forms => LineMacs.mac_of_accept apart forms.accept, fun same => ?_⟩
  refine ⟨fun role => ?_, fun first second => ?_⟩
  · rw [same role]
    exact fixture.part_mac distinct role
  · rw [same first, same second]
    exact LineMacs.accept_mac distinct first second

end

end Rimba.Line
