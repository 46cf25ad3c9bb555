import Rimba.Foundation.HexText
import Rimba.Foundation.OrderedDict
import Rimba.Regtest.Bench

/-! # The bench of the manifest

`manifest.py` builds the bench from the environment `make` passes: three boards,
with the mesh address and the static IP derived from each efuse address. A tier that
needs the bench asks `require_bench` for it, which refuses one that is missing or
malformed. What it accepts spells three addresses, no two with one IP
(`Rimba.Regtest.requireBench_sound`).
-/

namespace Rimba.Regtest

open Foundation (strip reprText hexValue hexText intHex OrderedDict)

/-- The environment variables. -/
abbrev Environment := String → Option (List Char)

/-- `_env` -/
def envText (env : Environment) (name : String) : List Char := strip ((env name).getD [])

/-- A physical ESP32 node on the bench. -/
structure BenchBoard where
  name : Board
  efuseMac : List Char
  meshMac : List Char
  meshIp : List Char
  fullyWired : Bool
  usbBusPowered : Bool
  notes : String
  deriving DecidableEq

/-- `_mesh_mac`; the lower case of ASCII letters only, a text with others is none of
an address. -/
def meshMac (efuse : List Char) : List Char :=
  let p := ((strip efuse).map Char.toLower).splitOn ':'
  if p.length ≠ 6 then []
  else
    match intHex (p.getD 0 []) with
    | some n => [':'].intercalate (p.set 0 (hexText (Int.lor n 0x02)))
    | none => []

/-- `_mesh_ip` -/
def meshIp (efuse : List Char) : List Char :=
  let p := (strip efuse).splitOn ':'
  if p.length ≠ 6 then []
  else
    match intHex (p.getD 5 []) with
    | some n => "10.9.9.".toList ++ Nat.toDigits 10 (100 + Int.land n 0x3f).toNat
    | none => []

/-- `_BOARD_MAC_ENV` -/
def boardMacEnv : Board → String
  | .board0 => "BOARD0_MAC"
  | .board1 => "BOARD1_MAC"
  | .board2 => "BOARD2_MAC"

/-- The notes of a fully wired board. -/
def wiredNotes : String :=
  "The fully-wired ESP (WAKE+BUSY): the only load / relay / power-save DUT; " ++
    "PPK2-powered, enumerates only while tools/ppk2_hold.py runs."

/-- The notes of every other board. -/
def unwiredNotes : String :=
  "WAKE+BUSY unwired. Light-load endpoint / spare ONLY. Never a relay or PS DUT."

/-- The entry of one board. -/
def benchBoard (env : Environment) (board : Board) : BenchBoard :=
  let mac := envText env (boardMacEnv board)
  let fw : Bool := board.name.toList = envText env "WIRED_BOARD"
  { name := board
    efuseMac := mac
    meshMac := meshMac mac
    meshIp := meshIp mac
    fullyWired := fw
    usbBusPowered := !fw
    notes := if fw then wiredNotes else unwiredNotes }

/-- The derived fields of an entry are derived from its address. -/
theorem benchBoard_derived (env : Environment) (board : Board) :
    (benchBoard env board).meshMac = meshMac (benchBoard env board).efuseMac ∧
      (benchBoard env board).meshIp = meshIp (benchBoard env board).efuseMac := by
  simp only [benchBoard, and_self]

/-- The variables the bench is built from. -/
def benchVariables : List String :=
  ["BENCH_BOARD", "BOARD0_MAC", "BOARD1_MAC", "BOARD2_MAC", "WIRED_BOARD"]

/-- `_build_bench`: a board is given for each name, or none when a variable is
missing. -/
def buildBench (env : Environment) : List BenchBoard :=
  if ∃ name ∈ benchVariables, envText env name = [] then []
  else Board.sorted.map (benchBoard env)

/-- `[0-9a-fA-F]{2}:` some times and `[0-9a-fA-F]{2}$`, which also ends before a last
line break. -/
def macOctets : ℕ → List Char → Bool
  | 0, c :: d :: rest => (hexValue c).isSome && (hexValue d).isSome && (rest = [] || rest = ['\n'])
  | n + 1, c :: d :: colon :: rest =>
      (hexValue c).isSome && (hexValue d).isSome && colon = ':' && macOctets n rest
  | _, _ => false

/-- `_MAC_RE.match` -/
def macRe (text : List Char) : Bool := macOctets 5 text

/-- `repr` of a list of names. -/
def reprNames (names : List Board) : List Char :=
  '[' :: (", ".toList.intercalate (names.map fun name => reprText name.name.toList) ++ [']'])

/-- No board is the one that `WIRED_BOARD` names. -/
def wiredProblems (env : Environment) (bench : List BenchBoard) : List (List Char) :=
  if bench.any BenchBoard.fullyWired then []
  else
    ["WIRED_BOARD=".toList ++ reprText (envText env "WIRED_BOARD") ++ " is not one of ".toList ++
      reprNames (bench.map BenchBoard.name) ++
      " -- no board is fully wired, so there is no relay/power-save/DUT slot.".toList ++
      " Set WIRED_BOARD to a real board.".toList]

/-- A board has no address. -/
def macProblems (bench : List BenchBoard) : List (List Char) :=
  (bench.filter fun board => !macRe (strip board.efuseMac)).map fun board =>
    (boardMacEnv board.name).toList ++ '=' :: (reprText board.efuseMac ++
      " is not a valid MAC (need 6 colon-separated hex octets, e.g. e0:72:a1:f8:ef:a4).".toList)

/-- `by_ip` -/
def byIp (bench : List BenchBoard) : OrderedDict (List Char) (List Board) :=
  .gather ((bench.filter fun board => board.meshIp ≠ []).map fun board =>
    (board.meshIp, board.name))

/-- Boards share a mesh IP. -/
def ipProblems (bench : List BenchBoard) : List (List Char) :=
  ((byIp bench).entries.filter fun entry => 1 < entry.2.length).map fun entry =>
    " and ".toList.intercalate (entry.2.map fun name => name.name.toList) ++
      " both derive mesh IP ".toList ++ entry.1 ++
      " (their efuse MACs share the low 6 bits of the last octet); ".toList ++
      "mesh/interop tests can't tell them apart -- use different boards for this run.".toList

/-- The problems of `_validate_bench`, in their order. -/
def benchProblems (env : Environment) (bench : List BenchBoard) : List (List Char) :=
  wiredProblems env bench ++ macProblems bench ++ ipProblems bench

/-- `_validate_bench`, which raises `BenchNotConfigured` -/
def validateBench (env : Environment) (bench : List BenchBoard) : Except (List Char) Unit :=
  let problems := benchProblems env bench
  if problems = [] then .ok ()
  else
    .error ("bench config is malformed (values were passed but are wrong):\n".toList ++
      ['\n'].intercalate (problems.map fun problem => "  - ".toList ++ problem))

/-- What `require_bench` says when nothing was built. -/
def notProvided (env : Environment) : List Char :=
  let missing := benchVariables.filter fun name => envText env name = []
  "bench identity not provided. This tier needs the ESP boards -- pass them to make (or ".toList ++
    "`export` them once), e.g.:\n".toList ++
    "  make <target> BENCH_BOARD=proto1-fgh100m BOARD0_MAC=<mac> BOARD1_MAC=<mac> ".toList ++
    "BOARD2_MAC=<mac> WIRED_BOARD=board2\n  missing: ".toList ++
    if missing = [] then "(check the values)".toList
    else ", ".toList.intercalate (missing.map String.toList)

/-- `require_bench` -/
def requireBench (env : Environment) : Except (List Char) (List BenchBoard) :=
  if buildBench env = [] then .error (notProvided env)
  else do
    validateBench env (buildBench env)
    return buildBench env

variable {env : Environment} {bench : List BenchBoard}

/-- A bench is accepted when it was built and has no problems. -/
theorem requireBench_ok (accepted : requireBench env = .ok bench) :
    bench = Board.sorted.map (benchBoard env) ∧ benchProblems env bench = [] := by
  rw [requireBench] at accepted
  by_cases missing : buildBench env = []
  · rw [if_pos missing] at accepted
    cases accepted
  · rw [if_neg missing, validateBench] at accepted
    by_cases problems : benchProblems env (buildBench env) = []
    · simp only [problems, ↓reduceIte] at accepted
      cases accepted
      refine ⟨?_, problems⟩
      rw [buildBench]
      apply if_neg
      intro unset
      exact missing (if_pos unset)
    · simp only [problems, ↓reduceIte] at accepted
      cases accepted

theorem requireBench_of_clean (built : buildBench env ≠ [])
    (clean : benchProblems env (buildBench env) = []) :
    requireBench env = .ok (buildBench env) := by
  rw [requireBench, if_neg built, validateBench]
  simp only [clean, ↓reduceIte]
  rfl

/-- **What `require_bench` accepts.** Three boards whose addresses match the
expression, no two with one IP, and one of them fully wired. -/
theorem requireBench_sound (accepted : requireBench env = .ok bench) :
    bench = Board.sorted.map (benchBoard env) ∧
    (∃ board ∈ bench, board.fullyWired = true) ∧
    (∀ board ∈ bench, macRe (strip board.efuseMac) = true) ∧
    ((bench.filter fun board => board.meshIp ≠ []).map BenchBoard.meshIp).Nodup := by
  obtain ⟨built, clean⟩ := requireBench_ok accepted
  obtain ⟨wiredAndMacs, ips⟩ := List.append_eq_nil_iff.mp clean
  obtain ⟨wired, macs⟩ := List.append_eq_nil_iff.mp wiredAndMacs
  refine ⟨built, ?_, ?_, ?_⟩
  · rw [wiredProblems] at wired
    by_cases some : bench.any BenchBoard.fullyWired = true
    · exact List.any_eq_true.mp some
    · rw [if_neg some] at wired
      cases wired
  · intro board member
    have matched := List.filter_eq_nil_iff.mp (List.map_eq_nil_iff.mp macs) board member
    rwa [Bool.not_eq_true', Bool.not_eq_false] at matched
  · have single : ∀ entry ∈ (byIp bench).entries, entry.2.length ≤ 1 := by
      intro entry member
      have few := List.filter_eq_nil_iff.mp (List.map_eq_nil_iff.mp ips) entry member
      rwa [decide_eq_true_eq, not_lt] at few
    have distinct := OrderedDict.nodup_of_gather single
    rwa [List.map_map] at distinct

end Rimba.Regtest
