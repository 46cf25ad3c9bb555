import Rimba.Foundation.Route
import Rimba.Line.Roles
import Rimba.Regtest.BuildVars
import Rimba.Regtest.Identity
import Rimba.Regtest.RoleAssignment

/-! # From the bench to the line

The T2 tier resolves the roles of a multi-hop test to boards, derives their mesh
addresses from the bench, and flashes each board with the three addresses as build
arguments. Whatever was flashed before, the boards then form the line of the test
exactly when no efuse address has its group bit set (`Rimba.Line.line_forms_iff`). In a
mesh with such boards a frame from one end reaches the other only over the relay, and
not at all when the relay is a leaf (`Rimba.Line.route_visits_relay`).
-/

namespace Rimba.Line

open Foundation (Outside Route Transition)
open Rimba.Gate (Mac byteAt macText setFirst)
open Rimba.Regtest

/-- The name a role has in the test of a fixture. -/
def Fixture.roleName (fixture : Fixture) (role : LineRole) : String :=
  match fixture, role with
  | .gateRelay, .origin => "node"
  | .gateRelay, .dest => "gate"
  | _, .origin => "origin"
  | _, .dest => "dest"
  | _, .relay => "relay"

/-- The board a role names. -/
def Fixture.board (fixture : Fixture) (role : LineRole) : Board :=
  match fixture, role with
  | .gateRelay, .origin => .board1
  | .gateRelay, .dest => .board0
  | _, .origin => .board0
  | _, .dest => .board1
  | _, .relay => .board2

/-- The roles in the order of the test. -/
def Fixture.order : Fixture → List LineRole
  | .relay | .largeFrame | .leaf => [.relay, .dest, .origin]
  | .relayNocrash => [.origin, .dest, .relay]
  | .gateRelay => [.relay, .origin, .dest]

theorem Fixture.notIdle (fixture : Fixture) : some fixture.app ≠ some idleApp := by
  cases fixture <;> decide

/-- The role of a test. -/
def Fixture.role (fixture : Fixture) (role : LineRole) : BuildRole where
  name := fixture.roleName role
  device := .board (some (fixture.board role))
  app := some fixture.app
  reporter := role = fixture.reporter
  upMarker := if role = fixture.reporter then none else some "mesh-up"
  requireWired := role = .relay
  linuxSetup := .unknown
  notIdle := fixture.notIdle
  buildMacVar := some role.macVar
  buildVars := []

def Fixture.roles (fixture : Fixture) : List BuildRole := fixture.order.map fixture.role

theorem macVar_injective : Function.Injective LineRole.macVar := by
  intro first second same
  revert same
  cases first <;> cases second <;> decide

theorem Fixture.nodup_names (fixture : Fixture) :
    ((fixture.roles.map BuildRole.toRole).map Role.name).Nodup := by
  cases fixture <;> decide

section

variable {fixture : Fixture} {env : Environment} {bench : List BenchBoard} {manifest : Manifest}
  {assign : List (String × Assigned)} {linuxMac linuxIp : Option String}

/-- The entry of a board on an accepted bench. -/
theorem find_board (accepted : requireBench env = .ok bench) (board : Board) :
    bench.find? (fun entry => entry.name = board) = some (benchBoard env board) := by
  rw [(requireBench_ok accepted).1]
  cases board <;> rfl

/-- What a role adds. -/
def added (fixture : Fixture) (env : Environment) (role : LineRole) : Addition :=
  ⟨some fixture.app, role.macVar,
    some (String.ofList (benchBoard env (fixture.board role)).meshMac)⟩

theorem macAdditions_role (accepted : requireBench env = .ok bench) {role : LineRole}
    (board : assign.lookup (fixture.roleName role) = some (.esp (fixture.board role))) :
    macAdditions bench assign (fixture.role role) = some [added fixture env role] := by
  have found := find_board accepted (fixture.board role)
  have named : (fixture.role role).name = fixture.roleName role := rfl
  have keyed : (fixture.role role).buildMacVar = some role.macVar := rfl
  rw [macAdditions, keyed]
  dsimp only
  rw [named, board, Option.map_some]
  dsimp only
  rw [found]
  rfl

/-- The app of a line is built with what its roles add. -/
theorem resolve_line (accepted : requireBench env = .ok bench)
    (boards : ∀ role, assign.lookup (fixture.roleName role) = some (.esp (fixture.board role))) :
    resolveBuildVars manifest bench fixture.roles assign linuxMac linuxIp =
      some (VarsByApp.addAll ∅ (fixture.order.map (added fixture env))) := by
  have each : macAdditions bench assign ∘ fixture.role = fun role =>
      pure [added fixture env role] :=
    funext fun role => macAdditions_role accepted (boards role)
  have macs : fixture.roles.mapM (macAdditions bench assign) =
      some (fixture.order.map fun role => [added fixture env role]) := by
    rw [Fixture.roles, List.mapM_map, each, List.mapM_pure]
    rfl
  have noPeer : linuxAdditions manifest fixture.roles linuxMac linuxIp = [] := by
    have absent : fixture.roles.find? (fun role => role.device = .linux &&
        (role.linuxSetup = .meshPeer || role.linuxSetup = .meshGate)) = none := by
      refine List.find?_eq_none.mpr fun role member => ?_
      obtain ⟨place, -, rfl⟩ := List.mem_map.mp member
      exact Bool.false_ne_true
    rw [linuxAdditions, absent]
  have nothing : fixture.roles.flatMap fixedAdditions = [] := by
    refine List.flatMap_eq_nil_iff.mpr fun role member => ?_
    obtain ⟨place, -, rfl⟩ := List.mem_map.mp member
    rfl
  rw [resolveBuildVars, macs, noPeer, nothing]
  change some _ = some _
  rw [List.nil_append, List.append_nil, ← List.flatMap_def, ← List.map_eq_flatMap]

/-- The address of each role is in the build, as the bench has it. -/
theorem lookup_line (fixture : Fixture) (env : Environment) (role : LineRole)
    (spelled : (benchBoard env (fixture.board role)).meshMac ≠ []) :
    (VarsByApp.get (VarsByApp.addAll ∅ (fixture.order.map (added fixture env)))
      fixture.app).lookup role.macVar =
        some (String.ofList (benchBoard env (fixture.board role)).meshMac) := by
  have given (other : LineRole) :
      (added fixture env other).gives fixture.app role.macVar =
        if other = role then
          some (String.ofList (benchBoard env (fixture.board other)).meshMac)
        else none := by
    have named : fixture.app ≠ "" := by
      cases fixture <;> decide
    by_cases here : other = role
    · subst here
      have written : String.ofList (benchBoard env (fixture.board other)).meshMac ≠ "" :=
        fun nothing => spelled (String.ofList_injective nothing)
      rw [Addition.gives, if_pos ⟨rfl, named, rfl⟩, if_pos rfl, added, Option.filter_some,
        if_pos (decide_eq_true written)]
    · rw [Addition.gives, if_neg fun all => here (macVar_injective all.2.2), if_neg here]
  have values : (fixture.order.map (added fixture env)).filterMap
      (Addition.gives fixture.app role.macVar) =
        [String.ofList (benchBoard env (fixture.board role)).meshMac] := by
    rw [List.filterMap_map]
    change fixture.order.filterMap (fun other =>
      (added fixture env other).gives fixture.app role.macVar) = _
    simp only [given]
    cases fixture <;> cases role <;> rfl
  rw [VarsByApp.lookup_addAll, values]
  rfl

end

/-- A run of a line's test up to its last flash, on any bench: the environment and the
efuses, how the roles were resolved, what the app is built with, and a successful flash
of each board among any others in the build directory of the app. -/
structure LineRun (fixture : Fixture) where
  env : Environment
  bench : List BenchBoard
  accepted : requireBench env = .ok bench
  efuse : Board → Mac
  read : ReadsEfuse bench efuse
  manifest : Manifest
  outside : Outside Command.Response
  suite : Suite
  assign : List (String × Assigned)
  resolved : ((resolveRoles manifest [] [] (fixture.roles.map BuildRole.toRole)).run outside
    suite).value = some (some assign)
  linuxMac : Option String
  linuxIp : Option String
  byApp : VarsByApp
  built : resolveBuildVars manifest bench fixture.roles assign linuxMac linuxIp = some byApp
  cache : Option MakeVars
  flashes : List FlashCall
  flash : LineRole → Transition BuildDir FlashCall
  taken : ∀ role, flash role ∈ (flashMachine cache).transitions flashes
  wants : ∀ role, (flash role).label.want = byApp.get fixture.app
  flashed : ∀ role, (flash role).label.outcome = .flashed
  /-- What the binary of a board was configured with. -/
  config : LineRole → MakeVars
  configured : ∀ role, (flash role).after.cache = some (config role)

namespace LineRun

variable {fixture : Fixture} (run : LineRun fixture)

/-- The addresses in the binary of a board. -/
def macs (role : LineRole) : LineMacs := lineMacs fixture.defaults (run.config role)

/-- The mesh address of a board, `g_mesh_mac`. -/
def own (role : LineRole) : Mac := Gate.meshMac (run.efuse (fixture.board role))

/-- The mesh address the harness has for a board. -/
def expected (role : LineRole) : Mac :=
  setFirst (run.efuse (fixture.board role))
    (byteAt (run.efuse (fixture.board role)).toList 0 ||| 0x02)

/-- No efuse address of the line has its group bit set. -/
def Unicast : Prop := ∀ role, byteAt (run.efuse (fixture.board role)).toList 0 &&& 0x01 = 0

/-- A binary is configured with what the harness asked for. -/
theorem config_eq (role : LineRole) : run.config role = run.byApp.get fixture.app := by
  obtain ⟨vouched, stepped⟩ := (vouched_invariant run.cache).transitions (run.taken role)
  have found := run.configured role
  rw [← Option.some.inj stepped, BuildDir.flash, run.flashed role] at found
  rw [← Option.some.inj found, ← run.wants role]
  exact reconfigured_self (vouched.reset_cache _)

/-- Each role is assigned the board it names. -/
theorem assigned_board (role : LineRole) :
    run.assign.lookup (fixture.roleName role) = some (.esp (fixture.board role)) := by
  have ensures := (resolveRoles_named run.manifest fixture.nodup_names [] [] run.suite).run
    run.outside
  refine (ensures run.assign run.resolved).2 (fixture.role role).toRole ?_ _ rfl
  exact List.mem_map_of_mem (List.mem_map_of_mem (by cases fixture <;> cases role <;> decide))

/-- A board is on the bench. -/
theorem member (board : Board) : benchBoard run.env board ∈ run.bench := by
  rw [(requireBench_ok run.accepted).1]
  exact List.mem_map_of_mem (by cases board <;> decide)

/-- The binaries have the addresses that the harness expects. -/
theorem macs_mac (board role : LineRole) : (run.macs board).mac role = run.expected role := by
  have built := run.built
  rw [resolve_line run.accepted run.assigned_board] at built
  have mac : (benchBoard run.env (fixture.board role)).meshMac = macText (run.expected role) :=
    (derived_of_accepted run.accepted run.read (run.member (fixture.board role))).1
  have spelled : (benchBoard run.env (fixture.board role)).meshMac ≠ [] := by
    rw [mac]
    exact macText_ne_nil _
  refine lineMacs_of_lookup ?_
  rw [run.config_eq board, ← Option.some.inj built, lookup_line fixture run.env role spelled, mac]

/-- Boards with one mesh IP are the same. -/
theorem eq_of_meshIp {first second : LineRole}
    (same : Gate.meshIp (run.efuse (fixture.board first)) =
      Gate.meshIp (run.efuse (fixture.board second))) : first = second := by
  have one := (derived_of_accepted run.accepted run.read (run.member (fixture.board first))).2
  have two := (derived_of_accepted run.accepted run.read (run.member (fixture.board second))).2
  have board : benchBoard run.env (fixture.board first) =
      benchBoard run.env (fixture.board second) :=
    List.inj_on_of_nodup_map (nodup_meshIp run.accepted run.read) (run.member _) (run.member _)
      (one.trans (same.trans two.symm))
  have name : fixture.board first = fixture.board second := congrArg BenchBoard.name board
  revert name
  cases fixture <;> cases first <;> cases second <;> decide

theorem meshIp_own (role : LineRole) :
    Gate.meshIp (run.own role) = Gate.meshIp (run.efuse (fixture.board role)) :=
  meshIp_setFirst _ _

theorem meshIp_expected (role : LineRole) :
    Gate.meshIp (run.expected role) = Gate.meshIp (run.efuse (fixture.board role)) :=
  meshIp_setFirst _ _

/-- No board has the address expected of another. -/
theorem own_ne_expected {first second : LineRole} (differ : first ≠ second) :
    run.own first ≠ run.expected second := by
  intro same
  refine differ (run.eq_of_meshIp ?_)
  rw [← run.meshIp_own, same, run.meshIp_expected]

theorem mac_injective (board : LineRole) : Function.Injective (run.macs board).mac := by
  intro first second same
  rw [run.macs_mac, run.macs_mac] at same
  refine run.eq_of_meshIp ?_
  rw [← run.meshIp_expected, same, run.meshIp_expected]

theorem own_injective : Function.Injective run.own := by
  intro first second same
  refine run.eq_of_meshIp ?_
  rw [← run.meshIp_own, same, run.meshIp_own]

/-- A board has the address expected of it when its group bit is clear. -/
theorem own_eq_expected_iff (role : LineRole) : run.own role = run.expected role ↔
    byteAt (run.efuse (fixture.board role)).toList 0 &&& 0x01 = 0 := by
  rw [← meshMac_agrees_iff, Gate.macText_injective.eq_iff]
  exact eq_comm

/-- On unicast addresses a board has the address the binaries have for it. -/
theorem own_eq_mac (unicast : run.Unicast) (board role : LineRole) :
    run.own role = (run.macs board).mac role := by
  rw [run.macs_mac]
  exact (run.own_eq_expected_iff role).mpr (unicast role)

/-- The boards form the line of the fixture, each by the addresses in its own binary: each
takes the part it was flashed for, and two accept each other exactly when one is the
relay. -/
structure Forms : Prop where
  part : ∀ role, fixture.part (run.macs role) (run.own role) = some role
  accept : ∀ first second,
    (run.own second ∈ (run.macs first).allowlist (run.own first) ∧
      run.own first ∈ (run.macs second).allowlist (run.own second)) ↔
        first ≠ second ∧ (first = .relay ∨ second = .relay)

/-- The binaries have the same addresses. -/
theorem macs_eq (board other : LineRole) : run.macs board = run.macs other :=
  LineMacs.eq_of_mac fun role => (run.macs_mac board role).trans (run.macs_mac other role).symm

/-- So the line they form is that of any one of them. -/
theorem forms_iff_macs (board : LineRole) :
    run.Forms ↔ (run.macs board).Forms fixture run.own := by
  have same (role : LineRole) : run.macs role = run.macs board := run.macs_eq role board
  constructor
  · rintro ⟨part, accept⟩
    simp only [same] at part accept
    exact ⟨part, accept⟩
  · rintro ⟨part, accept⟩
    refine ⟨fun role => ?_, fun first second => ?_⟩
    · rw [same role]
      exact part role
    · rw [same first, same second]
      exact accept first second

end LineRun

/-- **The line forms exactly on unicast addresses.** On every accepted bench, however
the resolving and the flashes before went, the boards of a multi-hop test all have the
same three addresses compiled in, those the harness expects of them; each takes the part it
was flashed for, and two accept each other exactly when one is the relay, if and only if no
efuse address of the three has its group bit set. -/
theorem line_forms_iff {fixture : Fixture} (run : LineRun fixture) :
    (∀ board role, (run.macs board).mac role = run.expected role) ∧
      (run.Forms ↔ run.Unicast) := by
  refine ⟨run.macs_mac, ?_⟩
  have apart : ∀ first second, first ≠ second →
      run.own first ≠ (run.macs .origin).mac second := by
    intro first second differ
    rw [run.macs_mac]
    exact run.own_ne_expected differ
  rw [run.forms_iff_macs .origin, LineMacs.forms_iff (run.mac_injective .origin) apart]
  refine forall_congr' fun role => ?_
  rw [run.macs_mac]
  exact run.own_eq_expected_iff role

/-- What a flash of the bench is asked for. -/
def benchVars : MakeVars :=
  VarsByApp.get (VarsByApp.addAll ∅ ((Fixture.order .relay).map (added .relay (benchFrom "e0"))))
    "test-mesh-relay"

/-- A run on the bench whose boards are all there and whose flashes succeed. -/
def benchRun : LineRun .relay where
  env := benchFrom "e0"
  bench := buildBench (benchFrom "e0")
  accepted := requireBench_of_clean (by decide +kernel) (by decide +kernel)
  efuse := efuseFrom 0xe0
  read := by
    unfold ReadsEfuse
    decide +kernel
  manifest := ⟨[], [], fun board => board = .board2, fun _ => none, false, ""⟩
  outside := BenchView.outside ⟨fun board => some board.name, false⟩
  suite := .fresh
  assign := [("origin", .esp .board0), ("dest", .esp .board1), ("relay", .esp .board2)]
  resolved := by rfl
  linuxMac := none
  linuxIp := none
  byApp := VarsByApp.addAll ∅ ((Fixture.order .relay).map (added .relay (benchFrom "e0")))
  built := resolve_line (requireBench_of_clean (by decide +kernel) (by decide +kernel))
    fun role => by cases role <;> rfl
  cache := none
  flashes := [⟨benchVars, .flashed, .written⟩]
  flash _ := ⟨⟨none, none⟩, ⟨benchVars, .flashed, .written⟩,
    ⟨some benchVars, some (.config benchVars)⟩⟩
  taken _ := List.mem_singleton.mpr rfl
  wants _ := rfl
  flashed _ := rfl
  config _ := benchVars
  configured _ := rfl

theorem benchRun_unicast : benchRun.Unicast := fun role => by cases role <;> rfl

theorem benchRun_forms :
    (∀ board role, (benchRun.macs board).mac role = benchRun.expected role) ∧ benchRun.Forms :=
  have forms := line_forms_iff benchRun
  ⟨forms.1, forms.2.mpr benchRun_unicast⟩

/-- A mesh with the boards of a run among its nodes. A node has an address of its own, a
board links only to peers that its allowlist has, and a board that has switched multihop
off forwards nothing. -/
structure LineNetwork {fixture : Fixture} (run : LineRun fixture) where
  Node : Type
  address : Node → Mac
  unique : Function.Injective address
  board : LineRole → Node
  boardAddress : ∀ role, address (board role) = run.own role
  link : Node → Node → Prop
  accepts : ∀ role node, link (board role) node →
    address node ∈ (run.macs role).allowlist (run.own role)
  forwards : Node → Prop
  multihop : ∀ role, fixture.multihop role = false → ¬ forwards (board role)

/-- **Every frame between the ends passes the relay.** On unicast addresses, a route
between the two ends of a line visits the relay's board between them, whatever other
nodes the mesh has; so when the relay is a leaf there is none. -/
theorem route_visits_relay {fixture : Fixture} {run : LineRun fixture} (unicast : run.Unicast)
    (network : LineNetwork run) {first second : LineRole} (differ : first ≠ second)
    (source : first ≠ .relay) (target : second ≠ .relay)
    (route : Route network.link network.forwards (network.board first) (network.board second)) :
    network.board .relay ∈ route.between ∧ fixture ≠ .leaf := by
  have own := run.own_eq_mac unicast first
  have apart {one other : LineRole} (boards : network.board one = network.board other) :
      one = other := by
    have addresses := congrArg network.address boards
    rw [network.boardAddress, network.boardAddress] at addresses
    exact run.own_injective addresses
  -- an end accepts the relay alone, so the only way out of it is to the relay's board
  have leaves : ∀ node ∈ ({network.board first} : Set network.Node), ∀ next,
      network.link node next → next ∈ ({network.board first} : Set network.Node) ∨
        next = network.board .relay := by
    rintro node rfl next linked
    have accepted := network.accepts first next linked
    have other : run.own first ≠ (run.macs first).mac .relay := by
      rw [own]
      exact fun same => source (run.mac_injective first same)
    rw [LineMacs.allowlist_end other, List.mem_singleton] at accepted
    refine .inr (network.unique ?_)
    rw [accepted, network.boardAddress, own]
    rfl
  have outside : network.board second ∉ ({network.board first} : Set network.Node) :=
    fun same => differ (apart same).symm
  have other : network.board second ≠ network.board .relay := fun same => target (apart same)
  have visits := route.visits_hub (Set.mem_singleton _) outside other leaves
  refine ⟨visits, ?_⟩
  rintro rfl
  exact network.multihop .relay rfl (route.forwarded _ visits)

/-- The three boards of the bench, linked as they accept each other. -/
def benchNetwork : LineNetwork benchRun where
  Node := LineRole
  address := benchRun.own
  unique := benchRun.own_injective
  board := id
  boardAddress _ := rfl
  link first second := first ≠ second ∧ (first = .relay ∨ second = .relay)
  accepts role node linked := by
    have own := benchRun.own_eq_mac benchRun_unicast role
    change benchRun.own node ∈ _
    rw [own, own]
    exact ((LineMacs.accept_mac (benchRun.mac_injective role) role node).mpr linked).1
  forwards _ := True
  multihop role leaf := by
    cases role <;> cases leaf

theorem benchNetwork_visits : ∃ route : Route benchNetwork.link benchNetwork.forwards
    (benchNetwork.board .origin) (benchNetwork.board .dest),
      benchNetwork.board .relay ∈ route.between ∧ Fixture.relay ≠ .leaf :=
  have up : benchNetwork.link (benchNetwork.board .origin) (benchNetwork.board .relay) :=
    ⟨(by decide : LineRole.origin ≠ LineRole.relay), .inr rfl⟩
  have down : benchNetwork.link (benchNetwork.board .relay) (benchNetwork.board .dest) :=
    ⟨(by decide : LineRole.relay ≠ LineRole.dest), .inl rfl⟩
  ⟨Route.through up down trivial,
    route_visits_relay benchRun_unicast benchNetwork (by decide) (by decide) (by decide) _⟩

end Rimba.Line
