import Rimba.Regtest.FlashCache
import Rimba.Regtest.Manifest
import Rimba.Regtest.OnAir

/-! # The build variables of a test

`_resolve_build_vars` of the T2 tier computes what each app of a test is built with,
keyed by the app: the addresses of a Linux peer for the reporter, the mesh address of
each board whose role names a variable for it, and the fixed variables of the roles.
The last one added under a name counts (`Rimba.Regtest.lookup_addAll`). A role that
names its board is assigned that board (`Rimba.Regtest.resolveRoles_named`).
-/

namespace Rimba.Regtest

open Foundation (Program Called)

/-- A role, with what it adds to the build of its app: `build_mac_var` and
`build_vars`. -/
structure BuildRole extends Role where
  buildMacVar : Option String
  buildVars : List (String × String)

/-- `by_app` -/
abbrev VarsByApp := Finmap fun _ : String => MakeVars

/-- `build_vars_by_app.get(app)`; an app without variables is built with none. -/
def VarsByApp.get (byApp : VarsByApp) (app : String) : MakeVars := (byApp.lookup app).getD ∅

/-- The arguments of one call of `add`. -/
structure Addition where
  app : Option String
  key : String
  val : Option String

/-- `add`: an app or a value that is missing or empty adds nothing. -/
def VarsByApp.add (byApp : VarsByApp) (addition : Addition) : VarsByApp :=
  match addition.app, addition.val with
  | some app, some val =>
      if app = "" ∨ val = "" then byApp
      else byApp.insert app ((byApp.get app).insert addition.key val)
  | _, _ => byApp

def VarsByApp.addAll (byApp : VarsByApp) (additions : List Addition) : VarsByApp :=
  additions.foldl VarsByApp.add byApp

/-- The value an addition gives a variable of an app. -/
def Addition.gives (app key : String) (addition : Addition) : Option String :=
  if addition.app = some app ∧ app ≠ "" ∧ addition.key = key then
    addition.val.filter fun val => val ≠ ""
  else none

namespace VarsByApp

variable (byApp : VarsByApp)

theorem get_insert (app : String) (vars : MakeVars) :
    VarsByApp.get (byApp.insert app vars) app = vars := by
  rw [get, Finmap.lookup_insert, Option.getD_some]

theorem get_insert_of_ne {app other : String} (differs : other ≠ app) (vars : MakeVars) :
    VarsByApp.get (byApp.insert app vars) other = byApp.get other := by
  rw [get, get, Finmap.lookup_insert_of_ne _ differs]

/-- An addition that gives a variable a value sets it, every other leaves it. -/
theorem lookup_add (addition : Addition) (app key : String) :
    ((byApp.add addition).get app).lookup key =
      (addition.gives app key).or ((byApp.get app).lookup key) := by
  obtain ⟨target, name, val⟩ := addition
  rcases target with _ | target
  · rfl
  · rcases val with _ | val
    · simp only [add, Addition.gives, Option.filter_none, ite_self, Option.none_or]
    · simp only [add, Addition.gives, Option.some.injEq, Option.filter_some]
      by_cases nothing : target = "" ∨ val = ""
      · have gives : (if target = app ∧ app ≠ "" ∧ name = key then
            if decide (val ≠ "") = true then some val else none else none) = none := by
          rcases nothing with rfl | rfl
          · exact if_neg fun same => same.2.1 same.1.symm
          · exact ite_self _
        rw [if_pos nothing, gives, Option.none_or]
      · obtain ⟨named, given⟩ := not_or.mp nothing
        rw [if_neg nothing]
        by_cases here : target = app
        · subst here
          rw [get_insert]
          by_cases same : name = key
          · subst same
            rw [Finmap.lookup_insert, if_pos ⟨rfl, named, rfl⟩, if_pos (decide_eq_true given)]
            rfl
          · rw [Finmap.lookup_insert_of_ne _ (Ne.symm same), if_neg fun all => same all.2.2,
              Option.none_or]
        · rw [get_insert_of_ne _ (Ne.symm here), if_neg fun all => here all.1, Option.none_or]

/-- **The last value given counts.** -/
theorem lookup_addAll (additions : List Addition) (app key : String) :
    ((byApp.addAll additions).get app).lookup key =
      ((additions.filterMap (Addition.gives app key)).getLast?).or
        ((byApp.get app).lookup key) := by
  induction additions generalizing byApp with
  | nil => rfl
  | cons addition additions ih =>
      rw [addAll, List.foldl_cons]
      refine (ih (byApp.add addition)).trans ?_
      rw [lookup_add, List.filterMap_cons]
      cases addition.gives app key with
      | none => rfl
      | some val =>
          rw [List.getLast?_cons]
          cases (additions.filterMap (Addition.gives app key)).getLast? with
          | none => rfl
          | some last => rfl

end VarsByApp

section

variable (manifest : Manifest) (bench : List BenchBoard) (roles : List BuildRole)
  (assign : List (String × Assigned)) (linuxMac linuxIp : Option String)

/-- `a or b` of two texts that may be missing. -/
def orText (first second : Option String) : Option String :=
  match first with
  | some text => if text = "" then second else some text
  | none => second

/-- What a Linux peer adds to the build of the reporter. -/
def linuxAdditions : List Addition :=
  match roles.find? fun role => role.device = .linux &&
      (role.linuxSetup = .meshPeer || role.linuxSetup = .meshGate),
    roles.find? fun role => role.reporter with
  | some linuxRole, some reporter =>
      let node := manifest.linuxNodes manifest.defaultLinuxPeer
      ⟨reporter.app, "LINUX_MAC", orText linuxMac (node.map LinuxNode.meshMac)⟩ ::
        if linuxRole.linuxSetup = .meshPeer then
          [⟨reporter.app, "LINUX_IP", orText linuxIp (node.map LinuxNode.meshIp)⟩]
        else []
  | _, _ => []

/-- What a role adds for the board it is assigned; `none` when it is assigned nothing. -/
def macAdditions (role : BuildRole) : Option (List Addition) :=
  match role.buildMacVar with
  | none => some []
  | some key =>
      (assign.lookup role.name).map fun handle =>
        match handle with
        | .esp board =>
            match bench.find? fun entry => entry.name = board with
            | some entry => [⟨role.app, key, some (String.ofList entry.meshMac)⟩]
            | none => []
        | .linux _ => []

/-- The fixed variables of a role. -/
def fixedAdditions (role : BuildRole) : List Addition :=
  role.buildVars.map fun var => ⟨role.app, var.1, some var.2⟩

/-- `_resolve_build_vars`; `none` where a role is assigned nothing. -/
def resolveBuildVars : Option VarsByApp := do
  let macs ← roles.mapM (macAdditions bench assign)
  return VarsByApp.addAll ∅ (linuxAdditions manifest roles linuxMac linuxIp ++ macs.flatten ++
    roles.flatMap fixedAdditions)

end

section

variable [PortLookup] (manifest : Manifest)

theorem resolveRole_named (role : Role) (espUsed : List Board) (suite : Suite) :
    (resolveRole manifest role espUsed).Ensures suite fun value _ _ =>
      ∀ handle, value = some (some handle) →
        ∀ board, role.device = .board (some board) → handle = .esp board := by
  by_cases names : ∃ board, role.device = .board (some board)
  swap
  · exact fun _ _ _ _ board named => absurd ⟨board, named⟩ names
  obtain ⟨board, named⟩ := names
  suffices ensures : (resolveRole manifest role espUsed).Ensures suite fun value _ _ =>
      ∀ handle, value = some (some handle) → handle = .esp board by
    refine ensures.mono fun value _ _ holds handle returned other device => ?_
    rw [named] at device
    cases device
    exact holds handle returned
  rw [resolveRole, named]
  dsimp only
  split
  · refine Program.Ensures.pure fun handle returned => ?_
    cases returned
  · refine Program.Ensures.bind_any (fun _ _ handle returned => ?_) fun port _ _ => ?_
    · cases returned
    · split
      · refine Program.Ensures.pure fun handle returned => ?_
        cases returned
        rfl
      · refine Program.Ensures.pure fun handle returned => ?_
        cases returned

/-- A role that names its board is assigned that board, when the roles have names of
their own and all are assigned. -/
theorem resolveRoles_named {roles : List Role} (names : (roles.map Role.name).Nodup)
    (before : List (String × Assigned)) (espUsed : List Board) (suite : Suite) :
    (resolveRoles manifest before espUsed roles).Ensures suite fun value _ _ =>
      ∀ assign, value = some (some assign) →
        (∀ name ∉ roles.map Role.name, assign.lookup name = before.lookup name) ∧
        ∀ role ∈ roles, ∀ board, role.device = .board (some board) →
          assign.lookup role.name = some (.esp board) := by
  induction roles generalizing before espUsed suite with
  | nil =>
      refine Program.Ensures.pure fun assign returned => ?_
      cases returned
      exact ⟨fun _ _ => rfl, fun _ member => absurd member List.not_mem_nil⟩
  | cons role roles ih =>
      obtain ⟨fresh, names⟩ := List.nodup_cons.mp names
      -- whichever kind of device the role is assigned, the later roles keep it
      have step (handle : Assigned) (used : List Board) (middle : Suite)
          (settled : ∀ board, role.device = .board (some board) → handle = .esp board) :
          (resolveRoles manifest ((role.name, handle) :: before) used roles).Ensures middle
            fun value _ _ => ∀ assign, value = some (some assign) →
              (∀ name ∉ (role :: roles).map Role.name,
                assign.lookup name = before.lookup name) ∧
              ∀ other ∈ role :: roles, ∀ board, other.device = .board (some board) →
                assign.lookup other.name = some (.esp board) := by
        refine (ih names _ used middle).mono fun value _ _ holds assign returned => ?_
        obtain ⟨kept, found⟩ := holds assign returned
        refine ⟨fun name absent => ?_, List.forall_mem_cons.mpr ⟨fun board device => ?_, found⟩⟩
        · obtain ⟨differs, absent⟩ := not_or.mp (List.mem_cons.not.mp absent)
          rw [kept name absent, List.lookup_cons, beq_false_of_ne differs]
        · rw [kept role.name fresh, List.lookup_cons_self, settled board device]
      rw [resolveRoles]
      refine Program.Ensures.bind ((resolveRole_named manifest role espUsed suite).mono ?_)
      intro value middle _ settled
      rcases value with _ | _ | _ | _
      · intro assign returned
        cases returned
      · refine Program.Ensures.pure fun assign returned => ?_
        cases returned
      · exact step _ _ middle (settled _ rfl)
      · exact step _ _ middle (settled _ rfl)

end

end Rimba.Regtest
