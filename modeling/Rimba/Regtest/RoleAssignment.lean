import Rimba.Regtest.OnAirVerdicts

/-! # The boards that roles are assigned

What the resolving of a test's roles comes to on a bench that answers alike throughout.
A role that may take any board is given a free one; a role that names its board is given
it whether or not it is free, and a role whose name another shares loses its own. The
roles are assigned as they should be exactly where that does not happen
(`Rimba.Regtest.roles_assigned_iff`).
-/

namespace Rimba.Regtest

open Foundation (Outside Program)

/-- The boards that are enumerated, with their ports, and whether the Linux peer is up. -/
structure BenchView where
  port : Board → Option String
  linuxUp : Bool

/-- What the bench answers is what there is to see. -/
structure BenchView.Answers (view : BenchView) (manifest : Manifest)
    (outside : Outside Command.Response) : Prop where
  port : ∀ history board, outside history (.resolvePort board) = view.port board
  reachable : ∀ history, (outside history (.ssh manifest.defaultLinuxPeer .echoOk)).any
    (fun cp => cp.returncode = 0 && contains "ok" cp.stdout) = view.linuxUp

/-- A bench that shows a view, and on which nothing else works. -/
def BenchView.outside (view : BenchView) : Outside Command.Response := fun _ command =>
  match command with
  | .resolvePort board => view.port board
  | .make _ _ _ => none
  | .captureUntil _ _ _ => none
  | .captureSerial _ _ => none
  | .captureLadder _ _ => none
  | .ssh _ _ => if view.linuxUp then some ⟨0, "ok"⟩ else none
  | .haveReference _ => false
  | .scp _ _ => none
  | .findPpk2 => false
  | .importPpk2 => false
  | .ppk2 _ => none

theorem BenchView.outside_answers (view : BenchView) (manifest : Manifest) :
    view.Answers manifest view.outside where
  port _ _ := rfl
  reachable _ := by
    cases up : view.linuxUp with
    | false => simp only [outside, up, Bool.false_eq_true, ↓reduceIte, Option.any_none]
    | true =>
        simp only [outside, up, ↓reduceIte, Option.any_some]
        decide

section

variable (manifest : Manifest) (view : BenchView)

/-- The board is enumerated and fits the role. -/
def fits (role : Role) (board : Board) : Bool :=
  (view.port board).isSome && (!role.requireWired || manifest.fullyWired board)

/-- The board that a role holds behind others that hold `held`: the one it names, or the
first that fits it and is free. -/
def boardOf (held : List Board) (role : Role) : Option Board :=
  match role.device with
  | .linux => none
  | .board board => board
  | .anyEsp => boardCandidates.find? fun cand => cand ∉ held && fits manifest view role cand

/-- What a role is assigned behind others that hold `held`. -/
def resolved (held : List Board) (role : Role) : Option Assigned :=
  match role.device with
  | .linux => if view.linuxUp then some (.linux manifest.defaultLinuxPeer) else none
  | .anyEsp => (boardOf manifest view held role).map .esp
  | .board board => (board.filter (fits manifest view role)).map .esp

/-- The boards that roles hold. -/
def heldBy (roles : List Role) : List Board :=
  roles.foldl (fun held role => (boardOf manifest view held role).toList ++ held) []

/-- One role of the loop. -/
def assignRole (progress : List (String × Assigned) × List Board) (role : Role) :
    Option (List (String × Assigned) × List Board) :=
  (resolved manifest view progress.2 role).map fun handle =>
    ((role.name, handle) :: progress.1,
      (boardOf manifest view progress.2 role).toList ++ progress.2)

end

section

variable {manifest : Manifest} {view : BenchView} {outside : Outside Command.Response}

theorem boardOf_linux {held : List Board} {role : Role} (linux : role.device = .linux) :
    boardOf manifest view held role = none := by
  rw [boardOf, linux]

theorem boardOf_board {held : List Board} {role : Role} {board : Option Board}
    (named : role.device = .board board) : boardOf manifest view held role = board := by
  rw [boardOf, named]

theorem boardOf_anyEsp {held : List Board} {role : Role} (any : role.device = .anyEsp) :
    boardOf manifest view held role = boardCandidates.find? fun cand =>
      cand ∉ held && fits manifest view role cand := by
  rw [boardOf, any]

theorem reachable_returns (answers : view.Answers manifest outside) :
    (reachable manifest.defaultLinuxPeer).Returns outside view.linuxUp := by
  intro history state
  have echo := answers.reachable history
  cases answer : outside history (.ssh manifest.defaultLinuxPeer .echoOk) with
  | none =>
      rw [answer, Option.any_none] at echo
      simp only [reachable, sshRun, Program.orElse, Program.andThen, bind, Program.call, answer,
        orRaise, Program.raise, Program.ret, pure, echo]
  | some cp =>
      rw [answer, Option.any_some] at echo
      simp only [reachable, sshRun, Program.orElse, Program.andThen, bind, Program.call, answer,
        orRaise, Program.ret, pure, echo]

theorem lookUp_returns (answers : view.Answers manifest outside) (board : Board) :
    (PortLookup.lookUp board).Returns outside (view.port board) := fun history _ =>
  congrArg some (answers.port history board)

theorem anyEsp_returns (answers : view.Answers manifest outside) (role : Role)
    (held cands : List Board) : (anyEsp manifest role held cands).Returns outside
      ((cands.find? fun cand => cand ∉ held && fits manifest view role cand).map .esp) := by
  induction cands with
  | nil => exact .pure none
  | cons cand rest ih =>
      rw [anyEsp]
      by_cases used : cand ∈ held
      · simp only [List.find?_cons, used, not_true_eq_false, decide_false,
          Bool.false_and]
        exact ih
      · simp only [List.find?_cons, used, not_false_eq_true, decide_true,
          Bool.true_and]
        refine (lookUp_returns answers cand).bind ?_
        cases fit : fits manifest view role cand with
        | true =>
            rw [fits] at fit
            rw [if_pos fit]
            exact .pure _
        | false =>
            rw [fits] at fit
            rw [fit, if_neg Bool.false_ne_true]
            exact ih

/-- What `_resolve_role` returns. -/
theorem resolveRole_returns (answers : view.Answers manifest outside) (role : Role)
    (held : List Board) :
    (resolveRole manifest role held).Returns outside (resolved manifest view held role) := by
  rw [resolveRole, resolved, boardOf]
  rcases role.device with _ | _ | _ | board
  · refine (reachable_returns answers).bind ?_
    cases view.linuxUp
    · exact .pure none
    · exact .pure _
  · exact anyEsp_returns answers role held boardCandidates
  · exact .pure none
  · have fit : fits manifest view role board =
        (!(role.requireWired && !manifest.fullyWired board) && (view.port board).isSome) := by
      rw [fits, Bool.not_and, Bool.not_not, Bool.and_comm]
    dsimp only
    rw [Option.filter_some, fit]
    cases role.requireWired && !manifest.fullyWired board with
    | true => exact .pure none
    | false =>
        refine (lookUp_returns answers board).bind ?_
        cases (view.port board).isSome with
        | true => exact .pure _
        | false => exact .pure none

/-- A role is given the board it holds. -/
theorem resolved_eq_esp {held : List Board} {role : Role} {board : Board} :
    resolved manifest view held role = some (.esp board) ↔
      boardOf manifest view held role = some board ∧ fits manifest view role board = true := by
  rw [resolved, boardOf]
  rcases role.device with _ | _ | named
  · split_ifs <;> simp only [Option.some.injEq, reduceCtorEq, false_and]
  · simp only [Option.map_eq_some_iff, Assigned.esp.injEq, exists_eq_right]
    refine ⟨fun found => ⟨found, ?_⟩, And.left⟩
    have free := List.find?_some found
    exact (Bool.and_eq_true_iff.mp free).2
  · simp only [Option.map_eq_some_iff, Option.filter_eq_some_iff, Assigned.esp.injEq,
      exists_eq_right]

theorem resolved_eq_linux {held : List Board} {role : Role} {host : String}
    (handle : resolved manifest view held role = some (.linux host)) : role.device = .linux := by
  rw [resolved] at handle
  cases device : role.device with
  | linux => rfl
  | anyEsp =>
      rw [device] at handle
      obtain ⟨_, -, same⟩ := Option.map_eq_some_iff.mp handle
      cases same
  | board named =>
      rw [device] at handle
      obtain ⟨_, -, same⟩ := Option.map_eq_some_iff.mp handle
      cases same

/-- The loop, from any progress. -/
theorem resolveRoles_returns (answers : view.Answers manifest outside) (roles : List Role)
    (assign : List (String × Assigned)) (held : List Board) :
    (resolveRoles manifest assign held roles).Returns outside
      ((roles.foldlM (assignRole manifest view) (assign, held)).map Prod.fst) := by
  induction roles generalizing assign held with
  | nil => exact .pure _
  | cons role rest ih =>
      refine (resolveRole_returns answers role held).bind ?_
      rw [List.foldlM_cons, assignRole]
      cases handle : resolved manifest view held role with
      | none => exact .pure none
      | some assigned =>
          rw [Option.map_some]
          cases assigned with
          | esp board =>
              have own := (resolved_eq_esp.mp handle).1
              change Program.Returns _ outside (Option.map Prod.fst (List.foldlM _ _ rest))
              rw [own]
              exact ih _ _
          | linux host =>
              have none : boardOf manifest view held role = none := by
                exact boardOf_linux (resolved_eq_linux handle)
              change Program.Returns _ outside (Option.map Prod.fst (List.foldlM _ _ rest))
              rw [none]
              exact ih _ _

/-- No role of `back` has the role's name. -/
def LastNamed (role : Role) (back : List Role) : Prop := ∀ other ∈ back, other.name ≠ role.name

/-- Every name has a last role. -/
theorem exists_lastNamed {roles : List Role} {role : Role} (member : role ∈ roles) :
    ∃ front last back, roles = front ++ last :: back ∧ last.name = role.name ∧
      LastNamed last back := by
  induction roles using List.reverseRecOn with
  | nil => cases member
  | append_singleton roles newest ih =>
      by_cases same : newest.name = role.name
      · exact ⟨roles, newest, [], rfl, same, List.forall_mem_nil _⟩
      · have earlier : role ∈ roles := by
          refine (List.mem_append.mp member).resolve_right fun here => same ?_
          rw [List.mem_singleton.mp here]
        obtain ⟨front, last, back, rfl, named, final⟩ := ih earlier
        refine ⟨front, last, back ++ [newest], ?_, named, ?_⟩
        · rw [List.append_assoc, List.cons_append]
        · refine List.forall_mem_append.mpr ⟨final, List.forall_mem_singleton.mpr ?_⟩
          exact fun equal => same (equal.trans named)

/-- A role of a name and the last of it. -/
theorem lastNamed_of_split (back : List Role) (role : Role) :
    LastNamed role back ∨ ∃ mid last rest, back = mid ++ last :: rest ∧ last.name = role.name ∧
      LastNamed last rest := by
  by_cases final : LastNamed role back
  · exact .inl final
  · obtain ⟨other, member, same⟩ : ∃ other ∈ back, other.name = role.name := by
      simpa only [LastNamed, not_forall, not_not, exists_prop] using final
    obtain ⟨mid, last, rest, split, named, final⟩ := exists_lastNamed member
    exact .inr ⟨mid, last, rest, split, named.trans same, final⟩

/-- Each role can be resolved behind those before it. -/
def EachResolves (manifest : Manifest) (view : BenchView) (roles : List Role) : Prop :=
  ∀ front role back, roles = front ++ role :: back →
    (resolved manifest view (heldBy manifest view front) role).isSome = true

theorem heldBy_concat (roles : List Role) (role : Role) :
    heldBy manifest view (roles ++ [role]) =
      (boardOf manifest view (heldBy manifest view roles) role).toList ++
        heldBy manifest view roles := by
  rw [heldBy, List.foldl_concat, ← heldBy]

/-- A list split at one of its items, with a last item. -/
theorem concat_split {roles front back : List Role} {newest role : Role}
    (split : roles ++ [newest] = front ++ role :: back) :
    (front = roles ∧ role = newest ∧ back = []) ∨
      ∃ rest, back = rest ++ [newest] ∧ roles = front ++ role :: rest := by
  rcases List.eq_nil_or_concat back with rfl | ⟨rest, last, rfl⟩
  · obtain ⟨rfl, same⟩ := List.append_inj' split rfl
    exact .inl ⟨rfl, (List.cons.inj same).1.symm, rfl⟩
  · rw [List.concat_eq_append, ← List.cons_append, ← List.append_assoc] at split
    obtain ⟨rfl, same⟩ := List.append_inj' split rfl
    rw [(List.cons.inj same).1, List.concat_eq_append]
    exact .inr ⟨rest, rfl, rfl⟩

/-- The loop comes to an end when each role can be resolved. -/
theorem exists_assign (roles : List Role) (each : EachResolves manifest view roles) :
    ∃ assign, roles.foldlM (assignRole manifest view) ([], []) =
      some (assign, heldBy manifest view roles) := by
  induction roles using List.reverseRecOn with
  | nil => exact ⟨[], rfl⟩
  | append_singleton roles newest ih =>
      obtain ⟨assign, loop⟩ := ih fun front role back split =>
        each front role (back ++ [newest]) (by rw [split, List.append_assoc, List.cons_append])
      obtain ⟨handle, last⟩ := Option.isSome_iff_exists.mp (each roles newest [] rfl)
      refine ⟨(newest.name, handle) :: assign, ?_⟩
      rw [List.foldlM_append, loop, heldBy_concat]
      simp only [Option.bind_eq_bind, Option.bind_some, List.foldlM_cons, List.foldlM_nil,
        assignRole, last, Option.map_some, Option.pure_def]

/-- A loop that came to an end has resolved each role, the last of each name as it is
looked up. -/
theorem of_assign {roles : List Role} {assign : List (String × Assigned)} {held : List Board}
    (loop : roles.foldlM (assignRole manifest view) ([], []) = some (assign, held)) :
    EachResolves manifest view roles ∧ held = heldBy manifest view roles ∧
      ∀ front role back, roles = front ++ role :: back → LastNamed role back →
        assign.lookup role.name = resolved manifest view (heldBy manifest view front) role := by
  induction roles using List.reverseRecOn generalizing assign held with
  | nil =>
      cases loop
      refine ⟨fun _ _ _ split => ?_, rfl, fun _ _ _ split => ?_⟩
      · exact absurd split.symm (List.append_ne_nil_of_right_ne_nil _ (List.cons_ne_nil _ _))
      · exact absurd split.symm (List.append_ne_nil_of_right_ne_nil _ (List.cons_ne_nil _ _))
  | append_singleton roles newest ih =>
      rw [List.foldlM_append] at loop
      obtain ⟨⟨earlier, before⟩, early, late⟩ := Option.bind_eq_some_iff.mp loop
      obtain ⟨each, rfl, looked⟩ := ih early
      rw [List.foldlM_cons, assignRole] at late
      obtain ⟨progress, last, same⟩ := Option.bind_eq_some_iff.mp late
      obtain ⟨handle, own, rfl⟩ := Option.map_eq_some_iff.mp last
      obtain ⟨rfl, rfl⟩ := Prod.mk.inj (Option.some.inj same)
      refine ⟨?_, (heldBy_concat roles newest).symm, ?_⟩
      · intro front role back split
        rcases concat_split split with ⟨rfl, rfl, rfl⟩ | ⟨rest, rfl, before⟩
        · exact Option.isSome_of_eq_some own
        · exact each front role rest before
      · intro front role back split final
        rcases concat_split split with ⟨rfl, rfl, rfl⟩ | ⟨rest, rfl, before⟩
        · rw [List.lookup_cons_self]
          exact own.symm
        · have different := final newest (List.mem_append_right _ (List.mem_singleton_self _))
          rw [List.lookup_cons, beq_false_of_ne different.symm]
          exact looked front role rest before (List.forall_mem_append.mp final).1

/-- The roles are assigned as they should be: no two of them the same board, the ones that
need it a fully wired board, and all of them an enumerated one. -/
structure WellAssigned (manifest : Manifest) (view : BenchView) (roles : List Role)
    (assign : List (String × Assigned)) : Prop where
  distinct : roles.Pairwise fun role other => ∀ board,
    assign.lookup role.name = some (.esp board) → assign.lookup other.name ≠ some (.esp board)
  wired : ∀ role ∈ roles, role.requireWired = true →
    ∃ board, assign.lookup role.name = some (.esp board) ∧ manifest.fullyWired board = true
  enumerated : ∀ role ∈ roles, ∀ board, assign.lookup role.name = some (.esp board) →
    (view.port board).isSome = true

/-- No role loses its board to another: a name is shared only in front of a Linux role, a
role that needs a wired board does not share it with one, and a role that names its board
does not come behind one that holds it. -/
structure SingleAssignment (manifest : Manifest) (view : BenchView) (roles : List Role) :
    Prop where
  shared : ∀ front role mid last back, roles = front ++ role :: (mid ++ last :: back) →
    last.name = role.name → LastNamed last back → last.device = .linux
  wired : ∀ role ∈ roles, role.requireWired = true → ∀ front last back,
    roles = front ++ last :: back → last.name = role.name → LastNamed last back →
    last.device ≠ .linux
  apart : ∀ front role mid last back board, roles = front ++ role :: (mid ++ last :: back) →
    LastNamed role (mid ++ last :: back) → LastNamed last back →
    last.device = .board (some board) →
    boardOf manifest view (heldBy manifest view front) role ≠ some board

/-- A role that is resolved, and not to the Linux peer, is given a board. -/
theorem resolved_esp {held : List Board} {role : Role}
    (resolves : (resolved manifest view held role).isSome = true)
    (noLinux : role.device ≠ .linux) :
    ∃ board, resolved manifest view held role = some (.esp board) := by
  obtain ⟨handle, own⟩ := Option.isSome_iff_exists.mp resolves
  cases handle with
  | esp board => exact ⟨board, own⟩
  | linux host => exact absurd (resolved_eq_linux own) noLinux

/-- A role that is given a board is no Linux role. -/
theorem noLinux_of_resolved {held : List Board} {role : Role} {board : Board}
    (own : resolved manifest view held role = some (.esp board)) : role.device ≠ .linux := by
  intro linux
  have none := (resolved_eq_esp.mp own).1
  rw [boardOf_linux linux] at none
  cases none

/-- What a role holds is held behind it. -/
theorem mem_heldBy {front mid : List Role} {role : Role} {board : Board}
    (own : boardOf manifest view (heldBy manifest view front) role = some board) :
    board ∈ heldBy manifest view (front ++ role :: mid) := by
  induction mid using List.reverseRecOn with
  | nil =>
      rw [heldBy_concat, own]
      exact List.mem_cons_self
  | append_singleton mid newest ih =>
      rw [← List.cons_append, ← List.append_assoc, heldBy_concat]
      exact List.mem_append_right _ ih

/-- A pair of a list in its order. -/
theorem pairwise_split {α : Type} {relation : α → α → Prop} {front mid back : List α} {a b : α}
    (pairwise : (front ++ a :: (mid ++ b :: back)).Pairwise relation) : relation a b :=
  List.rel_of_pairwise_cons (List.pairwise_append.mp pairwise).2.1
    (List.mem_append_right _ List.mem_cons_self)

theorem pairwise_of_split {α : Type} {relation : α → α → Prop} {l : List α}
    (each : ∀ front a mid b back, l = front ++ a :: (mid ++ b :: back) → relation a b) :
    l.Pairwise relation := by
  induction l with
  | nil => exact .nil
  | cons a l ih =>
      refine .cons (fun b member => ?_) (ih fun front c mid b back split => ?_)
      · obtain ⟨mid, back, rfl⟩ := List.append_of_mem member
        exact each [] a mid b back rfl
      · exact each (a :: front) c mid b back (by rw [split, List.cons_append])

/-- Two items of a list come in one order or the other, or are one. -/
theorem split_compare {α : Type} {front front' back back' : List α} {a b : α}
    (same : front ++ a :: back = front' ++ b :: back') :
    (front = front' ∧ a = b ∧ back = back') ∨
      (∃ mid, front' = front ++ a :: mid ∧ back = mid ++ b :: back') ∨
      ∃ mid, front = front' ++ b :: mid ∧ back' = mid ++ a :: back := by
  rcases List.append_eq_append_iff.mp same with ⟨more, rfl, rest⟩ | ⟨more, rfl, rest⟩
  · cases more with
    | nil =>
        obtain ⟨rfl, rfl⟩ := List.cons.inj rest
        exact .inl ⟨(List.append_nil front).symm, rfl, rfl⟩
    | cons c mid =>
        obtain ⟨rfl, rfl⟩ := List.cons.inj rest
        exact .inr (.inl ⟨mid, rfl, rfl⟩)
  · cases more with
    | nil =>
        obtain ⟨rfl, rfl⟩ := List.cons.inj rest
        exact .inl ⟨List.append_nil front', rfl, rfl⟩
    | cons c mid =>
        obtain ⟨rfl, rfl⟩ := List.cons.inj rest
        exact .inr (.inr ⟨mid, rfl, rfl⟩)

section

variable {roles : List Role} {assign : List (String × Assigned)}

/-- Two last roles of their names hold one board only when the later one names it. -/
theorem SingleAssignment.ne_board (single : SingleAssignment manifest view roles)
    {front mid back : List Role} {role last : Role}
    (split : roles = front ++ role :: (mid ++ last :: back))
    (finalRole : LastNamed role (mid ++ last :: back)) (finalLast : LastNamed last back)
    {board : Board}
    (first : resolved manifest view (heldBy manifest view front) role = some (.esp board)) :
    resolved manifest view (heldBy manifest view (front ++ role :: mid)) last ≠
      some (.esp board) := by
  intro second
  have held := (resolved_eq_esp.mp first).1
  have named := (resolved_eq_esp.mp second).1
  cases device : last.device with
  | linux => exact noLinux_of_resolved second device
  | anyEsp =>
      rw [boardOf_anyEsp device] at named
      have free := List.find?_some named
      exact of_decide_eq_true (Bool.and_eq_true_iff.mp free).1 (mem_heldBy held)
  | board own =>
      rw [boardOf_board device] at named
      exact single.apart front role mid last back board split finalRole finalLast
        (device.trans (congrArg Device.board named)) held

/-- What the loop leaves: the last role of each name under its name. -/
structure AssignsLast (manifest : Manifest) (view : BenchView) (roles : List Role)
    (assign : List (String × Assigned)) : Prop where
  each : EachResolves manifest view roles
  looked : ∀ front role back, roles = front ++ role :: back → LastNamed role back →
    assign.lookup role.name = resolved manifest view (heldBy manifest view front) role

theorem split_later {front mid back : List Role} {role last : Role}
    (split : roles = front ++ role :: (mid ++ last :: back)) :
    roles = (front ++ role :: mid) ++ last :: back := by
  rw [split, List.append_assoc, List.cons_append]

/-- Distinct boards: a role that another has the name of is a Linux role. -/
theorem WellAssigned.shared (well : WellAssigned manifest view roles assign)
    (left : AssignsLast manifest view roles assign) {front mid back : List Role} {role last : Role}
    (split : roles = front ++ role :: (mid ++ last :: back)) (named : last.name = role.name)
    (final : LastNamed last back) : last.device = .linux := by
  by_contra noLinux
  obtain ⟨board, own⟩ := resolved_esp (left.each _ _ _ (split_later split)) noLinux
  have isLast := (left.looked _ _ _ (split_later split) final).trans own
  have isRole := isLast
  rw [named] at isRole
  have distinct := well.distinct
  rw [split] at distinct
  exact pairwise_split distinct board isRole isLast

/-- Distinct boards: a board that a role holds is not named behind it. -/
theorem WellAssigned.apart (well : WellAssigned manifest view roles assign)
    (left : AssignsLast manifest view roles assign) {front mid back : List Role} {role last : Role}
    {board : Board} (split : roles = front ++ role :: (mid ++ last :: back))
    (finalRole : LastNamed role (mid ++ last :: back)) (finalLast : LastNamed last back)
    (device : last.device = .board (some board)) :
    boardOf manifest view (heldBy manifest view front) role ≠ some board := by
  intro own
  have noLinux : role.device ≠ .linux := by
    intro linux
    rw [boardOf_linux linux] at own
    cases own
  have noLinux' : last.device ≠ .linux := by
    rw [device]
    exact Device.noConfusion
  obtain ⟨first, isFirst⟩ := resolved_esp (left.each front role _ split) noLinux
  obtain rfl := Option.some.inj ((resolved_eq_esp.mp isFirst).1.symm.trans own)
  obtain ⟨second, isSecond⟩ := resolved_esp (left.each _ _ _ (split_later split)) noLinux'
  have same := (resolved_eq_esp.mp isSecond).1
  rw [boardOf_board device] at same
  obtain rfl := Option.some.inj same
  have distinct := well.distinct
  rw [split] at distinct
  exact pairwise_split distinct first ((left.looked front role _ split finalRole).trans isFirst)
    ((left.looked _ _ _ (split_later split) finalLast).trans isSecond)

/-- No board is assigned to a role and to one behind it. -/
theorem SingleAssignment.distinct (single : SingleAssignment manifest view roles)
    (left : AssignsLast manifest view roles assign) {front mid back : List Role} {role other : Role}
    (split : roles = front ++ role :: (mid ++ other :: back)) {board : Board}
    (isRole : assign.lookup role.name = some (.esp board)) :
    assign.lookup other.name ≠ some (.esp board) := by
  intro isOther
  by_cases sameName : other.name = role.name
  · obtain ⟨front', last, back', rest, named, final⟩ :=
      exists_lastNamed (List.mem_cons_self : other ∈ other :: back)
    rw [rest, ← List.append_assoc] at split
    have linux := single.shared front role (mid ++ front') last back' split
      (named.trans sameName) final
    rw [← named, left.looked _ _ _ (split_later split) final] at isOther
    exact noLinux_of_resolved isOther linux
  · have member : role ∈ roles := by
      rw [split]
      exact List.mem_append_right _ List.mem_cons_self
    have member' : other ∈ roles := by
      rw [split_later split]
      exact List.mem_append_right _ List.mem_cons_self
    obtain ⟨front₁, last₁, back₁, place₁, named₁, final₁⟩ := exists_lastNamed member
    obtain ⟨front₂, last₂, back₂, place₂, named₂, final₂⟩ := exists_lastNamed member'
    rw [← named₁, left.looked _ _ _ place₁ final₁] at isRole
    rw [← named₂, left.looked _ _ _ place₂ final₂] at isOther
    rcases split_compare (place₁.symm.trans place₂) with
      ⟨-, same, -⟩ | ⟨between, rfl, rfl⟩ | ⟨between, rfl, rfl⟩
    · exact sameName (named₂.symm.trans (same ▸ named₁))
    · exact single.ne_board place₁ final₁ final₂ isRole isOther
    · exact single.ne_board place₂ final₂ final₁ isOther isRole

/-- A role that needs a wired board is on one. -/
theorem SingleAssignment.on_wired (single : SingleAssignment manifest view roles)
    (left : AssignsLast manifest view roles assign) {role : Role} (member : role ∈ roles)
    (needsWire : role.requireWired = true) :
    ∃ board, assign.lookup role.name = some (.esp board) ∧ manifest.fullyWired board = true := by
  obtain ⟨front, back, split⟩ := List.append_of_mem member
  rcases lastNamed_of_split back role with final | ⟨mid, last, rest, rfl, named, final⟩
  · have noLinux := single.wired role member needsWire front role back split rfl final
    obtain ⟨board, own⟩ := resolved_esp (left.each front role back split) noLinux
    refine ⟨board, (left.looked front role back split final).trans own, ?_⟩
    have wired := (Bool.and_eq_true_iff.mp (resolved_eq_esp.mp own).2).2
    rwa [needsWire, Bool.not_true, Bool.false_or] at wired
  · have linux := single.shared front role mid last rest split named final
    exact absurd linux (single.wired role member needsWire _ last rest (split_later split) named
      final)

/-- The boards are assigned as they should be exactly when no role loses its own. -/
theorem wellAssigned_iff {held : List Board}
    (loop : roles.foldlM (assignRole manifest view) ([], []) = some (assign, held)) :
    WellAssigned manifest view roles assign ↔ SingleAssignment manifest view roles := by
  obtain ⟨each, -, looked⟩ := of_assign loop
  have left : AssignsLast manifest view roles assign := ⟨each, looked⟩
  constructor
  · intro well
    refine ⟨fun _ _ _ _ _ => well.shared left, ?_, fun _ _ _ _ _ _ => well.apart left⟩
    intro role member needsWire front last back split named final linux
    obtain ⟨board, isRole, -⟩ := well.wired role member needsWire
    rw [← named, looked front last back split final] at isRole
    exact noLinux_of_resolved isRole linux
  · intro single
    refine ⟨?_, fun role => single.on_wired left, ?_⟩
    · exact pairwise_of_split fun _ _ _ _ _ split _ => single.distinct left split
    · intro role member board isRole
      obtain ⟨front, last, back, split, named, final⟩ := exists_lastNamed member
      rw [← named, looked front last back split final] at isRole
      exact (Bool.and_eq_true_iff.mp (resolved_eq_esp.mp isRole).2).1

end

end

/-- On a bench that shows the view, the loop assigns the roles as it should, or the test is
skipped and nothing flashed. -/
structure AssignsOrSkips (manifest : Manifest) (view : BenchView) (t : T2Test) : Prop where
  assigns : ∀ outside, view.Answers manifest outside → ∀ history suite assign,
    t.roles.any (fun role => role.reporter) = true →
    (resolveRoles manifest [] [] t.roles outside history suite).value = some (some assign) →
    WellAssigned manifest view t.roles assign
  skips : ∀ outside, view.Answers manifest outside → ∀ history suite,
    (∀ assign, ¬ (t.roles.any (fun role => role.reporter) = true ∧
      (resolveRoles manifest [] [] t.roles outside history suite).value = some (some assign))) →
    (runOrchestrated manifest t outside history suite).state.results =
        suite.results ++ [(t.slug, .skip)] ∧
      ∀ called ∈ (runOrchestrated manifest t outside history suite).calls, NoFlash called

section

variable {manifest : Manifest} {view : BenchView}

/-- Resolving roles leaves the suite alone and flashes nothing. -/
theorem resolve_noFlash : ResolveSteps (Untouched NoFlash) where
  composes := Only.composes
  resolvePort _ := resolvePort_only fun _ _ => ⟨rfl, rfl⟩
  reachable _ := reachable_only fun _ _ => ⟨rfl, rfl⟩

/-- A test whose roles cannot be resolved is skipped, and nothing flashed. -/
theorem runOrchestrated_unresolved {t : T2Test} {outside : Outside Command.Response}
    {history : List BenchCall} {suite : Suite}
    (reports : t.roles.any (fun role => role.reporter) = true)
    (unresolved : (resolveRoles manifest [] [] t.roles outside history suite).value = some none) :
    (runOrchestrated manifest t outside history suite).state.results =
        suite.results ++ [(t.slug, .skip)] ∧
      ∀ called ∈ (runOrchestrated manifest t outside history suite).calls, NoFlash called := by
  have follows := @ResolveSteps.resolveRoles manifest _ _ resolve_noFlash [] [] t.roles
  obtain ⟨same, quiet⟩ := follows suite outside history
  rw [runOrchestrated, reports, Bool.not_true, if_neg Bool.false_ne_true,
    Program.bind_of_returns unresolved]
  refine ⟨?_, ?_⟩
  · change (resolveRoles manifest [] [] t.roles outside history suite).state.results ++ _ = _
    rw [same]
  · intro called member
    exact quiet called ((List.mem_append.mp member).resolve_right List.not_mem_nil)

/-- A test without a reporter fails. -/
theorem runOrchestrated_mute {t : T2Test} {outside : Outside Command.Response}
    {history : List BenchCall} {suite : Suite}
    (mute : t.roles.any (fun role => role.reporter) = false) :
    (runOrchestrated manifest t outside history suite).state.results =
      suite.results ++ [(t.slug, .fail)] := by
  rw [runOrchestrated, mute, Bool.not_false, if_pos rfl]
  rfl

/-- A test assigns its roles as it should, or is skipped, exactly when it has a reporter and
either some role cannot be resolved or no role loses its board to another. -/
theorem roles_assigned_iff (manifest : Manifest) (view : BenchView) (t : T2Test) :
    AssignsOrSkips manifest view t ↔
      t.roles.any (fun role => role.reporter) = true ∧
        (EachResolves manifest view t.roles → SingleAssignment manifest view t.roles) := by
  constructor
  · rintro ⟨assigns, skips⟩
    have answers := view.outside_answers manifest
    have reports : t.roles.any (fun role => role.reporter) = true := by
      by_contra mute
      obtain ⟨skipped, -⟩ := skips view.outside answers [] .fresh fun _ both => mute both.1
      rw [runOrchestrated_mute (Bool.eq_false_iff.mpr mute)] at skipped
      cases skipped
    refine ⟨reports, fun each => ?_⟩
    obtain ⟨assign, loop⟩ := exists_assign t.roles each
    have returns := resolveRoles_returns answers t.roles [] [] [] Suite.fresh
    rw [loop, Option.map_some] at returns
    exact (wellAssigned_iff loop).mp (assigns view.outside answers [] .fresh assign reports returns)
  · rintro ⟨reports, single⟩
    constructor
    · intro outside answers history suite assign _ resolves
      have returns := resolveRoles_returns answers t.roles [] [] history suite
      rw [resolves, Option.some.injEq, eq_comm, Option.map_eq_some_iff] at returns
      obtain ⟨⟨assign, held⟩, loop, rfl⟩ := returns
      exact (wellAssigned_iff loop).mpr (single (of_assign loop).1)
    · intro outside answers history suite unresolved
      have returns := resolveRoles_returns answers t.roles [] [] history suite
      apply runOrchestrated_unresolved reports
      rw [returns]
      congr 1
      cases loop : t.roles.foldlM (assignRole manifest view) ([], []) with
      | none => rfl
      | some progress =>
          rw [loop, Option.map_some] at returns
          exact absurd ⟨reports, returns⟩ (unresolved progress.1)

end

/-- A manifest with one fully wired board. -/
def benchManifest : Manifest where
  apps := []
  notImplemented := []
  fullyWired board := board = .board2
  linuxNodes := fun _ => none
  linuxKnown := false
  defaultLinuxPeer := ""

/-- A reporter on any board, and an access point on the board it is given. -/
def doublyAssigned : T2Test where
  slug := "apsta"
  roles := [⟨"sta", .anyEsp, some "test-apsta-sta", true, none, false, .unknown, by decide⟩,
    ⟨"ap", .board (some .board2), some "test-apsta-ap", false, none, false, .unknown, by decide⟩]
  notIdle := by decide

/-- Two roles are assigned one board. -/
theorem doublyAssigned_assigns : ¬ ∀ manifest view t, AssignsOrSkips manifest view t := by
  intro always
  let view : BenchView := ⟨fun board => some board.name, false⟩
  have well := (always benchManifest view doublyAssigned).assigns view.outside
    (view.outside_answers benchManifest) [] .fresh
    [("ap", .esp .board2), ("sta", .esp .board2)] rfl rfl
  have apart := (List.pairwise_cons.mp well.distinct).1 _ List.mem_cons_self
  exact apart .board2 rfl rfl

end Rimba.Regtest
