import Rimba.Regtest.Bench

/-! # Silencing boards

What flashes a list of calls holds, and what `go_radio_silent` adds to it: the idle
app is flashed to a board exactly when the board is enumerated at its turn and no
flash before its turn raises (`Rimba.Regtest.Silencing.reached_iff`).
-/

namespace Rimba.Regtest

open Foundation (Program)

section

variable {holds also : BenchCall → Bool} {calls : List BenchCall}

theorem any_eq_false_of_forall (none : ∀ called ∈ calls, holds called = false) :
    calls.any holds = false :=
  List.any_eq_false.mpr fun called member => Bool.eq_false_iff.mp (none called member)

theorem any_and_eq_false (none : calls.any holds = false) :
    calls.any (fun called => holds called && also called) = false := by
  rw [List.any_eq_false] at none ⊢
  intro called member both
  exact none called member (Bool.and_eq_true_iff.mp both).1

end

/-- Flashing the idle app to a board is started. -/
def flashesIdle (board : Board) (called : BenchCall) : Bool :=
  match called.command with
  | .make app target _ => target = board && app = idleApp
  | _ => false

/-- Flashing another app to a board is started. -/
def flashesOther (board : Board) (called : BenchCall) : Bool :=
  match called.command with
  | .make app target _ => target = board && app ≠ idleApp
  | _ => false

/-- A call that flashes nothing. -/
def NoFlash (called : BenchCall) : Prop :=
  ∀ board, flashesIdle board called = false ∧ flashesOther board called = false

/-- A flash returns zero. -/
def succeeds : BenchCall → Bool
  | ⟨.make _ _ _, answer⟩ => answer.any fun cp => cp.returncode = 0
  | _ => false

/-- A flash raises. -/
def raises : BenchCall → Bool
  | ⟨.make _ _ _, answer⟩ => answer.isNone
  | _ => false

/-- What the resolving of a board's port has answered. -/
def portAnswer (board : Board) : BenchCall → Option (Option String)
  | ⟨.resolvePort target, answer⟩ => if target = board then some answer else none
  | _ => none

/-- The port a board was last resolved to. -/
def lastPort (board : Board) (calls : List BenchCall) : Option String :=
  (calls.filterMap (portAnswer board)).getLast?.join

/-- Calls that do not resolve the board leave its port. -/
theorem lastPort_append {board : Board} {front back : List BenchCall}
    (unresolved : back.filterMap (portAnswer board) = []) :
    lastPort board (front ++ back) = lastPort board front := by
  rw [lastPort, List.filterMap_append, unresolved, List.append_nil, lastPort]

section

variable {board target : Board} {port : Option String}

@[simp] theorem flashesIdle_resolvePort {answer : Option String} :
    flashesIdle board ⟨.resolvePort target, answer⟩ = false := rfl

@[simp] theorem flashesOther_resolvePort {answer : Option String} :
    flashesOther board ⟨.resolvePort target, answer⟩ = false := rfl

@[simp] theorem flashesIdle_make {app : String} {answer : Option CompletedProcess} :
    flashesIdle board ⟨.make app target port, answer⟩ = (target = board && app = idleApp) := rfl

@[simp] theorem flashesOther_make {app : String} {answer : Option CompletedProcess} :
    flashesOther board ⟨.make app target port, answer⟩ = (target = board && app ≠ idleApp) := rfl

@[simp] theorem raises_make {app : String} {answer : Option CompletedProcess} :
    raises ⟨.make app target port, answer⟩ = answer.isNone := rfl

@[simp] theorem raises_resolvePort {answer : Option String} :
    raises ⟨.resolvePort target, answer⟩ = false := rfl

@[simp] theorem portAnswer_resolvePort {answer : Option String} :
    portAnswer board ⟨.resolvePort target, answer⟩ = if target = board then some answer else none :=
  rfl

@[simp] theorem portAnswer_make {app : String} {answer : Option CompletedProcess} :
    portAnswer board ⟨.make app target port, answer⟩ = none := rfl

end

/-- Some flash of the idle app to a board raises. -/
def idleRaises (board : Board) (calls : List BenchCall) : Bool :=
  calls.any fun called => flashesIdle board called && raises called

theorem idleRaises_cons (board : Board) (called : BenchCall) (calls : List BenchCall) :
    idleRaises board (called :: calls) =
      (flashesIdle board called && raises called || idleRaises board calls) := List.any_cons

theorem idleRaises_append (board : Board) (front back : List BenchCall) :
    idleRaises board (front ++ back) = (idleRaises board front || idleRaises board back) :=
  List.any_append

/-- Some flash of another app to a board returns zero. -/
def flashSucceeds (board : Board) (calls : List BenchCall) : Bool :=
  calls.any fun called => flashesOther board called && succeeds called

theorem flashSucceeds_append (board : Board) (front back : List BenchCall) :
    flashSucceeds board (front ++ back) =
      (flashSucceeds board front || flashSucceeds board back) := List.any_append

theorem flashSucceeds_of_not_other {board : Board} {calls : List BenchCall}
    (not : calls.any (flashesOther board) = false) : flashSucceeds board calls = false :=
  any_and_eq_false not

theorem idleRaises_of_busy {board : Board} {calls : List BenchCall}
    (busy : calls.any (flashesIdle board) = false) : idleRaises board calls = false :=
  any_and_eq_false busy

/-- Behind every start of a flash of another app to a board, a flash of the idle app
to it is started. -/
def LeftSilent (calls : List BenchCall) : Prop :=
  ∀ board front called back, calls = front ++ called :: back → flashesOther board called = true →
    back.any (flashesIdle board) = true

/-- Other apps are flashed first, and the idle app then: every board is left silent
that the idle app is flashed to. -/
theorem leftSilent_iff {main silencing : List BenchCall}
    (busy : ∀ board, main.any (flashesIdle board) = false)
    (idle : ∀ board, silencing.any (flashesOther board) = false) :
    LeftSilent (main ++ silencing) ↔
      ∀ board, main.any (flashesOther board) = true → silencing.any (flashesIdle board) = true := by
  constructor
  · intro silent board started
    obtain ⟨called, member, other⟩ := List.any_eq_true.mp started
    obtain ⟨front, back, rfl⟩ := List.append_of_mem member
    have later := silent board front called (back ++ silencing) (by simp) other
    have none : back.any (flashesIdle board) = false := by
      have all := busy board
      rw [List.any_append, List.any_cons, Bool.or_eq_false_iff, Bool.or_eq_false_iff] at all
      exact all.2.2
    rw [List.any_append, none, Bool.false_or] at later
    exact later
  · intro each board front called back split other
    rcases List.append_eq_append_iff.mp split with ⟨rest, rfl, late⟩ | ⟨rest, rfl, early⟩
    · have member : called ∈ silencing := by
        rw [late]
        simp
      exact absurd (List.any_eq_true.mpr ⟨called, member, other⟩) (by rw [idle board]; decide)
    · cases rest with
      | nil =>
          have member : called ∈ silencing := by
            rw [List.nil_append] at early
            rw [← early]
            simp
          exact absurd (List.any_eq_true.mpr ⟨called, member, other⟩) (by rw [idle board]; decide)
      | cons first rest =>
          obtain ⟨rfl, rfl⟩ := List.cons.inj early
          have started : (front ++ called :: rest).any (flashesOther board) = true :=
            List.any_eq_true.mpr ⟨called, by simp, other⟩
          change (rest ++ silencing).any (flashesIdle board) = true
          rw [List.any_append, each board started, Bool.or_true]

/-- The calls of silencing some boards, in order. -/
inductive Silencing : List Board → List BenchCall → Prop where
  | nil : Silencing [] []
  | absent {board : Board} {rest : List Board} {calls : List BenchCall} :
      Silencing rest calls → Silencing (board :: rest) (⟨.resolvePort board, none⟩ :: calls)
  | flashed {board : Board} {rest : List Board} {calls : List BenchCall} {port : String}
      {cp : CompletedProcess} :
      Silencing rest calls → Silencing (board :: rest)
        (⟨.resolvePort board, some port⟩ :: ⟨.make idleApp board (some port), some cp⟩ :: calls)
  | raised {board : Board} {rest : List Board} {port : String} :
      Silencing (board :: rest)
        [⟨.resolvePort board, some port⟩, ⟨.make idleApp board (some port), none⟩]

theorem resolvePort_ensures {board : Board} {suite : Suite}
    {post : Option (Option String) → Suite → List BenchCall → Prop}
    (holds : ∀ answer, post (some answer) suite [⟨.resolvePort board, answer⟩]) :
    (resolvePort board).Ensures suite post :=
  Program.Ensures.call holds

theorem make_ensures {app : String} {board : Board} {port : Option String} {suite : Suite}
    {post : Option CompletedProcess → Suite → List BenchCall → Prop}
    (holds : ∀ answer, post answer suite [⟨.make app board port, answer⟩]) :
    (make app board port).Ensures suite post :=
  Program.Ensures.bind (Program.Ensures.call fun answer => orRaise_ensures (holds answer))

namespace Silencing

variable {boards : List Board} {calls : List BenchCall} {board : Board}

theorem not_other (silencing : Silencing boards calls) (board : Board) :
    calls.any (flashesOther board) = false := by
  induction silencing with
  | nil => rfl
  | absent _ ih => simpa using ih
  | flashed _ ih => simpa using ih
  | raised => simp

/-- A board that is not to be silenced is not touched. -/
theorem untouched (silencing : Silencing boards calls) (other : board ∉ boards) :
    calls.any (flashesIdle board) = false ∧ calls.filterMap (portAnswer board) = [] := by
  induction silencing with
  | nil => exact ⟨rfl, rfl⟩
  | absent _ ih =>
      obtain ⟨here, later⟩ := List.ne_and_not_mem_of_not_mem_cons other
      simpa [Ne.symm here, List.filterMap_cons] using ih later
  | flashed _ ih =>
      obtain ⟨here, later⟩ := List.ne_and_not_mem_of_not_mem_cons other
      simpa [Ne.symm here, List.filterMap_cons] using ih later
  | raised =>
      have here := List.ne_of_not_mem_cons other
      simp [Ne.symm here, List.filterMap_cons]

theorem not_idleRaises (silencing : Silencing boards calls) (other : board ∉ boards) :
    idleRaises board calls = false :=
  idleRaises_of_busy (silencing.untouched other).1

/-- The idle app is flashed to a board exactly when the board is enumerated at its
turn and no flash before its turn raises. -/
theorem reached_iff (silencing : Silencing boards calls) (distinct : boards.Nodup)
    (member : board ∈ boards) (front : List BenchCall) :
    calls.any (flashesIdle board) = true ↔
      (lastPort board (front ++ calls)).isSome = true ∧
        ∀ other ∈ boards.takeWhile (· ≠ board), idleRaises other calls = false := by
  induction silencing generalizing front with
  | nil => cases member
  | @absent first rest calls silencing ih =>
      obtain ⟨fresh, distinct⟩ := List.nodup_cons.mp distinct
      by_cases here : first = board
      · subst here
        obtain ⟨idle, ports⟩ := silencing.untouched fresh
        simp [idle, lastPort, List.filterMap_append, ports]
      · have later := ih distinct ((List.mem_cons.mp member).resolve_left (Ne.symm here))
          (front ++ [⟨.resolvePort first, none⟩])
        have noRaise := silencing.not_idleRaises fresh
        simpa [here, idleRaises_cons, noRaise] using later
  | @flashed first rest calls port cp silencing ih =>
      obtain ⟨fresh, distinct⟩ := List.nodup_cons.mp distinct
      by_cases here : first = board
      · subst here
        obtain ⟨idle, ports⟩ := silencing.untouched fresh
        simp [lastPort, List.filterMap_append, List.filterMap_cons, ports]
      · have later := ih distinct ((List.mem_cons.mp member).resolve_left (Ne.symm here))
          (front ++ [⟨.resolvePort first, some port⟩, ⟨.make idleApp first (some port), some cp⟩])
        have noRaise := silencing.not_idleRaises fresh
        simpa [here, idleRaises_cons, noRaise] using later
  | @raised first rest port =>
      by_cases here : first = board
      · subst here
        simp [lastPort, List.filterMap_append, List.filterMap_cons]
      · simp [here, idleRaises_cons]

end Silencing

/-- Silencing leaves the suite alone, raises exactly when a flash does, and returns one
record for each board, under the board's name. -/
structure WentSilent (suite : Suite) (boards : List Board)
    (value : Option (List (String × Status))) (final : Suite) (calls : List BenchCall) : Prop where
  same : final = suite
  made : Silencing boards calls
  raised : calls.any raises = value.isNone
  named : ∀ silenced, value = some silenced →
    silenced.map Prod.fst = boards.map fun board => board.name ++ " -> " ++ idleApp

/-- A board whose calls raise nothing adds its record in front of the others'. -/
theorem WentSilent.cons {suite final : Suite} {board : Board} {rest : List Board}
    {value : Option (List (String × Status))} {calls first : List BenchCall}
    (silent : WentSilent suite rest value final calls)
    (made : Silencing (board :: rest) (first ++ calls)) (calm : first.any raises = false)
    (status : Status) :
    WentSilent suite (board :: rest)
      (value.map fun silenced => (board.name ++ " -> " ++ idleApp, status) :: silenced) final
      (first ++ calls) where
  same := silent.same
  made := made
  raised := by rw [List.any_append, calm, Bool.false_or, silent.raised, Option.isNone_map]
  named all returned := by
    obtain ⟨silenced, isValue, rfl⟩ := Option.map_eq_some_iff.mp returned
    rw [List.map_cons, silent.named silenced isValue, List.map_cons]

/-- The records of the other boards are returned behind one that is known already. -/
theorem WentSilent.behind {suite : Suite} {boards rest : List Board} {record : String × Status}
    (first : List BenchCall)
    (later : (goRadioSilent rest).Ensures suite fun value final calls =>
      WentSilent suite boards (value.map fun silenced => record :: silenced) final
        (first ++ calls)) :
    (goRadioSilent rest >>= fun silenced => pure (record :: silenced)).Ensures suite
      fun value final calls => WentSilent suite boards value final (first ++ calls) := by
  refine Program.Ensures.bind (later.mono fun value final calls silent => ?_)
  cases value with
  | none => exact silent
  | some silenced =>
      refine Program.Ensures.pure ?_
      rwa [List.append_nil]

theorem goRadioSilent_ensures (boards : List Board) (suite : Suite) :
    (goRadioSilent boards).Ensures suite fun value final calls =>
      WentSilent suite boards value final calls := by
  induction boards generalizing suite with
  | nil =>
      refine Program.Ensures.pure ⟨rfl, .nil, rfl, fun silenced returned => ?_⟩
      cases returned
      rfl
  | cons board rest ih =>
      refine Program.Ensures.bind (resolvePort_ensures fun answer => ?_)
      cases answer with
      | none =>
          exact .behind [⟨.resolvePort board, none⟩]
            ((ih suite).mono fun _ _ _ silent => silent.cons silent.made.absent rfl _)
      | some port =>
          refine Program.Ensures.bind (make_ensures fun flashed => ?_)
          cases flashed with
          | none => exact ⟨rfl, .raised, rfl, nofun⟩
          | some cp =>
              exact .behind
                [⟨.resolvePort board, some port⟩, ⟨.make idleApp board (some port), some cp⟩]
                ((ih suite).mono fun _ _ _ silent => silent.cons silent.made.flashed rfl _)

end Rimba.Regtest
