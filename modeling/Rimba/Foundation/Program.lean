import Mathlib.Data.List.Basic

/-! # Programs that call the outside and may raise

A program calls operations of the outside, which may answer anything, and keeps
a state that an exception does not undo. What holds of a program whatever the
outside answers (`Foundation.Program.Ensures`) is derived along the program: one
rule for each way to build one. A relation that composes along a program
(`Foundation.Composes`) holds of the whole when it holds of its parts. A loop whose
bodies return reaches every item (`Foundation.Program.forEach_reaches`).
-/

namespace Foundation

variable {Command : Type} {Response : Command → Type}

/-- A call, and what came of it. -/
structure Called (Response : Command → Type) where
  command : Command
  response : Response command

/-- What the outside answers, behind the calls made so far. -/
abbrev Outside (Response : Command → Type) :=
  List (Called Response) → (command : Command) → Response command

/-- What a program leaves: its value, unless it raised, its state, and the calls it made. -/
structure Ended (Response : Command → Type) (State Value : Type) where
  value : Option Value
  state : State
  calls : List (Called Response)

/-- A program, run behind the calls made so far. -/
def Program (Response : Command → Type) (State Value : Type) :=
  Outside Response → List (Called Response) → State → Ended Response State Value

namespace Program

variable {State Value Other : Type}

/-- Run a program from its start. -/
def run (program : Program Response State Value) (outside : Outside Response) (state : State) :
    Ended Response State Value :=
  program outside [] state

/-- Run a second program behind a first. -/
def andThen (first : Program Response State Value)
    (later : Option Value → Program Response State Other) : Program Response State Other :=
  fun outside history state =>
    let ended := first outside history state
    let next := later ended.value outside (history ++ ended.calls) ended.state
    { next with calls := ended.calls ++ next.calls }

def ret (value : Option Value) : Program Response State Value := fun _ _ state => ⟨value, state, []⟩

/-- Raise an exception. -/
def raise : Program Response State Value := ret none

instance : Monad (Program Response State) where
  pure value := ret (some value)
  bind first later := andThen first fun
    | some value => later value
    | none => raise

/-- Call the outside. -/
def call (command : Command) : Program Response State (Response command) :=
  fun outside history state =>
    let response := outside history command
    ⟨some response, state, [⟨command, response⟩]⟩

/-- Change the state. -/
def update (change : State → State) : Program Response State Unit :=
  fun _ _ state => ⟨some (), change state, []⟩

/-- Read the state. -/
def current : Program Response State State := fun _ _ state => ⟨some state, state, []⟩

/-- Run a program, and a second one when it raised. -/
def orElse (program handler : Program Response State Value) : Program Response State Value :=
  andThen program fun
    | some value => ret (some value)
    | none => handler

/-- Run a program, and a last one however it ended. -/
def ensuring (program : Program Response State Value) (last : Program Response State Unit) :
    Program Response State Value :=
  andThen program fun value => andThen last fun finished => ret (finished.bind fun _ => value)

/-- Run a program for each item of a list. -/
def forEach {Item : Type} (items : List Item) (body : Item → Program Response State Unit) :
    Program Response State Unit :=
  match items with
  | [] => pure ()
  | item :: rest => body item >>= fun _ => forEach rest body

/-- What holds, whatever the outside answers, of what a program leaves when it is
run from a state. -/
def Ensures (program : Program Response State Value) (state : State)
    (post : Option Value → State → List (Called Response) → Prop) : Prop :=
  ∀ outside history, post (program outside history state).value
    (program outside history state).state (program outside history state).calls

variable {state : State} {post : Option Value → State → List (Called Response) → Prop}
  {program : Program Response State Value}

theorem Ensures.run (ensures : program.Ensures state post) (outside : Outside Response) :
    post (program.run outside state).value (program.run outside state).state
      (program.run outside state).calls :=
  ensures outside []

theorem Ensures.mono {weaker : Option Value → State → List (Called Response) → Prop}
    (ensures : program.Ensures state post)
    (imp : ∀ value final calls, post value final calls → weaker value final calls) :
    program.Ensures state weaker :=
  fun outside history => imp _ _ _ (ensures outside history)

theorem Ensures.andThen {later : Option Value → Program Response State Other}
    {last : Option Other → State → List (Called Response) → Prop}
    (ensures : program.Ensures state fun value middle calls =>
      (later value).Ensures middle fun result final more => last result final (calls ++ more)) :
    (program.andThen later).Ensures state last :=
  fun outside history => ensures outside history outside _

theorem Ensures.ret {value : Option Value} (holds : post value state []) :
    (ret value : Program Response State Value).Ensures state post :=
  fun _ _ => holds

theorem Ensures.raise (holds : post none state []) :
    (raise : Program Response State Value).Ensures state post :=
  Ensures.ret holds

theorem Ensures.pure {value : Value} (holds : post (some value) state []) :
    (Pure.pure value : Program Response State Value).Ensures state post :=
  Ensures.ret holds

/-- A program, then what is made of its value, unless it raised. -/
theorem Ensures.bind {later : Value → Program Response State Other}
    {last : Option Other → State → List (Called Response) → Prop}
    (ensures : program.Ensures state fun
      | some value, middle, calls =>
          (later value).Ensures middle fun result final more => last result final (calls ++ more)
      | none, middle, calls => last none middle calls) :
    (program >>= later).Ensures state last := by
  refine Ensures.andThen (ensures.mono fun value middle calls holds => ?_)
  cases value with
  | some value => exact holds
  | none => exact Ensures.raise (by rw [List.append_nil]; exact holds)

/-- A program that may leave anything, then what is made of its value. -/
theorem Ensures.bind_any {later : Value → Program Response State Other}
    {last : Option Other → State → List (Called Response) → Prop}
    (raised : ∀ middle calls, last none middle calls)
    (returned : ∀ value middle calls,
      (later value).Ensures middle fun result final more => last result final (calls ++ more)) :
    (program >>= later).Ensures state last := by
  refine Ensures.bind fun outside history => ?_
  cases (program outside history state).value with
  | some value => exact returned value _ _
  | none => exact raised _ _

theorem Ensures.call {command : Command}
    {answered : Option (Response command) → State → List (Called Response) → Prop}
    (holds : ∀ response, answered (some response) state [⟨command, response⟩]) :
    (call command : Program Response State _).Ensures state answered :=
  fun _ _ => holds _

theorem Ensures.update {change : State → State}
    {changed : Option Unit → State → List (Called Response) → Prop}
    (holds : changed (some ()) (change state) []) :
    (update change : Program Response State _).Ensures state changed :=
  fun _ _ => holds

theorem Ensures.current {read : Option State → State → List (Called Response) → Prop}
    (holds : read (some state) state []) :
    (current : Program Response State _).Ensures state read :=
  fun _ _ => holds

/-- A program, and its handler when it raised. -/
theorem Ensures.orElse {handler : Program Response State Value}
    (ensures : program.Ensures state fun
      | some value, middle, calls => post (some value) middle calls
      | none, middle, calls =>
          handler.Ensures middle fun result final more => post result final (calls ++ more)) :
    (program.orElse handler).Ensures state post := by
  refine Ensures.andThen (ensures.mono fun value middle calls holds => ?_)
  cases value with
  | some value => exact Ensures.ret (by rw [List.append_nil]; exact holds)
  | none => exact holds

/-- A program, and what is run however it ended. -/
theorem Ensures.ensuring {last : Program Response State Unit}
    (ensures : program.Ensures state fun value middle calls =>
      last.Ensures middle fun finished final more =>
        post (finished.bind fun _ => value) final (calls ++ more)) :
    (program.ensuring last).Ensures state post := by
  refine Ensures.andThen (ensures.mono fun value middle calls holds => ?_)
  refine Ensures.andThen (holds.mono fun finished final more settled => ?_)
  exact Ensures.ret (by rw [List.append_nil]; exact settled)

/-- However a program ends, its calls lead from its state to the one it leaves. -/
def Follows (program : Program Response State Value)
    (leads : State → State → List (Called Response) → Prop) : Prop :=
  ∀ state, program.Ensures state fun _ final calls => leads state final calls

/-- What is run behind a program that returns is run behind its calls, in its state. -/
theorem bind_of_returns {first : Program Response State Value}
    {later : Value → Program Response State Other} {outside : Outside Response}
    {history : List (Called Response)} {value : Value}
    (returns : (first outside history state).value = some value) :
    (first >>= later) outside history state =
      let ended := first outside history state
      let next := later value outside (history ++ ended.calls) ended.state
      { next with calls := ended.calls ++ next.calls } := by
  change (andThen first _) outside history state = _
  simp only [andThen, returns]

/-- The program returns a value, whatever was called before it. -/
def Returns (program : Program Response State Value) (outside : Outside Response)
    (value : Value) : Prop :=
  ∀ history state, (program outside history state).value = some value

theorem Returns.pure {outside : Outside Response} (value : Value) :
    (Pure.pure value : Program Response State Value).Returns outside value := fun _ _ => rfl

theorem Returns.bind {first : Program Response State Value}
    {later : Value → Program Response State Other} {outside : Outside Response} {value : Value}
    {result : Other} (returns : first.Returns outside value)
    (rest : (later value).Returns outside result) : (first >>= later).Returns outside result :=
  fun history state => by
    rw [bind_of_returns (returns history state)]
    exact rest _ _

/-- A handler calls behind what it handles. -/
theorem orElse_prefix (program handler : Program Response State Value) (outside : Outside Response)
    (history : List (Called Response)) (state : State) :
    (program outside history state).calls <+:
      (program.orElse handler outside history state).calls :=
  ⟨_, rfl⟩

/-- An ending calls behind what it ends. -/
theorem ensuring_prefix (program : Program Response State Value)
    (last : Program Response State Unit) (outside : Outside Response)
    (history : List (Called Response)) (state : State) :
    (program outside history state).calls <+:
      (program.ensuring last outside history state).calls :=
  ⟨_, rfl⟩

theorem orElse_returns {program handler : Program Response State Unit} {outside : Outside Response}
    {history : List (Called Response)}
    (returns : ∀ history state, (handler outside history state).value = some ()) :
    (program.orElse handler outside history state).value = some () := by
  simp only [orElse, andThen]
  cases (program outside history state).value with
  | none => exact returns _ _
  | some value => rfl

section

variable {Item : Type} {body : Item → Program Response State Unit}
  (returns : ∀ item outside history state, (body item outside history state).value = some ())

include returns

theorem forEach_append (front back : List Item) (outside : Outside Response)
    (history : List (Called Response)) (state : State) :
    forEach (front ++ back) body outside history state =
      let first := forEach front body outside history state
      let second := forEach back body outside (history ++ first.calls) first.state
      { second with calls := first.calls ++ second.calls } := by
  induction front generalizing history state with
  | nil =>
      change forEach back body outside history state = _
      simp only [forEach, Pure.pure, ret, List.append_nil, List.nil_append]
  | cons item front ih =>
      simp only [List.cons_append, forEach, bind_of_returns (returns item outside history state),
        ih, List.append_assoc]

theorem forEach_returns (items : List Item) (outside : Outside Response)
    (history : List (Called Response)) (state : State) :
    (forEach items body outside history state).value = some () := by
  induction items generalizing history state with
  | nil => rfl
  | cons item items ih =>
      simp only [forEach, bind_of_returns (returns item _ _ _), ih]

/-- A loop whose bodies return runs each body, behind what the items before it have
called and in the state they have left. -/
theorem forEach_reaches (before : List Item) (item : Item) (after : List Item)
    (outside : Outside Response) (history : List (Called Response)) (state : State) :
    ∃ more, (forEach (before ++ item :: after) body outside history state).calls =
      (forEach before body outside history state).calls ++
        (body item outside (history ++ (forEach before body outside history state).calls)
          (forEach before body outside history state).state).calls ++ more := by
  rw [forEach_append returns]
  simp only [forEach, bind_of_returns (returns item _ _ _), List.append_assoc]
  exact ⟨_, rfl⟩

end

end Program

/-- A relation that calls lead along from one state to another, in steps. -/
structure Composes {State : Type} (leads : State → State → List (Called Response) → Prop) :
    Prop where
  refl : ∀ state, leads state state []
  trans : ∀ before middle after front back, leads before middle front →
    leads middle after back → leads before after (front ++ back)

namespace Composes

variable {State Value Other : Type} {leads : State → State → List (Called Response) → Prop}
  (composes : Composes leads)

include composes

theorem ret (value : Option Value) : (Program.ret value).Follows leads := fun _ =>
  Program.Ensures.ret (composes.refl _)

theorem pure (value : Value) : (Pure.pure value : Program Response State Value).Follows leads :=
  composes.ret (some value)

theorem raise : (Program.raise : Program Response State Value).Follows leads := composes.ret none

theorem andThen {first : Program Response State Value}
    {later : Option Value → Program Response State Other} (follows : first.Follows leads)
    (rest : ∀ value, (later value).Follows leads) : (first.andThen later).Follows leads :=
  fun state => Program.Ensures.andThen ((follows state).mono fun value middle _ reached =>
    (rest value middle).mono fun _ _ _ further => composes.trans _ _ _ _ _ reached further)

theorem bind {first : Program Response State Value} {later : Value → Program Response State Other}
    (follows : first.Follows leads) (rest : ∀ value, (later value).Follows leads) :
    (first >>= later).Follows leads := by
  refine composes.andThen follows fun value => ?_
  cases value with
  | none => exact composes.raise
  | some value => exact rest value

theorem orElse {program handler : Program Response State Value} (follows : program.Follows leads)
    (handles : handler.Follows leads) : (program.orElse handler).Follows leads := by
  refine composes.andThen follows fun value => ?_
  cases value with
  | none => exact handles
  | some value => exact composes.ret _

theorem ensuring {program : Program Response State Value} {last : Program Response State Unit}
    (follows : program.Follows leads) (ends : last.Follows leads) :
    (program.ensuring last).Follows leads :=
  composes.andThen follows fun _ => composes.andThen ends fun _ => composes.ret _

theorem forEach {Item : Type} {items : List Item} {body : Item → Program Response State Unit}
    (each : ∀ item ∈ items, (body item).Follows leads) :
    (Program.forEach items body).Follows leads := by
  induction items with
  | nil => exact composes.pure ()
  | cons item items ih =>
      obtain ⟨here, later⟩ := List.forall_mem_cons.mp each
      exact composes.bind here fun _ => ih later

end Composes

end Foundation
