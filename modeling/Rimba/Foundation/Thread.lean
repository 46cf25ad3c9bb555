import Mathlib.Logic.Function.Basic
import Rimba.Foundation.Machine
import Rimba.Foundation.Program

/-! # Threads that take turns at their calls

A thread is a program cut at its calls, so that other threads can be served
between two of them. The threads of a pool run jobs one behind the other over a
shared state that serves one call at a time, and the pool keeps the history of
the calls it served (`Foundation.Pool`).

What a thread may do next, given the history, and what holds when a job is done
is derived along its program (`Foundation.Thread.Keeps`), whatever the other
threads do in between. Together with what the shared state records of the
history it holds along every run of the pool (`Foundation.Discipline.invariant`).
-/

namespace Foundation

variable {Command : Type} {Response : Command → Type}

/-- A program cut at its calls. -/
inductive Thread (Response : Command → Type) (Value : Type) where
  | ret (value : Value)
  | call (command : Command) (next : Response command → Thread Response Value)

namespace Thread

variable {Value Other Item : Type}

/-- Run a second thread behind a first. -/
def andThen : Thread Response Value → (Value → Thread Response Other) → Thread Response Other
  | .ret value, later => later value
  | .call command next, later => .call command fun response => (next response).andThen later

instance : Monad (Thread Response) where
  pure := .ret
  bind := andThen

/-- A single call. -/
def perform (command : Command) : Thread Response (Response command) := .call command .ret

/-- Run a thread for each item of a list. -/
def forEach (items : List Item) (body : Item → Thread Response Unit) : Thread Response Unit :=
  match items with
  | [] => pure ()
  | item :: rest => do
      body item
      forEach rest body

@[simp] theorem ret_bind (value : Value) (later : Value → Thread Response Other) :
    (Thread.ret value : Thread Response Value) >>= later = later value := rfl

@[simp] theorem pure_bind (value : Value) (later : Value → Thread Response Other) :
    (pure value : Thread Response Value) >>= later = later value := rfl

@[simp] theorem perform_bind (command : Command)
    (later : Response command → Thread Response Other) :
    (perform command : Thread Response _) >>= later = .call command later := rfl

@[simp] theorem call_bind (command : Command) (next : Response command → Thread Response Value)
    (later : Value → Thread Response Other) :
    Thread.call command next >>= later = .call command fun response => next response >>= later :=
  rfl

theorem andThen_assoc {Last : Type} (thread : Thread Response Value)
    (later : Value → Thread Response Other) (last : Other → Thread Response Last) :
    thread >>= later >>= last = thread >>= fun value => later value >>= last := by
  induction thread with
  | ret value => rfl
  | call command next ih => exact congrArg (Thread.call command) (funext ih)

/-- The calls of a thread that is run to its end, whatever it is answered, and
its value. -/
inductive Runs : Thread Response Value → List (Called Response) → Value → Prop
  | ret (value : Value) : Runs (.ret value) [] value
  | call {command : Command} {next : Response command → Thread Response Value}
      {calls : List (Called Response)} {value : Value} (response : Response command)
      (rest : Runs (next response) calls value) :
      Runs (.call command next) (⟨command, response⟩ :: calls) value

/-- A run of two threads is a run of the first and then a run of the second. -/
theorem Runs.of_bind {first : Thread Response Value} {later : Value → Thread Response Other}
    {calls : List (Called Response)} {result : Other} (runs : Runs (first >>= later) calls result) :
    ∃ front back value, calls = front ++ back ∧ Runs first front value ∧
      Runs (later value) back result := by
  induction first generalizing calls with
  | ret value => exact ⟨[], calls, value, rfl, .ret value, runs⟩
  | call command next ih =>
      cases runs with
      | call response rest =>
          obtain ⟨front, back, value, rfl, before, after⟩ := ih response rest
          exact ⟨_ :: front, back, value, rfl, .call response before, after⟩

theorem Runs.bind {first : Thread Response Value} {later : Value → Thread Response Other}
    {front back : List (Called Response)} {value : Value} {result : Other}
    (before : Runs first front value) (after : Runs (later value) back result) :
    Runs (first >>= later) (front ++ back) result := by
  induction before with
  | ret value => exact after
  | call response _ ih => exact .call response (ih after)

/-- However its calls are answered, a thread has a run. -/
theorem exists_runs (answers : ∀ command, Response command) (thread : Thread Response Value) :
    ∃ calls value, Runs thread calls value ∧
      ∀ called ∈ calls, called.response = answers called.command := by
  induction thread with
  | ret value => exact ⟨[], value, .ret value, List.forall_mem_nil _⟩
  | call command next ih =>
      obtain ⟨calls, value, runs, answered⟩ := ih (answers command)
      exact ⟨_, value, .call (answers command) runs, List.forall_mem_cons.mpr ⟨rfl, answered⟩⟩

theorem runs_ret {value result : Value} {calls : List (Called Response)} :
    Runs (.ret value) calls result ↔ calls = [] ∧ result = value := by
  constructor
  · rintro (_ | _)
    exact ⟨rfl, rfl⟩
  · rintro ⟨rfl, rfl⟩
    exact .ret result

theorem runs_perform_bind {command : Command} {later : Response command → Thread Response Value}
    {calls : List (Called Response)} {result : Value} :
    Runs (perform command >>= later) calls result ↔
      ∃ response rest, calls = ⟨command, response⟩ :: rest ∧ Runs (later response) rest result := by
  constructor
  · intro runs
    cases runs with
    | call response rest => exact ⟨response, _, rfl, rest⟩
  · rintro ⟨response, rest, rfl, later⟩
    exact .call response later

/-- Whatever a thread is answered, it makes calls of one kind only. -/
def Only (allowed : Command → Prop) : Thread Response Value → Prop
  | .ret _ => True
  | .call command next => allowed command ∧ ∀ response, Only allowed (next response)

theorem Only.bind {allowed : Command → Prop} {first : Thread Response Value}
    {later : Value → Thread Response Other} (only : first.Only allowed)
    (rest : ∀ value, (later value).Only allowed) : (first >>= later).Only allowed := by
  induction first with
  | ret value => exact rest value
  | call command next ih => exact ⟨only.1, fun response => ih response (only.2 response)⟩

/-- A call of the kind, and a thread that keeps to it whatever is answered. -/
theorem Only.call {allowed : Command → Prop} {command : Command}
    {later : Response command → Thread Response Other} (here : allowed command)
    (rest : ∀ response, (later response).Only allowed) :
    (perform command >>= later).Only allowed :=
  ⟨here, rest⟩

theorem Only.perform {allowed : Command → Prop} {command : Command} (here : allowed command) :
    (perform command : Thread Response _).Only allowed :=
  ⟨here, fun _ => trivial⟩

theorem Only.ite {allowed : Command → Prop} {condition : Prop} {_ : Decidable condition}
    {first second : Thread Response Value} (here : first.Only allowed)
    (there : second.Only allowed) : (if condition then first else second).Only allowed := by
  by_cases holds : condition
  · rwa [if_pos holds]
  · rwa [if_neg holds]

theorem Only.forEach {allowed : Command → Prop} {items : List Item}
    {body : Item → Thread Response Unit} (each : ∀ item ∈ items, (body item).Only allowed) :
    (forEach items body).Only allowed := by
  induction items with
  | nil => trivial
  | cons item items ih =>
      obtain ⟨here, later⟩ := List.forall_mem_cons.mp each
      exact Only.bind here fun _ => ih later

theorem Only.mono {allowed wider : Command → Prop} {thread : Thread Response Value}
    (only : thread.Only allowed) (imp : ∀ command, allowed command → wider command) :
    thread.Only wider := by
  induction thread with
  | ret value => trivial
  | call command next ih =>
      exact ⟨imp command only.1, fun response => ih response (only.2 response)⟩

theorem Runs.only {allowed : Command → Prop} {thread : Thread Response Value}
    {calls : List (Called Response)} {value : Value} (runs : Runs thread calls value)
    (only : thread.Only allowed) : ∀ called ∈ calls, allowed called.command := by
  induction runs with
  | ret value => exact List.forall_mem_nil _
  | call response rest ih => exact List.forall_mem_cons.mpr ⟨only.1, ih (only.2 response)⟩

/-- Whatever a thread is answered, it makes at most so many calls of a kind, by the
value it returns. -/
def AtMost (counted : Command → Bool) (bound : Value → ℕ) (thread : Thread Response Value) :
    Prop :=
  ∀ calls value, Runs thread calls value →
    calls.countP (fun called => counted called.command) ≤ bound value

theorem AtMost.ret {counted : Command → Bool} {bound : Value → ℕ} (value : Value) :
    (.ret value : Thread Response Value).AtMost counted bound := by
  intro calls result runs
  obtain ⟨rfl, _⟩ := runs_ret.mp runs
  exact Nat.zero_le _

/-- A call of another kind spends nothing. -/
theorem AtMost.call {counted : Command → Bool} {bound : Other → ℕ} {command : Command}
    {later : Response command → Thread Response Other} (other : counted command = false)
    (rest : ∀ response, (later response).AtMost counted bound) :
    (perform command >>= later).AtMost counted bound := by
  intro calls result runs
  obtain ⟨response, behind, rfl, after⟩ := runs_perform_bind.mp runs
  rw [List.countP_cons_of_neg (by rw [other]; exact Bool.false_ne_true)]
  exact rest response behind result after

/-- A call spends at most one. -/
theorem AtMost.spend {counted : Command → Bool} {command : Command}
    {later : Response command → Thread Response Other} (bound : Other → ℕ)
    (rest : ∀ response, (later response).AtMost counted bound) :
    (perform command >>= later).AtMost counted fun value => bound value + 1 := by
  intro calls result runs
  obtain ⟨response, behind, rfl, after⟩ := runs_perform_bind.mp runs
  rw [List.countP_cons]
  apply Nat.add_le_add (rest response behind result after)
  split
  · exact Nat.le_refl 1
  · exact Nat.zero_le 1

theorem AtMost.ite {counted : Command → Bool} {bound : Value → ℕ} {condition : Prop}
    {_ : Decidable condition} {first second : Thread Response Value}
    (here : first.AtMost counted bound) (there : second.AtMost counted bound) :
    (if condition then first else second).AtMost counted bound := by
  by_cases holds : condition
  · rwa [if_pos holds]
  · rwa [if_neg holds]

/-- What a second thread may spend depends on what the first returned. -/
theorem AtMost.bind {counted : Command → Bool} {first : Thread Response Value}
    {later : Value → Thread Response Other} {spent : Value → ℕ} {bound : Other → ℕ}
    (rest : Value → Other → ℕ) (before : first.AtMost counted spent)
    (after : ∀ value, (later value).AtMost counted (rest value))
    (within : ∀ value result, spent value + rest value result ≤ bound result) :
    (first >>= later).AtMost counted bound := by
  intro calls result runs
  obtain ⟨front, back, value, rfl, starts, ends⟩ := runs.of_bind
  rw [List.countP_append]
  exact Nat.le_trans (Nat.add_le_add (before front value starts) (after value back result ends))
    (within value result)

theorem AtMost.of_only {counted : Command → Bool} {bound : Value → ℕ}
    {thread : Thread Response Value} (only : thread.Only fun command => counted command = false) :
    thread.AtMost counted bound := by
  intro calls value runs
  have none : calls.countP (fun called => counted called.command) = 0 := by
    apply List.countP_eq_zero.mpr
    intro called member
    rw [runs.only only called member]
    exact Bool.false_ne_true
  rw [none]
  exact Nat.zero_le _

/-- What is picked out of the calls of a loop is picked out round by round. -/
theorem Runs.filterMap_forEach {Picked : Type} {pick : Called Response → Option Picked}
    {allowed : Called Response → Prop} {items : List Item} {body : Item → Thread Response Unit}
    {picked : Item → List Picked} {calls : List (Called Response)}
    (each : ∀ item ∈ items, ∀ part, (∀ called ∈ part, allowed called) →
      Runs (body item) part () → part.filterMap pick = picked item)
    (runs : Runs (forEach items body) calls ()) (answered : ∀ called ∈ calls, allowed called) :
    calls.filterMap pick = items.flatMap picked := by
  induction items generalizing calls with
  | nil =>
      obtain ⟨rfl, _⟩ := runs_ret.mp runs
      rfl
  | cons item items ih =>
      obtain ⟨front, back, _, rfl, here, later⟩ := Runs.of_bind runs
      obtain ⟨eachHere, eachLater⟩ := List.forall_mem_cons.mp each
      obtain ⟨answeredHere, answeredLater⟩ := List.forall_mem_append.mp answered
      rw [List.filterMap_append, List.flatMap_cons, eachHere front answeredHere here,
        ih eachLater later answeredLater]

end Thread

/-- A call of the history, the thread it was served to and the shared state it
was served in. -/
structure Entry (Task State : Type) (Response : Command → Type) where
  task : Task
  before : State
  called : Called Response

/-- What a shared state answers a call, given what the outside chooses. -/
abbrev Service (State Choice : Type) (Response : Command → Type) :=
  State → (command : Command) → Choice → Response command × State

namespace Thread

variable {State Choice Value Other : Type} {serve : Service State Choice Response}

/-- A thread is served from a state to its end with no other call in between: the
calls it makes, the state it leaves and its value. -/
inductive Alone (serve : Service State Choice Response) :
    State → Thread Response Value → List (Called Response) → State → Value → Prop
  | ret (state : State) (value : Value) : Alone serve state (.ret value) [] state value
  | call {state final : State} {command : Command}
      {next : Response command → Thread Response Value} {calls : List (Called Response)}
      {value : Value} (choice : Choice)
      (rest : Alone serve (serve state command choice).2 (next (serve state command choice).1) calls
        final value) :
      Alone serve state (.call command next) (⟨command, (serve state command choice).1⟩ :: calls)
        final value

theorem Alone.runs {state final : State} {thread : Thread Response Value}
    {calls : List (Called Response)} {value : Value}
    (alone : Alone serve state thread calls final value) : Runs thread calls value := by
  induction alone with
  | ret _ value => exact .ret value
  | call choice _ ih => exact .call _ ih

theorem alone_ret {state final : State} {value result : Value} {calls : List (Called Response)} :
    Alone serve state (.ret value) calls final result ↔
      calls = [] ∧ final = state ∧ result = value := by
  constructor
  · rintro (_ | _)
    exact ⟨rfl, rfl, rfl⟩
  · rintro ⟨rfl, rfl, rfl⟩
    exact .ret ..

theorem alone_perform_bind {state final : State} {command : Command}
    {later : Response command → Thread Response Value} {calls : List (Called Response)}
    {result : Value} :
    Alone serve state (perform command >>= later) calls final result ↔
      ∃ choice rest, calls = ⟨command, (serve state command choice).1⟩ :: rest ∧
        Alone serve (serve state command choice).2 (later (serve state command choice).1) rest final
          result := by
  constructor
  · intro alone
    cases alone with
    | call choice rest => exact ⟨choice, _, rfl, rest⟩
  · rintro ⟨choice, rest, rfl, later⟩
    exact .call choice later

/-- Two threads are served alone one behind the other. -/
theorem Alone.of_bind {state final : State} {first : Thread Response Value}
    {later : Value → Thread Response Other} {calls : List (Called Response)} {result : Other}
    (alone : Alone serve state (first >>= later) calls final result) :
    ∃ front back middle value, calls = front ++ back ∧
      Alone serve state first front middle value ∧
        Alone serve middle (later value) back final result := by
  induction first generalizing state calls with
  | ret value => exact ⟨[], calls, state, value, rfl, .ret .., alone⟩
  | call command next ih =>
      cases alone with
      | call choice rest =>
          obtain ⟨front, back, middle, value, rfl, before, after⟩ := ih _ rest
          exact ⟨_ :: front, back, middle, value, rfl, .call choice before, after⟩

theorem Alone.bind {state middle final : State} {first : Thread Response Value}
    {later : Value → Thread Response Other} {front back : List (Called Response)} {value : Value}
    {result : Other} (before : Alone serve state first front middle value)
    (after : Alone serve middle (later value) back final result) :
    Alone serve state (first >>= later) (front ++ back) final result := by
  induction before with
  | ret state value => exact after
  | call choice _ ih => exact .call choice (ih after)

/-- What none of its calls changes, a thread served alone leaves as it was. -/
theorem Alone.unchanged {Part : Type} {part : State → Part} {state final : State}
    {thread : Thread Response Value} {calls : List (Called Response)} {value : Value}
    (alone : Alone serve state thread calls final value)
    (only : thread.Only fun command => ∀ state choice,
      part (serve state command choice).2 = part state) : part final = part state := by
  induction alone with
  | ret state value => rfl
  | call choice rest ih => exact (ih (only.2 _)).trans (only.1 _ choice)

end Thread

/-- The shared state, what is left of each thread's job, the job it runs or ran
last, and the calls served so far, the latest first. -/
structure Pool (Task Job State : Type) (Response : Command → Type) where
  shared : State
  threads : Task → Thread Response Unit
  jobs : Task → Option Job
  history : List (Entry Task State Response)

/-- One turn of a pool. -/
inductive Turn (Task Job Choice : Type) where
  /-- An idle thread takes on a job. -/
  | start (task : Task) (job : Job)
  /-- A thread's next call is served. -/
  | resume (task : Task) (choice : Choice)

variable {Task Job State Choice : Type}

/-- The threads of a pool, in any order of turns. -/
def poolMachine [DecidableEq Task] (serve : Service State Choice Response)
    (program : Job → Thread Response Unit) (admits : State → Task → Job → Bool)
    (boot : State) : Machine (Pool Task Job State Response) (Turn Task Job Choice) where
  initial := ⟨boot, fun _ => .ret (), fun _ => none, []⟩
  step pool
    | .start task job =>
        match pool.threads task with
        | .call .. => none
        | .ret _ =>
            if admits pool.shared task job then
              some { pool with
                threads := Function.update pool.threads task (program job)
                jobs := Function.update pool.jobs task (some job) }
            else none
    | .resume task choice =>
        match pool.threads task with
        | .ret _ => none
        | .call command next =>
            let served := serve pool.shared command choice
            some { pool with
              shared := served.2
              threads := Function.update pool.threads task (next served.1)
              history := ⟨task, pool.shared, ⟨command, served.1⟩⟩ :: pool.history }

/-- The calls of one thread. -/
def ownCalls [DecidableEq Task] (task : Task) (history : List (Entry Task State Response)) :
    List (Called Response) :=
  (history.filter fun entry => entry.task = task).map Entry.called

/-- None of the calls is the thread's. -/
def Foreign (task : Task) (history : List (Entry Task State Response)) : Prop :=
  ∀ entry ∈ history, entry.task ≠ task

theorem ownCalls_append_of_foreign [DecidableEq Task] {task : Task}
    {more : List (Entry Task State Response)}
    (foreign : Foreign task more) (past : List (Entry Task State Response)) :
    ownCalls task (more ++ past) = ownCalls task past := by
  have none_own : more.filter (fun entry => entry.task = task) = [] := by
    apply List.filter_eq_nil_iff.mpr
    intro entry member
    simpa only [decide_eq_true_eq] using foreign entry member
  rw [ownCalls, List.filter_append, none_own, List.nil_append, ownCalls]

@[simp] theorem ownCalls_cons_self [DecidableEq Task] (task : Task) (before : State)
    (called : Called Response) (past : List (Entry Task State Response)) :
    ownCalls task (⟨task, before, called⟩ :: past) = called :: ownCalls task past := by
  simp only [ownCalls, decide_true, List.filter_cons_of_pos, List.map_cons]

theorem mem_ownCalls [DecidableEq Task] {entry : Entry Task State Response}
    {history : List (Entry Task State Response)} (member : entry ∈ history) :
    entry.called ∈ ownCalls entry.task history :=
  List.mem_map.mpr ⟨entry, List.mem_filter.mpr ⟨member, decide_eq_true rfl⟩, rfl⟩

/-- The last of a thread's calls, and the history before it. -/
theorem split_of_ownCalls [DecidableEq Task] {task : Task}
    {history : List (Entry Task State Response)} {called : Called Response}
    {rest : List (Called Response)} (own : ownCalls task history = called :: rest) :
    ∃ later entry earlier, history = later ++ entry :: earlier ∧ Foreign task later ∧
      entry.task = task ∧ entry.called = called ∧ ownCalls task earlier = rest := by
  induction history with
  | nil => cases own
  | cons entry history ih =>
      by_cases same : entry.task = task
      · subst same
        obtain ⟨task, before, called⟩ := entry
        rw [ownCalls_cons_self] at own
        obtain ⟨rfl, rfl⟩ := List.cons.inj own
        exact ⟨[], _, history, rfl, List.forall_mem_nil _, rfl, rfl, rfl⟩
      · have foreign : Foreign task [entry] := List.forall_mem_singleton.mpr same
        have skipped := ownCalls_append_of_foreign foreign history
        obtain ⟨later, last, earlier, rfl, others, mine, called, before⟩ :=
          ih (skipped.symm.trans own)
        exact ⟨entry :: later, last, earlier, rfl, List.forall_mem_cons.mpr ⟨same, others⟩, mine,
          called, before⟩

/-- The history of a pool only grows. -/
theorem history_of_runFrom [DecidableEq Task] {serve : Service State Choice Response}
    {program : Job → Thread Response Unit} {admits : State → Task → Job → Bool} {boot : State}
    {pool later : Pool Task Job State Response} {turns : List (Turn Task Job Choice)}
    (reached : (poolMachine serve program admits boot).runFrom pool turns = some later) :
    ∃ more, later.history = more ++ pool.history := by
  have grows : ∀ before label after, (∃ more, before.history = more ++ pool.history) →
      (poolMachine serve program admits boot).step before label = some after →
        ∃ more, after.history = more ++ pool.history := by
    rintro before label after ⟨more, grown⟩ stepped
    cases label with
    | start task job =>
        simp only [poolMachine] at stepped
        split at stepped
        · cases stepped
        · split at stepped <;> cases stepped
          exact ⟨more, grown⟩
    | resume task choice =>
        simp only [poolMachine] at stepped
        split at stepped <;> cases stepped
        exact ⟨_ :: more, congrArg _ grown⟩
  exact Machine.runFrom_of_step grows ⟨[], rfl⟩ reached

/-- A call of one kind was served, and none of another kind behind it. -/
def Since (kind undone : Entry Task State Response → Prop)
    (history : List (Entry Task State Response)) : Prop :=
  ∃ later entry earlier, history = later ++ entry :: earlier ∧ kind entry ∧
    ∀ call ∈ later, ¬ undone call

theorem Since.append {kind undone : Entry Task State Response → Prop}
    {history more : List (Entry Task State Response)} (since : Since kind undone history)
    (never : ∀ call ∈ more, ¬ undone call) : Since kind undone (more ++ history) := by
  obtain ⟨later, entry, earlier, rfl, here, undisturbed⟩ := since
  refine ⟨more ++ later, entry, earlier, (List.append_assoc ..).symm, here, fun call member => ?_⟩
  rcases List.mem_append.mp member with inMore | inLater
  · exact never call inMore
  · exact undisturbed call inLater

theorem not_since_nil {kind undone : Entry Task State Response → Prop} :
    ¬ Since kind undone [] := by
  rintro ⟨later, entry, earlier, split, _⟩
  cases later <;> cases split

theorem since_cons {kind undone : Entry Task State Response → Prop}
    {entry : Entry Task State Response} {history : List (Entry Task State Response)} :
    Since kind undone (entry :: history) ↔
      kind entry ∨ ¬ undone entry ∧ Since kind undone history := by
  constructor
  · rintro ⟨later, last, earlier, split, here, never⟩
    cases later with
    | nil =>
        cases split
        exact .inl here
    | cons first later =>
        cases split
        obtain ⟨not_first, rest⟩ := List.forall_mem_cons.mp never
        exact .inr ⟨not_first, later, last, earlier, rfl, here, rest⟩
  · rintro (here | ⟨not_entry, later, last, earlier, rfl, here, never⟩)
    · exact ⟨[], entry, history, rfl, here, List.forall_mem_nil _⟩
    · exact ⟨entry :: later, last, earlier, rfl, here,
        List.forall_mem_cons.mpr ⟨not_entry, never⟩⟩

/-- What is asked of the threads of a pool, and what they may count on. -/
structure Discipline (Task Job State : Type) (Response : Command → Type) where
  /-- What the shared state records of the history. -/
  holds : State → List (Entry Task State Response) → Prop
  /-- The calls a thread may make, by the history. -/
  permits : Task → List (Entry Task State Response) → Command → Prop
  /-- What holds of the history when the thread has done a job, or none yet. -/
  idle : Task → Option Job → List (Entry Task State Response) → Prop

namespace Thread

variable {Value Other Item : Type} (serve : Service State Choice Response)
  (discipline : Discipline Task Job State Response) (task : Task)

/-- What is left of a thread makes permitted calls only, whatever the others do
in between, and leads to the given end. -/
def Keeps (done : Value → List (Entry Task State Response) → Prop) :
    Thread Response Value → List (Entry Task State Response) → Prop
  | .ret value, past => done value past
  | .call command next, past =>
      discipline.permits task past command ∧
        ∀ more before choice, Foreign task more → discipline.holds before (more ++ past) →
          Keeps done (next (serve before command choice).1)
            (⟨task, before, ⟨command, (serve before command choice).1⟩⟩ :: (more ++ past))

variable {serve discipline task}

theorem Keeps.call {command : Command} {later : Response command → Thread Response Value}
    {done : Value → List (Entry Task State Response) → Prop}
    {past : List (Entry Task State Response)}
    (permitted : discipline.permits task past command)
    (rest : ∀ more before choice, Foreign task more → discipline.holds before (more ++ past) →
      (later (serve before command choice).1).Keeps serve discipline task done
        (⟨task, before, ⟨command, (serve before command choice).1⟩⟩ :: (more ++ past))) :
    (perform command >>= later).Keeps serve discipline task done past :=
  ⟨permitted, rest⟩

theorem Keeps.ite {condition : Prop} {_ : Decidable condition}
    {first second : Thread Response Value}
    {done : Value → List (Entry Task State Response) → Prop}
    {past : List (Entry Task State Response)}
    (here : condition → first.Keeps serve discipline task done past)
    (there : ¬ condition → second.Keeps serve discipline task done past) :
    (if condition then first else second).Keeps serve discipline task done past := by
  by_cases holds : condition
  · rw [if_pos holds]
    exact here holds
  · rw [if_neg holds]
    exact there holds

theorem Keeps.mono {done weaker : Value → List (Entry Task State Response) → Prop}
    {thread : Thread Response Value} {past : List (Entry Task State Response)}
    (keeps : thread.Keeps serve discipline task done past)
    (imp : ∀ value final, done value final → weaker value final) :
    thread.Keeps serve discipline task weaker past := by
  induction thread generalizing past with
  | ret value => exact imp value past keeps
  | call command next ih =>
      exact ⟨keeps.1, fun more before choice foreign valid =>
        ih _ (keeps.2 more before choice foreign valid)⟩

theorem Keeps.bind {first : Thread Response Value} {later : Value → Thread Response Other}
    {done : Other → List (Entry Task State Response) → Prop}
    {past : List (Entry Task State Response)}
    (keeps : first.Keeps serve discipline task
      (fun value middle => (later value).Keeps serve discipline task done middle) past) :
    (first >>= later).Keeps serve discipline task done past := by
  induction first generalizing past with
  | ret value => exact keeps
  | call command next ih =>
      exact ⟨keeps.1, fun more before choice foreign valid =>
        ih _ (keeps.2 more before choice foreign valid)⟩

/-- Where everything is permitted and nothing is asked of the end. -/
theorem Keeps.of_permits {thread : Thread Response Value}
    {done : Value → List (Entry Task State Response) → Prop}
    {past : List (Entry Task State Response)}
    (permitted : thread.Only fun command => ∀ past, discipline.permits task past command)
    (ends : ∀ value final, done value final) : thread.Keeps serve discipline task done past := by
  induction thread generalizing past with
  | ret value => exact ends value past
  | call command next ih => exact ⟨permitted.1 past, fun _ _ _ _ _ => ih _ (permitted.2 _)⟩

/-- What each round of a loop keeps, the loop keeps. -/
theorem Keeps.forEach {items : List Item} {body : Item → Thread Response Unit}
    {kept : List (Entry Task State Response) → Prop} {past : List (Entry Task State Response)}
    (each : ∀ item ∈ items, ∀ middle, kept middle →
      (body item).Keeps serve discipline task (fun _ => kept) middle) (holds : kept past) :
    (forEach items body).Keeps serve discipline task (fun _ => kept) past := by
  induction items generalizing past with
  | nil => exact holds
  | cons item items ih =>
      obtain ⟨here, later⟩ := List.forall_mem_cons.mp each
      exact Keeps.bind ((here past holds).mono fun _ middle kept => ih later kept)

end Thread

/-- The conditions under which a pool keeps to a discipline. -/
structure Discipline.Sound (discipline : Discipline Task Job State Response)
    (serve : Service State Choice Response) (program : Job → Thread Response Unit)
    (admits : State → Task → Job → Bool) (boot : State) : Prop where
  boot : discipline.holds boot []
  unstarted : ∀ task, discipline.idle task none []
  permits_stable : ∀ task past more command, Foreign task more →
    discipline.permits task past command → discipline.permits task (more ++ past) command
  idle_stable : ∀ task job past more, Foreign task more →
    discipline.idle task job past → discipline.idle task job (more ++ past)
  serves : ∀ task before past command choice, discipline.holds before past →
    discipline.permits task past command →
      discipline.holds (serve before command choice).2
        (⟨task, before, ⟨command, (serve before command choice).1⟩⟩ :: past)
  keeps : ∀ task shared past last job, admits shared task job = true →
    discipline.holds shared past → discipline.idle task last past →
      (program job).Keeps serve discipline task (fun _ => discipline.idle task (some job)) past

namespace Discipline

variable {discipline : Discipline Task Job State Response}
  {serve : Service State Choice Response} {program : Job → Thread Response Unit}
  {admits : State → Task → Job → Bool} {boot : State}

/-- What is left of a thread's job keeps to the discipline. -/
def Proceeds (discipline : Discipline Task Job State Response)
    (serve : Service State Choice Response) (task : Task) (job : Option Job)
    (thread : Thread Response Unit) (past : List (Entry Task State Response)) : Prop :=
  thread.Keeps serve discipline task (fun _ => discipline.idle task job) past

/-- Every call of the history was permitted when it was served, and was answered
by the state that recorded the history before it. -/
inductive Kept (discipline : Discipline Task Job State Response)
    (serve : Service State Choice Response) : List (Entry Task State Response) → Prop
  | nil : Kept discipline serve []
  | cons {past : List (Entry Task State Response)} {task : Task} {before : State}
      {command : Command} {choice : Choice} (earlier : Kept discipline serve past)
      (valid : discipline.holds before past) (permitted : discipline.permits task past command) :
      Kept discipline serve (⟨task, before, ⟨command, (serve before command choice).1⟩⟩ :: past)

theorem Kept.mem {history later past : List (Entry Task State Response)}
    {entry : Entry Task State Response} (kept : Kept discipline serve history)
    (split : history = later ++ entry :: past) :
    discipline.holds entry.before past ∧
      discipline.permits entry.task past entry.called.command ∧
        ∃ choice, entry.called.response =
          (serve entry.before entry.called.command choice).1 := by
  induction later generalizing history with
  | nil =>
      subst split
      cases kept with
      | cons _ valid permitted => exact ⟨valid, permitted, _, rfl⟩
  | cons _ later ih =>
      subst split
      cases kept with
      | cons earlier _ _ => exact ih earlier rfl

/-- What holds of a pool that keeps to a discipline. -/
structure Valid (discipline : Discipline Task Job State Response)
    (serve : Service State Choice Response) (pool : Pool Task Job State Response) : Prop where
  holds : discipline.holds pool.shared pool.history
  proceeds : ∀ task,
    discipline.Proceeds serve task (pool.jobs task) (pool.threads task) pool.history
  kept : Kept discipline serve pool.history

variable (sound : discipline.Sound serve program admits boot)

include sound

/-- The calls of other threads do not disturb what a thread proceeds with. -/
theorem Sound.proceeds_stable {task : Task} {job : Option Job} {thread : Thread Response Unit}
    {past more : List (Entry Task State Response)} (foreign : Foreign task more)
    (proceeds : discipline.Proceeds serve task job thread past) :
    discipline.Proceeds serve task job thread (more ++ past) := by
  cases thread with
  | ret value => exact sound.idle_stable task job past more foreign proceeds
  | call command next =>
      refine ⟨sound.permits_stable task past more command foreign proceeds.1, ?_⟩
      intro further before choice others valid
      have together : Foreign task (further ++ more) := by
        intro entry member
        rcases List.mem_append.mp member with inFurther | inMore
        · exact others entry inFurther
        · exact foreign entry inMore
      rw [← List.append_assoc] at valid ⊢
      exact proceeds.2 (further ++ more) before choice together valid

/-- A sound discipline holds along every run of the pool. -/
theorem Sound.invariant [DecidableEq Task] :
    (poolMachine serve program admits boot).Invariant (discipline.Valid serve) where
  initial := ⟨sound.boot, fun task => sound.unstarted task, .nil⟩
  step before label after valid stepped := by
    cases label with
    | start task job =>
        simp only [poolMachine] at stepped
        split at stepped
        · cases stepped
        · next value idle =>
            split at stepped
            · next admitted =>
                cases stepped
                refine ⟨valid.holds, fun other => ?_, valid.kept⟩
                have done := valid.proceeds task
                rw [idle] at done
                by_cases same : other = task
                · subst same
                  simp only [Function.update_self]
                  exact sound.keeps other before.shared before.history _ job admitted valid.holds
                    done
                · simp only [Function.update_of_ne same]
                  exact valid.proceeds other
            · cases stepped
    | resume task choice =>
        simp only [poolMachine] at stepped
        split at stepped
        · cases stepped
        · next command next waiting =>
            cases stepped
            have here := valid.proceeds task
            rw [waiting] at here
            refine ⟨sound.serves task before.shared before.history command choice valid.holds
              here.1, fun other => ?_, .cons valid.kept valid.holds here.1⟩
            by_cases same : other = task
            · subst same
              simp only [Function.update_self]
              exact here.2 [] before.shared choice (List.forall_mem_nil _) valid.holds
            · simp only [Function.update_of_ne same]
              change discipline.Proceeds serve other _ _ ([_] ++ _)
              refine sound.proceeds_stable ?_ (valid.proceeds other)
              intro entry member
              rw [List.mem_singleton.mp member]
              exact fun equal => same equal.symm

end Discipline

end Foundation
