import Rimba.Foundation.Buffer
import Rimba.Foundation.Thread

/-! # Memory accesses that can fault

A memory area is a row of cells, each written or not. Reading a cell that is
outside the area or was not written, writing outside it, and subtracting more than
there is, are faults. A program over such accesses is a thread that may end in a
fault (`Foundation.Faulting`); it never does when it is an ordinary thread with
nothing but successful accesses put in (`Foundation.Faulting.neverFaults_safely`).
-/

namespace Foundation

/-- The cells of a memory area. -/
abbrev Area (Item : Type) := List (Option Item)

namespace Area

variable {Item : Type}

/-- An area nothing was written to. -/
def unwritten (size : ℕ) : Area Item := List.replicate size none

/-- An area that starts with items and has room for more. -/
def holding (items : List Item) (room : ℕ) : Area Item := items.map some ++ unwritten room

/-- Read one item. -/
def read (area : Area Item) (offset : ℕ) : Option Item := (area[offset]?).join

example : (holding ['a'] 1).read 0 = some 'a' ∧ (holding ['a'] 1).read 1 = none := ⟨rfl, rfl⟩

/-- Read some items one behind the other. -/
def readMany (area : Area Item) (offset count : ℕ) : Option (List Item) :=
  if offset + count ≤ area.length then ((area.drop offset).take count).mapM id else none

/-- Write some items one behind the other. -/
def write (area : Area Item) (offset : ℕ) (items : List Item) : Option (Area Item) :=
  if offset + items.length ≤ area.length then
    some (Buffer.memcpy area offset (items.map some))
  else none

/-- Carry out writes in their order. -/
def writeAll (area : Area Item) (writes : List (ℕ × List Item)) : Option (Area Item) :=
  writes.foldlM (fun area write => area.write write.1 write.2) area

theorem holding_zero (items : List Item) : holding items 0 = items.map some :=
  List.append_nil _

theorem length_holding (items : List Item) (room : ℕ) :
    (holding items room).length = items.length + room := by
  rw [holding, List.length_append, List.length_map, unwritten, List.length_replicate]

theorem mapM_some (items : List Item) : (items.map some).mapM id = some items := by
  induction items with
  | nil => rfl
  | cons item items ih => rw [List.map_cons, List.mapM_cons, ih]; rfl

/-- Items that were written can be read. -/
theorem readMany_holding {items : List Item} {room offset count : ℕ}
    (inside : offset + count ≤ items.length) :
    (holding items room).readMany offset count = some ((items.drop offset).take count) := by
  have whole : offset + count ≤ (holding items room).length := by
    rw [length_holding]
    omega
  have held : ((holding items room).drop offset).take count =
      ((items.drop offset).take count).map some := by
    have before : offset ≤ (items.map some).length := by
      rw [List.length_map]
      omega
    have behind : count ≤ ((items.map some).drop offset).length := by
      rw [List.length_drop, List.length_map]
      omega
    rw [holding, List.drop_append_of_le_length before, List.take_append_of_le_length behind,
      List.map_take, List.map_drop]
  rw [readMany, if_pos whole, held, mapM_some]

theorem read_holding {items : List Item} {room offset : ℕ} (inside : offset < items.length) :
    (holding items room).read offset = some items[offset] := by
  have before : offset < (items.map some).length := by
    rwa [List.length_map]
  rw [read, holding, List.getElem?_append_left before, List.getElem?_map,
    List.getElem?_eq_getElem inside]
  rfl

/-- A write behind the items that are there fits while there is room for it. -/
theorem write_holding {items more : List Item} {room : ℕ} (fits : more.length ≤ room) :
    (holding items room).write items.length more =
      some (holding (items ++ more) (room - more.length)) := by
  have whole : items.length + more.length ≤ (holding items room).length := by
    rw [length_holding]
    omega
  have behind := Buffer.memcpy_behind (items.map some) (unwritten room) (more.map some)
  rw [List.length_map, List.length_map] at behind
  rw [write, if_pos whole, holding, behind, holding, List.map_append, unwritten, unwritten,
    List.drop_replicate]

/-- Consecutive writes that fit leave what they wrote. -/
theorem writeAll_holding {writes : List (ℕ × List Item)} {items : List Item} {room : ℕ}
    (consecutive : Buffer.Consecutive items.length writes)
    (fits : (Buffer.written writes).length ≤ room) :
    (holding items room).writeAll writes =
      some (holding (items ++ Buffer.written writes) (room - (Buffer.written writes).length)) := by
  induction writes generalizing items room with
  | nil =>
      simp only [writeAll, List.foldlM_nil, Buffer.written, List.flatMap_nil, List.append_nil,
        List.length_nil, Nat.sub_zero]
      rfl
  | cons write writes ih =>
      obtain ⟨offset, more⟩ := write
      obtain ⟨rfl, later⟩ := consecutive
      have size : (Buffer.written ((items.length, more) :: writes)).length =
          more.length + (Buffer.written writes).length := by
        rw [Buffer.written, List.flatMap_cons, List.length_append]
        rfl
      rw [size] at fits ⊢
      have here : more.length ≤ room := by omega
      rw [writeAll, List.foldlM_cons, write_holding here]
      have rest := ih (by rwa [List.length_append]) (by omega : _ ≤ room - more.length)
      rw [writeAll] at rest
      simp only [Option.bind_eq_bind, Option.bind_some, rest, Buffer.written, List.flatMap_cons,
        List.append_assoc, Nat.sub_sub]

/-- Consecutive writes into an area of just their length leave what they would leave
of any buffer. -/
theorem writeAll_unwritten {writes : List (ℕ × List Item)} {buffer : List Item} {size : ℕ}
    (consecutive : Buffer.Consecutive 0 writes) (whole : size = (Buffer.written writes).length)
    (same : buffer.length = size) :
    (unwritten size).writeAll writes = some (holding (Buffer.writeAll buffer writes) 0) := by
  have written := @writeAll_holding _ writes [] size consecutive
    (Nat.le_of_eq whole.symm)
  rw [List.nil_append, ← whole, Nat.sub_self] at written
  rw [Buffer.writeAll_whole consecutive (same.trans whole)]
  exact written

end Area

variable {Command : Type} {Response : Command → Type}

/-- A thread that ends with a value or in a fault. -/
def Faulting (Response : Command → Type) (Value : Type) : Type := Thread Response (Option Value)

namespace Faulting

variable {Value Other Item : Type}

/-- Run a second program behind a first, unless that faults. -/
def andThen (first : Faulting Response Value) (later : Value → Faulting Response Other) :
    Faulting Response Other :=
  Thread.andThen first fun
    | some value => later value
    | none => .ret none

instance : Monad (Faulting Response) where
  pure value := .ret (some value)
  bind := andThen

/-- The outcome of a memory access. -/
def access (outcome : Option Value) : Faulting Response Value := .ret outcome

/-- A thread that makes no memory access of its own. -/
def safely (thread : Thread Response Value) : Faulting Response Value :=
  thread.andThen fun value => .ret (some value)

/-- A single call. -/
def call (command : Command) : Faulting Response (Response command) :=
  safely (Thread.perform command)

/-- What is left of a number, if it is large enough. -/
def subtract (whole part : ℕ) : Option ℕ := if part ≤ whole then some (whole - part) else none

theorem subtract_of_le {whole part : ℕ} (enough : part ≤ whole) :
    subtract whole part = some (whole - part) := if_pos enough

@[simp] theorem pure_bind (value : Value) (later : Value → Faulting Response Other) :
    (pure value : Faulting Response Value) >>= later = later value := rfl

@[simp] theorem access_bind (value : Value) (later : Value → Faulting Response Other) :
    (access (some value) : Faulting Response Value) >>= later = later value := rfl

theorem safely_ret (value : Value) :
    (pure value : Faulting Response Value) = safely (Thread.ret value) := rfl

/-- A program that goes on without a fault behind a thread without one has none. -/
theorem safely_bind {first : Thread Response Value} {later : Value → Thread Response Other}
    {faulting : Value → Faulting Response Other}
    (safe : ∀ value, faulting value = safely (later value)) :
    safely first >>= faulting = safely (first >>= later) := by
  induction first with
  | ret value => exact safe value
  | call command next ih => exact congrArg (Thread.call command) (funext ih)

theorem safely_ite {condition : Prop} [Decidable condition] {here there : Thread Response Value}
    {faultingHere faultingThere : Faulting Response Value}
    (safeHere : condition → faultingHere = safely here)
    (safeThere : ¬ condition → faultingThere = safely there) :
    (if condition then faultingHere else faultingThere) =
      safely (if condition then here else there) := by
  by_cases holds : condition
  · rw [if_pos holds, if_pos holds, safeHere holds]
  · rw [if_neg holds, if_neg holds, safeThere holds]

/-- A thread without memory accesses runs as it is, and does not fault. -/
theorem runs_safely {thread : Thread Response Value} {calls : List (Called Response)}
    {outcome : Option Value} :
    Thread.Runs (safely thread) calls outcome ↔
      ∃ value, outcome = some value ∧ Thread.Runs thread calls value := by
  constructor
  · intro runs
    obtain ⟨front, back, value, rfl, before, ended⟩ := Thread.Runs.of_bind runs
    obtain ⟨rfl, rfl⟩ := Thread.runs_ret.mp ended
    rw [List.append_nil]
    exact ⟨value, rfl, before⟩
  · rintro ⟨value, rfl, runs⟩
    induction runs with
    | ret value => exact .ret (some value)
    | call response _ ih => exact .call response ih

/-- However its calls are answered, a program does not end in a fault. -/
def NeverFaults (program : Faulting Response Value) : Prop :=
  ∀ calls outcome, Thread.Runs program calls outcome → outcome ≠ none

theorem neverFaults_safely (thread : Thread Response Value) : NeverFaults (safely thread) := by
  intro calls outcome runs
  obtain ⟨value, rfl, _⟩ := runs_safely.mp runs
  exact Option.some_ne_none value

end Faulting

end Foundation
