import Mathlib.Data.List.Basic
import Rimba.Foundation.Loop

/-! # Self-delimiting items

A framing encodes items so that the end of each is known from its start: what
follows an encoded item does not change how it is read, and what is read as an item
is its encoding. Octets then split in one way into complete items and a rest that
does not start with one (`Foundation.Framing.Parses.unique`). Cutting encoded items
short leaves those that end before the cut (`Foundation.Framing.Parses.take`), and a
loop that steps over each item in turn reaches the rest
(`Foundation.Framing.reaches`).
-/

namespace Foundation

/-- An encoding of items that ends by itself. -/
structure Framing (Octet Item : Type*) where
  encode : Item → List Octet
  /-- The complete item the octets start with. -/
  head : List Octet → Option Item
  encode_ne_nil : ∀ item, encode item ≠ []
  head_encode : ∀ item rest, head (encode item ++ rest) = some item
  encode_of_head : ∀ {octets item}, head octets = some item → encode item <+: octets

namespace Framing

variable {Octet Item : Type*} (framing : Framing Octet Item)

/-- Items one behind the other. -/
def encodeAll (items : List Item) : List Octet := items.flatMap framing.encode

/-- The complete items in front, as far as the fuel reaches. -/
def itemsWithin : ℕ → List Octet → List Item
  | 0, _ => []
  | fuel + 1, octets =>
      match framing.head octets with
      | none => []
      | some item => item :: itemsWithin fuel (octets.drop (framing.encode item).length)

/-- The complete items in front. -/
def items (octets : List Octet) : List Item := framing.itemsWithin octets.length octets

/-- What is behind the complete items in front. -/
def rest (octets : List Octet) : List Octet :=
  octets.drop (framing.encodeAll (framing.items octets)).length

/-- Octets are complete items, and a rest that does not start with one. -/
structure Parses (octets : List Octet) (items : List Item) (rest : List Octet) : Prop where
  whole : octets = framing.encodeAll items ++ rest
  stuck : framing.head rest = none

variable {framing}

@[simp] theorem encodeAll_nil : framing.encodeAll [] = [] := rfl

@[simp] theorem encodeAll_cons (item : Item) (items : List Item) :
    framing.encodeAll (item :: items) = framing.encode item ++ framing.encodeAll items := rfl

theorem encodeAll_append (front back : List Item) :
    framing.encodeAll (front ++ back) = framing.encodeAll front ++ framing.encodeAll back :=
  List.flatMap_append

theorem length_encode_pos (item : Item) : 0 < (framing.encode item).length :=
  List.length_pos_of_ne_nil (framing.encode_ne_nil item)

theorem head_nil : framing.head [] = none := by
  cases read : framing.head [] with
  | none => rfl
  | some item =>
      have empty := List.prefix_nil.mp (framing.encode_of_head read)
      exact absurd empty (framing.encode_ne_nil item)

/-- A strict part of an encoded item, from its start, is no item. -/
theorem head_cut {item : Item} {cut : List Octet} (part : cut <+: framing.encode item)
    (strict : cut.length < (framing.encode item).length) : framing.head cut = none := by
  cases read : framing.head cut with
  | none => rfl
  | some other =>
      obtain ⟨behind, rfl⟩ := framing.encode_of_head read
      obtain ⟨missing, joined⟩ := part
      -- what the part starts with is what the whole starts with
      have whole := framing.head_encode item []
      rw [List.append_nil, ← joined, List.append_assoc, framing.head_encode] at whole
      cases whole
      rw [List.length_append] at strict
      omega

namespace Parses

variable {octets rest rest' : List Octet} {items items' : List Item}

/-- Encoded items are read back. -/
theorem encoded (items : List Item) : framing.Parses (framing.encodeAll items) items [] where
  whole := (List.append_nil _).symm
  stuck := head_nil

theorem cons {item : Item} (tail : framing.Parses octets items rest) :
    framing.Parses (framing.encode item ++ octets) (item :: items) rest where
  whole := by rw [tail.whole, encodeAll_cons, List.append_assoc]
  stuck := tail.stuck

/-- Octets that start with no item have none in front. -/
theorem of_stuck (parses : framing.Parses octets items rest) (stuck : framing.head octets = none) :
    items = [] := by
  cases items with
  | nil => rfl
  | cons item items =>
      rw [parses.whole, encodeAll_cons, List.append_assoc, framing.head_encode] at stuck
      cases stuck

/-- Behind an item that octets start with are the other items in front. -/
theorem of_head {item : Item} (parses : framing.Parses octets items rest)
    (read : framing.head octets = some item) :
    ∃ later, items = item :: later ∧
      framing.Parses (octets.drop (framing.encode item).length) later rest := by
  cases items with
  | nil =>
      have same : octets = rest := parses.whole
      rw [same, parses.stuck] at read
      cases read
  | cons first later =>
      rw [parses.whole, encodeAll_cons, List.append_assoc, framing.head_encode] at read
      cases read
      refine ⟨later, rfl, ⟨?_, parses.stuck⟩⟩
      rw [parses.whole, encodeAll_cons, List.append_assoc, List.drop_left]

/-- There is no other way to split octets. -/
theorem unique (here : framing.Parses octets items rest)
    (there : framing.Parses octets items' rest') : items = items' ∧ rest = rest' := by
  induction items generalizing octets items' with
  | nil =>
      have same : octets = rest := here.whole
      obtain rfl := there.of_stuck (same ▸ here.stuck)
      exact ⟨rfl, same.symm.trans there.whole⟩
  | cons item items ih =>
      have read : framing.head octets = some item := by
        rw [here.whole, encodeAll_cons, List.append_assoc, framing.head_encode]
      obtain ⟨later, tail, parses⟩ := here.of_head read
      obtain ⟨later', rfl, parses'⟩ := there.of_head read
      cases tail
      obtain ⟨rfl, rfl⟩ := ih parses parses'
      exact ⟨rfl, rfl⟩

theorem itemsWithin_eq {fuel : ℕ} (enough : octets.length ≤ fuel)
    (parses : framing.Parses octets items rest) : framing.itemsWithin fuel octets = items := by
  induction items generalizing octets fuel with
  | nil =>
      have same : octets = rest := parses.whole
      subst same
      cases fuel with
      | zero => rfl
      | succ fuel => rw [itemsWithin, parses.stuck]
  | cons item items ih =>
      have whole := parses.whole
      rw [encodeAll_cons, List.append_assoc] at whole
      have size := congrArg List.length whole
      rw [List.length_append] at size
      have positive := framing.length_encode_pos item
      cases fuel with
      | zero => omega
      | succ fuel =>
          have later : framing.Parses (framing.encodeAll items ++ rest) items rest :=
            ⟨rfl, parses.stuck⟩
          have enough' : (framing.encodeAll items ++ rest).length ≤ fuel := by omega
          have tail := ih enough' later
          rw [itemsWithin, whole, framing.head_encode]
          exact congrArg (List.cons item) (by rw [List.drop_left, tail])

/-- What is read is the items in front and what is behind them. -/
theorem items_eq (parses : framing.Parses octets items rest) : framing.items octets = items :=
  parses.itemsWithin_eq (Nat.le_refl _)

theorem rest_eq (parses : framing.Parses octets items rest) : framing.rest octets = rest := by
  rw [Framing.rest, parses.items_eq, parses.whole, List.drop_left]

end Parses

theorem parses_itemsWithin {fuel : ℕ} {octets : List Octet} (enough : octets.length ≤ fuel) :
    ∃ rest, framing.Parses octets (framing.itemsWithin fuel octets) rest := by
  induction fuel generalizing octets with
  | zero =>
      have empty := List.length_eq_zero_iff.mp (Nat.le_zero.mp enough)
      exact ⟨[], by rw [empty]; rfl, head_nil⟩
  | succ fuel ih =>
      cases read : framing.head octets with
      | none => exact ⟨octets, by rw [itemsWithin, read]; rfl, read⟩
      | some item =>
          obtain ⟨behind, rfl⟩ := framing.encode_of_head read
          have positive := framing.length_encode_pos item
          rw [List.length_append] at enough
          obtain ⟨rest, tail⟩ := ih (by omega : behind.length ≤ fuel)
          refine ⟨rest, ?_⟩
          simp only [itemsWithin, read, List.drop_left]
          exact tail.cons

/-- Octets do split. -/
theorem parses (octets : List Octet) :
    framing.Parses octets (framing.items octets) (framing.rest octets) := by
  obtain ⟨rest, split⟩ := parses_itemsWithin (Nat.le_refl octets.length)
  rw [split.rest_eq]
  exact split

theorem encodeAll_items_append (octets : List Octet) :
    framing.encodeAll (framing.items octets) ++ framing.rest octets = octets :=
  (parses octets).whole.symm

/-- There is no rest when the items are all there is. -/
theorem rest_eq_nil_iff {octets : List Octet} :
    framing.rest octets = [] ↔ framing.encodeAll (framing.items octets) = octets := by
  have whole := framing.encodeAll_items_append octets
  constructor
  · intro empty
    rwa [empty, List.append_nil] at whole
  · intro all
    rw [all] at whole
    exact List.append_right_eq_self.mp whole

/-- The items that end before a cut. -/
def fitting (framing : Framing Octet Item) : List Item → ℕ → List Item
  | [], _ => []
  | item :: items, cut =>
      if (framing.encode item).length ≤ cut then
        item :: fitting framing items (cut - (framing.encode item).length)
      else []

theorem fitting_front (items : List Item) (cut : ℕ) : framing.fitting items cut <+: items := by
  induction items generalizing cut with
  | nil => exact List.prefix_rfl
  | cons item items ih =>
      rw [fitting]
      split
      · exact List.cons_prefix_cons.mpr ⟨rfl, ih _⟩
      · exact ⟨_, List.nil_append _⟩

/-- An item is kept when it and those before it end before the cut. -/
theorem lt_length_fitting {items : List Item} {cut index : ℕ} (inside : index < items.length) :
    index < (framing.fitting items cut).length ↔
      (framing.encodeAll (items.take (index + 1))).length ≤ cut := by
  induction items generalizing cut index with
  | nil => exact absurd inside (Nat.not_lt_zero _)
  | cons item items ih =>
      rw [List.take_succ_cons, encodeAll_cons, List.length_append, fitting]
      by_cases ends : (framing.encode item).length ≤ cut
      · rw [if_pos ends, List.length_cons]
        cases index with
        | zero =>
            rw [List.take_zero, encodeAll_nil, List.length_nil]
            omega
        | succ index =>
            have tail :
                index < (framing.fitting items (cut - (framing.encode item).length)).length ↔
                (framing.encodeAll (items.take (index + 1))).length ≤
                  cut - (framing.encode item).length := ih (Nat.lt_of_succ_lt_succ inside)
            omega
      · rw [if_neg ends, List.length_nil]
        omega

/-- Encoded items that are cut short split into those that end before the cut, and
the rest of the item that was cut. -/
theorem Parses.take (items : List Item) (cut : ℕ) :
    ∃ rest, framing.Parses ((framing.encodeAll items).take cut) (framing.fitting items cut)
      rest := by
  induction items generalizing cut with
  | nil => exact ⟨[], by rw [encodeAll_nil, List.take_nil]; exact .encoded []⟩
  | cons item items ih =>
      rw [encodeAll_cons, fitting, List.take_append]
      split
      case isTrue ends =>
          obtain ⟨rest, tail⟩ := ih (cut - (framing.encode item).length)
          rw [List.take_of_length_le ends]
          exact ⟨rest, tail.cons⟩
      case isFalse ends =>
          have none_left : cut - (framing.encode item).length = 0 := by omega
          rw [none_left, List.take_zero, List.append_nil]
          refine ⟨_, rfl, head_cut (⟨_, List.take_append_drop _ _⟩) ?_⟩
          rw [List.length_take]
          omega

variable {State Result : Type*} {body : State → Pass State Result}

/-- A loop that steps over each item in turn steps over all of them. -/
theorem reaches {octets : List Octet} {state : List Item → State} {passes : Item → Prop}
    (steps : ∀ passed item rest,
      octets = framing.encodeAll passed ++ (framing.encode item ++ rest) →
      passes item → body (state passed) = .next (state (passed ++ [item])))
    {items : List Item} (all : ∀ item ∈ items, passes item) {passed : List Item}
    {rest : List Octet}
    (whole : octets = framing.encodeAll passed ++ (framing.encodeAll items ++ rest)) :
    Loop.Reaches body (state passed) (state (passed ++ items)) := by
  induction items generalizing passed with
  | nil => rw [List.append_nil]; exact .refl _
  | cons item items ih =>
      have here := whole
      rw [encodeAll_cons, List.append_assoc] at here
      have joined : octets =
          framing.encodeAll (passed ++ [item]) ++ (framing.encodeAll items ++ rest) := by
        rw [here, encodeAll_append, encodeAll_cons, encodeAll_nil, List.append_nil,
          List.append_assoc]
      have later := ih (fun other member => all other (List.mem_cons_of_mem item member)) joined
      rw [List.append_assoc, List.singleton_append] at later
      exact .step (steps passed item _ here (all item (List.mem_cons_self ..))) later

/-- From the start it reaches what is behind the items. -/
theorem reaches_all {octets : List Octet} {state : List Item → State} {passes : Item → Prop}
    (steps : ∀ passed item rest,
      octets = framing.encodeAll passed ++ (framing.encode item ++ rest) →
      passes item → body (state passed) = .next (state (passed ++ [item])))
    {items : List Item} (all : ∀ item ∈ items, passes item) {rest : List Octet}
    (whole : octets = framing.encodeAll items ++ rest) :
    Loop.Reaches body (state []) (state items) :=
  have nothing : octets = framing.encodeAll [] ++ (framing.encodeAll items ++ rest) := whole
  reaches steps all nothing

section

variable {octets : List Octet} {state : List Item → State} {wanted : Item → Prop}
  [DecidablePred wanted] {found : List Item → Item → Result} {items : List Item}
  {rest : List Octet}

/-- A loop that looks for an item steps over those that are not wanted. -/
theorem steps_over
    (steps : ∀ passed item rest,
      octets = framing.encodeAll passed ++ (framing.encode item ++ rest) →
      body (state passed) =
        if wanted item then .done (found passed item) else .next (state (passed ++ [item]))) :
    ∀ passed item rest, octets = framing.encodeAll passed ++ (framing.encode item ++ rest) →
      ¬ wanted item → body (state passed) = .next (state (passed ++ [item])) := by
  intro passed item rest here other
  rw [steps passed item rest here, if_neg other]

/-- It ends at the first that is. -/
theorem ends_at_first
    (steps : ∀ passed item rest,
      octets = framing.encodeAll passed ++ (framing.encode item ++ rest) →
      body (state passed) =
        if wanted item then .done (found passed item) else .next (state (passed ++ [item])))
    (whole : octets = framing.encodeAll items ++ rest) {item : Item}
    (first : items.find? (fun item => wanted item) = some item) :
    ∃ passed later, items = passed ++ item :: later ∧ (∀ other ∈ passed, ¬ wanted other) ∧
      octets = framing.encodeAll passed ++ (framing.encode item ++
        (framing.encodeAll later ++ rest)) ∧
      Loop.EndsAt body (state []) (state passed) (found passed item) := by
  obtain ⟨same, passed, later, rfl, others⟩ := List.find?_eq_some_iff_append.mp first
  have before : ∀ other ∈ passed, ¬ wanted other := by
    intro other member
    have differs := others other member
    simpa using differs
  rw [encodeAll_append, encodeAll_cons, List.append_assoc, List.append_assoc] at whole
  have ends := steps passed item _ whole
  rw [if_pos (of_decide_eq_true same)] at ends
  exact ⟨passed, later, rfl, before, whole, reaches_all (steps_over steps) before whole, ends⟩

/-- When there is none it steps over all items. -/
theorem reaches_of_find?_eq_none
    (steps : ∀ passed item rest,
      octets = framing.encodeAll passed ++ (framing.encode item ++ rest) →
      body (state passed) =
        if wanted item then .done (found passed item) else .next (state (passed ++ [item])))
    (whole : octets = framing.encodeAll items ++ rest)
    (absent : items.find? (fun item => wanted item) = none) :
    Loop.Reaches body (state []) (state items) := by
  have others : ∀ item ∈ items, ¬ wanted item := fun item member wants =>
    List.find?_eq_none.mp absent item member (decide_eq_true wants)
  exact reaches_all (steps_over steps) others whole

end

end Framing

end Foundation
