import Mathlib.Data.Char
import Rimba.Foundation.Json.Basic

/-! # What is written is read back

Reading a value's text from wherever a value is expected closes that value
there (`Foundation.Reader.runFrom_dumps`), so every value is read back from its
text (`Foundation.loads_dumps`).
-/

namespace Foundation

namespace Reader

theorem step_str {isKey : Bool} {s next : StringState} {stack : List Frame} {c : Char}
    (stepped : s.step c = some (.inl next)) :
    machine.step ⟨.str isKey s, stack⟩ c = some ⟨.str isKey next, stack⟩ := by
  simp only [machine, step, stepped, Option.bind_some]

/-- The four digits of an escape are read as its code unit. -/
theorem runFrom_escapeUnit {isKey high : Bool} {points : List ℕ} {stack : List Frame} {unit : ℕ}
    (small : unit < 0x10000) :
    machine.runFrom ⟨.str isKey ⟨points, high, .plain⟩, stack⟩ (escapeUnit unit) =
      some ⟨.str isKey (StringState.unit ⟨points, high, .plain⟩ unit), stack⟩ := by
  have digits : ((unit / 4096 % 16 * 16 + unit / 256 % 16) * 16 + unit / 16 % 16) * 16 + unit % 16 =
      unit := by omega
  have backslash : StringState.step ⟨points, high, .plain⟩ '\\' =
      some (.inl ⟨points, high, .escape⟩) := rfl
  have marked : StringState.step ⟨points, high, .escape⟩ 'u' =
      some (.inl ⟨points, high, .hex 0 4⟩) := rfl
  have digit : ∀ value left n, 1 < left →
      StringState.step ⟨points, high, .hex value left⟩ (Nat.digitChar (n % 16)) =
        some (.inl ⟨points, high, .hex (value * 16 + n % 16) (left - 1)⟩) := by
    intro value left n many
    simp only [StringState.step, hexValue_mod, Option.map_some, Nat.not_le.mpr many, ↓reduceIte]
  have last : ∀ value n, StringState.step ⟨points, high, .hex value 1⟩ (Nat.digitChar (n % 16)) =
      some (.inl (StringState.unit ⟨points, high, .plain⟩ (value * 16 + n % 16))) := by
    intro value n
    simp only [StringState.step, hexValue_mod, Option.map_some, le_refl, ↓reduceIte]
    rfl
  simp only [escapeUnit, Machine.runFrom_cons, Machine.runFrom_nil, step_str backslash,
    step_str marked, step_str (digit 0 4 _ (by decide)), step_str (digit _ 3 _ (by decide)),
    step_str (digit _ 2 _ (by decide)), step_str (last _ _), Option.bind_some, Nat.zero_mul,
    Nat.zero_add, Nat.reduceSub, digits]

section

variable {isKey : Bool} {points : List ℕ} {stack : List Frame}

theorem runFrom_shortEscape {letter char : Char} (read : shortEscape letter = some char)
    (other : letter ≠ 'u') :
    machine.runFrom ⟨.str isKey ⟨points, false, .plain⟩, stack⟩ ['\\', letter] =
      some ⟨.str isKey ⟨points ++ [char.toNat], false, .plain⟩, stack⟩ := by
  have backslash : StringState.step ⟨points, false, .plain⟩ '\\' =
      some (.inl ⟨points, false, .escape⟩) := rfl
  have escaped : StringState.step ⟨points, false, .escape⟩ letter =
      some (.inl ⟨points ++ [char.toNat], false, .plain⟩) := by
    simp only [StringState.step, other, ↓reduceIte, read, Option.map_some]
  simp only [Machine.runFrom_cons, Machine.runFrom_nil, step_str backslash, step_str escaped,
    Option.bind_some]

/-- A character of the basic plane is its code unit, which is no surrogate. -/
theorem runFrom_basic {c : Char} (basic : c.toNat < 0x10000) :
    machine.runFrom ⟨.str isKey ⟨points, false, .plain⟩, stack⟩ (escapeUnit c.toNat) =
      some ⟨.str isKey ⟨points ++ [c.toNat], false, .plain⟩, stack⟩ := by
  have valid : c.toNat.isValidChar := c.valid
  have low : ¬ (0xd800 ≤ c.toNat ∧ c.toNat < 0xdc00) := by
    unfold Nat.isValidChar at valid
    omega
  rw [runFrom_escapeUnit basic]
  simp only [StringState.unit, Bool.false_eq_true, false_and, ↓reduceIte, low, decide_false]

/-- A character above it is two surrogates. -/
theorem runFrom_surrogates {c : Char} (above : ¬ c.toNat < 0x10000) :
    machine.runFrom ⟨.str isKey ⟨points, false, .plain⟩, stack⟩
        (escapeUnit (0xd800 + (c.toNat - 0x10000) / 0x400) ++
          escapeUnit (0xdc00 + (c.toNat - 0x10000) % 0x400)) =
      some ⟨.str isKey ⟨points ++ [c.toNat], false, .plain⟩, stack⟩ := by
  have valid : c.toNat.isValidChar := c.valid
  unfold Nat.isValidChar at valid
  have first : 0xd800 ≤ 0xd800 + (c.toNat - 0x10000) / 0x400 ∧
      0xd800 + (c.toNat - 0x10000) / 0x400 < 0xdc00 := by omega
  have second : 0xdc00 ≤ 0xdc00 + (c.toNat - 0x10000) % 0x400 ∧
      0xdc00 + (c.toNat - 0x10000) % 0x400 < 0xe000 := by omega
  have whole : 0x10000 + (0xd800 + (c.toNat - 0x10000) / 0x400 - 0xd800) * 0x400 +
      (0xdc00 + (c.toNat - 0x10000) % 0x400 - 0xdc00) = c.toNat := by omega
  rw [Machine.runFrom_append, runFrom_escapeUnit (by omega), Option.bind_some]
  simp only [StringState.unit, Bool.false_eq_true, false_and, ↓reduceIte, first, and_self,
    decide_true]
  rw [runFrom_escapeUnit (by omega)]
  simp only [StringState.unit, second, and_self, ↓reduceIte, List.dropLast_concat,
    List.getLastD_concat, whole]

end

/-- An escaped character is read as itself. -/
theorem runFrom_escapeChar {isKey : Bool} {points : List ℕ} {stack : List Frame} (c : Char) :
    machine.runFrom ⟨.str isKey ⟨points, false, .plain⟩, stack⟩ (escapeChar c) =
      some ⟨.str isKey ⟨points ++ [c.toNat], false, .plain⟩, stack⟩ := by
  rcases escapeChar_cases c with ⟨letter, short, read, other, -⟩ |
    ⟨itself, quote, backslash, printable⟩ | ⟨unit, basic⟩ | ⟨units, above⟩
  · rw [short]
    exact runFrom_shortEscape read other
  · have solid : ¬ c < ' ' := fun below => by
      have small : c.toNat < 0x20 := UInt32.lt_iff_toNat_lt.mp below
      omega
    have plain : StringState.step ⟨points, false, .plain⟩ c =
        some (.inl ⟨points ++ [c.toNat], false, .plain⟩) := by
      simp only [StringState.step, quote, backslash, solid, ↓reduceIte]
    rw [itself]
    simp only [Machine.runFrom_cons, Machine.runFrom_nil, step_str plain, Option.bind_some]
  · rw [unit]
    exact runFrom_basic basic
  · rw [units]
    exact runFrom_surrogates above

/-- The characters of a string are read up to its closing quote. -/
theorem runFrom_escaped {isKey : Bool} {points : List ℕ} {stack : List Frame} (text : List Char) :
    machine.runFrom ⟨.str isKey ⟨points, false, .plain⟩, stack⟩ (text.flatMap escapeChar) =
      some ⟨.str isKey ⟨points ++ text.map Char.toNat, false, .plain⟩, stack⟩ := by
  induction text generalizing points with
  | nil => simp only [List.flatMap_nil, Machine.runFrom_nil, List.map_nil, List.append_nil]
  | cons c text ih =>
      rw [List.flatMap_cons, Machine.runFrom_append, runFrom_escapeChar, Option.bind_some, ih,
        List.map_cons, List.append_assoc, List.singleton_append]

theorem map_charOf (text : List Char) : (text.map Char.toNat).map charOf = text := by
  rw [List.map_map]
  refine (List.map_congr_left fun c _ => ?_).trans (List.map_id _)
  have valid : c.toNat.isValidChar := c.valid
  simp only [Function.comp_apply, charOf, valid, ↓reduceIte, Char.ofNat_toNat, id]

theorem step_closingQuote {s : StringState} {stack : List Frame} (plain : s.mode = .plain) :
    machine.step ⟨.str false s, stack⟩ '"' = some (close (.str (s.points.map charOf)) stack) ∧
      machine.step ⟨.str true s, stack⟩ '"' = named (s.points.map charOf) stack := by
  have closed : s.step '"' = some (.inr (s.points.map charOf)) := by
    simp only [StringState.step, plain, ↓reduceIte]
  simp only [machine, step, closed, Option.bind_some, Bool.false_eq_true, ↓reduceIte, and_self]

/-- A string is read where a value may start. -/
theorem runFrom_quote {stack : List Frame} (text : List Char) :
    machine.runFrom ⟨.value, stack⟩ (quote text) = some (close (.str text) stack) := by
  have opened : machine.step ⟨.value, stack⟩ '"' = some ⟨.str false .start, stack⟩ := rfl
  rw [quote, Machine.runFrom_cons, opened, Option.bind_some, Machine.runFrom_append,
    StringState.start, runFrom_escaped, Option.bind_some, Machine.runFrom_cons,
    (step_closingQuote rfl).1, Option.bind_some, Machine.runFrom_nil, List.nil_append, map_charOf]

/-- A key is read where one may start. -/
theorem runFrom_key {mode : Mode} (keyed : mode = .firstKey ∨ mode = .key)
    {members : List (List Char × Json)} {before key : List Char} {stack : List Frame} :
    machine.runFrom ⟨mode, .obj members before :: stack⟩ (quote key ++ [':', ' ']) =
      some ⟨.value, .obj members key :: stack⟩ := by
  have opened : machine.step ⟨mode, .obj members before :: stack⟩ '"' =
      some ⟨.str true .start, .obj members before :: stack⟩ := by
    rcases keyed with rfl | rfl <;> rfl
  have colon : machine.runFrom ⟨.colon, .obj members key :: stack⟩ [':', ' '] =
      some ⟨.value, .obj members key :: stack⟩ := rfl
  rw [quote, List.cons_append, Machine.runFrom_cons, opened, Option.bind_some, List.append_assoc,
    Machine.runFrom_append, StringState.start, runFrom_escaped, Option.bind_some,
    List.singleton_append, Machine.runFrom_cons, (step_closingQuote rfl).2, List.nil_append,
    map_charOf, named, Option.bind_some, colon]

theorem runFrom_bareChars {read : List Char} {stack : List Frame} {text : List Char}
    (bare : ∀ c ∈ text, isBareChar c = true) :
    machine.runFrom ⟨.bare read, stack⟩ text = some ⟨.bare (read ++ text), stack⟩ := by
  induction text generalizing read with
  | nil => rw [List.append_nil, Machine.runFrom_nil]
  | cons c text ih =>
      obtain ⟨here, later⟩ := List.forall_mem_cons.mp bare
      have stepped : machine.step ⟨.bare read, stack⟩ c = some ⟨.bare (read ++ [c]), stack⟩ := by
        simp only [machine, step, here, ↓reduceIte]
      rw [Machine.runFrom_cons, stepped, Option.bind_some, ih later, List.append_assoc,
        List.singleton_append]

theorem not_bare_of_blank {c : Char} (blank : isBlank c = true) : isBareChar c = false := by
  simp only [isBlank, Bool.or_eq_true, decide_eq_true_eq] at blank
  rcases blank with ((rfl | rfl) | rfl) | rfl <;> decide

theorem not_blank_of_bare {c : Char} (bare : isBareChar c = true) : isBlank c = false := by
  by_contra blank
  exact absurd (not_bare_of_blank (Bool.not_eq_false _ ▸ blank)) (by rw [bare]; decide)

theorem ne_of_bare {c d : Char} (bare : isBareChar c = true) (notBare : isBareChar d = false) :
    c ≠ d := by
  rintro rfl
  exact absurd (notBare.symm.trans bare) Bool.false_ne_true

/-- A bare character starts a bare value. -/
theorem step_bareChar {stack : List Frame} {c : Char} (bare : isBareChar c = true) :
    machine.step ⟨.value, stack⟩ c = some ⟨.bare [c], stack⟩ := by
  have other (d : Char) : isBareChar d = false → c ≠ d := ne_of_bare bare
  have solid := not_blank_of_bare bare
  simp only [machine, step, stepBetween, solid, Bool.false_eq_true, ↓reduceIte, stepSolid, start,
    other '"' (by decide), other '[' (by decide), other '{' (by decide), bare]

theorem runFrom_bare {stack : List Frame} (text : Bare) :
    machine.runFrom ⟨.value, stack⟩ text.1 = some ⟨.bare text.1, stack⟩ := by
  obtain ⟨text, valid⟩ := text
  have bare : ∀ c ∈ text, isBareChar c = true := by
    rw [isBare, Bool.and_eq_true, List.all_eq_true] at valid
    exact valid.1
  cases text with
  | nil => exact absurd valid (by decide)
  | cons c rest =>
      obtain ⟨here, later⟩ := List.forall_mem_cons.mp bare
      rw [Machine.runFrom_cons, step_bareChar here, Option.bind_some, runFrom_bareChars later,
        List.singleton_append]

/-- Where the reader is behind a value's text: the value is closed, or it is a
bare one that the next character will close. -/
def After (v : Json) (stack : List Frame) (reader : Reader) : Prop :=
  reader = close v stack ∨ ∃ text, v = .bare text ∧ reader = ⟨.bare text.1, stack⟩

theorem step_close (v : Json) (stack : List Frame) (c : Char) :
    machine.step (close v stack) c = (close v stack).stepBetween c := by
  rcases stack with _ | ⟨_ | _, _⟩ <;> rfl

theorem After.step {v : Json} {stack : List Frame} {reader : Reader} (after : After v stack reader)
    {c : Char} (solid : isBareChar c = false) :
    machine.step reader c = (close v stack).stepBetween c := by
  rcases after with rfl | ⟨text, rfl, rfl⟩
  · exact step_close v stack c
  · simp only [machine, Reader.step, solid, Bool.false_eq_true, ↓reduceIte, text.2, ↓reduceDIte]

/-- White space behind a value is passed over. -/
theorem After.blank {v : Json} {stack : List Frame} {reader : Reader} (after : After v stack reader)
    {gap : List Char} (blank : ∀ c ∈ gap, isBlank c = true) :
    ∃ next, machine.runFrom reader gap = some next ∧ After v stack next := by
  induction gap generalizing reader with
  | nil => exact ⟨reader, Machine.runFrom_nil .., after⟩
  | cons c gap ih =>
      obtain ⟨here, later⟩ := List.forall_mem_cons.mp blank
      have stepped : machine.step reader c = some (close v stack) := by
        rw [after.step (not_bare_of_blank here), stepBetween, here, if_pos rfl]
      obtain ⟨next, read, afterNext⟩ := ih (.inl rfl) later
      exact ⟨next, by rw [Machine.runFrom_cons, stepped, Option.bind_some, read], afterNext⟩

/-- White space where a value, an item or a key is expected is passed over. -/
theorem runFrom_blank {mode : Mode} (between : mode ∈ [.value, .item, .firstKey, .key])
    {stack : List Frame} {gap : List Char} (blank : ∀ c ∈ gap, isBlank c = true) :
    machine.runFrom ⟨mode, stack⟩ gap = some ⟨mode, stack⟩ := by
  induction gap with
  | nil => exact Machine.runFrom_nil ..
  | cons c gap ih =>
      obtain ⟨here, later⟩ := List.forall_mem_cons.mp blank
      have stepped : machine.step ⟨mode, stack⟩ c = some ⟨mode, stack⟩ := by
        simp only [List.mem_cons, List.not_mem_nil, or_false] at between
        rcases between with rfl | rfl | rfl | rfl <;>
          simp only [machine, Reader.step, stepBetween, here, ↓reduceIte]
      rw [Machine.runFrom_cons, stepped, Option.bind_some, ih later]

variable {layout : Layout}

/-- A value's text does not start like the end of an array. -/
theorem dumps_head (level : ℕ) (v : Json) :
    ∃ c rest, dumps layout level v = c :: rest ∧ c ≠ ']' ∧ isBlank c = false := by
  cases v with
  | bare text =>
      obtain ⟨text, valid⟩ := text
      cases text with
      | nil => exact absurd valid (by decide)
      | cons c rest =>
          have bare : isBareChar c = true := by
            rw [isBare, Bool.and_eq_true, List.all_cons, Bool.and_eq_true] at valid
            exact valid.1.1
          refine ⟨c, rest, rfl, ?_, not_blank_of_bare bare⟩
          rintro rfl
          exact absurd bare (by decide)
  | str text => exact ⟨'"', _, rfl, by decide, by decide⟩
  | arr items =>
      cases items with
      | nil => exact ⟨'[', _, rfl, by decide, by decide⟩
      | cons v rest => exact ⟨'[', _, rfl, by decide, by decide⟩
  | obj members =>
      cases members with
      | nil => exact ⟨'{', _, rfl, by decide, by decide⟩
      | cons member rest => exact ⟨'{', _, rfl, by decide, by decide⟩

/-- The first item of an array is read like any value. -/
theorem runFrom_item (level : ℕ) (v : Json) (stack : List Frame) (rest : List Char) :
    machine.runFrom ⟨.item, stack⟩ (dumps layout level v ++ rest) =
      machine.runFrom ⟨.value, stack⟩ (dumps layout level v ++ rest) := by
  obtain ⟨c, text, same, notEnd, solid⟩ := @dumps_head layout level v
  rw [same, List.cons_append, Machine.runFrom_cons, Machine.runFrom_cons]
  simp only [machine, Reader.step, stepBetween, solid, Bool.false_eq_true, ↓reduceIte, stepSolid,
    notEnd]

mutual

/-- A value's text, read where a value is expected, closes the value there. -/
theorem runFrom_dumps (level : ℕ) (stack : List Frame) : (v : Json) →
    ∃ reader, machine.runFrom ⟨.value, stack⟩ (dumps layout level v) = some reader ∧
      After v stack reader
  | .bare text => ⟨_, runFrom_bare text, .inr ⟨text, rfl, rfl⟩⟩
  | .str text => ⟨_, runFrom_quote text, .inl rfl⟩
  | .arr [] => ⟨_, rfl, .inl rfl⟩
  | .arr (v :: rest) => by
      obtain ⟨first, readFirst, afterFirst⟩ := runFrom_dumps (level + 1) (.arr [] :: stack) v
      obtain ⟨last, items, final, readRest, afterRest, whole⟩ :=
        runFrom_items (level + 1) stack rest afterFirst
      obtain ⟨closing, readGap, afterGap⟩ := afterRest.blank (layout.gap_blank level)
      refine ⟨close (.arr (v :: rest)) stack, ?_, .inl rfl⟩
      have opened : machine.step ⟨.value, stack⟩ '[' = some ⟨.item, .arr [] :: stack⟩ := rfl
      have closed : machine.step closing ']' = some (close (.arr (v :: rest)) stack) := by
        rw [afterGap.step (by decide), ← List.nil_append (v :: rest), ← whole]
        rfl
      rw [dumps, Machine.runFrom_cons, opened, Option.bind_some, Machine.runFrom_append,
        runFrom_blank (by simp) (layout.gap_blank _), Option.bind_some, runFrom_item,
        Machine.runFrom_append, readFirst, Option.bind_some, Machine.runFrom_append, readRest,
        Option.bind_some, Machine.runFrom_append, readGap, Option.bind_some, Machine.runFrom_cons,
        closed, Option.bind_some, Machine.runFrom_nil]
  | .obj [] => ⟨_, rfl, .inl rfl⟩
  | .obj ((key, v) :: rest) => by
      obtain ⟨first, readFirst, afterFirst⟩ := runFrom_dumps (level + 1) (.obj [] key :: stack) v
      obtain ⟨last, members, lastKey, final, readRest, afterRest, whole⟩ :=
        runFrom_members (level + 1) stack rest afterFirst
      obtain ⟨closing, readGap, afterGap⟩ := afterRest.blank (layout.gap_blank level)
      refine ⟨close (.obj ((key, v) :: rest)) stack, ?_, .inl rfl⟩
      have opened : machine.step ⟨.value, stack⟩ '{' = some ⟨.firstKey, .obj [] [] :: stack⟩ := rfl
      have closed : machine.step closing '}' = some (close (.obj ((key, v) :: rest)) stack) := by
        rw [afterGap.step (by decide), ← List.nil_append ((key, v) :: rest), ← whole]
        rfl
      have named : dumps layout level (.obj ((key, v) :: rest)) =
          '{' :: (layout.gap (level + 1) ++ ((quote key ++ [':', ' ']) ++
            (dumps layout (level + 1) v ++ (dumpsMembers layout (level + 1) rest ++
              (layout.gap level ++ ['}']))))) := by
        simp only [dumps, List.append_assoc, List.cons_append, List.nil_append]
      rw [named, Machine.runFrom_cons, opened, Option.bind_some, Machine.runFrom_append,
        runFrom_blank (by simp) (layout.gap_blank _), Option.bind_some, Machine.runFrom_append,
        runFrom_key (.inl rfl), Option.bind_some, Machine.runFrom_append, readFirst,
        Option.bind_some, Machine.runFrom_append, readRest, Option.bind_some,
        Machine.runFrom_append, readGap, Option.bind_some, Machine.runFrom_cons, closed,
        Option.bind_some, Machine.runFrom_nil]

/-- More items are read behind an item. -/
theorem runFrom_items (level : ℕ) (stack : List Frame) {items : List Json} {v : Json}
    {reader : Reader} : (rest : List Json) → After v (.arr items :: stack) reader →
    ∃ next read last, machine.runFrom reader (dumpsItems layout level rest) = some next ∧
      After last (.arr read :: stack) next ∧ read ++ [last] = items ++ v :: rest
  | [], after => ⟨reader, items, v, Machine.runFrom_nil .., after, rfl⟩
  | next :: rest, after => by
      obtain ⟨first, readFirst, afterFirst⟩ :=
        runFrom_dumps level (.arr (items ++ [v]) :: stack) next
      obtain ⟨final, read, last, readRest, afterRest, whole⟩ :=
        runFrom_items level stack rest afterFirst
      have comma : machine.step reader ',' = some ⟨.value, .arr (items ++ [v]) :: stack⟩ := by
        rw [after.step (by decide)]
        rfl
      refine ⟨final, read, last, ?_, afterRest, by rw [whole, List.append_assoc,
        List.singleton_append]⟩
      rw [dumpsItems, Machine.runFrom_cons, comma, Option.bind_some, Machine.runFrom_append,
        runFrom_blank (by simp) (layout.itemGap_blank _), Option.bind_some,
        Machine.runFrom_append, readFirst, Option.bind_some, readRest]

/-- More members are read behind a member. -/
theorem runFrom_members (level : ℕ) (stack : List Frame) {members : List (List Char × Json)}
    {key : List Char} {v : Json} {reader : Reader} : (rest : List (List Char × Json)) →
    After v (.obj members key :: stack) reader →
    ∃ next read lastKey last,
      machine.runFrom reader (dumpsMembers layout level rest) = some next ∧
        After last (.obj read lastKey :: stack) next ∧
          read ++ [(lastKey, last)] = members ++ (key, v) :: rest
  | [], after => ⟨reader, members, key, v, Machine.runFrom_nil .., after, rfl⟩
  | (nextKey, next) :: rest, after => by
      obtain ⟨first, readFirst, afterFirst⟩ :=
        runFrom_dumps level (.obj (members ++ [(key, v)]) nextKey :: stack) next
      obtain ⟨final, read, lastKey, last, readRest, afterRest, whole⟩ :=
        runFrom_members level stack rest afterFirst
      have comma : machine.step reader ',' =
          some ⟨.key, .obj (members ++ [(key, v)]) key :: stack⟩ := by
        rw [after.step (by decide)]
        rfl
      have named : dumpsMembers layout level ((nextKey, next) :: rest) =
          ',' :: (layout.itemGap level ++ ((quote nextKey ++ [':', ' ']) ++
            (dumps layout level next ++ dumpsMembers layout level rest))) := by
        simp only [dumpsMembers, List.append_assoc, List.cons_append, List.nil_append]
      refine ⟨final, read, lastKey, last, ?_, afterRest, by rw [whole, List.append_assoc,
        List.singleton_append]⟩
      rw [named, Machine.runFrom_cons, comma, Option.bind_some, Machine.runFrom_append,
        runFrom_blank (by simp) (layout.itemGap_blank _), Option.bind_some,
        Machine.runFrom_append, runFrom_key (.inr rfl), Option.bind_some, Machine.runFrom_append,
        readFirst, Option.bind_some, readRest]

end

theorem After.finish {v : Json} {reader : Reader} (after : After v [] reader) :
    reader.finish = some v := by
  rcases after with rfl | ⟨text, rfl, rfl⟩
  · rfl
  · simp only [Reader.finish, text.2, ↓reduceDIte]

end Reader

/-- **Round trip.** A value is read back from its text, in any layout, and white
space behind the text does not matter. -/
theorem loads_dumps_blank (layout : Layout) (v : Json) {gap : List Char}
    (blank : ∀ c ∈ gap, isBlank c = true) : loads (dumps layout 0 v ++ gap) = some v := by
  obtain ⟨reader, read, after⟩ := Reader.runFrom_dumps 0 [] v
  obtain ⟨last, passed, afterGap⟩ := after.blank blank
  have ran : Reader.machine.run (dumps layout 0 v ++ gap) = some last := by
    have start : Reader.machine.initial = ⟨.value, []⟩ := rfl
    rw [Machine.run, Machine.runFrom_append, start, read, Option.bind_some, passed]
  rw [loads, ran, Option.bind_some, afterGap.finish]

theorem loads_dumps (layout : Layout) (v : Json) : loads (dumps layout 0 v) = some v := by
  have read := loads_dumps_blank layout v (List.forall_mem_nil _)
  rwa [List.append_nil] at read

end Foundation
