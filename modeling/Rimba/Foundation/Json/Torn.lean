import Rimba.Foundation.Json.Printable
import Rimba.Foundation.Json.RoundTrip

/-! # Texts cut short

A reader inside a container stays inside it until the container's end, so a text
that stops in the middle of an object is no value. Objects written one behind
another on the same line, each possibly cut short, read as a value only when the
text read is the first of them, whole (`Foundation.loads_pieces`).
-/

namespace Foundation

namespace Reader

/-- A reader with containers around its own: what ends its text ends inside them. -/
def under (reader : Reader) (outer : List Frame) : Reader :=
  match reader.mode with
  | .done v => close v (reader.stack ++ outer)
  | mode => ⟨mode, reader.stack ++ outer⟩

theorem close_under (v : Json) (stack outer : List Frame) :
    (close v stack).under outer = close v (stack ++ outer) := by
  rcases stack with _ | ⟨_ | _, _⟩ <;> rfl

theorem start_under {stack outer : List Frame} {c : Char} {next : Reader}
    (started : start stack c = some next) : start (stack ++ outer) c = some (next.under outer) := by
  unfold start at started ⊢
  split_ifs at started ⊢
  all_goals
    cases started
    rfl

theorem punctuate_under {stack outer : List Frame} {c : Char} {next : Reader}
    (punctuated : punctuate stack c = some next) :
    punctuate (stack ++ outer) c = some (next.under outer) := by
  rcases stack with _ | ⟨items | ⟨members, key⟩, rest⟩
  · cases punctuated
  · simp only [punctuate, List.cons_append] at punctuated ⊢
    split_ifs at punctuated ⊢
    · cases punctuated
      rfl
    · cases punctuated
      rw [close_under]
  · simp only [punctuate, List.cons_append] at punctuated ⊢
    split_ifs at punctuated ⊢
    · cases punctuated
      rfl
    · cases punctuated
      rw [close_under]

theorem named_under {key : List Char} {stack outer : List Frame} {next : Reader}
    (read : named key stack = some next) :
    named key (stack ++ outer) = some (next.under outer) := by
  rcases stack with _ | ⟨_ | _, _⟩
  · cases read
  · cases read
  · cases read
    rfl

theorem stepBetween_under {reader next : Reader} {outer : List Frame} {c : Char}
    (stepped : reader.stepBetween c = some next) :
    (reader.under outer).stepBetween c = some (next.under outer) := by
  unfold stepBetween at stepped ⊢
  split_ifs at stepped ⊢ with blank
  · cases stepped
    rfl
  · obtain ⟨mode, stack⟩ := reader
    cases mode with
    | value => exact start_under stepped
    | item =>
        simp only [stepSolid, under] at stepped ⊢
        split_ifs at stepped ⊢
        · exact punctuate_under stepped
        · exact start_under stepped
    | firstKey =>
        simp only [stepSolid, under] at stepped ⊢
        split_ifs at stepped ⊢
        · cases stepped
          rfl
        · exact punctuate_under stepped
    | key =>
        simp only [stepSolid, under] at stepped ⊢
        split_ifs at stepped ⊢
        cases stepped
        rfl
    | colon =>
        simp only [stepSolid, under] at stepped ⊢
        split_ifs at stepped ⊢
        cases stepped
        rfl
    | more => exact punctuate_under stepped
    | str isKey s => cases stepped
    | bare text => cases stepped
    | done v => cases stepped

/-- A step is taken inside more containers as well. -/
theorem step_under {reader next : Reader} {outer : List Frame} {c : Char}
    (stepped : reader.step c = some next) :
    (reader.under outer).step c = some (next.under outer) := by
  obtain ⟨mode, stack⟩ := reader
  cases mode with
  | str isKey s =>
      simp only [step, under] at stepped ⊢
      obtain ⟨read, inString, later⟩ := Option.bind_eq_some_iff.mp stepped
      rw [inString, Option.bind_some]
      cases read with
      | inl further =>
          cases later
          rfl
      | inr text =>
          cases isKey with
          | true => exact named_under later
          | false =>
              cases later
              exact congrArg some (close_under _ _ _).symm
  | bare text =>
      simp only [step, under] at stepped ⊢
      split_ifs at stepped ⊢ with isBare valid
      · cases stepped
        rfl
      · rw [← close_under]
        exact stepBetween_under stepped
  | done v =>
      exact (step_close v (stack ++ outer) c).trans (stepBetween_under stepped)
  | value => exact stepBetween_under stepped
  | item => exact stepBetween_under stepped
  | firstKey => exact stepBetween_under stepped
  | key => exact stepBetween_under stepped
  | colon => exact stepBetween_under stepped
  | more => exact stepBetween_under stepped

/-- A text is read inside more containers as well. -/
theorem runFrom_under {reader final : Reader} {outer : List Frame} {text : List Char}
    (read : machine.runFrom reader text = some final) :
    machine.runFrom (reader.under outer) text = some (final.under outer) := by
  induction text generalizing reader with
  | nil =>
      cases read
      rfl
  | cons c text ih =>
      obtain ⟨next, stepped, later⟩ := Option.bind_eq_some_iff.mp read
      have outside : machine.step (reader.under outer) c = some (next.under outer) :=
        step_under stepped
      rw [Machine.runFrom_cons, outside, Option.bind_some, ih later]

theorem close_stack {v : Json} {stack : List Frame} (inside : stack ≠ []) :
    (close v stack).stack ≠ [] := by
  rcases stack with _ | ⟨_ | _, _⟩
  · exact absurd rfl inside
  · exact List.cons_ne_nil _ _
  · exact List.cons_ne_nil _ _

theorem under_stack {outer : List Frame} (inside : outer ≠ []) (reader : Reader) :
    (reader.under outer).stack ≠ [] := by
  have append : reader.stack ++ outer ≠ [] := fun nothing =>
    inside (List.append_eq_nil_iff.mp nothing).2
  unfold under
  split
  · exact close_stack append
  · exact append

/-- Inside a container, or behind a whole value. -/
def Settled (reader : Reader) : Prop := reader.stack ≠ [] ∨ ∃ v, reader = ⟨.done v, []⟩

theorem close_settled (v : Json) (stack : List Frame) : (close v stack).Settled := by
  cases stack with
  | nil => exact .inr ⟨v, rfl⟩
  | cons frame rest => exact .inl (close_stack (List.cons_ne_nil _ _))

theorem start_settled {stack : List Frame} {c : Char} {next : Reader} (inside : stack ≠ [])
    (started : start stack c = some next) : next.Settled := by
  unfold start at started
  split_ifs at started
  · cases started
    exact .inl inside
  · cases started
    exact .inl (List.cons_ne_nil _ _)
  · cases started
    exact .inl (List.cons_ne_nil _ _)
  · cases started
    exact .inl inside

theorem punctuate_settled {stack : List Frame} {c : Char} {next : Reader}
    (punctuated : punctuate stack c = some next) : next.Settled := by
  rcases stack with _ | ⟨items | ⟨members, key⟩, rest⟩
  · cases punctuated
  · simp only [punctuate] at punctuated
    split_ifs at punctuated
    · cases punctuated
      exact .inl (List.cons_ne_nil _ _)
    · cases punctuated
      exact close_settled _ _
  · simp only [punctuate] at punctuated
    split_ifs at punctuated
    · cases punctuated
      exact .inl (List.cons_ne_nil _ _)
    · cases punctuated
      exact close_settled _ _

theorem stepSolid_settled {mode : Mode} {stack : List Frame} {next : Reader} {c : Char}
    (inside : stack ≠ []) (stepped : stepSolid mode stack c = some next) : next.Settled := by
  cases mode with
  | value => exact start_settled inside stepped
  | item =>
      simp only [stepSolid] at stepped
      split_ifs at stepped
      · exact punctuate_settled stepped
      · exact start_settled inside stepped
  | firstKey =>
      simp only [stepSolid] at stepped
      split_ifs at stepped
      · cases stepped
        exact .inl inside
      · exact punctuate_settled stepped
  | key =>
      simp only [stepSolid] at stepped
      split_ifs at stepped
      cases stepped
      exact .inl inside
  | colon =>
      simp only [stepSolid] at stepped
      split_ifs at stepped
      cases stepped
      exact .inl inside
  | more => exact punctuate_settled stepped
  | str isKey s => cases stepped
  | bare text => cases stepped
  | done v => cases stepped

theorem stepBetween_settled {reader next : Reader} {c : Char} (settled : reader.Settled)
    (stepped : reader.stepBetween c = some next) : next.Settled := by
  unfold stepBetween at stepped
  split_ifs at stepped
  · cases stepped
    exact settled
  · rcases settled with inside | ⟨v, rfl⟩
    · exact stepSolid_settled inside stepped
    · cases stepped

/-- A step inside a container ends inside one, or behind the whole value. -/
theorem step_settled (reader : Reader) (c : Char) (next : Reader) (settled : reader.Settled)
    (stepped : machine.step reader c = some next) : next.Settled := by
  obtain ⟨mode, stack⟩ := reader
  cases mode with
  | str isKey s =>
      have inside : stack ≠ [] := settled.resolve_right (by rintro ⟨v, ⟨⟩⟩)
      simp only [machine, step] at stepped
      obtain ⟨read, _, later⟩ := Option.bind_eq_some_iff.mp stepped
      cases read with
      | inl further =>
          cases later
          exact .inl inside
      | inr text =>
          cases isKey with
          | true =>
              rcases stack with _ | ⟨_ | _, _⟩
              · cases later
              · cases later
              · cases later
                exact .inl (List.cons_ne_nil _ _)
          | false =>
              cases later
              exact close_settled _ _
  | bare text =>
      have inside : stack ≠ [] := settled.resolve_right (by rintro ⟨v, ⟨⟩⟩)
      simp only [machine, step] at stepped
      split_ifs at stepped
      · cases stepped
        exact .inl inside
      · exact stepBetween_settled (close_settled _ _) stepped
  | value => exact stepBetween_settled settled stepped
  | item => exact stepBetween_settled settled stepped
  | firstKey => exact stepBetween_settled settled stepped
  | key => exact stepBetween_settled settled stepped
  | colon => exact stepBetween_settled settled stepped
  | more => exact stepBetween_settled settled stepped
  | done v => exact stepBetween_settled settled stepped

/-- Only white space is read behind a whole value. -/
theorem blank_of_done {v : Json} {text : List Char} {final : Reader}
    (read : machine.runFrom ⟨.done v, []⟩ text = some final) : ∀ c ∈ text, isBlank c = true := by
  induction text with
  | nil =>
      intro c member
      cases member
  | cons c text ih =>
      obtain ⟨next, stepped, later⟩ := Option.bind_eq_some_iff.mp read
      have between : stepBetween ⟨.done v, []⟩ c = some next := stepped
      unfold stepBetween at between
      split_ifs at between with blank
      · cases between
        exact List.forall_mem_cons.mpr ⟨blank, ih later⟩
      · cases between

/-- An object's text starts with a brace and ends with one. -/
theorem dumps_braces (layout : Layout) (level : ℕ) (members : List (List Char × Json)) :
    ∃ middle, dumps layout level (.obj members) = '{' :: (middle ++ ['}']) := by
  rcases members with _ | ⟨⟨key, v⟩, rest⟩
  · exact ⟨[], by rw [dumps, List.nil_append]⟩
  · refine ⟨layout.gap (level + 1) ++ (quote key ++ (':' :: ' ' :: (dumps layout (level + 1) v ++
      (dumpsMembers layout (level + 1) rest ++ layout.gap level)))), ?_⟩
    simp only [dumps, List.append_assoc, List.cons_append]

theorem run_object (layout : Layout) (members : List (List Char × Json)) :
    machine.run (dumps layout 0 (.obj members)) = some ⟨.done (.obj members), []⟩ := by
  obtain ⟨reader, read, after⟩ := @runFrom_dumps layout 0 [] (.obj members)
  rcases after with rfl | ⟨text, different, _⟩
  · exact read
  · cases different

/-- A text that stops in the middle of an object is read up to somewhere inside it. -/
theorem inside_of_cut {layout : Layout} {members : List (List Char × Json)}
    {front back : List Char} (whole : dumps layout 0 (.obj members) = front ++ back)
    (started : front ≠ []) (unfinished : back ≠ []) :
    ∃ reader, machine.run front = some reader ∧ reader.stack ≠ [] := by
  have complete := run_object layout members
  rw [whole, Machine.run, Machine.runFrom_append] at complete
  obtain ⟨reader, read, later⟩ := Option.bind_eq_some_iff.mp complete
  obtain ⟨middle, braces⟩ := dumps_braces layout 0 members
  have settled : reader.Settled := by
    obtain ⟨c, rest, rfl⟩ := List.exists_cons_of_ne_nil started
    cases (List.cons.inj (braces.symm.trans whole)).1
    obtain ⟨opened, stepped, further⟩ := Option.bind_eq_some_iff.mp read
    cases stepped
    exact Machine.runFrom_of_step step_settled (.inl (List.cons_ne_nil _ _)) further
  refine ⟨reader, read, settled.resolve_right ?_⟩
  rintro ⟨v, rfl⟩
  have last : back.getLast? = some '}' := by
    rw [← List.getLast?_append_of_ne_nil front unfinished, ← whole, braces, ← List.cons_append,
      List.getLast?_concat]
  exact absurd (blank_of_done later _ (List.mem_of_getLast? last)) (by decide)

/-- An object whose first key starts with a letter or a digit. -/
def isTagged : Json → Bool
  | .obj ((c :: _, _) :: _) => isBareChar c
  | _ => false

theorem escapeChar_of_bare {c : Char} (bare : isBareChar c = true) : escapeChar c = [c] := by
  have other (d : Char) : isBareChar d = false → c ≠ d := ne_of_bare bare
  rw [escapeChar, if_neg (other '"' (by decide)), if_neg (other '\\' (by decide)),
    if_neg (other '\n' (by decide)), if_neg (other '\r' (by decide)),
    if_neg (other '\t' (by decide)), if_neg (other '\x0c' (by decide)),
    if_neg (other '\x08' (by decide)), if_pos (isPrintable_iff.mp (isPrintable_of_bare bare))]

theorem dumps_tagged {v : Json} (tagged : isTagged v = true) :
    ∃ c rest, dumps .compact 0 v = '{' :: '"' :: c :: rest ∧ isBareChar c = true := by
  unfold isTagged at tagged
  split at tagged
  · next c key w rest =>
      have itself := escapeChar_of_bare tagged
      refine ⟨c, key.flatMap escapeChar ++ '"' :: ':' :: ' ' :: (dumps .compact 1 w ++
        (dumpsMembers .compact 1 rest ++ ['}'])), ?_, tagged⟩
      simp only [dumps, Layout.compact, List.nil_append, Foundation.quote, List.flatMap_cons,
        itself, List.cons_append, List.append_assoc]
  · exact absurd tagged Bool.false_ne_true

theorem object_of_tagged {v : Json} (tagged : isTagged v = true) : ∃ members, v = .obj members := by
  unfold isTagged at tagged
  split at tagged
  · exact ⟨_, rfl⟩
  · exact absurd tagged Bool.false_ne_true

/-- A brace opens an object where a value may stand, or is part of a string. -/
theorem step_brace {reader next : Reader} (stepped : machine.step reader '{' = some next) :
    next = (⟨.firstKey, [.obj [] []]⟩ : Reader).under reader.stack ∨
      ∃ isKey s, s.mode = .plain ∧ next = ⟨.str isKey s, reader.stack⟩ := by
  obtain ⟨mode, stack⟩ := reader
  have refused : punctuate stack '{' = none := by
    rcases stack with _ | ⟨_ | _, _⟩ <;> rfl
  cases mode with
  | value =>
      cases stepped
      exact .inl rfl
  | item =>
      cases stepped
      exact .inl rfl
  | firstKey => cases stepped
  | key => cases stepped
  | colon => cases stepped
  | more => exact absurd (refused.symm.trans stepped) nofun
  | done v => cases stepped
  | bare text =>
      have closed : ∀ v, (close v stack).stepBetween '{' = none := by
        intro v
        rcases stack with _ | ⟨_ | _, _⟩ <;> rfl
      simp only [machine, step, closed] at stepped
      split_ifs at stepped with bare
      exact absurd bare (by decide)
  | str isKey s =>
      obtain ⟨points, high, mode⟩ := s
      cases mode with
      | plain =>
          cases stepped
          exact .inr ⟨_, _, rfl, rfl⟩
      | escape => cases stepped
      | hex value left => cases stepped

/-- A value does not start where a colon, a comma or an end is expected. -/
theorem refused_of_bare {reader : Reader} {c : Char} (bare : isBareChar c = true)
    (expects : reader.mode = .colon ∨ reader.mode = .more) : machine.step reader c = none := by
  have other (d : Char) : isBareChar d = false → c ≠ d := ne_of_bare bare
  have solid := not_blank_of_bare bare
  obtain ⟨mode, stack⟩ := reader
  rcases expects with colon | more
  · cases colon
    simp only [machine, step, stepBetween, solid, Bool.false_eq_true, ↓reduceIte, stepSolid,
      other ':' (by decide)]
  · cases more
    rcases stack with _ | ⟨_ | _, _⟩ <;>
      simp only [machine, step, stepBetween, solid, Bool.false_eq_true, ↓reduceIte, stepSolid,
        punctuate, other ',' (by decide), other ']' (by decide), other '}' (by decide)]

/-- A string that ends inside a container is behind a colon's place, or a comma's or an
end's. -/
theorem expects_of_closingQuote {isKey : Bool} {s : StringState} {stack : List Frame}
    {closed : Reader} (inside : stack ≠ []) (plain : s.mode = .plain)
    (ended : machine.step ⟨.str isKey s, stack⟩ '"' = some closed) :
    closed.stack ≠ [] ∧ (closed.mode = .colon ∨ closed.mode = .more) := by
  cases isKey with
  | true =>
      rw [(step_closingQuote plain).2] at ended
      rcases stack with _ | ⟨_ | _, _⟩
      · exact absurd rfl inside
      · cases ended
      · cases ended
        exact ⟨List.cons_ne_nil _ _, .inl rfl⟩
  | false =>
      rw [(step_closingQuote plain).1] at ended
      cases ended
      refine ⟨close_stack inside, .inr ?_⟩
      rcases stack with _ | ⟨_ | _, _⟩
      · exact absurd rfl inside
      · rfl
      · rfl

/-- Whatever a reader inside a container can read of a tagged object's text
leaves it inside. -/
theorem inside_of_tagged {v : Json} (tagged : isTagged v = true) {reader final : Reader}
    (inside : reader.stack ≠ []) {text : List Char} (cut : text <+: dumps .compact 0 v)
    (read : machine.runFrom reader text = some final) : final.stack ≠ [] := by
  obtain ⟨c, rest, whole, bare⟩ := dumps_tagged tagged
  obtain ⟨members, rfl⟩ := object_of_tagged tagged
  obtain ⟨back, split⟩ := cut
  rcases text with _ | ⟨brace, text⟩
  · cases read
    exact inside
  cases (List.cons.inj (split.trans whole)).1
  obtain ⟨next, stepped, later⟩ := Option.bind_eq_some_iff.mp read
  rcases step_brace stepped with rfl | ⟨isKey, s, plain, rfl⟩
  · -- a nested object, read as the object is on its own
    have complete := run_object .compact members
    rw [← split, Machine.run, Machine.runFrom_append] at complete
    obtain ⟨own, ownRead, _⟩ := Option.bind_eq_some_iff.mp complete
    have opened : machine.runFrom ⟨.firstKey, [.obj [] []]⟩ text = some own := ownRead
    rw [runFrom_under opened] at later
    cases later
    exact under_stack inside own
  · -- a string, which the first quote ends and the key's first character cannot follow
    rcases text with _ | ⟨quoted, text⟩
    · cases later
      exact inside
    cases (List.cons.inj (List.cons.inj (split.trans whole)).2).1
    obtain ⟨closed, ended, further⟩ := Option.bind_eq_some_iff.mp later
    have expects := expects_of_closingQuote inside plain ended
    rcases text with _ | ⟨letter, text⟩
    · cases further
      exact expects.1
    cases (List.cons.inj (List.cons.inj (List.cons.inj (split.trans whole)).2).2).1
    obtain ⟨_, possible, _⟩ := Option.bind_eq_some_iff.mp further
    cases (refused_of_bare bare expects.2).symm.trans possible

/-- A tagged object's text, or the front of one. -/
def IsPiece (piece : List Char) : Prop :=
  ∃ v, isTagged v = true ∧ piece <+: dumps .compact 0 v

/-- A prefix of a text behind another ends in the first text or reaches the second. -/
theorem prefix_append_cases {text front back : List Char} (cut : text <+: front ++ back) :
    text <+: front ∨ ∃ rest, text = front ++ rest ∧ rest ≠ [] ∧ rest <+: back := by
  rcases List.prefix_or_prefix_of_prefix cut (List.prefix_append front back) with
    within | ⟨rest, rfl⟩
  · exact .inl within
  · rcases rest with _ | ⟨c, rest⟩
    · exact .inl ⟨[], by rw [List.append_nil, List.append_nil]⟩
    · exact .inr ⟨c :: rest, rfl, List.cons_ne_nil _ _, (List.prefix_append_right_inj front).mp cut⟩

theorem inside_of_pieces {pieces : List (List Char)} (each : ∀ piece ∈ pieces, IsPiece piece)
    {reader final : Reader} (inside : reader.stack ≠ []) {text : List Char}
    (cut : text <+: pieces.flatten) (read : machine.runFrom reader text = some final) :
    final.stack ≠ [] := by
  induction pieces generalizing reader text with
  | nil =>
      cases List.prefix_nil.mp cut
      cases read
      exact inside
  | cons piece pieces ih =>
      obtain ⟨⟨v, tagged, front⟩, others⟩ := List.forall_mem_cons.mp each
      rcases prefix_append_cases cut with within | ⟨rest, rfl, _, beyond⟩
      · exact inside_of_tagged tagged inside (within.trans front) read
      · rw [Machine.runFrom_append] at read
        obtain ⟨middle, first, later⟩ := Option.bind_eq_some_iff.mp read
        exact ih others (inside_of_tagged tagged inside front first) beyond later

/-- Where anything follows, a brace follows. -/
theorem head_of_pieces {pieces : List (List Char)} (each : ∀ piece ∈ pieces, IsPiece piece)
    {text : List Char} (cut : text <+: pieces.flatten) (something : text ≠ []) :
    ∃ rest, text = '{' :: rest := by
  induction pieces with
  | nil => exact absurd (List.prefix_nil.mp cut) something
  | cons piece pieces ih =>
      obtain ⟨⟨v, tagged, front⟩, others⟩ := List.forall_mem_cons.mp each
      rcases piece with _ | ⟨c, piece⟩
      · exact ih others cut
      · obtain ⟨d, rest, rfl⟩ := List.exists_cons_of_ne_nil something
        obtain ⟨e, more, whole, _⟩ := dumps_tagged tagged
        rw [whole] at front
        obtain ⟨rfl, _⟩ := List.cons_prefix_cons.mp front
        obtain ⟨rfl, _⟩ := List.cons_prefix_cons.mp cut
        exact ⟨rest, rfl⟩

theorem stack_of_finish {reader : Reader} {v : Json} (finished : reader.finish = some v) :
    reader.stack = [] := by
  obtain ⟨mode, stack⟩ := reader
  cases stack with
  | nil => rfl
  | cons frame rest => cases mode <;> cases finished

end Reader

/-- A text cut short in the middle of an object is no value. -/
theorem loads_cut {layout : Layout} {members : List (List Char × Json)} {front back : List Char}
    (whole : dumps layout 0 (.obj members) = front ++ back) (unfinished : back ≠ []) :
    loads front = none := by
  cases front with
  | nil => rfl
  | cons c front =>
      obtain ⟨reader, read, inside⟩ :=
        Reader.inside_of_cut whole (List.cons_ne_nil _ _) unfinished
      rw [loads, read, Option.bind_some]
      by_contra finished
      obtain ⟨v, finished⟩ := Option.ne_none_iff_exists'.mp finished
      exact inside (Reader.stack_of_finish finished)

/-- **Objects behind one another.** A text that starts with a piece of one object,
and goes on with pieces of others, is a value only when it is the first piece, whole. -/
theorem loads_pieces {v w : Json} {piece text : List Char} {pieces : List (List Char)}
    (tagged : Reader.isTagged v = true) (cut : piece <+: dumps .compact 0 v) (started : piece ≠ [])
    (each : ∀ piece ∈ pieces, Reader.IsPiece piece) (within : text <+: piece ++ pieces.flatten)
    (loaded : loads text = some w) : text = piece ∧ piece = dumps .compact 0 v ∧ w = v := by
  obtain ⟨members, rfl⟩ := Reader.object_of_tagged tagged
  obtain ⟨back, whole⟩ := cut
  rcases Reader.prefix_append_cases within with ⟨missing, inPiece⟩ | ⟨rest, rfl, more, beyond⟩
  · have complete : missing ++ back = [] := by
      by_contra unfinished
      have split : dumps .compact 0 (.obj members) = text ++ (missing ++ back) := by
        rw [← whole, ← inPiece, List.append_assoc]
      exact absurd ((loads_cut split unfinished).symm.trans loaded) nofun
    obtain ⟨rfl, rfl⟩ := List.append_eq_nil_iff.mp complete
    rw [List.append_nil] at inPiece whole
    subst inPiece
    rw [whole, loads_dumps] at loaded
    exact ⟨rfl, whole, (Option.some.inj loaded).symm⟩
  · obtain ⟨final, read, finished⟩ := Option.bind_eq_some_iff.mp loaded
    rw [Machine.run, Machine.runFrom_append] at read
    obtain ⟨middle, first, later⟩ := Option.bind_eq_some_iff.mp read
    by_cases unfinished : back = []
    · subst unfinished
      rw [List.append_nil] at whole
      have done : some middle = some ⟨.done (.obj members), []⟩ := by
        rw [← first, whole, ← Reader.run_object .compact members]
        rfl
      cases done
      obtain ⟨more, rfl⟩ := Reader.head_of_pieces each beyond more
      exact absurd (Reader.blank_of_done later _ List.mem_cons_self) (by decide)
    · obtain ⟨reader, own, inside⟩ := Reader.inside_of_cut whole.symm started unfinished
      cases first.symm.trans own
      exact absurd (Reader.stack_of_finish finished)
        (Reader.inside_of_pieces each inside beyond later)

end Foundation
