import Rimba.Foundation.Lines

/-! # The mirrors of cloned fixtures

`_check_clone_mirrors` compares a cloned source file with its origin below their banners.
`_mirror_body` takes the banner off: what is above the first line that starts with
`#include` must be a comment with blank space around it. It looks for the end of the
comment from the start of the text, where the opening's own star can be the star of
`*/`, and it looks for the two bytes, which C also reads with a line splice between them.
So it accepts `/*/` and rejects a comment that starts that way, and otherwise the two
files' bodies agree exactly when they are mirrors
(`Rimba.Regtest.CloneMirror.mirrorsExactly_iff`).
-/

namespace Rimba.Regtest.CloneMirror

open Foundation (FirstLine startsOther dropFinal dropEmptyLast dropEmptyLast_inj
  exists_line_iff)

abbrev Bytes := List UInt8

/-- `raw.replace(b"\r\n", b"\n")` -/
def replaceCrLf : Bytes → Bytes
  | 13 :: 10 :: rest => 10 :: replaceCrLf rest
  | c :: rest => c :: replaceCrLf rest
  | [] => []

/-- `norm` -/
def norm (raw : Bytes) : Bytes := (replaceCrLf raw).map fun c => if c = 13 then 10 else c

/-- `b"#include"` -/
def includeWord : Bytes := [35, 105, 110, 99, 108, 117, 100, 101]

/-- `text.split(sep, 1)` at a separator of two bytes; `none` when the text has none. -/
def cutAt (a b : UInt8) : Bytes → Option (Bytes × Bytes)
  | x :: y :: rest =>
      if x = a ∧ y = b then some ([], rest)
      else (cutAt a b (y :: rest)).map fun cut => (x :: cut.1, cut.2)
  | _ => none

/-- The bytes `strip` takes away. -/
def isBlank (c : UInt8) : Bool :=
  c = 32 ∨ c = 9 ∨ c = 10 ∨ c = 13 ∨ c = 11 ∨ c = 12

/-- `text.strip()` -/
def strip (text : Bytes) : Bytes := ((text.dropWhile isBlank).reverse.dropWhile isBlank).reverse

/-- `_mirror_body` -/
def mirrorBody (raw : Bytes) : Except String (List Bytes) :=
  let lines := (norm raw).splitOn 10
  let above := lines.takeWhile (startsOther includeWord)
  let body := lines.dropWhile (startsOther includeWord)
  if body = [] then
    .error "no `#include` sentinel found (empty or unexpected source shape)"
  else
    let header := [10].intercalate above
    match cutAt 47 42 header, cutAt 42 47 header with
    | some opening, some closing =>
        if strip opening.1 ≠ [] then
          .error "unexpected content before the leading /* banner"
        else if strip closing.2 ≠ [] then
          .error ("non-blank content between the banner and the first #include " ++
            "(drift could hide here)")
        else .ok (dropEmptyLast body)
    | _, _ => .error "no leading /* */ banner before the first #include"

/-- What the check reports of one file of a clone. -/
inductive MirrorCheck where
  | unreadable (label : String)
  | misshapen (label err : String)
  | drifted
  | same (bodyLines : ℕ)
  deriving DecidableEq

/-- `_check_clone_mirrors` for one file, of the two files as they are read. -/
def checkCloneMirror (clone source : Option Bytes) : MirrorCheck :=
  match clone.map mirrorBody with
  | none => .unreadable "clone"
  | some (.error err) => .misshapen "clone" err
  | some (.ok cb) =>
      match source.map mirrorBody with
      | none => .unreadable "source"
      | some (.error err) => .misshapen "source" err
      | some (.ok sb) => if cb = sb then .same cb.length else .drifted

/-- Blank space. -/
def Blank (text : Bytes) : Prop := ∀ c ∈ text, isBlank c = true

/-- What is behind a slash, which C reads past line splices. -/
def afterSlash : Bytes → Option Bytes
  | 47 :: rest => some rest
  | 92 :: 10 :: rest => afterSlash rest
  | _ => none

/-- What is behind the `*/` that closes a comment in C, of the text behind its opening. -/
def behindClose : Bytes → Option Bytes
  | [] => none
  | c :: rest => if c = 42 ∧ (afterSlash rest).isSome then afterSlash rest else behindClose rest

/-- A comment, from its opening to what closes it. -/
def IsComment (comment : Bytes) : Prop :=
  ∃ text, comment = 47 :: 42 :: text ∧ behindClose text = some []

/-- A line that starts inside starts with `#include`. -/
def SentinelInside (comment : Bytes) : Prop :=
  ∃ front behind, comment = front ++ 10 :: behind ∧ includeWord <+: behind

/-- A file, with its line ends turned to LF, is blank space, a comment without a sentinel
inside, blank space, and a remainder that starts at a line that starts with
`#include`. -/
def Mirrored (raw remainder : Bytes) : Prop :=
  ∃ lead comment gap, norm raw = (lead ++ (comment ++ gap)) ++ remainder ∧ Blank lead ∧
    IsComment comment ∧ ¬ SentinelInside comment ∧ Blank gap ∧ includeWord <+: remainder ∧
    (lead ++ (comment ++ gap)).getLast? = some 10

/-- Both files are accepted with the same body exactly when both are mirrors and their
remainders are the same but for a newline at the end. -/
def MirrorsExactly (a b : Bytes) : Prop :=
  (∃ body, mirrorBody a = .ok body ∧ mirrorBody b = .ok body) ↔
    ∃ ra rb, Mirrored a ra ∧ Mirrored b rb ∧ dropFinal 10 ra = dropFinal 10 rb

/-- What is behind an opening of a comment with blank space before it. -/
def behindOpening (header : Bytes) : Option Bytes :=
  match header.dropWhile isBlank with
  | 47 :: 42 :: text => some text
  | _ => none

/-- Above its first line that starts with `#include`, a file has blank space and a comment's
opening, with the text behind that up to the newline before the line. -/
def Banner (raw text remainder : Bytes) : Prop :=
  ∃ front, FirstLine 10 includeWord (norm raw) front remainder ∧
    behindOpening front = some text

/-- Behind an opening, the first `*/` closes the comment, with blank space behind it. -/
def Plain (text : Bytes) : Prop :=
  text.head? ≠ some 47 ∧ ∃ before behind, cutAt 42 47 text = some (before, behind) ∧
    behindClose text = some behind ∧ Blank behind

/-- The opening is followed by a slash and blank space only, or the first `*/` is behind
one with a line splice in it, with blank space behind it. -/
def CutShort (text : Bytes) : Prop :=
  (∃ rest, text = 47 :: rest ∧ Blank rest) ∨
    text.head? ≠ some 47 ∧ ∃ before behind, cutAt 42 47 text = some (before, behind) ∧
      behindClose text ≠ some behind ∧ Blank behind

/-- The comment is closed with blank space behind it, but a slash follows its opening or
what closes it has a line splice in it and no `*/` is behind it. -/
def Overlooked (text : Bytes) : Prop :=
  (text.head? = some 47 ∨ cutAt 42 47 text = none) ∧
    ∃ behind, behindClose text = some behind ∧ Blank behind

/-- The two remainders are the same but for a newline at the end, and both banners are
plain or cut short but not both plain, or plain or overlooked but not both plain. -/
def Misread (a b : Bytes) : Prop :=
  ∃ ta tb ra rb, Banner a ta ra ∧ Banner b tb rb ∧ dropFinal 10 ra = dropFinal 10 rb ∧
    ((Plain ta ∨ CutShort ta) ∧ (Plain tb ∨ CutShort tb) ∧ (CutShort ta ∨ CutShort tb) ∨
      (Plain ta ∨ Overlooked ta) ∧ (Plain tb ∨ Overlooked tb) ∧
        (Overlooked ta ∨ Overlooked tb))

theorem isBlank_ne {c : UInt8} (blank : isBlank c = true) : c ≠ 47 ∧ c ≠ 42 ∧ c ≠ 35 := by
  refine ⟨?_, ?_, ?_⟩
  · rintro rfl
    exact absurd blank (by decide)
  · rintro rfl
    exact absurd blank (by decide)
  · rintro rfl
    exact absurd blank (by decide)

theorem strip_eq_nil_iff {text : Bytes} : strip text = [] ↔ Blank text := by
  rw [strip, List.reverse_eq_nil_iff, List.dropWhile_eq_nil_iff]
  constructor
  · intro rest c member
    have whole : text.takeWhile isBlank ++ text.dropWhile isBlank = text :=
      List.takeWhile_append_dropWhile
    rw [← whole] at member
    rcases List.mem_append.mp member with taken | dropped
    · exact List.mem_takeWhile_imp taken
    · exact rest c (List.mem_reverse.mpr dropped)
  · intro blank c member
    exact blank c ((List.dropWhile_sublist _).subset (List.mem_reverse.mp member))

section

variable {a b c : UInt8} {text lead before behind : Bytes}

theorem cutAt_cons (other : c ≠ a) :
    cutAt a b (c :: text) = (cutAt a b text).map fun cut => (c :: cut.1, cut.2) := by
  cases text with
  | nil => rfl
  | cons y rest => rw [cutAt, if_neg fun both => other both.1]

/-- What does not hold the separator's first byte is passed over. -/
theorem cutAt_append (free : a ∉ lead) :
    cutAt a b (lead ++ text) = (cutAt a b text).map fun cut => (lead ++ cut.1, cut.2) := by
  induction lead with
  | nil =>
      simp only [List.nil_append]
      exact Option.map_id'.symm
  | cons c lead ih =>
      obtain ⟨other, free⟩ := not_or.mp fun inside => free (List.mem_cons.mpr inside)
      rw [List.cons_append, cutAt_cons (Ne.symm other), ih free, Option.map_map]
      rfl

theorem cutAt_here : cutAt a b (a :: b :: text) = some ([], text) := by
  rw [cutAt, if_pos ⟨rfl, rfl⟩]

theorem eq_of_cutAt (cut : cutAt a b text = some (before, behind)) :
    text = before ++ a :: b :: behind := by
  induction text using cutAt.induct a b generalizing before with
  | case1 x y rest both =>
      rw [cutAt, if_pos both] at cut
      cases cut
      rw [both.1, both.2]
      rfl
  | case2 x y rest other ih =>
      rw [cutAt, if_neg other] at cut
      obtain ⟨⟨front, _⟩, later, same⟩ := Option.map_eq_some_iff.mp cut
      cases same
      rw [ih later]
      rfl
  | case3 text short =>
      rw [cutAt] at cut
      · cases cut
      · exact short

theorem behindOpening_append (blank : Blank lead) :
    behindOpening (lead ++ 47 :: 42 :: text) = some text := by
  have stops : ¬ isBlank 47 = true := by decide
  rw [behindOpening, List.dropWhile_append_of_pos blank, List.dropWhile_cons_of_neg stops]
  rfl

theorem eq_of_behindOpening {header : Bytes} (opens : behindOpening header = some text) :
    ∃ lead, Blank lead ∧ header = lead ++ 47 :: 42 :: text := by
  unfold behindOpening at opens
  split at opens
  case h_1 rest =>
      cases opens
      refine ⟨header.takeWhile isBlank, fun c member => List.mem_takeWhile_imp member, ?_⟩
      rw [← rest, List.takeWhile_append_dropWhile]
  case h_2 => cases opens

end

section

variable {text behind : Bytes}

theorem afterSlash_eq_some (found : afterSlash text = some behind) :
    ∃ splices, text = splices ++ 47 :: behind ∧ 42 ∉ splices ∧
      ∀ more, afterSlash (splices ++ 47 :: more) = some more := by
  induction text using afterSlash.induct with
  | case1 rest =>
      cases found
      exact ⟨[], rfl, List.not_mem_nil, fun more => rfl⟩
  | case2 rest ih =>
      rw [afterSlash] at found
      obtain ⟨splices, rfl, free, further⟩ := ih found
      refine ⟨92 :: 10 :: splices, rfl, by simpa using free, fun more => ?_⟩
      simp only [List.cons_append, afterSlash, further]
  | case3 text slash splice =>
      rw [afterSlash] at found
      · cases found
      · exact slash
      · exact splice

/-- Whether a slash is read does not depend on what is behind a slash. -/
theorem afterSlash_isSome (front more more' : Bytes) :
    (afterSlash (front ++ 47 :: more)).isSome = (afterSlash (front ++ 47 :: more')).isSome := by
  induction front using afterSlash.induct with
  | case1 rest => rfl
  | case2 rest ih => simpa only [List.cons_append, afterSlash] using ih
  | case3 front slash splice =>
      cases front with
      | nil => rfl
      | cons c front =>
          have other : c ≠ 47 := fun same => slash front (congrArg (· :: front) same)
          cases front with
          | nil => simp [afterSlash, other]
          | cons d front =>
              have unread (rest : Bytes) : afterSlash (c :: d :: rest) = none := by
                rw [afterSlash]
                · exact fun _ same => other (List.cons.inj same).1
                · intro _ same
                  cases same
                  exact splice front rfl
              simp only [List.cons_append, unread]

/-- A comment is closed at a slash, and nothing behind it matters. -/
theorem behindClose_eq_some (closed : behindClose text = some behind) :
    ∃ inside, text = inside ++ 47 :: behind ∧
      ∀ more, behindClose (inside ++ 47 :: more) = some more := by
  induction text with
  | nil => cases closed
  | cons c rest ih =>
      rw [behindClose] at closed
      by_cases closes : c = 42 ∧ (afterSlash rest).isSome
      · rw [if_pos closes] at closed
        obtain ⟨splices, rfl, -, further⟩ := afterSlash_eq_some closed
        refine ⟨c :: splices, rfl, fun more => ?_⟩
        rw [List.cons_append, behindClose, further, if_pos ⟨closes.1, rfl⟩]
      · rw [if_neg closes] at closed
        obtain ⟨inside, rfl, further⟩ := ih closed
        refine ⟨c :: inside, rfl, fun more => ?_⟩
        rw [afterSlash_isSome inside behind more] at closes
        rw [List.cons_append, behindClose, if_neg closes, further]

theorem star_of_behindClose (closed : behindClose text = some behind) : 42 ∈ text := by
  induction text with
  | nil => cases closed
  | cons c rest ih =>
      rw [behindClose] at closed
      by_cases closes : c = 42 ∧ (afterSlash rest).isSome
      · rw [closes.1]
        exact List.mem_cons_self
      · rw [if_neg closes] at closed
        exact List.mem_cons_of_mem _ (ih closed)

/-- The first `*/` closes a comment, or what closes it is before a star. -/
theorem behindClose_of_cutAt {before : Bytes} (cut : cutAt 42 47 text = some (before, behind)) :
    ∃ rest, behindClose text = some rest ∧ (rest = behind ∨ 42 ∈ rest) := by
  have whole := eq_of_cutAt cut
  induction text using cutAt.induct 42 47 generalizing before with
  | case1 x y rest both =>
      rw [cutAt, if_pos both] at cut
      cases cut
      obtain ⟨rfl, rfl⟩ := both
      exact ⟨_, rfl, .inl rfl⟩
  | case2 x y rest other ih =>
      rw [cutAt, if_neg other] at cut
      obtain ⟨⟨front, _⟩, later, same⟩ := Option.map_eq_some_iff.mp cut
      cases same
      rw [behindClose]
      by_cases closes : x = 42 ∧ (afterSlash (y :: rest)).isSome
      · rw [if_pos closes]
        obtain ⟨more, found⟩ := Option.isSome_iff_exists.mp closes.2
        refine ⟨more, found, .inr ?_⟩
        obtain ⟨splices, spliced, free, -⟩ := afterSlash_eq_some found
        have star : (42 : UInt8) ∈ y :: rest := by
          rw [eq_of_cutAt later]
          exact List.mem_append_right _ List.mem_cons_self
        rw [spliced] at star
        rcases List.mem_append.mp star with inside | behind
        · exact absurd inside free
        · exact (List.mem_cons.mp behind).resolve_left (by decide)
      · rw [if_neg closes]
        exact ih later (eq_of_cutAt later)
  | case3 text short =>
      rw [cutAt] at cut
      · cases cut
      · exact short

/-- Blank space starts with no slash and holds no star. -/
theorem Blank.star_notMem (blank : Blank text) : 42 ∉ text :=
  fun member => (isBlank_ne (blank 42 member)).2.1 rfl

end

section

variable {text : Bytes}

/-- Of an opening and the text behind it, blank space is behind the first `*/` from the
opening's star on. -/
def ClosedAtFirst (text : Bytes) : Prop :=
  ∃ before behind, cutAt 42 47 (42 :: text) = some (before, behind) ∧ Blank behind

/-- Blank space is behind what closes the comment. -/
def ClosedInC (text : Bytes) : Prop := ∃ behind, behindClose text = some behind ∧ Blank behind

theorem cutAt_star (other : text.head? ≠ some 47) :
    cutAt 42 47 (42 :: text) = (cutAt 42 47 text).map fun cut => (42 :: cut.1, cut.2) := by
  cases text with
  | nil => rfl
  | cons c rest =>
      rw [cutAt, if_neg]
      rintro ⟨-, rfl⟩
      exact other rfl

theorem closedAtFirst_iff : ClosedAtFirst text ↔ Plain text ∨ CutShort text := by
  by_cases slash : text.head? = some 47
  · obtain ⟨rest, rfl⟩ : ∃ rest, text = 47 :: rest := List.head?_eq_some_iff.mp slash
    constructor
    · rintro ⟨before, behind, cut, blank⟩
      rw [cutAt_here] at cut
      cases cut
      exact .inr (.inl ⟨rest, rfl, blank⟩)
    · rintro (⟨other, -⟩ | ⟨rest', same, blank⟩ | ⟨other, -⟩)
      · exact absurd slash other
      · cases same
        exact ⟨[], rest, cutAt_here, blank⟩
      · exact absurd slash other
  · constructor
    · rintro ⟨_, _, cut, blank⟩
      rw [cutAt_star slash] at cut
      obtain ⟨⟨before, behind⟩, first, same⟩ := Option.map_eq_some_iff.mp cut
      cases same
      by_cases closes : behindClose text = some behind
      · exact .inl ⟨slash, before, behind, first, closes, blank⟩
      · exact .inr (.inr ⟨slash, before, behind, first, closes, blank⟩)
    · rintro (⟨-, before, behind, first, -, blank⟩ | ⟨rest, rfl, -⟩ |
        ⟨-, before, behind, first, -, blank⟩)
      · exact ⟨42 :: before, behind, by rw [cutAt_star slash, first]; rfl, blank⟩
      · exact absurd rfl slash
      · exact ⟨42 :: before, behind, by rw [cutAt_star slash, first]; rfl, blank⟩

/-- What is closed at its first `*/` and not cut short is closed in C. -/
theorem ClosedAtFirst.closedInC (early : ClosedAtFirst text) (whole : ¬ CutShort text) :
    ClosedInC text := by
  obtain ⟨-, before, behind, first, closed, blank⟩ :=
    (closedAtFirst_iff.mp early).resolve_right whole
  exact ⟨behind, closed, blank⟩

theorem closedInC_iff : ClosedInC text ↔ Plain text ∨ Overlooked text := by
  constructor
  · rintro ⟨behind, closed, blank⟩
    by_cases slash : text.head? = some 47
    · exact .inr ⟨.inl slash, behind, closed, blank⟩
    · cases first : cutAt 42 47 text with
      | none => exact .inr ⟨.inr first, behind, closed, blank⟩
      | some cut =>
          obtain ⟨before, behind'⟩ := cut
          obtain ⟨rest, closed', same | star⟩ := behindClose_of_cutAt first
          · rw [closed, same] at closed'
            cases closed'
            exact .inl ⟨slash, before, behind, first, closed, blank⟩
          · rw [closed] at closed'
            cases closed'
            exact absurd star blank.star_notMem
  · rintro (⟨-, -, behind, -, closed, blank⟩ | ⟨-, behind, closed, blank⟩)
    · exact ⟨behind, closed, blank⟩
    · exact ⟨behind, closed, blank⟩

/-- What is closed in C and not overlooked is closed at its first `*/`. -/
theorem ClosedInC.closedAtFirst (closed : ClosedInC text) (seen : ¬ Overlooked text) :
    ClosedAtFirst text :=
  closedAtFirst_iff.mpr (.inl ((closedInC_iff.mp closed).resolve_right seen))

/-- A comment cut short is not closed with blank space behind it. -/
theorem CutShort.not_closedInC (short : CutShort text) : ¬ ClosedInC text := by
  rintro ⟨behind, closed, blank⟩
  rcases short with ⟨rest, rfl, blanks⟩ | ⟨-, before, behind', first, other, -⟩
  · have star := (List.mem_cons.mp (star_of_behindClose closed)).resolve_left (by decide)
    exact blanks.star_notMem star
  · obtain ⟨rest, closed', same | star⟩ := behindClose_of_cutAt first
    · exact other (same ▸ closed')
    · rw [closed] at closed'
      cases closed'
      exact blank.star_notMem star

/-- An overlooked one has none behind the first `*/`. -/
theorem Overlooked.not_closedAtFirst (late : Overlooked text) : ¬ ClosedAtFirst text := by
  intro early
  obtain ⟨missed, inC⟩ := late
  rcases closedAtFirst_iff.mp early with ⟨other, before, behind, first, -⟩ | short
  · rcases missed with slash | absent
    · exact other slash
    · rw [absent] at first
      cases first
  · exact short.not_closedInC inC

end

section

variable {raw text text' front remainder remainder' : Bytes}

theorem newline_notMem_includeWord : (10 : UInt8) ∉ includeWord := by decide

theorem Banner.unique (here : Banner raw text remainder) (there : Banner raw text' remainder') :
    text = text' ∧ remainder = remainder' := by
  obtain ⟨front, first, opens⟩ := here
  obtain ⟨front', first', opens'⟩ := there
  obtain ⟨rfl, rfl⟩ := first.unique first' newline_notMem_includeWord
  rw [opens] at opens'
  cases opens'
  exact ⟨rfl, rfl⟩

theorem Banner.remainder_ne_nil (here : Banner raw text remainder) : remainder ≠ [] := by
  obtain ⟨front, first, -⟩ := here
  rintro rfl
  exact absurd (List.prefix_nil.mp first.starts) (by decide)

/-- The header of a banner is cut behind the opening and behind the first `*/` from the
opening's star on. -/
theorem cuts_of_behindOpening (opens : behindOpening front = some text) :
    ∃ lead, Blank lead ∧ cutAt 47 42 front = some (lead, text) ∧
      cutAt 42 47 front =
        (cutAt 42 47 (42 :: text)).map fun cut => (lead ++ 47 :: cut.1, cut.2) := by
  obtain ⟨lead, blank, rfl⟩ := eq_of_behindOpening opens
  have slash : (47 : UInt8) ∉ lead := fun member => (isBlank_ne (blank 47 member)).1 rfl
  refine ⟨lead, blank, ?_, ?_⟩
  · rw [cutAt_append slash, cutAt_here, Option.map_some, List.append_nil]
  · rw [cutAt_append blank.star_notMem, cutAt_cons (by decide), Option.map_map]
    rfl

/-- A file that is accepted has a line above the first that starts with `#include`. -/
theorem exists_firstLine_of_ok {body : List Bytes} (accepted : mirrorBody raw = .ok body) :
    ∃ front remainder, FirstLine 10 includeWord (norm raw) front remainder := by
  simp only [mirrorBody] at accepted
  have below : ((norm raw).splitOn 10).dropWhile (startsOther includeWord) ≠ [] := by
    intro missing
    rw [if_pos missing] at accepted
    cases accepted
  rw [if_neg below] at accepted
  have above : ((norm raw).splitOn 10).takeWhile (startsOther includeWord) ≠ [] := by
    intro missing
    rw [missing] at accepted
    cases accepted
  exact FirstLine.exists_of_lines above below

/-- A file with such a line is accepted when the banner above it is closed at its first
`*/`. -/
theorem mirrorBody_ok_iff_of_firstLine {body : List Bytes}
    (first : FirstLine 10 includeWord (norm raw) front remainder) :
    mirrorBody raw = .ok body ↔ (∃ text, behindOpening front = some text ∧ ClosedAtFirst text) ∧
      body = dropEmptyLast (remainder.splitOn 10) := by
  obtain ⟨above, below⟩ := first.lines newline_notMem_includeWord
  have filled : remainder.splitOn 10 ≠ [] := List.splitOn_ne_nil _ _
  simp only [mirrorBody, above, below, List.intercalate_splitOn, if_neg filled]
  constructor
  · intro accepted
    cases opened : cutAt 47 42 front with
    | none =>
        rw [opened] at accepted
        cases accepted
    | some opening =>
        cases closed : cutAt 42 47 front with
        | none =>
            rw [opened, closed] at accepted
            cases accepted
        | some closing =>
            obtain ⟨lead, text⟩ := opening
            rw [opened, closed] at accepted
            simp only [ne_eq, ite_not] at accepted
            split_ifs at accepted with leads gap
            cases accepted
            have opens : behindOpening front = some text := by
              rw [eq_of_cutAt opened, behindOpening_append (strip_eq_nil_iff.mp leads)]
            obtain ⟨_, -, -, cut⟩ := cuts_of_behindOpening opens
            rw [closed] at cut
            obtain ⟨found, first', rfl⟩ := Option.map_eq_some_iff.mp cut.symm
            exact ⟨⟨text, opens, _, _, first', strip_eq_nil_iff.mp gap⟩, rfl⟩
  · rintro ⟨⟨text, opens, before, behind, cut, blank⟩, rfl⟩
    obtain ⟨lead, leads, opening, closing⟩ := cuts_of_behindOpening opens
    rw [cut, Option.map_some] at closing
    simp only [opening, closing, strip_eq_nil_iff.mpr leads, strip_eq_nil_iff.mpr blank, ne_eq,
      not_true_eq_false, if_false]

/-- A file is accepted when its banner is closed at its first `*/`. -/
theorem mirrorBody_ok_iff {body : List Bytes} :
    mirrorBody raw = .ok body ↔ ∃ text remainder, Banner raw text remainder ∧
      ClosedAtFirst text ∧ body = dropEmptyLast (remainder.splitOn 10) := by
  constructor
  · intro accepted
    obtain ⟨front, remainder, first⟩ := exists_firstLine_of_ok accepted
    obtain ⟨⟨text, opens, closed⟩, same⟩ := (mirrorBody_ok_iff_of_firstLine first).mp accepted
    exact ⟨text, remainder, ⟨front, first, opens⟩, closed, same⟩
  · rintro ⟨text, remainder, ⟨front, first, opens⟩, closed, same⟩
    exact (mirrorBody_ok_iff_of_firstLine first).mpr ⟨⟨text, opens, closed⟩, same⟩

theorem slash_notMem_includeWord : (47 : UInt8) ∉ includeWord := by decide

/-- `#include` is behind no blank space. -/
theorem not_blank_of_includeWord {space more : Bytes} (starts : includeWord <+: space ++ more)
    (filled : space ≠ []) : ¬ Blank space := by
  obtain ⟨c, rest, rfl⟩ := List.exists_cons_of_ne_nil filled
  intro blank
  obtain ⟨same, -⟩ := List.cons_prefix_cons.mp starts
  exact (isBlank_ne (blank c List.mem_cons_self)).2.2 same.symm

theorem not_includeWord_of_slash {space more : Bytes} (blank : Blank space) :
    ¬ includeWord <+: space ++ 47 :: more := by
  intro starts
  by_cases bare : space = []
  · subst bare
    exact absurd (List.cons_prefix_cons.mp starts).1 (by decide)
  · exact not_blank_of_includeWord starts bare blank

theorem not_includeWord_of_blank {space : Bytes} (blank : Blank space) :
    ¬ includeWord <+: space := by
  intro starts
  have filled : space ≠ [] := by
    rintro rfl
    exact absurd (List.prefix_nil.mp starts) (by decide)
  rw [← List.append_nil space] at starts
  exact not_blank_of_includeWord starts filled blank

/-- What starts with `#include` up to a slash and more does so up to the slash. -/
theorem includeWord_within {text more : Bytes} (slash : 47 ∈ text)
    (starts : includeWord <+: text ++ more) : includeWord <+: text := by
  rcases List.prefix_or_prefix_of_prefix starts (List.prefix_append _ _) with whole | short
  · exact whole
  · exact absurd (short.subset slash) slash_notMem_includeWord

/-- A slash ends a comment, so one is behind each of its newlines. -/
theorem slash_mem_of_newline {inside front behind : Bytes}
    (cut : inside ++ [47] = front ++ 10 :: behind) : 47 ∈ behind := by
  have last : (inside ++ [47]).getLast? = some 47 := List.getLast?_concat
  rw [cut] at last
  cases behind with
  | nil =>
      rw [List.getLast?_concat] at last
      cases last
  | cons c behind =>
      rw [List.getLast?_append_cons, List.getLast?_cons_cons] at last
      exact List.mem_of_getLast? last

/-- Of blank space, a comment and blank space, a line starts with `#include` only inside the
comment. -/
theorem sentinelInside_iff {lead inside gap : Bytes} (leads : Blank lead) (gaps : Blank gap) :
    (∃ line ∈ (lead ++ (47 :: (inside ++ [47]) ++ gap)).splitOn 10, includeWord <+: line) ↔
      SentinelInside (47 :: (inside ++ [47])) := by
  rw [exists_line_iff newline_notMem_includeWord]
  constructor
  · rintro (starts | ⟨front, behind, cut, starts⟩)
    · exact absurd starts (not_includeWord_of_slash leads)
    · have behindGap (upper : Bytes) (split : gap = upper ++ 10 :: behind) : False := by
        refine not_includeWord_of_blank (fun c member => gaps c ?_) starts
        rw [split]
        exact List.mem_append_right _ (List.mem_cons_of_mem _ member)
      rcases List.append_eq_append_iff.mp cut with ⟨mid, rfl, rest⟩ | ⟨mid, rfl, rest⟩
      · rcases List.append_eq_append_iff.mp rest with ⟨upper, -, split⟩ | ⟨lower, split, rest⟩
        · exact (behindGap upper split).elim
        · cases lower with
          | nil => exact (behindGap [] rest.symm).elim
          | cons c lower =>
              obtain ⟨rfl, rfl⟩ := List.cons.inj rest
              have slash : 47 ∈ lower := @slash_mem_of_newline (47 :: inside) _ _ split
              exact ⟨mid, lower, split, includeWord_within slash starts⟩
      · cases mid with
        | nil => cases rest
        | cons c mid =>
            obtain ⟨rfl, rfl⟩ := List.cons.inj rest
            refine absurd starts (not_includeWord_of_slash fun c member => leads c ?_)
            exact List.mem_append_right _ (List.mem_cons_of_mem _ member)
  · rintro ⟨front, behind, cut, starts⟩
    refine .inr ⟨lead ++ front, behind ++ gap, ?_, starts.trans (List.prefix_append _ _)⟩
    rw [cut]
    simp only [List.append_assoc, List.cons_append]

/-- A file is a mirror when its banner is closed where C closes it. -/
theorem mirrored_iff :
    Mirrored raw remainder ↔ ∃ text, Banner raw text remainder ∧ ClosedInC text := by
  constructor
  · rintro ⟨lead, comment, gap, whole, leads, ⟨text, rfl, closed⟩, bare, gaps, starts, ends⟩
    obtain ⟨inside, rfl, further⟩ := behindClose_eq_some closed
    obtain ⟨gap, rfl⟩ : ∃ front, gap = front ++ [10] := by
      by_cases empty : gap = []
      · rw [empty, List.append_nil, ← List.cons_append, ← List.cons_append, ← List.append_assoc,
          List.getLast?_concat] at ends
        cases ends
      · rw [← List.append_assoc, List.getLast?_append_of_ne_nil _ empty] at ends
        exact List.getLast?_eq_some_iff.mp ends
    have gaps : Blank gap := fun c member => gaps c (List.mem_append_left _ member)
    refine ⟨inside ++ 47 :: gap, ⟨lead ++ (47 :: ((42 :: inside) ++ [47]) ++ gap),
      ⟨?_, starts, ?_⟩, ?_⟩, gap, further gap, gaps⟩
    · rw [whole]
      simp only [List.append_assoc, List.cons_append, List.nil_append]
    · intro line member begins
      exact bare ((sentinelInside_iff leads gaps).mp ⟨line, member, begins⟩)
    · simp only [List.append_assoc, List.cons_append, List.nil_append]
      exact behindOpening_append leads
  · rintro ⟨text, ⟨front, first, opens⟩, gap, closed, gaps⟩
    obtain ⟨lead, leads, rfl⟩ := eq_of_behindOpening opens
    obtain ⟨inside, rfl, further⟩ := behindClose_eq_some closed
    have shape : lead ++ 47 :: 42 :: (inside ++ 47 :: gap) =
        lead ++ (47 :: ((42 :: inside) ++ [47]) ++ gap) := by
      simp only [List.append_assoc, List.cons_append, List.nil_append]
    refine ⟨lead, 47 :: ((42 :: inside) ++ [47]), gap ++ [10], ?_, leads,
      ⟨inside ++ [47], rfl, further []⟩, ?_, ?_, first.starts, ?_⟩
    · rw [first.whole, shape]
      simp only [List.append_assoc, List.cons_append, List.nil_append]
    · intro sentinel
      obtain ⟨line, member, begins⟩ := (sentinelInside_iff leads gaps).mpr sentinel
      rw [← shape] at member
      exact first.others line member begins
    · intro c member
      rcases List.mem_append.mp member with blank | final
      · exact gaps c blank
      · rw [List.mem_singleton.mp final]
        decide
    · rw [← List.append_assoc, ← List.append_assoc, List.getLast?_concat]

variable {a b : Bytes}

/-- Both files are accepted with one body. -/
theorem accepted_iff :
    (∃ body, mirrorBody a = .ok body ∧ mirrorBody b = .ok body) ↔
      ∃ ta tb ra rb, Banner a ta ra ∧ Banner b tb rb ∧ dropFinal 10 ra = dropFinal 10 rb ∧
        ClosedAtFirst ta ∧ ClosedAtFirst tb := by
  constructor
  · rintro ⟨body, first, second⟩
    obtain ⟨ta, ra, banner, closed, rfl⟩ := mirrorBody_ok_iff.mp first
    obtain ⟨tb, rb, banner', closed', same⟩ := mirrorBody_ok_iff.mp second
    exact ⟨ta, tb, ra, rb, banner, banner',
      (dropEmptyLast_inj banner.remainder_ne_nil banner'.remainder_ne_nil).mp same,
      closed, closed'⟩
  · rintro ⟨ta, tb, ra, rb, banner, banner', same, closed, closed'⟩
    refine ⟨_, mirrorBody_ok_iff.mpr ⟨ta, ra, banner, closed, rfl⟩,
      mirrorBody_ok_iff.mpr ⟨tb, rb, banner', closed', ?_⟩⟩
    exact (dropEmptyLast_inj banner.remainder_ne_nil banner'.remainder_ne_nil).mpr same

/-- Both files are mirrors of one remainder. -/
theorem mirrors_iff :
    (∃ ra rb, Mirrored a ra ∧ Mirrored b rb ∧ dropFinal 10 ra = dropFinal 10 rb) ↔
      ∃ ta tb ra rb, Banner a ta ra ∧ Banner b tb rb ∧ dropFinal 10 ra = dropFinal 10 rb ∧
        ClosedInC ta ∧ ClosedInC tb := by
  constructor
  · rintro ⟨ra, rb, first, second, same⟩
    obtain ⟨ta, banner, closed⟩ := mirrored_iff.mp first
    obtain ⟨tb, banner', closed'⟩ := mirrored_iff.mp second
    exact ⟨ta, tb, ra, rb, banner, banner', same, closed, closed'⟩
  · rintro ⟨ta, tb, ra, rb, banner, banner', same, closed, closed'⟩
    exact ⟨ra, rb, mirrored_iff.mpr ⟨ta, banner, closed⟩,
      mirrored_iff.mpr ⟨tb, banner', closed'⟩, same⟩

/-- Of files with banners, what is said of some banners with one remainder is said of
these. -/
theorem banners_iff {ta tb ra rb : Bytes} (P : Bytes → Bytes → Prop) (banner : Banner a ta ra)
    (banner' : Banner b tb rb) (same : dropFinal 10 ra = dropFinal 10 rb) :
    (∃ ta tb ra rb, Banner a ta ra ∧ Banner b tb rb ∧ dropFinal 10 ra = dropFinal 10 rb ∧
      P ta tb) ↔ P ta tb := by
  constructor
  · rintro ⟨ta', tb', ra', rb', other, other', -, holds⟩
    obtain ⟨rfl, rfl⟩ := banner.unique other
    obtain ⟨rfl, rfl⟩ := banner'.unique other'
    exact holds
  · exact fun holds => ⟨ta, tb, ra, rb, banner, banner', same, holds⟩

/-- **Clone mirrors are told apart but for two shapes of a banner.** Two files are
accepted with one body exactly when they are mirrors with one remainder, unless they are
misread. -/
theorem mirrorsExactly_iff (a b : Bytes) : MirrorsExactly a b ↔ ¬ Misread a b := by
  rw [MirrorsExactly, accepted_iff, mirrors_iff]
  by_cases aligned : ∃ ta tb ra rb, Banner a ta ra ∧ Banner b tb rb ∧
      dropFinal 10 ra = dropFinal 10 rb
  · obtain ⟨ta, tb, ra, rb, banner, banner', same⟩ := aligned
    rw [banners_iff (fun ta tb => ClosedAtFirst ta ∧ ClosedAtFirst tb) banner banner' same,
      banners_iff (fun ta tb => ClosedInC ta ∧ ClosedInC tb) banner banner' same, Misread,
      banners_iff _ banner banner' same, ← closedAtFirst_iff, ← closedAtFirst_iff,
      ← closedInC_iff, ← closedInC_iff]
    constructor
    · rintro agree (⟨early, early', short | short⟩ | ⟨late, late', missed | missed⟩)
      · exact short.not_closedInC (agree.mp ⟨early, early'⟩).1
      · exact short.not_closedInC (agree.mp ⟨early, early'⟩).2
      · exact missed.not_closedAtFirst (agree.mpr ⟨late, late'⟩).1
      · exact missed.not_closedAtFirst (agree.mpr ⟨late, late'⟩).2
    · intro clear
      obtain ⟨noneShort, noneMissed⟩ := not_or.mp clear
      constructor
      · rintro ⟨early, early'⟩
        exact ⟨early.closedInC fun short => noneShort ⟨early, early', .inl short⟩,
          early'.closedInC fun short => noneShort ⟨early, early', .inr short⟩⟩
      · rintro ⟨late, late'⟩
        exact ⟨late.closedAtFirst fun missed => noneMissed ⟨late, late', .inl missed⟩,
          late'.closedAtFirst fun missed => noneMissed ⟨late, late', .inr missed⟩⟩
  · have apart (P : Bytes → Bytes → Prop) : ¬ ∃ ta tb ra rb, Banner a ta ra ∧ Banner b tb rb ∧
        dropFinal 10 ra = dropFinal 10 rb ∧ P ta tb :=
      fun ⟨ta, tb, ra, rb, banner, banner', same, _⟩ =>
        aligned ⟨ta, tb, ra, rb, banner, banner', same⟩
    exact iff_of_true (iff_of_false (apart _) (apart _)) (apart _)

/-- `/*/` opens a comment and does not close it, and a file that starts so is accepted as a
clone of one with `/**/`. -/
theorem bareSlash_accepted : ¬ ∀ a b, MirrorsExactly a b := by
  intro exactly
  have agree := exactly ([47, 42, 42, 47, 10] ++ includeWord ++ [10])
    ([47, 42, 47, 10] ++ includeWord ++ [10])
  obtain ⟨_, rb, -, mirrored, -⟩ := agree.mp ⟨[includeWord], by decide, by decide⟩
  obtain ⟨text, banner, behind, closed, -⟩ := mirrored_iff.mp mirrored
  have bare : Banner ([47, 42, 47, 10] ++ includeWord ++ [10]) [47] (includeWord ++ [10]) :=
    ⟨[47, 42, 47], ⟨by decide, by decide, by decide⟩, by decide⟩
  obtain ⟨rfl, -⟩ := banner.unique bare
  cases closed

end

/-- A file passes when the two are accepted with one body, and then with its lines
counted. -/
theorem checkCloneMirror_eq_same {clone source : Option Bytes} {bodyLines : ℕ} :
    checkCloneMirror clone source = .same bodyLines ↔
      ∃ a b body, clone = some a ∧ source = some b ∧ mirrorBody a = .ok body ∧
        mirrorBody b = .ok body ∧ body.length = bodyLines := by
  constructor
  · intro passes
    cases clone with
    | none => cases passes
    | some a =>
        cases first : mirrorBody a with
        | error err =>
            simp only [checkCloneMirror, Option.map_some, first] at passes
            cases passes
        | ok body =>
            cases source with
            | none =>
                simp only [checkCloneMirror, Option.map_some, first] at passes
                cases passes
            | some b =>
                cases second : mirrorBody b with
                | error err =>
                    simp only [checkCloneMirror, Option.map_some, first, second] at passes
                    cases passes
                | ok body' =>
                    simp only [checkCloneMirror, Option.map_some, first, second] at passes
                    split_ifs at passes with same
                    cases passes
                    exact ⟨a, b, body, rfl, rfl, first, same ▸ second, rfl⟩
  · rintro ⟨a, b, body, rfl, rfl, first, second, rfl⟩
    simp only [checkCloneMirror, Option.map_some, first, second, if_true]

end Rimba.Regtest.CloneMirror
