import Mathlib.Data.Rat.Defs
import Rimba.Foundation.Pieces
import Rimba.Foundation.Utf8

/-! # Reading a console until a marker

`_capture` reads a console piece by piece, as `readline` returns it: a line, or what
there is of one when half a second has passed. It decodes each piece and looks for the
marker in it alone. What it returns is then that of the console, whatever the pieces,
only as far as no piece ends within a character and the marker is somewhere in one piece
(`Rimba.Regtest.capture_chunking_iff`). A marker that the half second cuts in two is
missed (`Rimba.Regtest.splitMarker_missed`).
-/

namespace Rimba.Regtest

open Foundation (InLine Uncrossed infix_dropLast_subset inLine_iff)
open Foundation.Utf8 (Cut Uncut decode decode_line decode_ne_nil decode_of_cut decode_parts_iff
  decode_front replacement)

/-- What `readline` returns: a line with its line feed, or what there is of one. -/
structure ConsolePiece where
  bytes : List UInt8
  line : 0x0a ∉ bytes.dropLast

/-- A pass of the reading loop: the clock at its head, and what `readline` returns,
unless the port drops. -/
structure ReadPass where
  now : ℚ
  read : Option ConsolePiece

/-- An attempt at the console: the clock behind `open`, unless that raises, the passes of
the loop, and the port that is found when this one has dropped. -/
structure CaptureAttempt where
  opened : Option ℚ
  passes : List ReadPass
  awaited : Option String

/-- `line.decode("utf-8", "replace")` -/
def ConsolePiece.text (piece : ConsolePiece) : List Char := decode piece.bytes

/-- `marker is not None and marker in text` -/
def holdsMarker (marker : Option (List Char)) (piece : ConsolePiece) : Bool :=
  marker.any fun word => word <:+: piece.text

/-- The reading loop, behind the texts in `buf`. The clock has run past the window when
there are no more passes. -/
def readFor (seconds t0 : ℚ) (marker : Option (List Char)) (buf : List (List Char)) :
    List ReadPass → Option (List Char × Bool)
  | [] => some (buf.flatten, false)
  | pass :: rest =>
      if pass.now - t0 < seconds then
        match pass.read with
        | none => none
        | some piece =>
            if piece.bytes = [] then readFor seconds t0 marker buf rest
            else if holdsMarker marker piece then some ((buf ++ [piece.text]).flatten, true)
            else readFor seconds t0 marker (buf ++ [piece.text]) rest
      else some (buf.flatten, false)

/-- What an attempt reads, unless the port drops. -/
def CaptureAttempt.read (seconds : ℚ) (marker : Option (List Char)) (attempt : CaptureAttempt) :
    Option (List Char × Bool) :=
  attempt.opened.bind fun t0 => readFor seconds t0 marker [] attempt.passes

/-- What the attempts meet, by their number and their port. -/
abbrev ConsoleAttempts := ℕ → String → CaptureAttempt

/-- The attempts that are left. -/
def captureFrom (seconds : ℚ) (marker : Option (List Char)) (attempts : ConsoleAttempts) :
    (left attempt : ℕ) → (port : String) → Option (List Char × Bool)
  | 0, attempt, port => (attempts attempt port).read seconds marker
  | left + 1, attempt, port =>
      ((attempts attempt port).read seconds marker).or
        (captureFrom seconds marker attempts left (attempt + 1)
          ((attempts attempt port).awaited.getD port))

/-- `_capture`: the text and whether the marker was in it, or nothing when it raises. -/
def capture (seconds : ℚ) (marker : Option (List Char)) (retries : ℕ) (attempts : ConsoleAttempts)
    (port : String) : Option (List Char × Bool) :=
  captureFrom seconds marker attempts retries 0 port

/-- The pieces that are there in the window. -/
def piecesFrom (seconds t0 : ℚ) : List ReadPass → List ConsolePiece
  | [] => []
  | pass :: rest =>
      if pass.now - t0 < seconds then
        match pass.read with
        | none => []
        | some piece =>
            if piece.bytes = [] then piecesFrom seconds t0 rest
            else piece :: piecesFrom seconds t0 rest
      else []

/-- The port drops in the window. -/
def dropsFrom (seconds t0 : ℚ) : List ReadPass → Bool
  | [] => false
  | pass :: rest =>
      if pass.now - t0 < seconds then
        match pass.read with
        | none => true
        | some _ => dropsFrom seconds t0 rest
      else false

/-- The pieces up to the first that holds the marker. -/
def heard (marker : Option (List Char)) : List ConsolePiece → List ConsolePiece
  | [] => []
  | piece :: rest => if holdsMarker marker piece then [piece] else piece :: heard marker rest

/-- What comes of the loop. -/
theorem readFor_eq (seconds t0 : ℚ) (marker : Option (List Char)) (buf : List (List Char))
    (passes : List ReadPass) :
    readFor seconds t0 marker buf passes =
      let pieces := piecesFrom seconds t0 passes
      let text := (buf ++ (heard marker pieces).map ConsolePiece.text).flatten
      if pieces.any (holdsMarker marker) then some (text, true)
      else if dropsFrom seconds t0 passes then none else some (text, false) := by
  induction passes generalizing buf with
  | nil =>
      simp only [readFor, piecesFrom, dropsFrom, heard, List.map_nil, List.append_nil,
        List.any_nil, Bool.false_eq_true, ↓reduceIte]
  | cons pass rest ih =>
      by_cases early : pass.now - t0 < seconds
      · simp only [readFor, piecesFrom, dropsFrom, early, ↓reduceIte]
        cases pass.read with
        | none => rfl
        | some piece =>
            by_cases silent : piece.bytes = []
            · simp only [silent, ↓reduceIte, ih]
            · simp only [silent, ↓reduceIte, heard, List.any_cons]
              by_cases held : holdsMarker marker piece = true
              · simp only [held, ↓reduceIte, Bool.true_or, List.map_cons, List.map_nil]
              · rw [Bool.not_eq_true] at held
                simp only [held, ih, Bool.false_eq_true, ↓reduceIte, Bool.false_or, List.map_cons,
                  List.append_assoc, List.singleton_append]
      · simp only [readFor, piecesFrom, dropsFrom, heard, early, ↓reduceIte, List.map_nil,
          List.append_nil, List.any_nil, Bool.false_eq_true]

/-- The attempt that is returned or raised from: the first whose port does not drop, or
the last. -/
def lastAttempt (seconds : ℚ) (marker : Option (List Char)) (attempts : ConsoleAttempts) :
    (left attempt : ℕ) → (port : String) → CaptureAttempt
  | 0, attempt, port => attempts attempt port
  | left + 1, attempt, port =>
      if ((attempts attempt port).read seconds marker).isSome then attempts attempt port
      else lastAttempt seconds marker attempts left (attempt + 1)
        ((attempts attempt port).awaited.getD port)

theorem captureFrom_eq (seconds : ℚ) (marker : Option (List Char)) (attempts : ConsoleAttempts)
    (left attempt : ℕ) (port : String) :
    captureFrom seconds marker attempts left attempt port =
      (lastAttempt seconds marker attempts left attempt port).read seconds marker := by
  induction left generalizing attempt port with
  | zero => rfl
  | succ left ih =>
      rw [captureFrom, lastAttempt, ih]
      cases read : (attempts attempt port).read seconds marker with
      | none => simp only [Option.none_or, Option.isSome_none, Bool.false_eq_true, ↓reduceIte]
      | some captured => simp only [Option.some_or, Option.isSome_some, ↓reduceIte, read]

/-- The pieces that are there for an attempt. -/
def CaptureAttempt.pieces (seconds : ℚ) (attempt : CaptureAttempt) : List ConsolePiece :=
  attempt.opened.elim [] fun t0 => piecesFrom seconds t0 attempt.passes

/-- The pieces that are there for the attempt that is returned. -/
def consolePieces (seconds : ℚ) (marker : Option (List Char)) (retries : ℕ)
    (attempts : ConsoleAttempts) (port : String) : List ConsolePiece :=
  (lastAttempt seconds marker attempts retries 0 port).pieces seconds

/-- What `_capture` returns of the pieces. -/
theorem capture_eq_some {seconds : ℚ} {marker : Option (List Char)} {retries : ℕ}
    {attempts : ConsoleAttempts} {port : String} {captured : List Char × Bool}
    (returned : capture seconds marker retries attempts port = some captured) :
    captured.1 = ((heard marker (consolePieces seconds marker retries attempts port)).map
        ConsolePiece.text).flatten ∧
      captured.2 = (consolePieces seconds marker retries attempts port).any
        (holdsMarker marker) := by
  rw [capture, captureFrom_eq, CaptureAttempt.read, Option.bind_eq_some_iff] at returned
  obtain ⟨t0, opened, returned⟩ := returned
  rw [readFor_eq] at returned
  simp only [List.nil_append] at returned
  rw [consolePieces, CaptureAttempt.pieces, opened, Option.elim_some]
  split_ifs at returned with held drops
  · cases returned
    exact ⟨rfl, held.symm⟩
  · cases returned
    exact ⟨rfl, (Bool.not_eq_true _ ▸ held).symm⟩

/-- It raises exactly when the last attempt cannot open its port, or loses it before a
piece holds the marker. -/
theorem capture_eq_none_iff {seconds : ℚ} {marker : Option (List Char)} {retries : ℕ}
    {attempts : ConsoleAttempts} {port : String} :
    capture seconds marker retries attempts port = none ↔
      ∀ t0 ∈ (lastAttempt seconds marker attempts retries 0 port).opened,
        (piecesFrom seconds t0 (lastAttempt seconds marker attempts retries 0 port).passes).any
            (holdsMarker marker) = false ∧
          dropsFrom seconds t0 (lastAttempt seconds marker attempts retries 0 port).passes =
            true := by
  rw [capture, captureFrom_eq, CaptureAttempt.read, Option.bind_eq_none_iff]
  refine forall₂_congr fun t0 _ => ?_
  rw [readFor_eq]
  dsimp only
  split_ifs with held drops
  · simp only [held, Bool.true_eq_false, false_and]
  · simp only [Bool.eq_false_iff.mpr held, drops, and_self]
  · simp only [reduceCtorEq, drops, and_false]

/-- An answer of `readline` without a byte is no piece. -/
theorem piecesFrom_bytes {seconds t0 : ℚ} {passes : List ReadPass} {piece : ConsolePiece}
    (member : piece ∈ piecesFrom seconds t0 passes) : piece.bytes ≠ [] := by
  induction passes with
  | nil => exact absurd member List.not_mem_nil
  | cons pass rest ih =>
      rw [piecesFrom] at member
      split_ifs at member
      · split at member
        · exact absurd member List.not_mem_nil
        · next other read =>
            split_ifs at member with silent
            · exact ih member
            · rcases List.mem_cons.mp member with rfl | later
              · exact silent
              · exact ih later
      · exact absurd member List.not_mem_nil

/-- The bytes of some pieces. -/
def bytesOf (pieces : List ConsolePiece) : List UInt8 := (pieces.map ConsolePiece.bytes).flatten

/-- What is returned is that of the bytes that were read, however they were cut. -/
structure ReadsBytes (marker : Option (List Char)) (pieces : List ConsolePiece)
    (captured : List Char × Bool) : Prop where
  matched : captured.2 = true ↔
    ∃ word ∈ marker, InLine word (decode (bytesOf (heard marker pieces)))
  text : captured.1 = decode (bytesOf (heard marker pieces))

/-- Where the console is cut does no harm: no character is cut, and a marker that a line
holds is in a line where no cut crosses it. -/
structure CutHarmlessly (marker : Option (List Char)) (pieces : List ConsolePiece) : Prop where
  characters : Uncut ((heard marker pieces).map ConsolePiece.bytes)
  words : ∀ word ∈ marker, InLine word (decode (bytesOf (heard marker pieces))) →
    ∃ front back, decode (bytesOf (heard marker pieces)) = front ++ word ++ back ∧
      ∀ count, Uncrossed front word (decode (bytesOf ((heard marker pieces).take count))).length

/-- No line of the console holds the marker, but the last piece that is heard ends with
it, and within a character. -/
def MatchesTorn (marker : Option (List Char)) (pieces : List ConsolePiece) : Prop :=
  ∃ word ∈ marker, ¬ InLine word (decode (bytesOf pieces)) ∧
    ∃ front piece back, pieces = front ++ piece :: back ∧ heard marker pieces = front ++ [piece] ∧
      word <:+ piece.text ∧ Cut (bytesOf (front ++ [piece])) (bytesOf back)

variable {marker : Option (List Char)} {pieces : List ConsolePiece}

theorem heard_of_silent (silent : pieces.any (holdsMarker marker) = false) :
    heard marker pieces = pieces := by
  induction pieces with
  | nil => rfl
  | cons piece pieces ih =>
      obtain ⟨here, later⟩ := Bool.or_eq_false_iff.mp silent
      rw [heard, here, ih later]
      rfl

/-- The last piece that is heard is the one that holds the marker. -/
theorem heard_of_holds (holds : pieces.any (holdsMarker marker) = true) :
    ∃ front piece back, pieces = front ++ piece :: back ∧
      heard marker pieces = front ++ [piece] ∧ holdsMarker marker piece = true := by
  induction pieces with
  | nil => cases holds
  | cons piece pieces ih =>
      by_cases held : holdsMarker marker piece = true
      · exact ⟨[], piece, pieces, rfl, if_pos held, held⟩
      · rw [List.any_cons, Bool.eq_false_iff.mpr held, Bool.false_or] at holds
        obtain ⟨front, last, back, rfl, upTo, holding⟩ := ih holds
        refine ⟨piece :: front, last, back, rfl, ?_, holding⟩
        rw [heard, if_neg held, upTo, List.cons_append]

theorem holdsMarker_iff {piece : ConsolePiece} :
    holdsMarker marker piece = true ↔ ∃ word ∈ marker, word <:+: piece.text := by
  cases marker with
  | none => simp only [holdsMarker, Option.any_none, Option.mem_def, Bool.false_eq_true,
      reduceCtorEq, false_and, exists_false]
  | some word => simp only [holdsMarker, Option.any_some, decide_eq_true_eq, Option.mem_def,
      Option.some.injEq, exists_eq_left']

/-- The pieces heard tell whether there is one that holds the marker. -/
theorem any_holds_iff : pieces.any (holdsMarker marker) = true ↔
    ∃ word ∈ marker, ∃ piece ∈ heard marker pieces, word <:+: piece.text := by
  constructor
  · intro holds
    obtain ⟨front, piece, back, rfl, upTo, held⟩ := heard_of_holds holds
    obtain ⟨word, marked, within⟩ := holdsMarker_iff.mp held
    refine ⟨word, marked, piece, ?_, within⟩
    rw [upTo]
    exact List.mem_append_right _ List.mem_cons_self
  · rintro ⟨word, marked, piece, member, within⟩
    by_contra silent
    rw [Bool.not_eq_true] at silent
    rw [heard_of_silent silent] at member
    exact List.any_eq_false.mp silent piece member (holdsMarker_iff.mpr ⟨word, marked, within⟩)

theorem mem_of_mem_heard {piece : ConsolePiece} (member : piece ∈ heard marker pieces) :
    piece ∈ pieces := by
  cases silent : pieces.any (holdsMarker marker) with
  | false => rwa [heard_of_silent silent] at member
  | true =>
      obtain ⟨front, last, back, rfl, upTo, _⟩ := heard_of_holds silent
      rw [upTo] at member
      rcases List.mem_append.mp member with before | here
      · exact List.mem_append_left _ before
      · rw [List.mem_singleton.mp here]
        exact List.mem_append_right _ List.mem_cons_self

/-- What is returned is decoded as a whole when no character is cut. -/
theorem texts_eq_iff : ((heard marker pieces).map ConsolePiece.text).flatten =
      decode (bytesOf (heard marker pieces)) ↔
    Uncut ((heard marker pieces).map ConsolePiece.bytes) := by
  rw [bytesOf, ← decode_parts_iff, List.map_map]
  rfl

theorem texts_take {pieces : List ConsolePiece} (uncut : Uncut (pieces.map ConsolePiece.bytes))
    (count : ℕ) :
    ((pieces.map ConsolePiece.text).take count).flatten = decode (bytesOf (pieces.take count)) := by
  have first := uncut.take count
  rw [← List.map_take] at first
  rw [bytesOf, ← decode_parts_iff.mpr first, List.map_map, ← List.map_take]
  rfl

/-- A word that is in a piece is in the line the piece is of. -/
theorem inLine_of_piece {word : List Char} {piece : ConsolePiece} (nonempty : piece.bytes ≠ [])
    (within : word <:+: piece.text) : InLine word piece.text := by
  refine inLine_iff.mpr ⟨decode_ne_nil nonempty, fun feed => ?_, within⟩
  exact decode_line piece.line (infix_dropLast_subset within feed)

/-- Where no character is cut, the pieces hold the words that no cut crosses. -/
theorem seen_pieces_iff {word : List Char} {pieces : List ConsolePiece} (nonempty : word ≠ [])
    (uncut : Uncut (pieces.map ConsolePiece.bytes)) :
    (∃ piece ∈ pieces, word <:+: piece.text) ↔
      ∃ front back, decode (bytesOf pieces) = front ++ word ++ back ∧
        ∀ count, Uncrossed front word (decode (bytesOf (pieces.take count))).length := by
  have whole := texts_take uncut pieces.length
  rw [List.take_of_length_le (List.length_map _).le, List.take_length] at whole
  have seen := @Foundation.seen_iff _ word nonempty (pieces.map ConsolePiece.text)
  simp only [List.mem_map, exists_exists_and_eq_and, texts_take uncut, whole] at seen
  exact seen

/-- **What is returned of some pieces.** It is that of the bytes exactly when they are cut
harmlessly. -/
theorem readsBytes_iff (nonempty : ∀ piece ∈ pieces, piece.bytes ≠ [])
    {captured : List Char × Bool}
    (text : captured.1 = ((heard marker pieces).map ConsolePiece.text).flatten)
    (matched : captured.2 = pieces.any (holdsMarker marker)) :
    ReadsBytes marker pieces captured ↔ CutHarmlessly marker pieces := by
  constructor
  · rintro ⟨flag, whole⟩
    have uncut := texts_eq_iff.mp (text.symm.trans whole)
    refine ⟨uncut, fun word marked inLine => ?_⟩
    by_cases empty : word = []
    · subst empty
      exact ⟨[], _, rfl, fun count => .inr (Nat.zero_le _)⟩
    · apply (seen_pieces_iff empty uncut).mp
      have found := flag.mpr ⟨word, marked, inLine⟩
      obtain ⟨other, sameMarked, seen⟩ := any_holds_iff.mp (matched ▸ found)
      cases Option.mem_unique sameMarked marked
      exact seen
  · rintro ⟨uncut, words⟩
    have whole := text.trans (texts_eq_iff.mpr uncut)
    refine ⟨?_, whole⟩
    rw [matched, any_holds_iff]
    refine exists_congr fun word => and_congr_right fun marked => ⟨?_, fun inLine => ?_⟩
    · rintro ⟨piece, member, within⟩
      have inPiece := inLine_of_piece (nonempty piece (mem_of_mem_heard member)) within
      apply inPiece.of_part
      rw [← texts_eq_iff.mpr uncut]
      exact List.infix_of_mem_flatten (List.mem_map_of_mem member)
    · by_cases empty : word = []
      · subst empty
        obtain ⟨text, _⟩ := inLine_iff.mp inLine
        cases read : heard marker pieces with
        | nil =>
            rw [read] at text
            exact absurd rfl text
        | cons piece rest => exact ⟨piece, List.mem_cons_self, List.nil_infix⟩
      · exact (seen_pieces_iff empty uncut).mpr (words word marked inLine)

theorem bytesOf_append (front back : List ConsolePiece) :
    bytesOf (front ++ back) = bytesOf front ++ bytesOf back := by
  rw [bytesOf, List.map_append, List.flatten_append, bytesOf, bytesOf]

/-- What is decoded of the pieces up to one. -/
theorem decode_upTo {front : List ConsolePiece} {piece : ConsolePiece}
    (uncut : Uncut ((front ++ [piece]).map ConsolePiece.bytes)) :
    decode (bytesOf (front ++ [piece])) =
      (front.map ConsolePiece.text).flatten ++ piece.text := by
  rw [bytesOf, ← decode_parts_iff.mpr uncut, List.map_map, List.map_append,
    List.flatten_append, List.map_singleton, List.flatten_singleton]
  rfl

/-- Behind the pieces that were heard, a word is in the console's lines, unless the last
piece cuts a character and the word ends with its replacement. -/
theorem inLine_or_torn {word : List Char} {front back : List ConsolePiece} {piece : ConsolePiece}
    (uncut : Uncut ((front ++ [piece]).map ConsolePiece.bytes)) (nonempty : word ≠ [])
    (within : word <:+: piece.text) (inLine : InLine word (decode (bytesOf (front ++ [piece])))) :
    InLine word (decode (bytesOf (front ++ piece :: back))) ∨
      word <:+ piece.text ∧ Cut (bytesOf (front ++ [piece])) (bytesOf back) := by
  have split : bytesOf (front ++ piece :: back) = bytesOf (front ++ [piece]) ++ bytesOf back := by
    rw [← bytesOf_append, List.append_assoc, List.singleton_append]
  rw [split]
  by_cases cut : Cut (bytesOf (front ++ [piece])) (bytesOf back)
  · obtain ⟨text, replaced, starts⟩ := decode_of_cut cut
    obtain ⟨before, rest, held⟩ := within
    rcases List.eq_nil_or_concat rest with rfl | ⟨rest, last, rfl⟩
    · exact .inr ⟨⟨before, by rw [← held, List.append_nil]⟩, cut⟩
    · left
      rw [decode_upTo uncut, ← held, List.concat_eq_append, ← List.append_assoc,
        ← List.append_assoc] at replaced
      have inText : word <:+: text := by
        rw [← (List.append_inj' replaced rfl).1]
        exact ⟨(front.map ConsolePiece.text).flatten ++ before, rest, by
          simp only [List.append_assoc]⟩
      have textInLine : InLine word text := by
        refine inLine_iff.mpr ⟨?_, (inLine_iff.mp inLine).2.1, inText⟩
        rintro rfl
        exact nonempty (List.infix_nil.mp inText)
      exact textInLine.of_part starts.isInfix
  · exact .inl (inLine.of_part (decode_front cut).isInfix)

/-- Where there are bytes, there is a line. -/
theorem inLine_nil (some_piece : pieces ≠ []) (nonempty : ∀ piece ∈ pieces, piece.bytes ≠ []) :
    InLine [] (decode (bytesOf pieces)) := by
  obtain ⟨piece, member⟩ := List.exists_mem_of_ne_nil pieces some_piece
  refine inLine_iff.mpr ⟨decode_ne_nil fun silent => ?_, List.not_mem_nil,
    List.nil_infix⟩
  exact nonempty piece member (List.flatten_eq_nil_iff.mp silent _ (List.mem_map_of_mem member))

/-- The marker is found exactly when a line of the console holds it, or a cut makes it. -/
theorem matched_iff (nonempty : ∀ piece ∈ pieces, piece.bytes ≠ [])
    (harmless : CutHarmlessly marker pieces) :
    pieces.any (holdsMarker marker) = true ↔
      (∃ word ∈ marker, InLine word (decode (bytesOf pieces))) ∨ MatchesTorn marker pieces := by
  have reads := (@readsBytes_iff marker pieces nonempty (_, _) rfl rfl).mpr harmless
  constructor
  · intro holds
    obtain ⟨front, piece, back, rfl, upTo, held⟩ := heard_of_holds holds
    obtain ⟨word, marked, within⟩ := holdsMarker_iff.mp held
    have member : piece ∈ front ++ piece :: back := List.mem_append_right _ List.mem_cons_self
    have uncut := harmless.characters
    rw [upTo] at uncut
    have inLine : InLine word (decode (bytesOf (front ++ [piece]))) := by
      apply (inLine_of_piece (nonempty piece member) within).of_part
      rw [decode_upTo uncut]
      exact (List.suffix_append _ _).isInfix
    by_cases known : InLine word (decode (bytesOf (front ++ piece :: back)))
    · exact .inl ⟨word, marked, known⟩
    · right
      have solid : word ≠ [] := by
        rintro rfl
        exact known (inLine_nil (List.ne_nil_of_mem member) nonempty)
      obtain ⟨ends, cut⟩ := (inLine_or_torn uncut solid within inLine).resolve_left known
      exact ⟨word, marked, known, front, piece, back, rfl, upTo, ends, cut⟩
  · rintro (⟨word, marked, inLine⟩ | ⟨word, marked, _, front, piece, back, rfl, _, ends, _⟩)
    · by_contra silent
      rw [Bool.not_eq_true] at silent
      have found := reads.matched.mpr ⟨word, marked, by rwa [heard_of_silent silent]⟩
      rw [silent] at found
      cases found
    · refine List.any_eq_true.mpr ⟨piece, ?_, holdsMarker_iff.mpr ⟨word, marked, ends.isInfix⟩⟩
      exact List.mem_append_right _ List.mem_cons_self

theorem consolePieces_bytes {seconds : ℚ} {retries : ℕ} {attempts : ConsoleAttempts}
    {port : String} {piece : ConsolePiece}
    (member : piece ∈ consolePieces seconds marker retries attempts port) : piece.bytes ≠ [] := by
  rw [consolePieces, CaptureAttempt.pieces] at member
  cases opened : (lastAttempt seconds marker attempts retries 0 port).opened with
  | none =>
      rw [opened] at member
      exact absurd member List.not_mem_nil
  | some t0 =>
      rw [opened] at member
      exact piecesFrom_bytes member

/-- Of the same bytes, the marker is found in two chunkings or in neither, unless a cut
makes it in one of them. -/
theorem flags_eq_iff {first second : List ConsolePiece}
    (nonempty : ∀ piece ∈ first, piece.bytes ≠ []) (nonempty' : ∀ piece ∈ second, piece.bytes ≠ [])
    (same : bytesOf first = bytesOf second) (harmless : CutHarmlessly marker first)
    (harmless' : CutHarmlessly marker second) :
    first.any (holdsMarker marker) = second.any (holdsMarker marker) ↔
      (MatchesTorn marker first ↔ MatchesTorn marker second) := by
  rw [Bool.eq_iff_iff, matched_iff nonempty harmless, matched_iff nonempty' harmless', same]
  by_cases known : ∃ word ∈ marker, InLine word (decode (bytesOf second))
  · obtain ⟨word, marked, inLine⟩ := known
    have notTorn {pieces : List ConsolePiece} (bytes : bytesOf pieces = bytesOf second) :
        ¬ MatchesTorn marker pieces := by
      rintro ⟨other, sameMarked, missing, _⟩
      cases Option.mem_unique sameMarked marked
      exact missing (bytes ▸ inLine)
    have held : ∃ word ∈ marker, InLine word (decode (bytesOf second)) := ⟨word, marked, inLine⟩
    exact iff_of_true (iff_of_true (.inl held) (.inl held))
      (iff_of_false (notTorn same) (notTorn rfl))
  · rw [or_iff_right known, or_iff_right known]

/-- **When the chunking does not matter.** Of two captures of the same bytes, each returns
what these bytes are and both find the marker or neither, exactly when both are cut
harmlessly and a cut makes the marker in both or in neither. -/
theorem capture_chunking_iff {seconds : ℚ} {marker : Option (List Char)} {retries : ℕ}
    {first second : ConsoleAttempts} {port : String} {captured other : List Char × Bool}
    (one : capture seconds marker retries first port = some captured)
    (two : capture seconds marker retries second port = some other)
    (same : bytesOf (consolePieces seconds marker retries first port) =
      bytesOf (consolePieces seconds marker retries second port)) :
    (ReadsBytes marker (consolePieces seconds marker retries first port) captured ∧
      ReadsBytes marker (consolePieces seconds marker retries second port) other ∧
        captured.2 = other.2) ↔
      CutHarmlessly marker (consolePieces seconds marker retries first port) ∧
        CutHarmlessly marker (consolePieces seconds marker retries second port) ∧
          (MatchesTorn marker (consolePieces seconds marker retries first port) ↔
            MatchesTorn marker (consolePieces seconds marker retries second port)) := by
  obtain ⟨text, flag⟩ := capture_eq_some one
  obtain ⟨text', flag'⟩ := capture_eq_some two
  rw [readsBytes_iff (fun _ => consolePieces_bytes) text flag,
    readsBytes_iff (fun _ => consolePieces_bytes) text' flag', flag, flag']
  refine and_congr_right fun harmless => and_congr_right fun harmless' => ?_
  exact flags_eq_iff (fun _ => consolePieces_bytes) (fun _ => consolePieces_bytes) same harmless
    harmless'

/-- A cut only makes a marker that ends with the replacement character. -/
theorem MatchesTorn.ends_replaced (nonempty : ∀ piece ∈ pieces, piece.bytes ≠ [])
    (harmless : CutHarmlessly marker pieces) (torn : MatchesTorn marker pieces) :
    ∃ word ∈ marker, [replacement] <:+ word := by
  obtain ⟨word, marked, missing, front, piece, back, rfl, upTo, ends, cut⟩ := torn
  have member : piece ∈ front ++ piece :: back := List.mem_append_right _ List.mem_cons_self
  refine ⟨word, marked, ?_⟩
  have solid : word ≠ [] := by
    rintro rfl
    exact missing (inLine_nil (List.ne_nil_of_mem member) nonempty)
  have uncut := harmless.characters
  rw [upTo] at uncut
  obtain ⟨text, replaced, _⟩ := decode_of_cut cut
  rw [decode_upTo uncut] at replaced
  have replacedEnd : [replacement] <:+
      (front.map ConsolePiece.text).flatten ++ piece.text := ⟨text, replaced.symm⟩
  apply List.suffix_of_suffix_length_le replacedEnd (ends.trans (List.suffix_append _ _))
  exact List.length_pos_iff.mpr solid

/-- Cut harmlessly, the same bytes give the same flag. -/
theorem flags_eq {first second : List ConsolePiece}
    (nonempty : ∀ piece ∈ first, piece.bytes ≠ []) (nonempty' : ∀ piece ∈ second, piece.bytes ≠ [])
    (same : bytesOf first = bytesOf second) (harmless : CutHarmlessly marker first)
    (harmless' : CutHarmlessly marker second)
    (plain : ∀ word ∈ marker, ¬ [replacement] <:+ word) :
    first.any (holdsMarker marker) = second.any (holdsMarker marker) := by
  have none {pieces : List ConsolePiece} (bytes : ∀ piece ∈ pieces, piece.bytes ≠ [])
      (cuts : CutHarmlessly marker pieces) : ¬ MatchesTorn marker pieces := fun torn => by
    obtain ⟨word, marked, ends⟩ := torn.ends_replaced bytes cuts
    exact plain word marked ends
  exact (flags_eq_iff nonempty nonempty' same harmless harmless').mpr
    (iff_of_false (none nonempty harmless) (none nonempty' harmless'))

/-- `TEST|END` -/
def endMarker : List Char := "TEST|END".toList

/-- The line of the marker, in one piece. -/
def wholeLine : ConsolePiece :=
  ⟨[0x54, 0x45, 0x53, 0x54, 0x7c, 0x45, 0x4e, 0x44, 0x0a], by decide⟩

/-- Its first six bytes, and the others. -/
def lineHead : ConsolePiece := ⟨[0x54, 0x45, 0x53, 0x54, 0x7c, 0x45], by decide⟩
def lineTail : ConsolePiece := ⟨[0x4e, 0x44, 0x0a], by decide⟩

def wholeConsole : ConsoleAttempts := fun _ _ => ⟨some 0, [⟨0, some wholeLine⟩], none⟩

def splitConsole : ConsoleAttempts := fun _ _ =>
  ⟨some 0, [⟨0, some lineHead⟩, ⟨1 / 2, some lineTail⟩], none⟩

theorem wholeConsole_found :
    capture 130 (some endMarker) 1 wholeConsole "ttyACM0" =
      some (endMarker ++ ['\n'], true) := by
  decide +kernel

theorem splitConsole_missed :
    capture 130 (some endMarker) 1 splitConsole "ttyACM0" =
      some (endMarker ++ ['\n'], false) := by
  decide +kernel

theorem splitConsole_same :
    bytesOf (consolePieces 130 (some endMarker) 1 wholeConsole "ttyACM0") =
      bytesOf (consolePieces 130 (some endMarker) 1 splitConsole "ttyACM0") := by
  decide +kernel

/-- A marker that `readline` cuts in two is missed. -/
theorem splitMarker_missed :
    ¬ ∀ (seconds : ℚ) (marker : Option (List Char)) (retries : ℕ)
      (first second : ConsoleAttempts) (port : String) (captured other : List Char × Bool),
      capture seconds marker retries first port = some captured →
        capture seconds marker retries second port = some other →
          bytesOf (consolePieces seconds marker retries first port) =
            bytesOf (consolePieces seconds marker retries second port) →
            ReadsBytes marker (consolePieces seconds marker retries first port) captured ∧
              ReadsBytes marker (consolePieces seconds marker retries second port) other ∧
                captured.2 = other.2 := by
  intro always
  have agree := (always _ _ _ _ _ _ _ _ wholeConsole_found splitConsole_missed
    splitConsole_same).2.2
  cases agree

/-- The same two captures are ones the general result speaks of. -/
theorem capture_chunking_iff_split :
    ¬ (CutHarmlessly (some endMarker)
        (consolePieces 130 (some endMarker) 1 wholeConsole "ttyACM0") ∧
      CutHarmlessly (some endMarker)
        (consolePieces 130 (some endMarker) 1 splitConsole "ttyACM0") ∧
      (MatchesTorn (some endMarker) (consolePieces 130 (some endMarker) 1 wholeConsole "ttyACM0") ↔
        MatchesTorn (some endMarker)
          (consolePieces 130 (some endMarker) 1 splitConsole "ttyACM0"))) := by
  intro harmless
  have agree := ((capture_chunking_iff wholeConsole_found splitConsole_missed
    splitConsole_same).mpr harmless).2.2
  cases agree

end Rimba.Regtest
