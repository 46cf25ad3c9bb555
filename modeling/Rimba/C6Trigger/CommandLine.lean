import Mathlib.Data.List.Induction

/-! # The command stream of the trigger companion

In `firmware/test-c6-trigger` the read loop of `app_main` collects the bytes it
gets from the UART in `line`, hands the line to `handle_line` at a line feed or a
carriage return, and drops what it has collected when the buffer is full. It goes
on collecting after that, so the rest of an overlong line is handed over as if it
were a line of its own (`Rimba.C6Trigger.overlong_handled`). Of every terminated
run of bytes the loop hands over what the multiples of `LINE_MAX` leave at its end
(`Rimba.C6Trigger.readLoop_lines`), so it hands over the lines that fit and
nothing else exactly when every longer one is a multiple of `LINE_MAX` long
(`Rimba.C6Trigger.handsLines_iff`).
-/

namespace Rimba.C6Trigger

/-- `LINE_MAX` -/
def lineMax : ℕ := 64

/-- The bytes of `line` below `len`. There is always room for the NUL behind
them. -/
@[ext] structure LineBuffer where
  line : List UInt8
  fits : line.length < lineMax

/-- `len = 0` -/
def LineBuffer.empty : LineBuffer := ⟨[], Nat.zero_lt_succ _⟩

/-- `c == '\n' || c == '\r'` -/
def endsLine (c : UInt8) : Bool :=
  c == 10 || c == 13

/-- What the read loop does with one byte: the buffer it leaves, and the line it
hands to `handle_line`, if any. -/
def LineBuffer.receive (buffer : LineBuffer) (c : UInt8) : LineBuffer × Option (List UInt8) :=
  if endsLine c then
    if 0 < buffer.line.length then (.empty, some buffer.line) else (buffer, none)
  else if room : buffer.line.length < lineMax - 1 then
    (⟨buffer.line ++ [c], by simp only [List.length_append, List.length_singleton]; omega⟩, none)
  else (.empty, none)

/-- The read loop of `app_main` over what its calls of `uart_read_bytes` return:
the buffer it leaves and the lines it hands over. -/
def readLoop (buffer : LineBuffer) : List (Option UInt8) → LineBuffer × List (List UInt8)
  | [] => (buffer, [])
  | none :: reads => readLoop buffer reads
  | some c :: reads =>
      let (next, line) := buffer.receive c
      let (last, lines) := readLoop next reads
      (last, line.toList ++ lines)

/-- The byte stream that was received. -/
def received (reads : List (Option UInt8)) : List UInt8 :=
  reads.filterMap id

/-- The maximal runs of bytes between line terminators, without the bytes that no
terminator has followed yet. -/
def lines (stream : List UInt8) : List (List UInt8) :=
  (stream.splitOnP endsLine).dropLast

/-- The lines that fit into the buffer. -/
def fitsLine (run : List UInt8) : Bool :=
  1 ≤ run.length ∧ run.length ≤ lineMax - 1

/-- The runs that fit are handed over, in order, and no part of a longer one is
handed over while it is received. -/
structure HandsLines (reads : List (Option UInt8)) : Prop where
  handed : (readLoop .empty reads).2 = (lines (received reads)).filter fitsLine
  dropped : ∀ before overlong stop after, reads = before ++ (overlong ++ some stop :: after) →
    (∀ last ∈ (received before).getLast?, endsLine last = true) →
    (∀ c ∈ received overlong, endsLine c = false) → endsLine stop = true →
    lineMax - 1 < (received overlong).length →
    (readLoop (readLoop .empty before).1 (overlong ++ [some stop])).2 = []

/-- The end of a run that the loop still holds. -/
def leftover (run : List UInt8) : List UInt8 :=
  run.drop (run.length / lineMax * lineMax)

theorem length_leftover (run : List UInt8) : (leftover run).length = run.length % lineMax := by
  have split := Nat.div_add_mod' run.length lineMax
  simp only [leftover, List.length_drop]
  omega

/-- The buffer after a run of bytes that end no line. -/
def holding (run : List UInt8) : LineBuffer where
  line := leftover run
  fits := length_leftover run ▸ Nat.mod_lt _ (Nat.zero_lt_succ _)

/-- A byte that ends no line makes the run one longer. -/
theorem holding_receive (run : List UInt8) {c : UInt8} (more : endsLine c = false) :
    (holding run).receive c = (holding (run ++ [c]), none) := by
  have size : (holding run).line.length = run.length % lineMax := length_leftover run
  have length : (run ++ [c]).length = run.length + 1 := List.length_append
  by_cases room : (holding run).line.length < lineMax - 1
  · have same : (run.length + 1) / lineMax = run.length / lineMax := by
      rw [size] at room
      simp only [lineMax] at room ⊢
      omega
    have kept : leftover (run ++ [c]) = leftover run ++ [c] := by
      simp only [leftover, length, same]
      exact List.drop_append_of_le_length (Nat.div_mul_le_self ..)
    simp only [LineBuffer.receive, more, Bool.false_eq_true, ↓reduceIte, room, ↓reduceDIte,
      Prod.mk.injEq, and_true]
    exact LineBuffer.ext kept.symm
  · have full : (run.length + 1) % lineMax = 0 := by
      rw [size] at room
      simp only [lineMax] at room ⊢
      omega
    have none : leftover (run ++ [c]) = [] := by
      apply List.eq_nil_of_length_eq_zero
      rw [length_leftover, length, full]
    simp only [LineBuffer.receive, more, Bool.false_eq_true, ↓reduceIte, room, ↓reduceDIte,
      Prod.mk.injEq, and_true]
    exact LineBuffer.ext none.symm

/-- What is handed over when a run is terminated. -/
def handedOf (run : List UInt8) : Option (List UInt8) :=
  if 0 < (leftover run).length then some (leftover run) else none

/-- A terminator hands over what is left of the run. -/
theorem holding_terminated (run : List UInt8) {c : UInt8} (stop : endsLine c = true) :
    (holding run).receive c = (.empty, handedOf run) := by
  rcases Nat.eq_zero_or_pos (leftover run).length with none | some
  · have empty : holding run = .empty := LineBuffer.ext (List.eq_nil_of_length_eq_zero none)
    have nothing : handedOf run = .none := if_neg (Nat.not_lt.mpr (Nat.le_of_eq none))
    rw [empty, nothing, LineBuffer.receive, if_pos stop]
    rfl
  · simp only [LineBuffer.receive, stop, ↓reduceIte, holding, some, handedOf]

/-- From a buffer that holds the end of a run, the loop hands over what is left of
every terminated run. -/
theorem readLoop_holding (run : List UInt8) (reads : List (Option UInt8)) :
    (readLoop (holding run.reverse) reads).2 =
      ((received reads).splitOnPPrepend endsLine run).dropLast.filterMap handedOf := by
  induction reads generalizing run with
  | nil => rfl
  | cons read reads ih =>
      cases read with
      | none => exact ih run
      | some c =>
          change _ =
            ((c :: received reads).splitOnPPrepend endsLine run).dropLast.filterMap handedOf
          cases stop : endsLine c with
          | false =>
              have next : (holding run.reverse).receive c = (holding (c :: run).reverse, none) := by
                rw [List.reverse_cons]
                exact holding_receive run.reverse stop
              rw [List.splitOnPPrepend_cons_neg stop, ← ih (c :: run)]
              simp only [readLoop, next, Option.toList_none, List.nil_append]
          | true =>
              rw [List.splitOnPPrepend_cons_pos stop,
                List.dropLast_cons_of_ne_nil (List.splitOnP_ne_nil endsLine _), List.filterMap_cons]
              simp only [readLoop, holding_terminated run.reverse stop]
              have later := ih []
              cases handedOf run.reverse with
              | none => exact later
              | some line => exact congrArg (List.cons line) later

/-- The loop hands over what the multiples of `LINE_MAX` leave of every terminated
run. -/
theorem readLoop_lines (reads : List (Option UInt8)) :
    (readLoop .empty reads).2 = (lines (received reads)).filterMap handedOf :=
  readLoop_holding [] reads

theorem readLoop_append (buffer : LineBuffer) (front back : List (Option UInt8)) :
    readLoop buffer (front ++ back) =
      ((readLoop (readLoop buffer front).1 back).1,
        (readLoop buffer front).2 ++ (readLoop (readLoop buffer front).1 back).2) := by
  induction front generalizing buffer with
  | nil => rfl
  | cons read front ih =>
      cases read with
      | none => exact ih buffer
      | some c =>
          simp only [List.cons_append, readLoop, ih, List.append_assoc]

/-- A terminator leaves the buffer empty. -/
theorem LineBuffer.receive_terminator (buffer : LineBuffer) {c : UInt8}
    (stop : endsLine c = true) : (buffer.receive c).1 = .empty := by
  unfold LineBuffer.receive
  rw [if_pos stop]
  split
  · rfl
  · next none =>
      exact LineBuffer.ext (List.eq_nil_of_length_eq_zero (Nat.eq_zero_of_not_pos none))

/-- At the start of a line the buffer is empty. -/
theorem readLoop_lineStart {reads : List (Option UInt8)}
    (start : ∀ last ∈ (received reads).getLast?, endsLine last = true) :
    (readLoop .empty reads).1 = .empty := by
  induction reads using List.reverseRecOn with
  | nil => rfl
  | append_singleton reads read ih =>
      rw [readLoop_append]
      simp only [received, List.filterMap_append] at start ih
      cases read with
      | none => exact ih (by simpa using start)
      | some c =>
          apply LineBuffer.receive_terminator
          exact start c (by simp)

theorem fitsLine_iff {run : List UInt8} :
    fitsLine run = true ↔ 1 ≤ run.length ∧ run.length ≤ lineMax - 1 :=
  decide_eq_true_iff

theorem handedOf_fits {run : List UInt8} (fits : fitsLine run = true) :
    handedOf run = some run := by
  obtain ⟨nonempty, within⟩ := fitsLine_iff.mp fits
  have whole : leftover run = run := by
    have none : run.length / lineMax = 0 := Nat.div_eq_of_lt (Nat.lt_succ_of_le within)
    simp only [leftover, none, Nat.zero_mul, List.drop_zero]
  rw [handedOf, whole]
  exact if_pos nonempty

theorem handedOf_eq_none_iff (run : List UInt8) :
    handedOf run = none ↔ lineMax ∣ run.length := by
  rw [Nat.dvd_iff_mod_eq_zero, ← length_leftover]
  unfold handedOf
  split
  · next some => simp only [reduceCtorEq, Nat.ne_of_gt some]
  · next none => simp only [Nat.eq_zero_of_not_pos none]

/-- A line that does not fit leaves something over unless it is a multiple of
`LINE_MAX` long. -/
theorem handedOf_not_fits {run : List UInt8} (fits : fitsLine run = false) :
    handedOf run = none ↔ (lineMax - 1 < run.length → lineMax ∣ run.length) := by
  rw [handedOf_eq_none_iff]
  refine ⟨fun divides _ => divides, fun long => ?_⟩
  rcases Nat.eq_zero_or_pos run.length with empty | some
  · exact empty ▸ Nat.dvd_zero _
  · apply long
    simp only [fitsLine, decide_eq_false_iff_not, not_and] at fits
    have tooLong := fits some
    omega

theorem length_filter_le_length_filterMap (runs : List (List UInt8)) :
    (runs.filter fitsLine).length ≤ (runs.filterMap handedOf).length := by
  induction runs with
  | nil => exact Nat.le_refl _
  | cons run runs ih =>
      cases fits : fitsLine run with
      | true =>
          rw [List.filter_cons_of_pos fits, List.filterMap_cons_some (handedOf_fits fits)]
          exact Nat.succ_le_succ ih
      | false =>
          rw [List.filter_cons_of_neg (Bool.eq_false_iff.mp fits)]
          cases handed : handedOf run with
          | none => rwa [List.filterMap_cons_none handed]
          | some line =>
              rw [List.filterMap_cons_some handed]
              exact Nat.le_succ_of_le ih

/-- No more lines than those that fit are handed over exactly when nothing is left
of the longer ones. -/
theorem filterMap_handedOf_iff (runs : List (List UInt8)) :
    runs.filterMap handedOf = runs.filter fitsLine ↔
      ∀ run ∈ runs, lineMax - 1 < run.length → lineMax ∣ run.length := by
  induction runs with
  | nil => simp only [List.filterMap_nil, List.filter_nil, List.not_mem_nil, false_implies,
      implies_true]
  | cons run runs ih =>
      rw [List.forall_mem_cons, ← ih]
      cases fits : fitsLine run with
      | true =>
          rw [List.filter_cons_of_pos fits, List.filterMap_cons_some (handedOf_fits fits),
            List.cons_inj_right]
          have within := (fitsLine_iff.mp fits).2
          exact ⟨fun same => ⟨fun long => absurd long (Nat.not_lt.mpr within), same⟩, And.right⟩
      | false =>
          rw [List.filter_cons_of_neg (Bool.eq_false_iff.mp fits), ← handedOf_not_fits fits]
          cases handed : handedOf run with
          | none => simp only [List.filterMap_cons_none handed, true_and]
          | some line =>
              have count := length_filter_le_length_filterMap runs
              refine ⟨fun same => ?_, fun none => nomatch none.1⟩
              have equal := congrArg List.length same
              rw [List.filterMap_cons_some handed, List.length_cons] at equal
              omega

/-- A terminated run of the stream is one of its lines. -/
theorem mem_lines {before run after : List UInt8} {stop : UInt8}
    (start : ∀ last ∈ before.getLast?, endsLine last = true)
    (within : ∀ c ∈ run, endsLine c = false) (terminated : endsLine stop = true) :
    run ∈ lines (before ++ (run ++ stop :: after)) := by
  have own : run ∈ lines (run ++ stop :: after) := by
    rw [lines, List.splitOnP_append_cons_of_forall_mem within stop terminated,
      List.dropLast_cons_of_ne_nil (List.splitOnP_ne_nil endsLine _)]
    exact List.mem_cons_self
  cases before using List.reverseRecOn with
  | nil => exact own
  | append_singleton before last =>
      have ends : endsLine last = true := start last (by simp)
      rw [List.append_assoc, List.singleton_append, lines,
        List.splitOnP_append_cons before _ ends,
        List.dropLast_append_of_ne_nil (List.splitOnP_ne_nil endsLine _)]
      exact List.mem_append_right _ own

/-- The loop hands over the lines that fit and no part of a longer one exactly
when every longer line is a multiple of `LINE_MAX` long. -/
theorem handsLines_iff (reads : List (Option UInt8)) :
    HandsLines reads ↔
      ∀ run ∈ lines (received reads), lineMax - 1 < run.length → lineMax ∣ run.length := by
  constructor
  · intro hands
    apply (filterMap_handedOf_iff _).mp
    rw [← readLoop_lines, hands.handed]
  · intro multiples
    refine ⟨?_, ?_⟩
    · rw [readLoop_lines]
      exact (filterMap_handedOf_iff _).mpr multiples
    · rintro before overlong stop after rfl start within terminated long
      have member : received overlong ∈
          lines (received (before ++ (overlong ++ some stop :: after))) := by
        simp only [received, List.filterMap_append, List.filterMap_cons, id]
        exact mem_lines start within terminated
      rw [readLoop_lineStart start, readLoop_lines]
      have only : lines (received (overlong ++ [some stop])) = [received overlong] := by
        have stream : received (overlong ++ [some stop]) = received overlong ++ [stop] :=
          List.filterMap_append
        rw [stream, lines, List.splitOnP_append_cons_of_forall_mem within stop terminated]
        rfl
      rw [only, List.filterMap_cons_none ((handedOf_eq_none_iff _).mpr (multiples _ member long))]
      rfl

/-- Sixty-four bytes of anything, then `high` and a line feed. -/
def overlongHigh : List (Option UInt8) :=
  List.replicate 64 (some 120) ++ [some 104, some 105, some 103, some 104, some 10]

/-- The end of an overlong line is handed over as a command. -/
theorem overlong_handled : ¬ ∀ reads, HandsLines reads := by
  intro always
  have handed : (readLoop .empty overlongHigh).2 = [] := (always overlongHigh).handed
  have high : (readLoop .empty overlongHigh).2 = [[104, 105, 103, 104]] := by decide
  exact nomatch high.symm.trans handed

end Rimba.C6Trigger
