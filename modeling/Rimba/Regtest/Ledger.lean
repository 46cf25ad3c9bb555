import Rimba.Foundation.Json.Decimal
import Rimba.Foundation.Json.Printable
import Rimba.Foundation.Json.Torn
import Rimba.Foundation.Text
import Rimba.Regtest.Reporter

/-! # The run-history ledger

`append_result` and `load_history` of the harness's `ledger` module. A call of
`append_result` writes one line at the end of the history file; when its process
is killed, the file keeps any part of that line short of the whole. The history
read back holds what was appended, after every call of a sequence, exactly when no
call that was killed after it had begun to write is followed by one that
completed (`Rimba.Regtest.Ledger.recovers_iff`): the next line is written behind
the torn one, and neither is read.
-/

namespace Rimba.Regtest.Ledger

open Foundation (Json dumps loads splitlines strip isPrintable)

/-- A number, and not one of the words that are none. -/
def isNumeric : Json → Bool
  | .bare text => !(["null".toList, "true".toList, "false".toList].contains text.1)
  | _ => false

/-- What is kept of one value of a result's meta. -/
def ledgerMetaValue : Json → Option Json
  | .bare text => if text.1 = "null".toList then none else some (.bare text)
  | .str text => if text.length ≤ 80 then some (.str text) else none
  | .arr items =>
      if !items.isEmpty && items.all isNumeric then some (.arr (items.take 32)) else none
  | .obj _ => none

/-- `_ledger_meta` -/
def ledgerMeta : Json → List (List Char × Json)
  | .obj members =>
      members.filterMap fun (key, v) => (ledgerMetaValue v).map fun kept => (key, kept)
  | _ => []

/-- The arguments of `append_result`, and the time it reads. -/
structure Call where
  ts : String
  runId : String
  tier : String
  git : String
  halowGitlink : String
  result : Result Json

namespace Call

/-- The record `append_result` makes. -/
def record (call : Call) : Json :=
  .obj [
    ("ts".toList, .str call.ts.toList),
    ("run_id".toList, .str call.runId.toList),
    ("tier".toList, .str call.tier.toList),
    ("git".toList, .str call.git.toList),
    ("halow_gitlink".toList, .str call.halowGitlink.toList),
    ("name".toList, .str call.result.name.toList),
    ("status".toList, .str call.result.status.text.toList),
    ("duration_s".toList, .bare (Foundation.roundTenths call.result.durationS)),
    ("detail".toList, .str (call.result.detail.toList.take 200)),
    ("meta".toList, .obj (ledgerMeta call.result.info))]

/-- The record's text. -/
def text (call : Call) : List Char := dumps .compact 0 call.record

/-- The line `append_result` writes. -/
def line (call : Call) : List Char := call.text ++ ['\n']

end Call

attribute [local irreducible] Call.line in
/-- A call of `append_result`: it completes, or its process is killed when a
strict prefix of its line is in the file. -/
inductive Append where
  | completed (call : Call)
  | killed (call : Call) (written : Fin call.line.length)

namespace Append

/-- What a call leaves in the file. -/
def written : Append → List Char
  | .completed call => call.line
  | .killed call written => call.line.take written

def completes : Append → Bool
  | .completed _ => true
  | .killed _ _ => false

/-- Killed after it had begun to write. -/
def torn : Append → Bool
  | .completed _ => false
  | .killed _ written => 0 < written.1

end Append

/-- The file behind one more call. -/
def appendResult (file : List Char) (append : Append) : List Char := file ++ append.written

/-- The file a sequence of calls leaves. -/
def history (appends : List Append) : List Char := appends.foldl appendResult []

def isObject : Json → Bool
  | .obj _ => true
  | _ => false

/-- The record of one line; blank and corrupt lines have none. -/
def lineRecord (line : List Char) : Option Json :=
  if strip line = [] then none else (loads (strip line)).filter isObject

/-- `load_history`, on the text of the file. -/
def loadHistory (text : List Char) : List Json := (splitlines text).filterMap lineRecord

/-- The records hold that of every completed call, in order, and of a killed call
its whole record or nothing. -/
inductive Recovers : List Append → List Json → Prop where
  | nil : Recovers [] []
  | completed {call : Call} {appends : List Append} {records : List Json} :
      Recovers appends records → Recovers (.completed call :: appends) (call.record :: records)
  | kept {call : Call} {written : Fin call.line.length} {appends : List Append}
      {records : List Json} :
      Recovers appends records → Recovers (.killed call written :: appends) (call.record :: records)
  | lost {call : Call} {written : Fin call.line.length} {appends : List Append}
      {records : List Json} :
      Recovers appends records → Recovers (.killed call written :: appends) records

/-- Killed calls need not leave anything. -/
theorem Recovers.of_killed {appends : List Append}
    (killed : ∀ append ∈ appends, append.completes = false) : Recovers appends [] := by
  induction appends with
  | nil => exact .nil
  | cons append appends ih =>
      obtain ⟨here, later⟩ := List.forall_mem_cons.mp killed
      cases append with
      | completed call => cases here
      | killed call written => exact .lost (ih later)

/-- There is a record for every completed call. -/
theorem Recovers.completed_le {appends : List Append} {records : List Json}
    (recovers : Recovers appends records) :
    appends.countP Append.completes ≤ records.length := by
  induction recovers with
  | nil => exact le_refl 0
  | completed _ ih =>
      rw [List.countP_cons_of_pos rfl, List.length_cons]
      exact Nat.succ_le_succ ih
  | kept _ ih =>
      rw [List.countP_cons_of_neg Bool.false_ne_true, List.length_cons]
      exact Nat.le_succ_of_le ih
  | lost _ ih =>
      rw [List.countP_cons_of_neg Bool.false_ne_true]
      exact ih

theorem isTagged_record (call : Call) : Foundation.Reader.isTagged call.record = true := rfl

theorem text_printable (call : Call) : ∀ c ∈ call.text, isPrintable c = true :=
  Foundation.dumps_printable 0 call.record

theorem text_braces (call : Call) : ∃ middle, call.text = '{' :: (middle ++ ['}']) :=
  Foundation.Reader.dumps_braces .compact 0 _

/-- What a killed call leaves is part of its record's text. -/
theorem written_prefix (call : Call) (written : Fin call.line.length) :
    (Append.killed call written).written <+: call.text := by
  obtain ⟨count, bound⟩ := written
  have short : count ≤ call.text.length := by
    rw [Call.line, List.length_append, List.length_singleton] at bound
    omega
  change call.line.take count <+: call.text
  rw [Call.line, List.take_append_of_le_length short]
  exact List.take_prefix _ _

theorem written_ne_nil {call : Call} {written : Fin call.line.length} (begun : 0 < written.1) :
    (Append.killed call written).written ≠ [] := by
  have length := List.length_take_of_le (Nat.le_of_lt written.2)
  intro nothing
  rw [Append.written] at nothing
  rw [nothing, List.length_nil] at length
  omega

theorem lineRecord_text (call : Call) : lineRecord call.text = some call.record := by
  obtain ⟨middle, braces⟩ := text_braces call
  have stripped : strip call.text = call.text := by
    rw [braces]
    exact Foundation.strip_solid (by decide) (by decide)
  have read : loads call.text = some call.record := Foundation.loads_dumps .compact call.record
  have started : call.text ≠ [] := by
    rw [braces]
    exact List.cons_ne_nil _ _
  rw [lineRecord, stripped, if_neg started, read]
  rfl

theorem foldl_appendResult (appends : List Append) (file : List Char) :
    appends.foldl appendResult file = file ++ (appends.map Append.written).flatten := by
  induction appends generalizing file with
  | nil => exact (List.append_nil file).symm
  | cons append appends ih =>
      rw [List.foldl_cons, ih, appendResult, List.map_cons, List.flatten_cons, List.append_assoc]

theorem history_eq (appends : List Append) :
    history appends = (appends.map Append.written).flatten := by
  rw [history, foldl_appendResult, List.nil_append]

theorem loadHistory_completed (call : Call) (appends : List Append) :
    loadHistory (history (.completed call :: appends)) =
      call.record :: loadHistory (history appends) := by
  have line : history (.completed call :: appends) = call.text ++ '\n' :: history appends := by
    rw [history_eq, history_eq, List.map_cons, List.flatten_cons, Append.written, Call.line,
      List.append_assoc, List.singleton_append]
  have unbroken : ∀ c ∈ call.text, Foundation.isLineBreak c = false := fun c member =>
    Foundation.isLineBreak_of_printable (text_printable call c member)
  rw [line, loadHistory, Foundation.splitlines_line unbroken,
    List.filterMap_cons_some (lineRecord_text call), loadHistory]

/-- A call killed before it began to write leaves the file as it was. -/
theorem history_untouched (append : Append) (notCompleted : append.completes = false)
    (notTorn : append.torn = false) (appends : List Append) :
    history (append :: appends) = history appends := by
  cases append with
  | completed call => cases notCompleted
  | killed call written =>
      have nothing : written.1 = 0 := by
        simpa only [Append.torn, decide_eq_false_iff_not, Nat.not_lt, Nat.le_zero] using notTorn
      rw [history_eq, history_eq, List.map_cons, List.flatten_cons, Append.written, nothing,
        List.take_zero, List.nil_append]

/-- The pieces killed calls leave behind one another. -/
theorem pieces_of_killed {appends : List Append}
    (killed : ∀ append ∈ appends, append.completes = false) :
    ∀ piece ∈ appends.map Append.written, Foundation.Reader.IsPiece piece := by
  intro piece member
  obtain ⟨append, within, rfl⟩ := List.mem_map.mp member
  cases append with
  | completed call => cases killed _ within
  | killed call written => exact ⟨call.record, isTagged_record call, written_prefix call written⟩

theorem printable_of_pieces {pieces : List (List Char)}
    (each : ∀ piece ∈ pieces, Foundation.Reader.IsPiece piece) :
    ∀ c ∈ pieces.flatten, isPrintable c = true := by
  intro c member
  obtain ⟨piece, within, inPiece⟩ := List.mem_flatten.mp member
  obtain ⟨v, _, cut⟩ := each piece within
  exact Foundation.dumps_printable 0 v c (cut.subset inPiece)

theorem strip_of_pieces {pieces : List (List Char)}
    (each : ∀ piece ∈ pieces, Foundation.Reader.IsPiece piece) :
    strip pieces.flatten <+: pieces.flatten := by
  by_cases nothing : pieces.flatten = []
  · rw [nothing]
    exact List.prefix_rfl
  · obtain ⟨rest, starts⟩ := Foundation.Reader.head_of_pieces each List.prefix_rfl nothing
    rw [starts]
    exact Foundation.strip_prefix (by decide)

/-- A line of pieces has at most the record of the first, and that when nothing
follows it. -/
theorem lineRecord_pieces {call : Call} {piece : List Char} {pieces : List (List Char)}
    (cut : piece <+: call.text) (started : piece ≠ [])
    (each : ∀ piece ∈ pieces, Foundation.Reader.IsPiece piece) {record : Json}
    (read : lineRecord (piece ++ pieces.flatten) = some record) :
    strip (piece ++ pieces.flatten) = piece ∧ record = call.record := by
  unfold lineRecord at read
  split_ifs at read with blank
  obtain ⟨loaded, -⟩ := Option.filter_eq_some_iff.mp read
  have all : ∀ part ∈ piece :: pieces, Foundation.Reader.IsPiece part :=
    List.forall_mem_cons.mpr ⟨⟨call.record, isTagged_record call, cut⟩, each⟩
  have within : strip (piece ++ pieces.flatten) <+: piece ++ pieces.flatten := strip_of_pieces all
  obtain ⟨same, _, whole⟩ := Foundation.loads_pieces (isTagged_record call) cut started each within
    loaded
  exact ⟨same, whole⟩

/-- Killed calls, the first of which had begun to write, leave the record of that
one or none. -/
theorem loadHistory_torn {call : Call} {written : Fin call.line.length} (begun : 0 < written.1)
    {appends : List Append} (killed : ∀ append ∈ appends, append.completes = false) :
    loadHistory (history (.killed call written :: appends)) = [] ∨
      loadHistory (history (.killed call written :: appends)) = [call.record] := by
  have each := pieces_of_killed killed
  have cut := written_prefix call written
  have started := written_ne_nil begun
  have unbroken : ∀ c ∈ history (.killed call written :: appends),
      Foundation.isLineBreak c = false := by
    intro c member
    rw [history_eq, List.map_cons] at member
    exact Foundation.isLineBreak_of_printable (printable_of_pieces (List.forall_mem_cons.mpr
      ⟨⟨call.record, isTagged_record call, cut⟩, each⟩) c member)
  have nonempty : history (.killed call written :: appends) ≠ [] := fun nothing => by
    rw [history_eq, List.map_cons, List.flatten_cons] at nothing
    exact started (List.append_eq_nil_iff.mp nothing).1
  rw [loadHistory, Foundation.splitlines_last unbroken, if_neg nonempty, List.filterMap_cons,
    List.filterMap_nil]
  rcases read : lineRecord (history (.killed call written :: appends)) with _ | record
  · exact .inl rfl
  · rw [history_eq, List.map_cons, List.flatten_cons] at read
    rw [(lineRecord_pieces cut started each read).2]
    exact .inr rfl

/-- A line that starts with a torn text and ends with a whole one is no record: it starts
and ends with a brace, so it would be the torn piece itself. -/
theorem lineRecord_torn_completed {call : Call} {written : Fin call.line.length}
    (begun : 0 < written.1) {pieces : List (List Char)} {last : Call}
    (each : ∀ piece ∈ pieces ++ [last.text], Foundation.Reader.IsPiece piece) :
    lineRecord ((Append.killed call written).written ++ (pieces ++ [last.text]).flatten) =
      none := by
  have cut := written_prefix call written
  have started := written_ne_nil begun
  by_contra accepted
  obtain ⟨record, read⟩ := Option.ne_none_iff_exists'.mp accepted
  have stripped := (lineRecord_pieces cut started each read).1
  obtain ⟨middle, braces⟩ := text_braces last
  obtain ⟨front, head⟩ := Foundation.Reader.head_of_pieces
    (List.forall_mem_singleton.mpr ⟨call.record, isTagged_record call, cut⟩)
    (List.prefix_append _ []) started
  have solid : (Append.killed call written).written ++ (pieces ++ [last.text]).flatten =
      '{' :: (front ++ (pieces.flatten ++ '{' :: middle) ++ ['}']) := by
    rw [head, List.flatten_append, List.flatten_singleton, braces]
    simp only [List.cons_append, List.append_assoc]
  rw [solid, Foundation.strip_solid (by decide) (by decide), ← solid] at stripped
  have nothing := List.append_right_eq_self.mp stripped
  rw [List.flatten_append, List.flatten_singleton, braces] at nothing
  exact List.cons_ne_nil _ _ (List.append_eq_nil_iff.mp nothing).2

/-- A call that completes behind a torn one is lost, and the torn one with it. -/
theorem loadHistory_torn_completed {call : Call} {written : Fin call.line.length}
    (begun : 0 < written.1) {appends : List Append}
    (killed : ∀ append ∈ appends, append.completes = false) (last : Call) :
    loadHistory (history (.killed call written :: (appends ++ [.completed last]))) = [] := by
  have lastPiece : Foundation.Reader.IsPiece last.text :=
    ⟨last.record, isTagged_record last, List.prefix_rfl⟩
  have each : ∀ piece ∈ appends.map Append.written ++ [last.text],
      Foundation.Reader.IsPiece piece := by
    intro piece member
    rcases List.mem_append.mp member with early | late
    · exact pieces_of_killed killed piece early
    · cases List.mem_singleton.mp late
      exact lastPiece
  have line : history (.killed call written :: (appends ++ [.completed last])) =
      ((Append.killed call written).written ++
        (appends.map Append.written ++ [last.text]).flatten) ++ '\n' :: [] := by
    rw [history_eq, List.map_cons, List.map_append, List.map_singleton, List.flatten_cons,
      List.flatten_append, List.flatten_append, List.flatten_singleton, List.flatten_singleton,
      Append.written, Call.line]
    simp only [List.append_assoc]
  have tornPiece : ∀ piece ∈ [(Append.killed call written).written],
      Foundation.Reader.IsPiece piece :=
    List.forall_mem_singleton.mpr ⟨call.record, isTagged_record call, written_prefix call written⟩
  have unbroken : ∀ c ∈ (Append.killed call written).written ++
      (appends.map Append.written ++ [last.text]).flatten, Foundation.isLineBreak c = false :=
    fun c member => Foundation.isLineBreak_of_printable
      (printable_of_pieces (List.forall_mem_append.mpr ⟨tornPiece, each⟩) c member)
  rw [line, loadHistory, Foundation.splitlines_line unbroken,
    List.filterMap_cons_none (lineRecord_torn_completed begun each)]
  rfl

/-- No call that completes comes behind a torn one. -/
def NothingBehindTorn (appends : List Append) : Prop :=
  appends.Pairwise fun earlier later => earlier.torn = true → later.completes = false

/-- The first call that completes. -/
theorem exists_first_completed {appends : List Append}
    (some_completes : ∃ append ∈ appends, append.completes = true) :
    ∃ front last back, appends = front ++ .completed last :: back ∧
      ∀ append ∈ front, append.completes = false := by
  obtain ⟨append, found⟩ := Option.isSome_iff_exists.mp (List.find?_isSome.mpr some_completes)
  obtain ⟨completes, front, back, split, before⟩ := List.find?_eq_some_iff_append.mp found
  cases append with
  | killed call written => cases completes
  | completed last =>
      exact ⟨front, last, back, split, fun other member =>
        Bool.not_eq_true' _ ▸ before other member⟩

/-- When a call completes behind a torn one, there are at some time fewer records
than calls that have completed. -/
theorem lost_of_behind_torn {appends : List Append} (behind : ¬ NothingBehindTorn appends) :
    ∃ front, front <+: appends ∧
      (loadHistory (history front)).length < front.countP Append.completes := by
  induction appends with
  | nil => exact absurd List.Pairwise.nil behind
  | cons append appends ih =>
      cases append with
      | completed call =>
          have later : ¬ NothingBehindTorn appends := fun fine =>
            behind (List.pairwise_cons.mpr ⟨fun _ _ torn => Bool.noConfusion torn, fine⟩)
          obtain ⟨front, cut, fewer⟩ := ih later
          refine ⟨.completed call :: front, List.cons_prefix_cons.mpr ⟨rfl, cut⟩, ?_⟩
          rw [loadHistory_completed, List.countP_cons_of_pos rfl, List.length_cons]
          exact Nat.succ_lt_succ fewer
      | killed call written =>
          by_cases torn : (Append.killed call written).torn = true
          · have completed : ∃ append ∈ appends, append.completes = true := by
              by_contra none
              have each : ∀ append ∈ appends, append.completes = false := fun append member =>
                Bool.eq_false_iff.mpr fun completes => none ⟨append, member, completes⟩
              exact behind (List.pairwise_cons.mpr ⟨fun later member _ => each later member,
                List.pairwise_of_forall_mem_list fun _ _ later member _ => each later member⟩)
            obtain ⟨front, last, back, rfl, killed⟩ := exists_first_completed completed
            refine ⟨.killed call written :: (front ++ [.completed last]), ⟨back, ?_⟩, ?_⟩
            · simp only [List.cons_append, List.append_assoc, List.nil_append]
            · rw [loadHistory_torn_completed (of_decide_eq_true torn) killed, List.length_nil,
                List.countP_pos_iff]
              exact ⟨.completed last, by simp, rfl⟩
          · have untouched := history_untouched (.killed call written) rfl
              (Bool.eq_false_iff.mpr torn)
            have later : ¬ NothingBehindTorn appends := fun fine =>
              behind (List.pairwise_cons.mpr ⟨fun _ _ torn' => absurd torn' torn, fine⟩)
            obtain ⟨front, cut, fewer⟩ := ih later
            refine ⟨.killed call written :: front, List.cons_prefix_cons.mpr ⟨rfl, cut⟩, ?_⟩
            rw [untouched, List.countP_cons_of_neg Bool.false_ne_true]
            exact fewer

theorem recovers_of_nothingBehindTorn {appends : List Append}
    (nothing : NothingBehindTorn appends) : Recovers appends (loadHistory (history appends)) := by
  induction appends with
  | nil => exact .nil
  | cons append appends ih =>
      obtain ⟨behind, later⟩ := List.pairwise_cons.mp nothing
      cases append with
      | completed call =>
          rw [loadHistory_completed]
          exact .completed (ih later)
      | killed call written =>
          by_cases torn : (Append.killed call written).torn = true
          · have killed : ∀ append ∈ appends, append.completes = false := fun append member =>
              behind append member torn
            rcases loadHistory_torn (of_decide_eq_true torn) killed with none | whole
            · rw [none]
              exact .lost (.of_killed killed)
            · rw [whole]
              exact .kept (.of_killed killed)
          · rw [history_untouched (.killed call written) rfl (Bool.eq_false_iff.mpr torn)]
            exact .lost (ih later)

/-- **Durability of the ledger.** The history read back holds what was appended,
after every call of a sequence, exactly when no call that was killed after it had
begun to write is followed by one that completed. -/
theorem recovers_iff (appends : List Append) :
    (∀ front, front <+: appends → Recovers front (loadHistory (history front))) ↔
      NothingBehindTorn appends := by
  constructor
  · intro durable
    by_contra behind
    obtain ⟨front, cut, fewer⟩ := lost_of_behind_torn behind
    exact absurd (durable front cut).completed_le (Nat.not_le.mpr fewer)
  · intro nothing front cut
    exact recovers_of_nothingBehindTorn (nothing.sublist cut.sublist)

/-- One passed test, as a run of the second tier appends it. -/
def passed : Call :=
  ⟨"2025-01-01T00:00:00+0000", "T2-1", "T2", "abc", "def",
    ⟨"T2", "mesh", .pass, "", 5 / 4, "", .obj []⟩⟩

/-- Its line is longer than 20 characters. -/
theorem passed_long : 20 < passed.line.length := by decide +kernel

/-- A call killed in the middle of its line takes the next one with it. -/
theorem torn_line_destroys_next :
    ¬ ∀ appends : List Append, Recovers appends (loadHistory (history appends)) := by
  intro durable
  have recovers := durable [.killed passed ⟨20, passed_long⟩, .completed passed]
  have lost : (loadHistory (history [.killed passed ⟨20, passed_long⟩,
      .completed passed])).length = 0 := by decide +kernel
  exact absurd recovers.completed_le (by rw [lost]; decide)

end Rimba.Regtest.Ledger
