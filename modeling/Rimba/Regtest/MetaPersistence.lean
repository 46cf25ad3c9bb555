import Rimba.Regtest.Drift

/-! # What persisting keeps of a result's metrics

`_ledger_meta` bounds what a result's meta leaves in the history, and `_scalar_metrics`
takes the metrics out of a meta. A number is persisted as it is, and of a list of numbers
its first 32. So the metrics of what was persisted are those of the meta with its lists
cut, and they are those of the meta itself exactly when the mean of no longer list depends
on what was cut (`Rimba.Regtest.MetaPersistence.metrics_persisted_iff`). Of a meta as
JSON the ledger keeps what is kept here, and its views take a metric out of the same
values.
-/

namespace Rimba.Regtest.MetaPersistence

open Foundation (Json OrderedDict isNumber numberValue)

/-- A number, exact, or one of the floats that are none. -/
inductive Metric where
  | finite (x : ℚ)
  | infinity (negative : Bool)
  | nan
  deriving DecidableEq

namespace Metric

/-- `a + b` -/
def add : Metric → Metric → Metric
  | .finite a, .finite b => .finite (a + b)
  | .infinity a, .infinity b => if a = b then .infinity a else .nan
  | .infinity a, .finite _ => .infinity a
  | .finite _, .infinity b => .infinity b
  | .nan, _ => .nan
  | _, .nan => .nan

/-- `a / n` -/
def dividedBy (n : ℕ) : Metric → Metric
  | .finite x => .finite (x / n)
  | other => other

/-- `sum(v) / len(v)` -/
def mean (v : List Metric) : Metric := (v.foldl add (.finite 0)).dividedBy v.length

end Metric

/-- A value of a meta: a bool, an int or a float, a text, a list or a tuple, or something
else. -/
inductive MetaItem where
  | flag (b : Bool)
  | number (x : Metric)
  | text (t : List Char)
  | list (items : List MetaItem)
  | other

namespace MetaItem

/-- `isinstance(x, (int, float)) and not isinstance(x, bool)`, and the number. -/
def asNumber : MetaItem → Option Metric
  | .number x => some x
  | _ => none

/-- A list of numbers that is not empty. -/
def isNumeric (items : List MetaItem) : Bool :=
  !items.isEmpty && items.all fun item => item.asNumber.isSome

/-- What is kept of one value. -/
def persisted : MetaItem → Option MetaItem
  | .flag b => some (.flag b)
  | .number x => some (.number x)
  | .text t => if t.length ≤ 80 then some (.text t) else none
  | .list items => if isNumeric items then some (.list (items.take 32)) else none
  | .other => none

/-- The metric one value is. -/
def scalar : MetaItem → Option Metric
  | .number x => some x
  | .list items => if isNumeric items then some (.mean (items.filterMap asNumber)) else none
  | _ => none

end MetaItem

variable {Key : Type}

/-- `_ledger_meta`, of something that may be no dictionary. -/
def ledgerMeta (info : Option (OrderedDict Key MetaItem)) : OrderedDict Key MetaItem :=
  match info with
  | none => .empty
  | some dict => dict.filterMapValues MetaItem.persisted

/-- `_scalar_metrics`, of something that may be no dictionary. -/
def scalarMetrics (info : Option (OrderedDict Key MetaItem)) : OrderedDict Key Metric :=
  match info with
  | none => .empty
  | some dict => dict.filterMapValues MetaItem.scalar

namespace MetaItem

/-- A list of numbers cut to its first 32. -/
def cut : MetaItem → MetaItem
  | .list items => if isNumeric items then .list (items.take 32) else .list items
  | item => item

/-- The mean of a list of numbers is that of its first 32. -/
def MeanKept : MetaItem → Prop
  | .list items => isNumeric items = true → 32 < items.length →
      Metric.mean ((items.take 32).filterMap asNumber) = .mean (items.filterMap asNumber)
  | _ => True

theorem isNumeric_take {items : List MetaItem} (numeric : isNumeric items = true) :
    isNumeric (items.take 32) = true := by
  obtain ⟨nonempty, numbers⟩ := Bool.and_eq_true_iff.mp numeric
  refine Bool.and_eq_true_iff.mpr ⟨?_, ?_⟩
  · cases items with
    | nil => exact nonempty
    | cons item items => rfl
  · rw [List.all_eq_true] at numbers ⊢
    exact fun item member => numbers item (List.mem_of_mem_take member)

/-- The metric of what is persisted is that of the value with its list cut. -/
theorem scalar_persisted (item : MetaItem) : item.persisted.bind scalar = item.cut.scalar := by
  cases item with
  | flag b => rfl
  | number x => rfl
  | other => rfl
  | text t =>
      rw [persisted]
      split <;> rfl
  | list items =>
      rw [persisted, cut]
      split
      · rfl
      case isFalse mixed =>
          rw [scalar, if_neg mixed]
          rfl

/-- And it is the metric of the value when the mean is kept, and only then. -/
theorem scalar_cut_iff (item : MetaItem) : item.cut.scalar = item.scalar ↔ item.MeanKept := by
  cases item with
  | flag | number | text | other => exact iff_of_true rfl trivial
  | list items =>
      rw [cut, MeanKept]
      split
      case isFalse mixed => exact iff_of_true rfl fun numeric => absurd numeric mixed
      case isTrue numeric =>
          rw [scalar, scalar, if_pos numeric, if_pos (isNumeric_take numeric), Option.some.injEq]
          constructor
          · intro same _ _
            exact same
          · intro kept
            by_cases long : 32 < items.length
            · exact kept numeric long
            · rw [List.take_of_length_le (Nat.not_lt.mp long)]

end MetaItem

theorem scalarMetrics_persisted (dict : OrderedDict Key MetaItem) :
    scalarMetrics (some (ledgerMeta (some dict))) =
      dict.filterMapValues fun item => item.cut.scalar := by
  rw [scalarMetrics, ledgerMeta, OrderedDict.filterMapValues_filterMapValues]
  simp only [MetaItem.scalar_persisted]

/-- Persisting keeps the metrics of a dictionary when it keeps each mean. -/
theorem scalarMetrics_kept_iff [DecidableEq Key] (dict : OrderedDict Key MetaItem) :
    scalarMetrics (some (ledgerMeta (some dict))) = scalarMetrics (some dict) ↔
      ∀ item ∈ dict.values, item.MeanKept := by
  rw [scalarMetrics_persisted, scalarMetrics, OrderedDict.filterMapValues_eq_iff]
  simp only [MetaItem.scalar_cut_iff]

/-- The metrics of what is persisted are those of the meta with its lists of numbers cut
to their first 32. They are those of the meta exactly when each longer list has the mean
of its first 32. -/
theorem metrics_persisted_iff [DecidableEq Key] :
    (∀ info : Option (OrderedDict Key MetaItem),
        scalarMetrics (some (ledgerMeta info)) =
          scalarMetrics (info.map fun dict => dict.mapValues MetaItem.cut)) ∧
      ∀ info : Option (OrderedDict Key MetaItem),
        scalarMetrics (some (ledgerMeta info)) = scalarMetrics info ↔
          ∀ dict ∈ info, ∀ item ∈ dict.values, item.MeanKept := by
  constructor
  · intro info
    cases info with
    | none => rfl
    | some dict =>
        rw [scalarMetrics_persisted]
        exact (OrderedDict.filterMapValues_mapValues MetaItem.cut dict).symm
  · intro info
    cases info with
    | none =>
        refine iff_of_true rfl ?_
        intro dict member
        cases member
    | some dict =>
        rw [scalarMetrics_kept_iff]
        simp only [Option.mem_def, Option.some.injEq, forall_eq']

/-- Thirty-two latencies of 10 and one of 340. -/
def slowLast : List MetaItem := List.replicate 32 (.number (.finite 10)) ++ [.number (.finite 340)]

/-- What is cut is not in the mean. -/
theorem slowLast_differs : ¬ ∀ info : Option (OrderedDict String MetaItem),
    scalarMetrics (some (ledgerMeta info)) = scalarMetrics info := by
  intro always
  have same := always (some ⟨[("latencies_ms", .list slowLast)], List.nodup_singleton _⟩)
  have kept := (scalarMetrics_kept_iff _).mp same _ (List.mem_singleton_self _)
  have mean : Metric.mean ((slowLast.take 32).filterMap MetaItem.asNumber) = .finite 10 := by
    decide +kernel
  have whole : Metric.mean (slowLast.filterMap MetaItem.asNumber) = .finite 20 := by
    decide +kernel
  have moved := kept (by decide) (by decide)
  rw [mean, whole] at moved
  exact absurd moved (by decide +kernel)

namespace MetaItem

/-- A number or a word of JSON. -/
def ofBare (word : List Char) : MetaItem :=
  if word = "null".toList then .other
  else if word = "true".toList then .flag true
  else if word = "false".toList then .flag false
  else if word = "NaN".toList then .number .nan
  else if word = "Infinity".toList then .number (.infinity false)
  else if word = "-Infinity".toList then .number (.infinity true)
  else .number (.finite (numberValue word))

/-- An item of a list. -/
def itemOfJson : Json → MetaItem
  | .bare word => ofBare word.1
  | .str t => .text t
  | .arr _ => .other
  | .obj _ => .other

/-- A value of a meta that is JSON. -/
def ofJson : Json → MetaItem
  | .arr items => .list (items.map itemOfJson)
  | .bare word => ofBare word.1
  | .str t => .text t
  | .obj _ => .other

/-- A word other than these three is a number. -/
theorem ofBare_number {word : List Char}
    (other : word ≠ "null".toList ∧ word ≠ "true".toList ∧ word ≠ "false".toList) :
    ∃ x, ofBare word = .number x := by
  rw [ofBare, if_neg other.1, if_neg other.2.1, if_neg other.2.2]
  split
  · exact ⟨_, rfl⟩
  · split
    · exact ⟨_, rfl⟩
    · split <;> exact ⟨_, rfl⟩

theorem isNumeric_bare (word : Foundation.Bare) :
    Ledger.isNumeric (.bare word) = (ofBare word.1).asNumber.isSome := by
  by_cases null : word.1 = "null".toList
  · rw [Ledger.isNumeric, null]
    rfl
  by_cases yes : word.1 = "true".toList
  · rw [Ledger.isNumeric, yes]
    rfl
  by_cases no : word.1 = "false".toList
  · rw [Ledger.isNumeric, no]
    rfl
  obtain ⟨x, number⟩ := ofBare_number ⟨null, yes, no⟩
  rw [number, Ledger.isNumeric]
  simp only [List.contains_cons, List.contains_nil, Bool.or_false, asNumber, Option.isSome_some,
    Bool.not_eq_true', Bool.or_eq_false_iff, beq_eq_false_iff_ne]
  exact ⟨null, yes, no⟩

theorem isNumeric_itemOfJson (v : Json) :
    Ledger.isNumeric v = (itemOfJson v).asNumber.isSome := by
  cases v with
  | bare word => exact isNumeric_bare word
  | str | arr | obj => rfl

theorem isNumeric_map (items : List Json) :
    isNumeric (items.map itemOfJson) = (!items.isEmpty && items.all Ledger.isNumeric) := by
  rw [isNumeric, List.all_map]
  have each : (fun item : MetaItem => item.asNumber.isSome) ∘ itemOfJson = Ledger.isNumeric :=
    funext fun v => (isNumeric_itemOfJson v).symm
  rw [each]
  cases items <;> rfl

/-- What the ledger keeps of JSON is what is kept of the value. -/
theorem ledgerMetaValue_ofJson (v : Json) :
    (Ledger.ledgerMetaValue v).map ofJson = (ofJson v).persisted := by
  cases v with
  | bare word =>
      rw [Ledger.ledgerMetaValue, ofJson]
      split
      case isTrue null =>
          rw [null]
          rfl
      case isFalse null =>
          rw [Option.map_some, ofJson]
          by_cases yes : word.1 = "true".toList
          · rw [yes]
            rfl
          by_cases no : word.1 = "false".toList
          · rw [no]
            rfl
          obtain ⟨x, number⟩ := ofBare_number ⟨null, yes, no⟩
          rw [number]
          rfl
  | str t =>
      rw [Ledger.ledgerMetaValue, ofJson, persisted]
      split <;> rfl
  | arr items =>
      rw [Ledger.ledgerMetaValue, ofJson, persisted, isNumeric_map]
      split
      · rw [Option.map_some, ofJson, List.map_take]
      · rfl
  | obj members => rfl

/-- A word or a number is a number here when it is one for the views. -/
theorem asNumber_ofBare (word : Foundation.Bare) :
    (ofBare word.1).asNumber.isSome = (Ledger.itemNumber (.bare word)).isSome := by
  have known := word.2
  rw [Foundation.isBare, Bool.and_eq_true, Bool.or_eq_true, decide_eq_true_eq] at known
  rcases known.2 with among | plain
  · have words : word.1 = "null".toList ∨ word.1 = "true".toList ∨ word.1 = "false".toList ∨
        word.1 = "NaN".toList ∨ word.1 = "Infinity".toList ∨ word.1 = "-Infinity".toList := by
      simpa only [Foundation.bareWords, List.mem_cons, List.not_mem_nil, or_false] using among
    rw [Ledger.itemNumber]
    rcases words with same | same | same | same | same | same <;> rw [same] <;> rfl
  · have other : ∀ name : List Char, isNumber name = false → word.1 ≠ name := by
      rintro name noNumber same
      rw [same, noNumber] at plain
      cases plain
    obtain ⟨x, number⟩ := ofBare_number ⟨other _ rfl, other _ rfl, other _ rfl⟩
    rw [number, Ledger.itemNumber, if_neg (other _ rfl), if_neg (other _ rfl),
      if_neg (other _ rfl), if_pos plain]
    rfl

/-- And so is an item of a list. -/
theorem asNumber_itemOfJson (v : Json) :
    (itemOfJson v).asNumber.isSome = (Ledger.itemNumber v).isSome := by
  cases v with
  | bare word => exact asNumber_ofBare word
  | str | arr | obj => rfl

theorem scalar_ofBare (word : List Char) : (ofBare word).scalar = (ofBare word).asNumber := by
  by_cases plain : word ≠ "null".toList ∧ word ≠ "true".toList ∧ word ≠ "false".toList
  · obtain ⟨x, number⟩ := ofBare_number plain
    rw [number]
    rfl
  · simp only [not_and_or, not_not] at plain
    rcases plain with rfl | rfl | rfl <;> rfl

/-- The views take a metric out of the same values. -/
theorem scalar_ofJson (sum : Ledger.Summing) (v : Json) :
    (ofJson v).scalar = none ↔ (Ledger.MetaValue.ofJson v).scalar sum = .ok none := by
  have taken : ∀ {result : Except Ledger.OverflowError Float}, result.map some ≠ .ok none := by
    intro result same
    cases result <;> cases same
  cases v with
  | str | obj => exact iff_of_true rfl rfl
  | bare word =>
      have number := asNumber_ofBare word
      rw [ofJson, scalar_ofBare, Ledger.MetaValue.ofJson]
      by_cases flag : word.1 = "true".toList ∨ word.1 = "false".toList
      · rw [if_pos flag]
        refine iff_of_true ?_ rfl
        rcases flag with yes | no
        · rw [yes]
          rfl
        · rw [no]
          rfl
      · rw [if_neg flag, ← Option.not_isSome_iff_eq_none, number]
        cases Ledger.itemNumber (.bare word) with
        | none => exact iff_of_true Bool.false_ne_true rfl
        | some x => exact iff_of_false (not_not.mpr rfl) taken
  | arr list =>
      have numeric : isNumeric (list.map itemOfJson) =
          (!(list.map Ledger.itemNumber).isEmpty &&
            (list.map Ledger.itemNumber).all Option.isSome) := by
        rw [isNumeric, List.isEmpty_map, List.isEmpty_map, List.all_map, List.all_map]
        refine congrArg _ (congrArg list.all (funext fun v => ?_))
        exact asNumber_itemOfJson v
      rw [ofJson, scalar, Ledger.MetaValue.ofJson, Ledger.MetaValue.scalar, numeric]
      split
      · exact iff_of_false (Option.some_ne_none _) taken
      · exact iff_of_true rfl rfl

end MetaItem

end Rimba.Regtest.MetaPersistence
