import Rimba.Foundation.FloatOrder
import Rimba.Foundation.Loop
import Rimba.Foundation.OrderedDict
import Rimba.Foundation.StableSort
import Rimba.Regtest.Ledger

/-! # Metrics that drift

`metric_trends` and `diff_gitlinks` of the harness's `ledger` module, two views of the
metrics a history records. Metrics are double precision floats, and a move between two of
them is computed in floats. The one view passes over records without a name and the other
does not, and the other sorts a move from zero as one of 10¹⁸ percent; otherwise they
agree (`Rimba.Regtest.Ledger.drift_agrees_iff`). What a sum of floats rounds to is the
interpreter's, and so is the order of rows whose moves are no numbers.
-/

namespace Rimba.Regtest.Ledger

open Foundation (Json OrderedDict StableSort Comparable memberOf textOf isNumber numberValue
  infinity nearest place exists_place lt_iff_of_place le_iff_of_place place_abs_of_place)

/-- A number of the interpreter. -/
inductive Number where
  | int (n : ℤ)
  | float (x : Float)
  deriving DecidableEq

/-- An int too large for a float. -/
inductive OverflowError where
  | intTooLarge
  deriving DecidableEq

/-- A rounded int, unless it is too large. -/
def rounded (x : Float) : Except OverflowError Float :=
  if x.isInf then .error .intTooLarge else .ok x

/-- `float(x)` -/
def Number.toFloat : Number → Except OverflowError Float
  | .int n => rounded (Float.ofInt n)
  | .float x => .ok x

/-- `x + y` -/
def Number.add : Number → Number → Except OverflowError Number
  | .int m, .int n => .ok (.int (m + n))
  | x, y => do return .float ((← x.toFloat) + (← y.toFloat))

/-- The interpreter's `sum`, whose floats newer versions add with a compensation. -/
abbrev Summing := List Number → Except OverflowError Number

/-- `sum`, from left to right. -/
def sumInOrder : Summing := fun v => v.foldlM Number.add (.int 0)

/-- A value of a result's meta; of a list, the items that are numbers. -/
inductive MetaValue where
  | flag
  | number (x : Number)
  | list (items : List (Option Number))
  | other
  deriving DecidableEq

/-- What the views read of a record. -/
structure MetricRecord where
  name : Option String
  ts : String
  git : String
  halowGitlink : String
  info : OrderedDict String MetaValue

/-- The number a text is: a float when it has a fraction or an exponent. -/
def numberOf (text : List Char) : Number :=
  let value := numberValue text
  if text.any fun c => c = '.' || c = 'e' || c = 'E' then
    .float (if value.num = 0 && text.head? = some '-' then -0 else nearest value.num value.den)
  else .int value.num

/-- The number a value is. -/
def itemNumber : Json → Option Number
  | .bare text =>
      if text.1 = "NaN".toList then some (.float Foundation.nan)
      else if text.1 = "Infinity".toList then some (.float infinity)
      else if text.1 = "-Infinity".toList then some (.float (-infinity))
      else if isNumber text.1 then some (numberOf text.1)
      else none
  | _ => none

/-- A value of a meta as it is loaded. -/
def MetaValue.ofJson : Json → MetaValue
  | .bare text =>
      if text.1 = "true".toList ∨ text.1 = "false".toList then .flag
      else ((itemNumber (.bare text)).map .number).getD .other
  | .arr items => .list (items.map itemNumber)
  | _ => .other

/-- A record as it is loaded. -/
def MetricRecord.ofJson (rec : Json) : MetricRecord :=
  let get (key : String) : Option String := (textOf key rec).map String.ofList
  { name := get "name"
    ts := (get "ts").getD ""
    git := (get "git").getD ""
    halowGitlink := (get "halow_gitlink").getD ""
    info :=
      match memberOf "meta" rec with
      | some (.obj members) => OrderedDict.empty.setAll
          (members.map fun member => (String.ofList member.1, MetaValue.ofJson member.2))
      | _ => .empty }

/-- `sum(v) / len(v)` -/
def mean (sum : Summing) (v : List Number) : Except OverflowError Float := do
  match ← sum v with
  | .int total => rounded (nearest total v.length)
  | .float total => return total / Float.ofNat v.length

/-- A number as a float, and a list of numbers as their mean. -/
def MetaValue.scalar (sum : Summing) : MetaValue → Except OverflowError (Option Float)
  | .number x => x.toFloat.map some
  | .list items =>
      if !items.isEmpty && items.all Option.isSome then (mean sum (items.filterMap id)).map some
      else .ok none
  | .flag | .other => .ok none

/-- `_scalar_metrics` -/
def scalarMetrics (sum : Summing) (info : OrderedDict String MetaValue) :
    Except OverflowError (OrderedDict String Float) :=
  info.entries.foldlM (fun out entry =>
    (entry.2.scalar sum).map fun metric => metric.elim out (out.set entry.1)) .empty

/-- One entry of a trend. -/
structure TrendPoint where
  ts : String
  git : String
  halowGitlink : String
  value : Float
  deriving DecidableEq

/-- The entry of one value of a record. -/
def MetricRecord.point (rec : MetricRecord) (value : Float) : TrendPoint :=
  ⟨rec.ts, rec.git, rec.halowGitlink, value⟩

/-- The points of a trend, by test and metric. -/
abbrev Trends := OrderedDict String (OrderedDict String (List TrendPoint))

/-- `out.setdefault(nm, {}).setdefault(mk, []).append(point)` -/
def Trends.append (out : Trends) (test metric : String) (point : TrendPoint) : Trends :=
  out.set test (((out.get? test).getD .empty).append metric point)

/-- What a record appends under its name. -/
def Trends.appendAll (out : Trends) (nm : String) (rec : MetricRecord)
    (metrics : OrderedDict String Float) : Trends :=
  metrics.entries.foldl (fun out metric => out.append nm metric.1 (rec.point metric.2)) out

/-- The body of the loop of `metric_trends`. -/
def trendRecord (sum : Summing) (only : Option String) (out : Trends) (rec : MetricRecord) :
    Except OverflowError Trends :=
  match rec.name with
  | none => .ok out
  | some nm =>
      if nm = "" || only.any fun name => nm ≠ name then .ok out
      else (scalarMetrics sum rec.info).map (out.appendAll nm rec)

/-- `metric_trends` -/
def metricTrends (sum : Summing) (history : List MetricRecord) (only : Option String) :
    Except OverflowError Trends :=
  history.foldlM (trendRecord sum only) .empty

/-- `_gitlinks_in` -/
def gitlinksIn (history : List MetricRecord) : List String :=
  (history.map MetricRecord.halowGitlink).eraseDups.filter fun gitlink => gitlink ≠ ""

/-- `_resolve_gitlink` -/
def resolveGitlink (history : List MetricRecord) (start : String) : Option String :=
  if start ∈ gitlinksIn history then some start
  else
    match (gitlinksIn history).filter fun gitlink => start.toList.isPrefixOf gitlink.toList with
    | [gitlink] => some gitlink
    | _ => none

/-- A test and one of its metrics. -/
abbrev TestMetric := Option String × String

/-- The values at the two gitlinks. -/
abbrev ValuesAt := OrderedDict (Option String × String × String) Float

/-- What a record sets under its gitlink. -/
def ValuesAt.setRecord (held : ValuesAt) (rec : MetricRecord)
    (metrics : OrderedDict String Float) : ValuesAt :=
  held.setAll (metrics.entries.map fun metric =>
    ((rec.name, metric.1, rec.halowGitlink), metric.2))

/-- The body of the loop of `diff_gitlinks`. -/
def diffRecord (sum : Summing) (a b : String) (held : ValuesAt) (rec : MetricRecord) :
    Except OverflowError ValuesAt :=
  if rec.halowGitlink = a ∨ rec.halowGitlink = b then
    (scalarMetrics sum rec.info).map (held.setRecord rec)
  else .ok held

/-- `at` -/
def valuesAt (sum : Summing) (history : List MetricRecord) (a b : String) :
    Except OverflowError ValuesAt :=
  history.foldlM (diffRecord sum a b) .empty

/-- The move from one value to another in percent, infinite from zero. -/
def movedPct (va vb : Float) : Float :=
  if va != 0 then 100 * (vb - va) / va else if vb != 0 then infinity else 0

/-- A metric of a test and its values at the two gitlinks. -/
structure Move where
  test : Option String
  metric : String
  a : Float
  b : Float
  deriving DecidableEq

/-- One row of the difference. -/
structure DiffRow extends Move where
  pct : Float
  deriving DecidableEq

/-- What the rows are sorted by. -/
def DiffRow.key (row : DiffRow) : Float := -(if row.pct != infinity then row.pct.abs else 1e18)

/-- The order in which the members of a set come. -/
abbrev SetOrder :=
  { order : List TestMetric → List TestMetric // ∀ pairs, (order pairs).Perm pairs }

/-- The row of a test and a metric that both gitlinks have. -/
def diffRow (held : ValuesAt) (a b : String) (pair : TestMetric) : Option DiffRow :=
  (held.get? (pair.1, pair.2, a)).bind fun va => (held.get? (pair.1, pair.2, b)).map fun vb =>
    ⟨⟨pair.1, pair.2, va, vb⟩, movedPct va vb⟩

/-- The rows of the difference before they are sorted. -/
def diffRows (order : SetOrder) (held : ValuesAt) (a b : String) : List DiffRow :=
  (order.1 (held.keys.map fun key => (key.1, key.2.1)).eraseDups).filterMap (diffRow held a b)

/-- `diff_gitlinks` -/
def diffGitlinks (sum : Summing) (sorting : StableSort DiffRow Float) (order : SetOrder)
    (gla glb : String) (history : List MetricRecord) :
    Except OverflowError (Option (List DiffRow) × Option String × Option String) :=
  let a := resolveGitlink history gla
  let b := resolveGitlink history glb
  match a, b with
  | some a', some b' => (valuesAt sum history a' b').map fun held =>
      (some (sorting.sort DiffRow.key (diffRows order held a' b')), a, b)
  | _, _ => .ok (none, a, b)

/-- What a value is to the views, if anything. -/
def MetaValue.metric (sum : Summing) (value : MetaValue) : Option Float :=
  (value.scalar sum).toOption.join

/-- The metrics of a record. -/
def MetricRecord.metrics (sum : Summing) (rec : MetricRecord) : OrderedDict String Float :=
  rec.info.filterMapValues (MetaValue.metric sum)

/-- No metric of a record is too large for a float. -/
def MetricRecord.Converts (sum : Summing) (rec : MetricRecord) : Prop :=
  ∀ value ∈ rec.info.values, ∃ metric, value.scalar sum = .ok metric

/-- A record with a name. -/
def MetricRecord.Named (rec : MetricRecord) : Prop := ∃ nm, rec.name = some nm ∧ nm ≠ ""

variable {sum : Summing}

/-- The metrics of a record that converts, entry by entry. -/
theorem scalarMetrics_eq_ok {rec : MetricRecord} {metrics : OrderedDict String Float} :
    scalarMetrics sum rec.info = .ok metrics ↔ rec.Converts sum ∧ rec.metrics sum = metrics := by
  rw [MetricRecord.Converts, OrderedDict.values, List.forall_mem_map, MetricRecord.metrics,
    ← OrderedDict.foldl_set_filterMap]
  refine Foundation.foldlM_eq_ok
    (fun entry : String × MetaValue => ∃ metric, entry.2.scalar sum = .ok metric) ?_ ?_
  · rintro entry ⟨metric, scalar⟩ out
    rw [MetaValue.metric, scalar]
    rfl
  · intro entry stops out result same
    cases scalar : entry.2.scalar sum with
    | error fault =>
        rw [scalar] at same
        cases same
    | ok metric => exact stops ⟨metric, scalar⟩

/-- What a record adds to the trends of all tests. -/
def trendNext (sum : Summing) (out : Trends) (rec : MetricRecord) : Trends :=
  match rec.name with
  | none => out
  | some nm => if nm = "" then out else out.appendAll nm rec (rec.metrics sum)

/-- The trends of all tests, when no metric is too large. -/
def trendsOf (sum : Summing) (history : List MetricRecord) : Trends :=
  history.foldl (trendNext sum) .empty

theorem metricTrends_eq_ok {history : List MetricRecord} {trends : Trends} :
    metricTrends sum history none = .ok trends ↔
      (∀ rec ∈ history, rec.Named → rec.Converts sum) ∧ trendsOf sum history = trends := by
  refine Foundation.foldlM_eq_ok (fun rec : MetricRecord => rec.Named → rec.Converts sum) ?_ ?_
  · intro rec fine out
    rw [trendRecord, trendNext]
    cases called : rec.name with
    | none => rfl
    | some nm =>
        by_cases unnamed : nm = ""
        · simp only [unnamed, decide_true, Option.any_none, Bool.or_false, ↓reduceIte]
        · have metrics := scalarMetrics_eq_ok.mpr ⟨fine ⟨nm, called, unnamed⟩, rfl⟩
          simp only [unnamed, decide_false, Option.any_none, Bool.or_self, Bool.false_eq_true,
            ↓reduceIte, metrics]
          rfl
  · intro rec stops out result same
    obtain ⟨⟨nm, called, unnamed⟩, not⟩ := Classical.not_imp.mp stops
    rw [trendRecord, called] at same
    simp only [unnamed, decide_false, Option.any_none, Bool.or_self, Bool.false_eq_true,
      ↓reduceIte] at same
    cases metrics : scalarMetrics sum rec.info with
    | error fault =>
        rw [metrics] at same
        cases same
    | ok metrics' => exact not (scalarMetrics_eq_ok.mp metrics).1

/-- What a record changes of the values at two gitlinks. -/
def diffNext (sum : Summing) (a b : String) (held : ValuesAt) (rec : MetricRecord) : ValuesAt :=
  if rec.halowGitlink = a ∨ rec.halowGitlink = b then held.setRecord rec (rec.metrics sum)
  else held

/-- The values at two gitlinks, when no metric is too large. -/
def heldAt (sum : Summing) (history : List MetricRecord) (a b : String) : ValuesAt :=
  history.foldl (diffNext sum a b) .empty

theorem valuesAt_eq_ok {history : List MetricRecord} {a b : String} {held : ValuesAt} :
    valuesAt sum history a b = .ok held ↔
      (∀ rec ∈ history, rec.halowGitlink = a ∨ rec.halowGitlink = b → rec.Converts sum) ∧
        heldAt sum history a b = held := by
  refine Foundation.foldlM_eq_ok
    (fun rec : MetricRecord => rec.halowGitlink = a ∨ rec.halowGitlink = b → rec.Converts sum) ?_ ?_
  · intro rec fine held
    rw [diffRecord, diffNext]
    by_cases counted : rec.halowGitlink = a ∨ rec.halowGitlink = b
    · rw [if_pos counted, if_pos counted, scalarMetrics_eq_ok.mpr ⟨fine counted, rfl⟩]
      rfl
    · rw [if_neg counted, if_neg counted]
  · intro rec stops held result same
    obtain ⟨counted, not⟩ := Classical.not_imp.mp stops
    rw [diffRecord, if_pos counted] at same
    cases metrics : scalarMetrics sum rec.info with
    | error fault =>
        rw [metrics] at same
        cases same
    | ok metrics' => exact not (scalarMetrics_eq_ok.mp metrics).1

/-- What a record has of a metric. -/
def MetricRecord.metric (sum : Summing) (rec : MetricRecord) (metric : String) : Option Float :=
  (rec.metrics sum).get? metric

/-- What a record has of a test's metric at a gitlink. -/
def MetricRecord.valueAt (sum : Summing) (rec : MetricRecord) (test : Option String)
    (metric gitlink : String) : Option Float :=
  if rec.name = test ∧ rec.halowGitlink = gitlink then rec.metric sum metric else none

/-- The last value of a test's metric at a gitlink, in the order of the history. -/
def lastValue (sum : Summing) (history : List MetricRecord) (test : Option String)
    (metric gitlink : String) : Option Float :=
  (history.filterMap fun rec => rec.valueAt sum test metric gitlink).getLast?

theorem lastValue_concat (history : List MetricRecord) (rec : MetricRecord) (test : Option String)
    (metric gitlink : String) : lastValue sum (history ++ [rec]) test metric gitlink =
      (rec.valueAt sum test metric gitlink).or (lastValue sum history test metric gitlink) := by
  rw [lastValue, List.filterMap_append, List.getLast?_append, lastValue]
  cases had : rec.valueAt sum test metric gitlink with
  | none => simp only [List.filterMap_cons, had, List.filterMap_nil, List.getLast?_nil]
  | some value => simp only [List.filterMap_cons, had, List.filterMap_nil, List.getLast?_singleton]

/-- What a record sets. -/
theorem lastOf_set (rec : MetricRecord) (test : Option String) (metric gitlink : String) :
    OrderedDict.lastOf ((rec.metrics sum).entries.map fun entry =>
      ((rec.name, entry.1, rec.halowGitlink), entry.2)) (test, metric, gitlink) =
      rec.valueAt sum test metric gitlink := by
  by_cases here : rec.name = test ∧ rec.halowGitlink = gitlink
  · obtain ⟨rfl, rfl⟩ := here
    have injective : Function.Injective fun metric : String =>
        (rec.name, metric, rec.halowGitlink) := by
      intro first second same
      exact (Prod.mk.inj (Prod.mk.inj same).2).1
    rw [MetricRecord.valueAt, if_pos ⟨rfl, rfl⟩]
    exact OrderedDict.lastOf_map_entries injective
  · rw [MetricRecord.valueAt, if_neg here, OrderedDict.lastOf_eq_none, List.map_map]
    intro member
    obtain ⟨entry, -, same⟩ := List.mem_map.mp member
    obtain ⟨name, rest⟩ := Prod.mk.inj same
    exact here ⟨name, (Prod.mk.inj rest).2⟩

theorem get?_heldAt (history : List MetricRecord) (a b : String) (test : Option String)
    (metric : String) {gitlink : String} (one : gitlink = a ∨ gitlink = b) :
    (heldAt sum history a b).get? (test, metric, gitlink) =
      lastValue sum history test metric gitlink := by
  induction history using List.reverseRecOn with
  | nil => rfl
  | append_singleton history rec ih =>
      rw [heldAt, List.foldl_concat, ← heldAt, lastValue_concat, ← ih, diffNext]
      by_cases counted : rec.halowGitlink = a ∨ rec.halowGitlink = b
      · rw [if_pos counted, ValuesAt.setRecord, OrderedDict.get?_setAll, lastOf_set]
      · have other : rec.valueAt sum test metric gitlink = none := by
          rw [MetricRecord.valueAt, if_neg]
          rintro ⟨-, rfl⟩
          exact counted one
        rw [if_neg counted, other, Option.none_or]

/-- The points of a test's metric. -/
def Trends.points (out : Trends) (test metric : String) : List TrendPoint :=
  (((out.get? test).getD .empty).get? metric).getD []

theorem points_append (out : Trends) (nm mk : String) (point : TrendPoint) (test metric : String) :
    (out.append nm mk point).points test metric =
      out.points test metric ++ if test = nm ∧ metric = mk then [point] else [] := by
  rw [Trends.points, Trends.append, OrderedDict.get?_set]
  by_cases here : test = nm
  · rw [if_pos here, Option.getD_some, OrderedDict.append, OrderedDict.get?_set, Trends.points,
      here]
    by_cases same : metric = mk
    · simp only [same, ↓reduceIte, Option.getD_some, and_self]
    · simp only [same, ↓reduceIte, and_false, List.append_nil]
  · simp only [here, ↓reduceIte, false_and, List.append_nil, Trends.points]

/-- What a record appends. -/
theorem points_foldl (metrics : List (String × Float)) (out : Trends) (nm : String)
    (point : Float → TrendPoint) (test metric : String) :
    (metrics.foldl (fun out entry => Trends.append out nm entry.1 (point entry.2)) out).points
        test metric = out.points test metric ++
      if test = nm then (metrics.filter fun entry => entry.1 = metric).map fun entry =>
        point entry.2 else [] := by
  induction metrics generalizing out with
  | nil => simp only [List.foldl_nil, List.filter_nil, List.map_nil, ite_self, List.append_nil]
  | cons entry metrics ih =>
      rw [List.foldl_cons, ih, points_append, List.append_assoc]
      congr 1
      by_cases here : test = nm
      · by_cases same : metric = entry.1
        · simp only [here, same, and_self, ↓reduceIte, decide_true, List.filter_cons_of_pos,
            List.map_cons, List.singleton_append]
        · have different : ¬ entry.1 = metric := fun equal => same equal.symm
          simp only [here, same, different, and_false, ↓reduceIte, decide_false, Bool.false_eq_true,
            not_false_eq_true, List.filter_cons_of_neg, List.nil_append]
      · simp only [here, false_and, ↓reduceIte, List.append_nil]

/-- What the metrics of a record append. -/
theorem points_appendAll (out : Trends) (nm : String) (rec : MetricRecord)
    (metrics : OrderedDict String Float) (test metric : String) :
    (out.appendAll nm rec metrics).points test metric = out.points test metric ++
      if test = nm then ((metrics.get? metric).map rec.point).toList else [] := by
  rw [Trends.appendAll, points_foldl, OrderedDict.filter_entries]
  cases metrics.get? metric <;> rfl

theorem points_trendNext (out : Trends) (rec : MetricRecord) {test : String} (named : test ≠ "")
    (metric : String) : (trendNext sum out rec).points test metric = out.points test metric ++
      if rec.name = some test then ((rec.metric sum metric).map rec.point).toList else [] := by
  rw [trendNext]
  cases called : rec.name with
  | none => simp only [reduceCtorEq, ↓reduceIte, List.append_nil]
  | some nm =>
      by_cases unnamed : nm = ""
      · simp only [unnamed, ↓reduceIte, Option.some.injEq, named.symm, List.append_nil]
      · simp only [unnamed, ↓reduceIte, points_appendAll, Option.some.injEq, eq_comm (a := nm),
          MetricRecord.metric]

/-- The last value of a trend at a gitlink. -/
def lastAt (points : List TrendPoint) (gitlink : String) : Option Float :=
  (points.findRev? fun point => point.halowGitlink = gitlink).map TrendPoint.value

/-- The last value at a gitlink that trends list of a test's metric. -/
def listedValue (trends : Trends) (test metric gitlink : String) : Option Float :=
  ((trends.get? test).bind fun metrics => metrics.get? metric).bind
    fun points => lastAt points gitlink

theorem listedValue_points (trends : Trends) (test metric gitlink : String) :
    listedValue trends test metric gitlink = lastAt (trends.points test metric) gitlink := by
  rw [listedValue, Trends.points]
  cases trends.get? test with
  | none => rfl
  | some metrics =>
      rw [Option.bind_some, Option.getD_some]
      cases metrics.get? metric <;> rfl

theorem lastAt_append (front back : List TrendPoint) (gitlink : String) :
    lastAt (front ++ back) gitlink = (lastAt back gitlink).or (lastAt front gitlink) := by
  simp only [lastAt, List.findRev?_eq_find?_reverse, List.reverse_append, List.find?_append,
    Option.map_or]

/-- What a record adds to the trend of a test's metric. -/
theorem lastAt_point (rec : MetricRecord) (test metric gitlink : String) :
    lastAt (if rec.name = some test then ((rec.metric sum metric).map rec.point).toList else [])
      gitlink = rec.valueAt sum test metric gitlink := by
  rw [MetricRecord.valueAt]
  by_cases called : rec.name = some test
  · by_cases here : rec.halowGitlink = gitlink
    · rw [if_pos called, if_pos ⟨called, here⟩]
      cases rec.metric sum metric with
      | none => rfl
      | some value => simp only [Option.map_some, Option.toList_some, lastAt, List.findRev?,
          MetricRecord.point, here, decide_true, ↓reduceIte]
    · rw [if_pos called, if_neg fun both => here both.2]
      cases rec.metric sum metric with
      | none => rfl
      | some value => simp only [Option.map_some, Option.toList_some, lastAt, List.findRev?,
          MetricRecord.point, here, decide_false, Bool.false_eq_true, ↓reduceIte, Option.map_none]
  · rw [if_neg called, if_neg fun both => called both.1]
    rfl

/-- A trend lists the values recorded under a name. -/
theorem listedValue_named (history : List MetricRecord) {test : String} (named : test ≠ "")
    (metric gitlink : String) : listedValue (trendsOf sum history) test metric gitlink =
      lastValue sum history (some test) metric gitlink := by
  rw [listedValue_points]
  induction history using List.reverseRecOn with
  | nil => rfl
  | append_singleton history rec ih =>
      rw [trendsOf, List.foldl_concat, ← trendsOf, points_trendNext _ _ named,
        lastAt_append, lastAt_point, ih, lastValue_concat]

/-- Trends of a test stay as they were when another test's are appended to. -/
theorem get?_appendAll {test nm : String} (other : ¬ test = nm) (out : Trends) (rec : MetricRecord)
    (metrics : OrderedDict String Float) :
    (out.appendAll nm rec metrics).get? test = out.get? test := by
  rw [Trends.appendAll]
  induction metrics.entries generalizing out with
  | nil => rfl
  | cons entry entries ih =>
      rw [List.foldl_cons, ih, Trends.append, OrderedDict.get?_set, if_neg other]

/-- No trend is listed under the empty name. -/
theorem listedValue_nameless (history : List MetricRecord) (metric gitlink : String) :
    listedValue (trendsOf sum history) "" metric gitlink = none := by
  have absent : (trendsOf sum history).get? "" = none := by
    induction history using List.reverseRecOn with
    | nil => rfl
    | append_singleton history rec ih =>
        rw [trendsOf, List.foldl_concat, ← trendsOf, trendNext]
        cases rec.name with
        | none => exact ih
        | some nm =>
            by_cases unnamed : nm = ""
            · simpa only [unnamed, ↓reduceIte] using ih
            · have other : ¬ "" = nm := fun same => unnamed same.symm
              simp only [unnamed, ↓reduceIte, get?_appendAll other, ih]
  rw [listedValue, absent, Option.bind_none, Option.bind_none]

/-- A row is about its test and metric. -/
theorem pair_of_diffRow {held : ValuesAt} {a b : String} {pair : TestMetric} {row : DiffRow}
    (found : diffRow held a b pair = some row) : (row.test, row.metric) = pair := by
  simp only [diffRow, Option.bind_eq_some_iff, Option.map_eq_some_iff] at found
  obtain ⟨_, _, _, _, rfl⟩ := found
  rfl

/-- The metric was recorded at both gitlinks, last with these values. -/
def Compared (sum : Summing) (history : List MetricRecord) (a b : String) (move : Move) : Prop :=
  lastValue sum history move.test move.metric a = some move.a ∧
    lastValue sum history move.test move.metric b = some move.b

/-- The percentage of a move. -/
def Move.percent (move : Move) : Float := movedPct move.a move.b

/-- The rows are the moves that were recorded. -/
theorem mem_diffRows {history : List MetricRecord} {order : SetOrder} {a b : String}
    {row : DiffRow} : row ∈ diffRows order (heldAt sum history a b) a b ↔
      Compared sum history a b row.toMove ∧ row.pct = row.toMove.percent := by
  simp only [diffRows, diffRow, List.mem_filterMap, Option.bind_eq_some_iff, Option.map_eq_some_iff,
    (order.2 _).mem_iff, List.mem_eraseDups, List.mem_map, get?_heldAt history a b _ _ (.inl rfl),
    get?_heldAt history a b _ _ (.inr rfl)]
  constructor
  · rintro ⟨_, -, va, first, vb, second, rfl⟩
    exact ⟨⟨first, second⟩, rfl⟩
  · rintro ⟨⟨first, second⟩, pct⟩
    have present : (row.test, row.metric, a) ∈ (heldAt sum history a b).keys := by
      have found := (get?_heldAt history a b row.test row.metric (.inl rfl)).trans first
      exact List.mem_map_of_mem (OrderedDict.get?_eq_some_iff.mp found)
    refine ⟨(row.test, row.metric), ⟨_, present, rfl⟩, row.a, first, row.b, second, ?_⟩
    rw [← Move.percent, ← pct]

/-- A test and a metric have at most one row. -/
theorem nodup_diffRows (order : SetOrder) (held : ValuesAt) (a b : String) :
    (diffRows order held a b).Nodup := by
  have pairs := ((order.2 _).nodup_iff).mpr
    (Foundation.nodup_eraseDups (held.keys.map fun key => (key.1, key.2.1)))
  refine List.Nodup.filterMap ?_ pairs
  intro pair other row first second
  exact (pair_of_diffRow first).symm.trans (pair_of_diffRow second)

/-- The rows in the order of a sort. -/
def sortedRows (sum : Summing) (sorting : StableSort DiffRow Float) (order : SetOrder)
    (history : List MetricRecord) (a b : String) : List DiffRow :=
  sorting.sort DiffRow.key (diffRows order (heldAt sum history a b) a b)

variable {sorting : StableSort DiffRow Float} {order : SetOrder} {history : List MetricRecord}
  {a b : String}

/-- The difference of two gitlinks that are there has the sorted rows, unless a metric is too
large. -/
theorem diffGitlinks_eq_ok {gla glb : String} (first : resolveGitlink history gla = some a)
    (second : resolveGitlink history glb = some b) {answer : List DiffRow} :
    diffGitlinks sum sorting order gla glb history = .ok (some answer, some a, some b) ↔
      (∀ rec ∈ history, rec.halowGitlink = a ∨ rec.halowGitlink = b → rec.Converts sum) ∧
        sortedRows sum sorting order history a b = answer := by
  simp only [diffGitlinks, first, second]
  constructor
  · intro same
    cases held : valuesAt sum history a b with
    | error fault =>
        rw [held] at same
        cases same
    | ok values =>
        rw [held] at same
        obtain ⟨fine, rfl⟩ := valuesAt_eq_ok.mp held
        exact ⟨fine, Option.some.inj (congrArg Prod.fst (Except.ok.inj same))⟩
  · rintro ⟨fine, rfl⟩
    rw [valuesAt_eq_ok.mpr ⟨fine, rfl⟩]
    rfl

theorem mem_sortedRows {row : DiffRow} : row ∈ sortedRows sum sorting order history a b ↔
    Compared sum history a b row.toMove ∧ row.pct = row.toMove.percent := by
  rw [sortedRows, (sorting.perm _ _).mem_iff, mem_diffRows]

theorem nodup_sortedRows : (sortedRows sum sorting order history a b).Nodup :=
  (sorting.perm _ _).nodup_iff.mpr (nodup_diffRows order _ a b)

/-- The move the other way. -/
def Move.swap (move : Move) : Move := ⟨move.test, move.metric, move.b, move.a⟩

/-- A move from zero. -/
def Move.FromZero (move : Move) : Prop := (move.a == 0) = true ∧ (move.b != 0) = true

/-- `row` may stand in front of `other`: moves from zero first, then the larger ones. -/
def DiffRow.Before (row other : DiffRow) : Prop :=
  row.FromZero ∨ ¬ other.FromZero ∧ other.pct.abs ≤ row.pct.abs

/-- The two views of the history agree at the gitlinks `a` and `b`, whatever the order of a
set. -/
structure DriftViewsAgree (sum : Summing) (sorting : StableSort DiffRow Float)
    (history : List MetricRecord) (gla glb a b : String) : Prop where
  trends : ∃ trends, metricTrends sum history none = .ok trends
  answers : ∀ order, ∃ answer,
    diffGitlinks sum sorting order gla glb history = .ok (some answer, some a, some b)
  lists : ∀ order answer trends, metricTrends sum history none = .ok trends →
    diffGitlinks sum sorting order gla glb history = .ok (some answer, some a, some b) →
    ∀ test metric va vb, (∃ pct, ⟨⟨test, metric, va, vb⟩, pct⟩ ∈ answer) ↔
      ∃ name, test = some name ∧ listedValue trends name metric a = some va ∧
        listedValue trends name metric b = some vb
  sorted : ∀ order answer,
    diffGitlinks sum sorting order gla glb history = .ok (some answer, some a, some b) →
    answer.Pairwise DiffRow.Before
  swaps : ∀ order order' answer answer',
    diffGitlinks sum sorting order gla glb history = .ok (some answer, some a, some b) →
    diffGitlinks sum sorting order' glb gla history = .ok (some answer', some b, some a) →
    (answer'.map DiffRow.toMove).Perm (answer.map fun row => row.toMove.swap)

/-- No metric of a record with a name or at one of the gitlinks is too large for a float. -/
def FittingMetrics (sum : Summing) (history : List MetricRecord) (a b : String) : Prop :=
  ∀ rec ∈ history, rec.Named ∨ rec.halowGitlink = a ∨ rec.halowGitlink = b → rec.Converts sum

/-- What was recorded at both gitlinks has a name. -/
def NamedMoves (sum : Summing) (history : List MetricRecord) (a b : String) : Prop :=
  ∀ move, Compared sum history a b move → ∃ name, move.test = some name ∧ name ≠ ""

/-- The moves recorded at both gitlinks can be told apart by what the rows are sorted by. -/
structure OrderedMoves (sum : Summing) (history : List MetricRecord) (a b : String) : Prop where
  /-- A move that is no number is alone. -/
  numbers : ∀ move other, Compared sum history a b move → Compared sum history a b other →
    move.percent.isNaN = true → other = move
  /-- Beside a move from zero every other is by less than 10¹⁸ percent. -/
  fromZero : ∀ move other, Compared sum history a b move → Compared sum history a b other →
    move.FromZero → ¬ other.FromZero → other.percent.abs < 1e18
  /-- Beside a move that is too large for a float every finite one is by less than 10¹⁸
  percent. -/
  overflowed : ∀ move other, Compared sum history a b move → Compared sum history a b other →
    ¬ move.FromZero → (move.percent == infinity) = true → ¬ other.FromZero →
      other.percent.abs < infinity → other.percent.abs < 1e18

theorem Move.FromZero.percent {move : Move} (undefined : move.FromZero) :
    move.percent = infinity := by
  have base : (move.a != 0) = false := by rw [bne, undefined.1, Bool.not_true]
  rw [Move.percent, movedPct, base, undefined.2]
  rfl

/-- The place of 10¹⁸. -/
def wide : ℤ := 1082 * 0x20000000000000 + 7812500000000000

theorem place_wide : place 1e18 = some wide := by decide +kernel

/-- What a move is sorted by, largest first. -/
def weight (p : ℤ) : ℤ := if p = 0x10000000000000000 then wide else |p|

theorem weight_infinity : weight 0x10000000000000000 = wide := if_pos rfl

theorem weight_of_lt {p : ℤ} (small : |p| < wide) : weight p = |p| := by
  refine if_neg ?_
  rintro rfl
  exact absurd small (by decide)

theorem wide_le_weight {p : ℤ} (large : ¬ |p| < wide) : wide ≤ weight p := by
  rw [weight]
  split
  · exact le_refl wide
  · exact not_lt.mp large

theorem place_key (row : DiffRow) : place row.key = (place row.pct).map fun p => -weight p := by
  have top : (row.pct == infinity) = true ↔ place row.pct = some 0x10000000000000000 := by
    rw [Foundation.beq_iff_place, Foundation.place_infinity]
    simp only [Option.mem_def, Option.some.injEq, exists_eq_right']
  rw [DiffRow.key, Foundation.place_neg]
  by_cases infinite : place row.pct = some 0x10000000000000000
  · rw [bne, top.mpr infinite, infinite, Option.map_some, weight_infinity]
    exact congrArg (Option.map fun p => -p) place_wide
  · rw [bne, Bool.eq_false_iff.mpr (mt top.mp infinite), Bool.not_false, if_pos rfl,
      Foundation.place_abs, Option.map_map]
    refine Option.map_congr fun p placed => ?_
    rw [Function.comp_apply, weight, if_neg]
    rintro rfl
    exact infinite placed

theorem place_key_of_place {row : DiffRow} {p : ℤ} (placed : place row.pct = some p) :
    place row.key = some (-weight p) := by
  rw [place_key, placed, Option.map_some]

/-- The heavier move may stand in front. -/
theorem key_inFront_iff {row other : DiffRow} {p q : ℤ} (placed : place row.pct = some p)
    (placed' : place other.pct = some q) : ¬ other.key < row.key ↔ weight q ≤ weight p := by
  rw [lt_iff_of_place (place_key_of_place placed') (place_key_of_place placed), neg_lt_neg_iff,
    not_lt]

/-- Rows whose moves are numbers have comparable keys. -/
theorem comparable_of_numbers {moves : List DiffRow}
    (numbers : ∀ row ∈ moves, row.pct.isNaN = false) : Comparable DiffRow.key moves := by
  have placed : ∀ row ∈ moves, ∃ p, place row.pct = some p :=
    fun row member => exists_place (numbers row member)
  constructor
  · intro row member other member' less
    obtain ⟨p, place⟩ := placed row member
    obtain ⟨q, place'⟩ := placed other member'
    rw [lt_iff_of_place (place_key_of_place place) (place_key_of_place place')] at less
    rw [key_inFront_iff place place']
    omega
  · intro row member other member' third member'' first second
    obtain ⟨p, place⟩ := placed row member
    obtain ⟨q, place'⟩ := placed other member'
    obtain ⟨r, place''⟩ := placed third member''
    rw [key_inFront_iff place place'] at first
    rw [key_inFront_iff place' place''] at second
    exact (key_inFront_iff place place'').mpr (second.trans first)

theorem place_fromZero {row : DiffRow} (pct : row.pct = row.toMove.percent)
    (undefined : row.FromZero) {p : ℤ} (placed : place row.pct = some p) :
    p = 0x10000000000000000 := by
  rw [pct, undefined.percent, Foundation.place_infinity] at placed
  exact (Option.some.inj placed).symm

/-- Compared moves whose percentages are not told apart by the sort alone stand in place. -/
theorem OrderedMoves.before (ordered : OrderedMoves sum history a b) {row other : DiffRow}
    (recorded : Compared sum history a b row.toMove ∧ row.pct = row.toMove.percent)
    (recorded' : Compared sum history a b other.toMove ∧ other.pct = other.toMove.percent)
    {p q : ℤ} (placed : place row.pct = some p) (placed' : place other.pct = some q)
    (inFront : ¬ other.key < row.key) : row.Before other := by
  rw [key_inFront_iff placed placed'] at inFront
  have size := place_abs_of_place placed
  have size' := place_abs_of_place placed'
  by_cases undefined : row.FromZero
  · exact .inl undefined
  have defined : ¬ other.FromZero := by
    intro undefined'
    have small := ordered.fromZero _ _ recorded'.1 recorded.1 undefined' undefined
    rw [← recorded.2, lt_iff_of_place size place_wide] at small
    rw [place_fromZero recorded'.2 undefined' placed', weight_infinity, weight_of_lt small]
      at inFront
    exact absurd small (not_lt.mpr inFront)
  refine .inr ⟨defined, ?_⟩
  rw [le_iff_of_place size' size]
  by_cases top : p = 0x10000000000000000
  · rw [top]
    exact Foundation.abs_place_le placed'
  by_cases top' : q = 0x10000000000000000
  · by_contra larger
    have infinite : (other.toMove.percent == infinity) = true := by
      rw [← recorded'.2, Foundation.beq_iff_place]
      exact ⟨q, placed', by rw [top', Foundation.place_infinity]⟩
    have finite : row.toMove.percent.abs < infinity := by
      rw [← recorded.2, lt_iff_of_place size Foundation.place_infinity]
      rw [top'] at larger
      exact not_le.mp larger
    have small := ordered.overflowed _ _ recorded'.1 recorded.1 defined infinite undefined finite
    rw [← recorded.2, lt_iff_of_place size place_wide] at small
    rw [top', weight_infinity, weight_of_lt small] at inFront
    exact absurd small (not_lt.mpr inFront)
  · rwa [weight, weight, if_neg top, if_neg top'] at inFront

theorem DiffRow.eq_of_move {row other : DiffRow} (pct : row.pct = row.toMove.percent)
    (pct' : other.pct = other.toMove.percent) (same : row.toMove = other.toMove) : row = other := by
  cases row
  cases other
  rw [DiffRow.mk.injEq]
  exact ⟨same, pct.trans ((congrArg Move.percent same).trans pct'.symm)⟩

/-- Moves that can be told apart come in place, whatever the order of the pairs. -/
theorem sorted_of_ordered (ordered : OrderedMoves sum history a b)
    (sorting : StableSort DiffRow Float) (order : SetOrder) :
    (sortedRows sum sorting order history a b).Pairwise DiffRow.Before := by
  by_cases numbers : ∀ row ∈ sortedRows sum sorting order history a b, row.pct.isNaN = false
  · have comparable : Comparable DiffRow.key (diffRows order (heldAt sum history a b) a b) :=
      comparable_of_numbers fun row member => numbers row ((sorting.perm _ _).mem_iff.mpr member)
    refine (sorting.sorted comparable).imp_of_mem ?_
    intro row other member member' inFront
    obtain ⟨p, placed⟩ := exists_place (numbers row member)
    obtain ⟨q, placed'⟩ := exists_place (numbers other member')
    exact ordered.before (mem_sortedRows.mp member) (mem_sortedRows.mp member') placed placed'
      inFront
  · -- a move that is no number has the difference to itself
    push Not at numbers
    obtain ⟨row, member, nan⟩ := numbers
    obtain ⟨recorded, pct⟩ := mem_sortedRows.mp member
    rw [ne_eq, Bool.not_eq_false, pct] at nan
    refine nodup_sortedRows.pairwise_of_forall_ne fun first inside second inside' different => ?_
    obtain ⟨recorded', pct'⟩ := mem_sortedRows.mp inside
    obtain ⟨recorded'', pct''⟩ := mem_sortedRows.mp inside'
    have same : first.toMove = second.toMove :=
      (ordered.numbers _ _ recorded recorded' nan).trans
        (ordered.numbers _ _ recorded recorded'' nan).symm
    exact (different (DiffRow.eq_of_move pct' pct'' same)).elim

/-- The order of a set that has one pair first. -/
def firstOf (pair : TestMetric) : SetOrder where
  val pairs := pairs.filter (· = pair) ++ pairs.filter fun other => !decide (other = pair)
  property pairs := List.filter_append_perm _ pairs

/-- A row comes in front of another when its pair is first. -/
theorem sublist_firstOf {held : ValuesAt} {row other : DiffRow}
    (mem : row ∈ diffRows (firstOf (row.test, row.metric)) held a b)
    (mem' : other ∈ diffRows (firstOf (row.test, row.metric)) held a b)
    (different : (other.test, other.metric) ≠ (row.test, row.metric)) :
    [row, other].Sublist (diffRows (firstOf (row.test, row.metric)) held a b) := by
  rw [diffRows, firstOf, List.filterMap_append] at mem mem' ⊢
  have front : row ∈ List.filterMap (diffRow held a b) (List.filter
      (· = (row.test, row.metric)) (held.keys.map fun key => (key.1, key.2.1)).eraseDups) := by
    refine (List.mem_append.mp mem).resolve_right fun back => ?_
    obtain ⟨pair, present, found⟩ := List.mem_filterMap.mp back
    have apart := (List.mem_filter.mp present).2
    rw [Bool.not_eq_true', decide_eq_false_iff_not] at apart
    exact apart (pair_of_diffRow found).symm
  have back := (List.mem_append.mp mem').resolve_left fun front => by
    obtain ⟨pair, present, found⟩ := List.mem_filterMap.mp front
    have same := of_decide_eq_true (List.mem_filter.mp present).2
    exact different ((pair_of_diffRow found).trans same)
  exact (List.singleton_sublist.mpr front).append (List.singleton_sublist.mpr back)

/-- A move is the one recorded of its metric. -/
theorem Compared.unique {move other : Move} (recorded : Compared sum history a b move)
    (recorded' : Compared sum history a b other)
    (same : (other.test, other.metric) = (move.test, move.metric)) : other = move := by
  obtain ⟨test, metric⟩ := Prod.mk.inj same
  cases move
  cases other
  simp only at test metric
  subst test metric
  rw [Move.mk.injEq]
  exact ⟨rfl, rfl, Option.some.inj (recorded'.1.symm.trans recorded.1),
    Option.some.inj (recorded'.2.symm.trans recorded.2)⟩

/-- The row of a move. -/
def Move.row (move : Move) : DiffRow := ⟨move, move.percent⟩

theorem Move.row_mem {move : Move} (recorded : Compared sum history a b move) (order : SetOrder) :
    move.row ∈ diffRows order (heldAt sum history a b) a b :=
  mem_diffRows.mpr ⟨recorded, rfl⟩

/-- Of two moves that the sort can leave in either order each stands in place before the
other. -/
theorem before_of_sorted {sorting : StableSort DiffRow Float}
    (sorted : ∀ order, (sortedRows sum sorting order history a b).Pairwise DiffRow.Before)
    (comparable : ∀ order, Comparable DiffRow.key (diffRows order (heldAt sum history a b) a b))
    {move other : Move} (recorded : Compared sum history a b move)
    (recorded' : Compared sum history a b other) (different : other ≠ move)
    (inFront : ¬ other.row.key < move.row.key) : move.row.Before other.row := by
  have apart : (other.test, other.metric) ≠ (move.test, move.metric) :=
    fun same => different (recorded.unique recorded' same)
  have pair := sorting.stable (comparable _) inFront
    (sublist_firstOf (Move.row_mem recorded _) (Move.row_mem recorded' _) apart)
  exact List.pairwise_pair.mp ((sorted _).sublist pair)

/-- Of two different moves one comes in place before the other. -/
theorem before_or_before {sorting : StableSort DiffRow Float}
    (sorted : ∀ order, (sortedRows sum sorting order history a b).Pairwise DiffRow.Before)
    {move other : Move} (recorded : Compared sum history a b move)
    (recorded' : Compared sum history a b other) (different : other ≠ move) :
    move.row.Before other.row ∨ other.row.Before move.row := by
  have either : (sortedRows sum sorting (firstOf (none, "")) history a b).Pairwise fun row other =>
      row.Before other ∨ other.Before row := (sorted _).imp .inl
  have symmetric : Std.Symm fun row other : DiffRow => row.Before other ∨ other.Before row :=
    ⟨fun _ _ => Or.symm⟩
  exact either.forall (mem_sortedRows.mpr ⟨recorded, rfl⟩)
    (mem_sortedRows.mpr ⟨recorded', rfl⟩) fun same => different (congrArg DiffRow.toMove same).symm

/-- A move that is no number has the difference to itself. -/
theorem alone_of_sorted {sorting : StableSort DiffRow Float}
    (sorted : ∀ order, (sortedRows sum sorting order history a b).Pairwise DiffRow.Before)
    {move other : Move} (recorded : Compared sum history a b move)
    (recorded' : Compared sum history a b other) (nan : move.percent.isNaN = true) :
    other = move := by
  have nowhere : place move.percent = none := Foundation.isNaN_iff_place.mp nan
  have nowhere' : place move.percent.abs = none := by rw [Foundation.place_abs, nowhere]; rfl
  have defined : ¬ move.FromZero := by
    intro undefined
    rw [undefined.percent, Foundation.place_infinity] at nowhere
    cases nowhere
  by_contra different
  have fromZero : ∀ third, Compared sum history a b third → third ≠ move → third.FromZero := by
    intro third recorded'' apart
    rcases before_or_before sorted recorded recorded'' apart with
      (undefined | ⟨-, smaller⟩) | (undefined | ⟨-, smaller⟩)
    · exact (defined undefined).elim
    · obtain ⟨_, _, q, placed, _⟩ := Foundation.le_iff_place.mp smaller
      exact absurd (nowhere'.symm.trans placed) (Option.some_ne_none _).symm
    · exact undefined
    · obtain ⟨p, placed, _⟩ := Foundation.le_iff_place.mp smaller
      exact absurd (nowhere'.symm.trans placed) (Option.some_ne_none _).symm
  -- the sort then leaves all rows as they come
  have keys : ∀ order, ∀ row ∈ diffRows order (heldAt sum history a b) a b,
      ∀ p ∈ place row.key, p = -wide := by
    intro order row member p placed
    obtain ⟨recorded'', pct⟩ := mem_diffRows.mp member
    rw [place_key, pct, Option.mem_def] at placed
    by_cases same : row.toMove = move
    · rw [same, nowhere] at placed
      cases placed
    · rw [(fromZero _ recorded'' same).percent, Foundation.place_infinity, Option.map_some,
        weight_infinity] at placed
      exact (Option.some.inj placed).symm
  have level : ∀ order, ∀ row ∈ diffRows order (heldAt sum history a b) a b,
      ∀ third ∈ diffRows order (heldAt sum history a b) a b, ¬ row.key < third.key := by
    intro order row member third member' less
    obtain ⟨p, placed, q, placed', less⟩ := Foundation.lt_iff_place.mp less
    rw [keys order row member p placed, keys order third member' q placed'] at less
    exact lt_irrefl _ less
  have order : SetOrder := firstOf (none, "")
  rcases before_of_sorted sorted (fun order => .of_none (level order)) recorded recorded' different
    (level order _ (Move.row_mem recorded' order) _ (Move.row_mem recorded order)) with
    undefined | ⟨defined', _⟩
  · exact defined undefined
  · exact defined' (fromZero other recorded' different)

/-- Two different moves are numbers, and so are all others. -/
theorem comparable_of_sorted {sorting : StableSort DiffRow Float}
    (sorted : ∀ order, (sortedRows sum sorting order history a b).Pairwise DiffRow.Before)
    {move other : Move} (recorded : Compared sum history a b move)
    (recorded' : Compared sum history a b other) (different : other ≠ move) (order : SetOrder) :
    Comparable DiffRow.key (diffRows order (heldAt sum history a b) a b) := by
  refine comparable_of_numbers fun row member => ?_
  obtain ⟨recorded'', pct⟩ := mem_diffRows.mp member
  rw [pct, Bool.eq_false_iff]
  intro nan
  exact different ((alone_of_sorted sorted recorded'' recorded' nan).trans
    (alone_of_sorted sorted recorded'' recorded nan).symm)

/-- A move of 10¹⁸ percent or more may come in front of an infinite one. -/
theorem large_before_infinite {sorting : StableSort DiffRow Float}
    (sorted : ∀ order, (sortedRows sum sorting order history a b).Pairwise DiffRow.Before)
    {move other : Move} {q : ℤ} (recorded : Compared sum history a b move)
    (recorded' : Compared sum history a b other) (different : other ≠ move)
    (placed : place move.percent = some 0x10000000000000000)
    (placed' : place other.percent = some q) (large : ¬ |q| < wide) :
    other.row.Before move.row := by
  refine before_of_sorted sorted (comparable_of_sorted sorted recorded recorded' different)
    recorded' recorded different.symm ?_
  rw [@key_inFront_iff other.row move.row _ _ placed' placed, weight_infinity]
  exact wide_le_weight large

theorem fromZero_of_sorted {sorting : StableSort DiffRow Float}
    (sorted : ∀ order, (sortedRows sum sorting order history a b).Pairwise DiffRow.Before)
    {move other : Move} (recorded : Compared sum history a b move)
    (recorded' : Compared sum history a b other) (undefined : move.FromZero)
    (defined : ¬ other.FromZero) : other.percent.abs < 1e18 := by
  by_contra large
  have different : other ≠ move := by
    rintro rfl
    exact defined undefined
  have infinite : place move.percent = some 0x10000000000000000 := by
    rw [undefined.percent, Foundation.place_infinity]
  obtain ⟨q, placed⟩ := exists_place (Bool.eq_false_iff.mpr fun nan =>
    different (alone_of_sorted sorted recorded' recorded nan).symm)
  rw [lt_iff_of_place (place_abs_of_place placed) place_wide] at large
  rcases large_before_infinite sorted recorded recorded' different infinite placed large with
    undefined' | ⟨defined', _⟩
  · exact defined undefined'
  · exact defined' undefined

theorem overflowed_of_sorted {sorting : StableSort DiffRow Float}
    (sorted : ∀ order, (sortedRows sum sorting order history a b).Pairwise DiffRow.Before)
    {move other : Move} (recorded : Compared sum history a b move)
    (recorded' : Compared sum history a b other) (infinite : (move.percent == infinity) = true)
    (defined : ¬ other.FromZero) (finite : other.percent.abs < infinity) :
    other.percent.abs < 1e18 := by
  by_contra large
  rw [Foundation.beq_iff_place, Foundation.place_infinity] at infinite
  obtain ⟨p, placed, top⟩ := infinite
  obtain rfl : 0x10000000000000000 = p := Option.some.inj top
  obtain ⟨_, size, _⟩ := Foundation.lt_iff_place.mp finite
  rw [Foundation.place_abs] at size
  obtain ⟨q, placed', _⟩ := Option.map_eq_some_iff.mp size
  have size' := place_abs_of_place placed'
  rw [lt_iff_of_place size' Foundation.place_infinity] at finite
  rw [lt_iff_of_place size' place_wide] at large
  have different : other ≠ move := by
    rintro rfl
    rw [Option.some.inj (placed'.symm.trans placed)] at finite
    exact absurd finite (by decide)
  rcases large_before_infinite sorted recorded recorded' different placed placed' large with
    undefined | ⟨_, smaller⟩
  · exact defined undefined
  · have above := (le_iff_of_place (place_abs_of_place placed) size').mp smaller
    exact absurd finite (not_lt.mpr above)

/-- Rows that come in place whatever the order of the pairs can be told apart. -/
theorem ordered_of_sorted {sorting : StableSort DiffRow Float}
    (sorted : ∀ order, (sortedRows sum sorting order history a b).Pairwise DiffRow.Before) :
    OrderedMoves sum history a b where
  numbers _ _ recorded recorded' nan := alone_of_sorted sorted recorded recorded' nan
  fromZero _ _ recorded recorded' undefined defined :=
    fromZero_of_sorted sorted recorded recorded' undefined defined
  overflowed _ _ recorded recorded' _ infinite defined finite :=
    overflowed_of_sorted sorted recorded recorded' infinite defined finite

/-- A move by a little less than 10¹⁸ percent is not told apart from one from zero. -/
example : (movedPct 1 1e16 == 1e18) = true := by decide +kernel

/-- What the trends list is what was recorded under a name. -/
theorem listedValue_eq_some {name metric gitlink : String} {value : Float} :
    listedValue (trendsOf sum history) name metric gitlink = some value ↔
      name ≠ "" ∧ lastValue sum history (some name) metric gitlink = some value := by
  by_cases named : name = ""
  · simp only [named, listedValue_nameless, reduceCtorEq, ne_eq, not_true_eq_false, false_and]
  · rw [listedValue_named history named]
    exact (and_iff_right named).symm

theorem lists_iff (sorting : StableSort DiffRow Float) (order : SetOrder) :
    (∀ test metric va vb,
      (∃ pct, ⟨⟨test, metric, va, vb⟩, pct⟩ ∈ sortedRows sum sorting order history a b) ↔
        ∃ name, test = some name ∧
          listedValue (trendsOf sum history) name metric a = some va ∧
          listedValue (trendsOf sum history) name metric b = some vb) ↔
      NamedMoves sum history a b := by
  simp only [mem_sortedRows, listedValue_eq_some]
  constructor
  · intro lists move recorded
    obtain ⟨name, called, ⟨named, -⟩, -⟩ := (lists _ _ _ _).mp ⟨_, recorded, rfl⟩
    exact ⟨name, called, named⟩
  · intro moves test metric va vb
    constructor
    · rintro ⟨pct, recorded, -⟩
      obtain ⟨name, rfl, named⟩ := moves _ recorded
      exact ⟨name, rfl, ⟨named, recorded.1⟩, named, recorded.2⟩
    · rintro ⟨name, rfl, ⟨-, first⟩, -, second⟩
      exact ⟨_, ⟨first, second⟩, rfl⟩

/-- The moves of the rows are those recorded, each once. -/
theorem mem_moves {move : Move} :
    move ∈ (sortedRows sum sorting order history a b).map DiffRow.toMove ↔
      Compared sum history a b move := by
  rw [List.mem_map]
  constructor
  · rintro ⟨row, member, rfl⟩
    exact (mem_sortedRows.mp member).1
  · intro recorded
    exact ⟨move.row, mem_sortedRows.mpr ⟨recorded, rfl⟩, rfl⟩

theorem nodup_moves : ((sortedRows sum sorting order history a b).map DiffRow.toMove).Nodup := by
  refine List.Nodup.map_on ?_ nodup_sortedRows
  intro row member other member' same
  exact DiffRow.eq_of_move (mem_sortedRows.mp member).2 (mem_sortedRows.mp member').2 same

theorem swap_swap (move : Move) : move.swap.swap = move := rfl

/-- With the gitlinks exchanged the rows are the same, their values exchanged. -/
theorem swapped_rows (sorting : StableSort DiffRow Float) (order order' : SetOrder) :
    ((sortedRows sum sorting order' history b a).map DiffRow.toMove).Perm
      ((sortedRows sum sorting order history a b).map fun row => row.toMove.swap) := by
  have swapped : ((sortedRows sum sorting order history a b).map fun row => row.toMove.swap) =
      ((sortedRows sum sorting order history a b).map DiffRow.toMove).map Move.swap := by
    rw [List.map_map]
    rfl
  rw [swapped]
  have involutive : Function.Involutive Move.swap := swap_swap
  refine (List.perm_ext_iff_of_nodup nodup_moves (nodup_moves.map involutive.injective)).mpr ?_
  intro move
  rw [List.mem_map_of_involutive involutive, mem_moves, mem_moves]
  exact and_comm

/-- The views agree at two gitlinks exactly when no metric is too large for a float, what was
recorded at both has a name, and the moves can be told apart by what they are sorted by. -/
theorem drift_agrees_iff {sum : Summing} {sorting : StableSort DiffRow Float}
    {history : List MetricRecord} {gla glb a b : String}
    (first : resolveGitlink history gla = some a) (second : resolveGitlink history glb = some b) :
    DriftViewsAgree sum sorting history gla glb a b ↔
      FittingMetrics sum history a b ∧ NamedMoves sum history a b ∧
        OrderedMoves sum history a b := by
  constructor
  · intro agree
    have order : SetOrder := firstOf (none, "")
    obtain ⟨trends, listed⟩ := agree.trends
    obtain ⟨answer, found⟩ := agree.answers order
    obtain ⟨named, rfl⟩ := metricTrends_eq_ok.mp listed
    have counted := ((diffGitlinks_eq_ok first second).mp found).1
    have answers : ∀ order, diffGitlinks sum sorting order gla glb history =
        .ok (some (sortedRows sum sorting order history a b), some a, some b) :=
      fun order => (diffGitlinks_eq_ok first second).mpr ⟨counted, rfl⟩
    refine ⟨fun rec member => Or.rec (named rec member) (counted rec member), ?_, ?_⟩
    · exact (lists_iff sorting order).mp (agree.lists order _ _ listed (answers order))
    · exact ordered_of_sorted fun order => agree.sorted order _ (answers order)
  · rintro ⟨fitting, moves, ordered⟩
    have named := fun rec member here => fitting rec member (.inl here)
    have counted := fun rec member here => fitting rec member (.inr here)
    refine ⟨⟨_, metricTrends_eq_ok.mpr ⟨named, rfl⟩⟩, ?_, ?_, ?_, ?_⟩
    · exact fun order => ⟨_, (diffGitlinks_eq_ok first second).mpr ⟨counted, rfl⟩⟩
    · intro order answer trends listed found
      obtain ⟨-, rfl⟩ := metricTrends_eq_ok.mp listed
      obtain ⟨-, rfl⟩ := (diffGitlinks_eq_ok first second).mp found
      exact (lists_iff sorting order).mpr moves
    · intro order answer found
      obtain ⟨-, rfl⟩ := (diffGitlinks_eq_ok first second).mp found
      exact sorted_of_ordered ordered sorting order
    · intro order order' answer answer' found found'
      obtain ⟨-, rfl⟩ := (diffGitlinks_eq_ok first second).mp found
      obtain ⟨-, rfl⟩ := (diffGitlinks_eq_ok second first).mp found'
      exact swapped_rows sorting order order'

/-- A record of one metric at a gitlink. -/
def recordAt (name : Option String) (gitlink metric : String) (value : ℤ) : MetricRecord :=
  ⟨name, "", "", gitlink, OrderedDict.empty.set metric (.number (.int value))⟩

theorem valueAt_recordAt (name : Option String) (gitlink metric : String) (value : ℤ)
    (test : Option String) (metric' gitlink' : String) :
    (recordAt name gitlink metric value).valueAt sum test metric' gitlink' =
      if (name = test ∧ gitlink = gitlink') ∧ metric' = metric then
        (MetaValue.number (.int value)).metric sum
      else none := by
  have metrics : (recordAt name gitlink metric value).metric sum metric' =
      if metric' = metric then (MetaValue.number (.int value)).metric sum else none := by
    rw [MetricRecord.metric, MetricRecord.metrics, recordAt, OrderedDict.get?_filterMapValues,
      OrderedDict.get?_set]
    split <;> rfl
  rw [MetricRecord.valueAt, metrics, ← ite_and]
  rfl

/-- The moves of two records of a metric. -/
theorem recorded_pair {name : Option String} {a b metric : String} {value value' : ℤ}
    {va vb : Float} (different : a ≠ b)
    (first : (MetaValue.number (.int value)).metric sum = some va)
    (second : (MetaValue.number (.int value')).metric sum = some vb) {move : Move} :
    Compared sum [recordAt name a metric value, recordAt name b metric value'] a b move ↔
      move = ⟨name, metric, va, vb⟩ := by
  have last : ∀ test metric' gitlink, lastValue sum
      [recordAt name a metric value, recordAt name b metric value'] test metric' gitlink =
        ((recordAt name b metric value').valueAt sum test metric' gitlink).or
          ((recordAt name a metric value).valueAt sum test metric' gitlink) := by
    intro test metric' gitlink
    have whole := @lastValue_concat sum [recordAt name a metric value]
      (recordAt name b metric value') test metric' gitlink
    have front := @lastValue_concat sum [] (recordAt name a metric value) test metric'
      gitlink
    rw [List.nil_append] at front
    rw [List.singleton_append, front] at whole
    rw [whole]
    exact congrArg _ (Option.or_none)
  obtain ⟨test, metric', va', vb'⟩ := move
  simp only [Compared, last, valueAt_recordAt, first, second, different, different.symm, and_false,
    and_true, false_and, ↓reduceIte, Option.none_or, Option.or_none, Move.mk.injEq,
    Option.ite_none_right_eq_some, Option.some.injEq]
  constructor
  · rintro ⟨⟨⟨rfl, rfl⟩, rfl⟩, _, rfl⟩
    exact ⟨rfl, rfl, rfl, rfl⟩
  · rintro ⟨rfl, rfl, rfl, rfl⟩
    exact ⟨⟨⟨rfl, rfl⟩, rfl⟩, ⟨rfl, rfl⟩, rfl⟩

/-- A current that doubled from one gitlink to the next. -/
def doubled (name : Option String) : List MetricRecord :=
  [recordAt name "aaaa1111" "median_ma" 63, recordAt name "bbbb2222" "median_ma" 126]

theorem recorded_doubled {name : Option String} {move : Move} :
    Compared sumInOrder (doubled name) "aaaa1111" "bbbb2222" move ↔
      move = ⟨name, "median_ma", 63, 126⟩ :=
  recorded_pair (by decide) (by decide +kernel) (by decide +kernel)

theorem drift_agrees_doubled :
    DriftViewsAgree sumInOrder .merging (doubled (some "tp:no-ps")) "aaaa" "bbbb" "aaaa1111"
      "bbbb2222" := by
  refine (drift_agrees_iff (by decide) (by decide)).mpr ⟨?_, ?_, ?_⟩
  · intro rec member _ value inside
    have number : value = .number (.int 63) ∨ value = .number (.int 126) := by
      rcases List.mem_pair.mp member with rfl | rfl
      · exact .inl (List.mem_singleton.mp inside)
      · exact .inr (List.mem_singleton.mp inside)
    rcases number with rfl | rfl
    · exact ⟨some 63, by decide +kernel⟩
    · exact ⟨some 126, by decide +kernel⟩
  · intro move recorded
    rw [recorded_doubled.mp recorded]
    exact ⟨_, rfl, by decide⟩
  · refine ⟨fun move other recorded recorded' _ => ?_, fun move other recorded _ undefined => ?_,
      fun move other recorded _ _ infinite => ?_⟩
    · rw [recorded_doubled.mp recorded, recorded_doubled.mp recorded']
    · rw [recorded_doubled.mp recorded] at undefined
      exact absurd undefined.1 (by decide +kernel)
    · rw [recorded_doubled.mp recorded] at infinite
      exact absurd infinite (by decide +kernel)

/-- A row is built from records without a name, and the trends list none. -/
theorem nameless_drifts :
    ¬ ∀ (history : List MetricRecord) (gla glb a b : String),
      resolveGitlink history gla = some a → resolveGitlink history glb = some b →
        DriftViewsAgree sumInOrder .merging history gla glb a b := by
  intro agree
  have first : resolveGitlink (doubled none) "aaaa" = some "aaaa1111" := by decide
  have second : resolveGitlink (doubled none) "bbbb" = some "bbbb2222" := by decide
  have views := agree (doubled none) _ _ _ _ first second
  have order : SetOrder := firstOf (none, "")
  obtain ⟨trends, listed⟩ := views.trends
  obtain ⟨answer, found⟩ := views.answers order
  obtain ⟨-, rfl⟩ := metricTrends_eq_ok.mp listed
  obtain ⟨-, rfl⟩ := (diffGitlinks_eq_ok first second).mp found
  have named := (lists_iff .merging order).mp (views.lists order _ _ listed found)
  obtain ⟨name, nameless, -⟩ := named _ (recorded_doubled.mpr rfl)
  exact Option.some_ne_none name nameless.symm

end Rimba.Regtest.Ledger
