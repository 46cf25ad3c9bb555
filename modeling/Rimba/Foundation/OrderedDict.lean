import Mathlib.Algebra.BigOperators.Group.List.Lemmas
import Mathlib.Algebra.Ring.Nat
import Mathlib.Data.List.Dedup
import Mathlib.Data.List.Induction
import Mathlib.Data.List.Nodup

/-! # Dictionaries in insertion order

A dictionary keeps its bindings in the order its keys were first set. Setting a
key again replaces the value where it stands, and erasing a key forgets its
place.
-/

namespace Foundation

/-- A list of first occurrences holds nothing twice. -/
theorem nodup_eraseDups {α : Type*} [BEq α] [LawfulBEq α] (l : List α) : l.eraseDups.Nodup := by
  induction h : l.length using Nat.strongRecOn generalizing l with
  | ind size ih =>
      cases l with
      | nil => exact List.nodup_nil
      | cons a rest =>
          rw [List.eraseDups_cons, List.nodup_cons]
          refine ⟨?_, ih _ ?_ _ rfl⟩
          · simp only [List.mem_eraseDups, List.mem_filter, BEq.rfl, Bool.not_true,
              Bool.false_eq_true, and_false, not_false_eq_true]
          · rw [← h]
            exact Nat.lt_succ_of_le (List.length_filter_le ..)

/-- The first match in a list of first occurrences is the first match. -/
theorem find?_eraseDups {α : Type*} [DecidableEq α] (p : α → Bool) (l : List α) :
    l.eraseDups.find? p = l.find? p := by
  induction h : l.length using Nat.strongRecOn generalizing l with
  | ind size ih =>
      cases l with
      | nil => rfl
      | cons a rest =>
          rw [List.eraseDups_cons]
          by_cases matched : p a = true
          · rw [List.find?_cons_of_pos matched, List.find?_cons_of_pos matched]
          · have shorter : (rest.filter fun b => !b == a).length < size := by
              rw [← h]
              exact Nat.lt_succ_of_le (List.length_filter_le ..)
            rw [List.find?_cons_of_neg matched, List.find?_cons_of_neg matched,
              ih _ shorter _ rfl, List.find?_filter]
            congr 1
            funext b
            by_cases same : b = a
            · subst same
              simp only [matched, Bool.false_eq_true, decide_false, and_false]
            · simp only [beq_eq_false_iff_ne.mpr same, Bool.not_false, true_and,
                Bool.decide_eq_true]

/-- Bindings in insertion order, one for each key. -/
structure OrderedDict (Key Value : Type*) where
  entries : List (Key × Value)
  nodup : (entries.map Prod.fst).Nodup

namespace OrderedDict

variable {Key Value : Type*}

def empty : OrderedDict Key Value := ⟨[], List.nodup_nil⟩

/-- The keys, in the order they were first set. -/
def keys (dict : OrderedDict Key Value) : List Key := dict.entries.map Prod.fst

/-- The values, in the order of their keys. -/
def values (dict : OrderedDict Key Value) : List Value := dict.entries.map Prod.snd

theorem eq_of_entries {dict other : OrderedDict Key Value} (same : dict.entries = other.entries) :
    dict = other := by
  cases dict
  cases other
  cases same
  rfl

/-- Each value mapped, under its key. -/
def mapValues {Other : Type*} (f : Value → Other) (dict : OrderedDict Key Value) :
    OrderedDict Key Other where
  entries := dict.entries.map fun entry => (entry.1, f entry.2)
  nodup := by
    rw [List.map_map]
    exact dict.nodup

theorem entries_mapValues {Other : Type*} (f : Value → Other) (dict : OrderedDict Key Value) :
    (dict.mapValues f).entries = dict.entries.map fun entry => (entry.1, f entry.2) := rfl

theorem keys_mapValues {Other : Type*} (f : Value → Other) (dict : OrderedDict Key Value) :
    (dict.mapValues f).keys = dict.keys := by
  simp only [keys, mapValues, List.map_map, Function.comp_def]

theorem values_mapValues {Other : Type*} (f : Value → Other) (dict : OrderedDict Key Value) :
    (dict.mapValues f).values = dict.values.map f := by
  simp only [values, mapValues, List.map_map, Function.comp_def]

variable [DecidableEq Key]

/-- The entries with the value of one key replaced where it stands. -/
def replaceEntry (key : Key) (value : Value) (entries : List (Key × Value)) : List (Key × Value) :=
  entries.map fun entry => if entry.1 = key then (key, value) else entry

theorem replaceEntry_keys (key : Key) (value : Value) (entries : List (Key × Value)) :
    (replaceEntry key value entries).map Prod.fst = entries.map Prod.fst := by
  rw [replaceEntry, List.map_map]
  refine List.map_congr_left fun entry _ => ?_
  by_cases same : entry.1 = key
  · simp only [Function.comp_apply, same, ↓reduceIte]
  · simp only [Function.comp_apply, same, ↓reduceIte]

/-- `dict[key] = value` -/
def set (dict : OrderedDict Key Value) (key : Key) (value : Value) : OrderedDict Key Value where
  entries :=
    if key ∈ dict.entries.map Prod.fst then replaceEntry key value dict.entries
    else dict.entries ++ [(key, value)]
  nodup := by
    by_cases present : key ∈ dict.entries.map Prod.fst
    · simp only [present, ↓reduceIte, replaceEntry_keys]
      exact dict.nodup
    · simp only [present, ↓reduceIte, List.map_append, List.map_cons, List.map_nil]
      refine dict.nodup.append (List.nodup_singleton key) ?_
      simpa only [List.disjoint_singleton] using present

/-- `dict.pop(key, None)` -/
def erase (dict : OrderedDict Key Value) (key : Key) : OrderedDict Key Value where
  entries := dict.entries.filter fun entry => entry.1 ≠ key
  nodup := dict.nodup.sublist (List.filter_sublist.map _)

/-- The bindings whose value has a property. -/
def filterValues (p : Value → Bool) (dict : OrderedDict Key Value) : OrderedDict Key Value where
  entries := dict.entries.filter fun entry => p entry.2
  nodup := dict.nodup.sublist (List.filter_sublist.map _)

/-- What is made of the values, under their keys. -/
def filterMapValues {Other : Type*} (f : Value → Option Other) (dict : OrderedDict Key Value) :
    OrderedDict Key Other where
  entries := dict.entries.filterMap fun entry => (f entry.2).map fun value => (entry.1, value)
  nodup := by
    rw [List.map_filterMap]
    refine dict.nodup.sublist ?_
    induction dict.entries with
    | nil => exact List.Sublist.slnil
    | cons entry entries ih =>
        cases made : f entry.2 with
        | none =>
            rw [List.filterMap_cons_none (by simp only [made, Option.map_none])]
            exact ih.cons _
        | some value =>
            rw [List.filterMap_cons_some (b := entry.1)
              (by simp only [made, Option.map_some])]
            exact ih.cons_cons _

variable {dict : OrderedDict Key Value} {key other : Key} {value held : Value}

theorem mem_set_iff : (other, held) ∈ (dict.set key value).entries ↔
    other = key ∧ held = value ∨ other ≠ key ∧ (other, held) ∈ dict.entries := by
  unfold set
  by_cases present : key ∈ dict.entries.map Prod.fst
  · simp only [present, ↓reduceIte, replaceEntry, List.mem_map]
    constructor
    · rintro ⟨entry, member, replaced⟩
      by_cases same : entry.1 = key
      · simp only [same, ↓reduceIte, Prod.mk.injEq] at replaced
        exact .inl ⟨replaced.1.symm, replaced.2.symm⟩
      · simp only [same, ↓reduceIte] at replaced
        subst replaced
        exact .inr ⟨same, member⟩
    · rintro (⟨rfl, rfl⟩ | ⟨different, member⟩)
      · obtain ⟨entry, member, same⟩ := List.mem_map.mp present
        exact ⟨entry, member, by simp only [same, ↓reduceIte]⟩
      · exact ⟨_, member, by simp only [different, ↓reduceIte]⟩
  · simp only [present, ↓reduceIte, List.mem_append, List.mem_singleton, Prod.mk.injEq]
    constructor
    · rintro (member | added)
      · refine .inr ⟨?_, member⟩
        rintro rfl
        exact present (List.mem_map_of_mem member)
      · exact .inl added
    · rintro (added | ⟨_, member⟩)
      · exact .inr added
      · exact .inl member

theorem mem_erase_iff : (other, held) ∈ (dict.erase key).entries ↔
    other ≠ key ∧ (other, held) ∈ dict.entries := by
  simp only [erase, List.mem_filter, decide_eq_true_eq]
  exact and_comm

/-- A value of a set dictionary is the one set or was there before. -/
theorem mem_values_set (member : held ∈ (dict.set key value).values) :
    held = value ∨ held ∈ dict.values := by
  obtain ⟨entry, inside, rfl⟩ := List.mem_map.mp member
  rcases mem_set_iff.mp inside with ⟨_, same⟩ | ⟨_, before⟩
  · exact .inl same
  · exact .inr (List.mem_map_of_mem before)

theorem mem_values_erase (member : held ∈ (dict.erase key).values) : held ∈ dict.values := by
  obtain ⟨entry, inside, rfl⟩ := List.mem_map.mp member
  exact List.mem_map_of_mem (mem_erase_iff.mp inside).2

/-- `dict.get(key)` -/
def get? (dict : OrderedDict Key Value) (key : Key) : Option Value :=
  (dict.entries.find? fun entry => entry.1 = key).map Prod.snd

theorem get?_eq_some_iff : dict.get? key = some value ↔ (key, value) ∈ dict.entries := by
  constructor
  · intro got
    obtain ⟨entry, found, rfl⟩ := Option.map_eq_some_iff.mp got
    have same := List.find?_some found
    simp only [decide_eq_true_eq] at same
    rw [← same]
    exact List.mem_of_find?_eq_some found
  · intro member
    have some : (dict.entries.find? fun entry => entry.1 = key).isSome :=
      List.find?_isSome.mpr ⟨_, member, by simp only [decide_true]⟩
    obtain ⟨entry, found⟩ := Option.isSome_iff_exists.mp some
    have same := List.find?_some found
    simp only [decide_eq_true_eq] at same
    have one := List.inj_on_of_nodup_map dict.nodup (List.mem_of_find?_eq_some found) member same
    rw [get?, found, one]
    rfl

theorem get?_set : (dict.set key value).get? other = if other = key then some value
    else dict.get? other := by
  apply Option.ext
  intro held
  rw [get?_eq_some_iff, mem_set_iff]
  by_cases same : other = key
  · simp only [same, true_and, ne_eq, not_true_eq_false, false_and, or_false, ↓reduceIte,
      Option.some.injEq, eq_comm]
  · simp only [same, false_and, ne_eq, not_false_eq_true, true_and, false_or, ↓reduceIte,
      get?_eq_some_iff]

theorem get?_mapValues {Other : Type*} (f : Value → Other) :
    (dict.mapValues f).get? key = (dict.get? key).map f := by
  simp only [get?, mapValues, List.find?_map, Option.map_map, Function.comp_def]

theorem get?_filterValues {p : Value → Bool} : (dict.filterValues p).get? key = some value ↔
    dict.get? key = some value ∧ p value = true := by
  rw [get?_eq_some_iff, get?_eq_some_iff]
  exact List.mem_filter

section

variable {Other Another : Type*} {f : Value → Option Other}

theorem get?_filterMapValues : (dict.filterMapValues f).get? key = (dict.get? key).bind f := by
  apply Option.ext
  intro made
  rw [get?_eq_some_iff, Option.bind_eq_some_iff, filterMapValues, List.mem_filterMap]
  simp only [get?_eq_some_iff]
  constructor
  · rintro ⟨entry, member, kept⟩
    obtain ⟨value, mapped, same⟩ := Option.map_eq_some_iff.mp kept
    cases same
    exact ⟨entry.2, member, mapped⟩
  · rintro ⟨value, member, mapped⟩
    exact ⟨(key, value), member, by rw [mapped]; rfl⟩

omit [DecidableEq Key] in
theorem filterMapValues_filterMapValues (g : Other → Option Another) :
    (dict.filterMapValues f).filterMapValues g =
      dict.filterMapValues fun value => (f value).bind g := by
  refine eq_of_entries ?_
  simp only [filterMapValues, List.filterMap_filterMap]
  refine List.filterMap_congr fun entry _ => ?_
  cases f entry.2 <;> rfl

omit [DecidableEq Key] in
theorem filterMapValues_mapValues (g : Another → Value) (source : OrderedDict Key Another) :
    (source.mapValues g).filterMapValues f = source.filterMapValues fun value => f (g value) := by
  refine eq_of_entries ?_
  simp only [filterMapValues, mapValues, List.filterMap_map]
  rfl

/-- Two ways to map or drop values come to one when they do for each value. -/
theorem filterMapValues_eq_iff {g : Value → Option Other} :
    dict.filterMapValues f = dict.filterMapValues g ↔ ∀ value ∈ dict.values, f value = g value := by
  constructor
  · intro same value member
    obtain ⟨⟨key, held⟩, inside, rfl⟩ := List.mem_map.mp member
    have got := get?_eq_some_iff.mpr inside
    have looked := congrArg (OrderedDict.get? · key) same
    simpa only [get?_filterMapValues, got, Option.bind_some] using looked
  · intro each
    refine eq_of_entries (List.filterMap_congr fun entry member => ?_)
    rw [each entry.2 (List.mem_map_of_mem member)]

end

/-- `dict.setdefault(key, value)` -/
def setDefault (dict : OrderedDict Key Value) (key : Key) (value : Value) :
    OrderedDict Key Value :=
  if (dict.get? key).isSome then dict else dict.set key value

theorem get?_setDefault : (dict.setDefault key value).get? other =
    (dict.get? other).or (if other = key then some value else none) := by
  unfold setDefault
  by_cases same : other = key
  · subst same
    cases got : dict.get? other with
    | none => simp only [Option.isSome_none, Bool.false_eq_true, ↓reduceIte, get?_set, Option.or]
    | some held => simp only [Option.isSome_some, ↓reduceIte, got, Option.or]
  · cases dict.get? key with
    | none => simp only [Option.isSome_none, Bool.false_eq_true, ↓reduceIte, get?_set, same,
        Option.or_none]
    | some held => simp only [Option.isSome_some, ↓reduceIte, same, Option.or_none]

/-- Of items that are set unless their key is there already, the first with a key
stays. -/
theorem get?_foldl_setDefault {Item : Type*} (keyOf : Item → Key) (valueOf : Item → Value)
    (items : List Item) :
    (items.foldl (fun dict item => dict.setDefault (keyOf item) (valueOf item)) dict).get? key =
      (dict.get? key).or ((items.find? fun item => keyOf item = key).map valueOf) := by
  induction items generalizing dict with
  | nil => rw [List.foldl_nil, List.find?_nil, Option.map_none, Option.or_none]
  | cons item items ih =>
      rw [List.foldl_cons, ih, get?_setDefault, Option.or_assoc, List.find?_cons]
      by_cases same : keyOf item = key
      · simp only [same, ↓reduceIte, decide_true, Option.map_some, Option.or]
      · have different : ¬ key = keyOf item := fun equal => same equal.symm
        simp only [same, different, ↓reduceIte, decide_false, Option.or]

variable {Item : Type*}

/-- `dict.setdefault(key, []).append(item)` -/
def append (dict : OrderedDict Key (List Item)) (key : Key) (item : Item) :
    OrderedDict Key (List Item) :=
  dict.set key ((dict.get? key).getD [] ++ [item])

/-- Each key with the list of its items, in their order. -/
def gather (items : List (Key × Item)) : OrderedDict Key (List Item) :=
  items.foldl (fun dict item => dict.append item.1 item.2) empty

theorem getD_gather (items : List (Key × Item)) (key : Key) :
    ((gather items).get? key).getD [] = (items.filter fun item => item.1 = key).map Prod.snd := by
  induction items using List.reverseRecOn with
  | nil => rfl
  | append_singleton items item ih =>
      have step : gather (items ++ [item]) = (gather items).append item.1 item.2 :=
        List.foldl_concat ..
      rw [step, append, get?_set, List.filter_append, List.map_append, ← ih]
      by_cases same : key = item.1
      · simp only [same, ↓reduceIte, Option.getD_some, decide_true, List.filter_cons_of_pos,
          List.filter_nil, List.map_cons, List.map_nil]
      · have other : ¬ item.1 = key := fun equal => same equal.symm
        simp only [same, other, ↓reduceIte, decide_false, Bool.false_eq_true, not_false_eq_true,
          List.filter_cons_of_neg, List.filter_nil, List.map_nil, List.append_nil]

/-- When no key has two items, no two items have one key. -/
theorem nodup_of_gather {items : List (Key × Item)}
    (single : ∀ entry ∈ (gather items).entries, entry.2.length ≤ 1) :
    (items.map Prod.fst).Nodup := by
  rw [List.nodup_iff_count_le_one]
  intro key
  have gathered := congrArg List.length (getD_gather items key)
  rw [List.length_map, ← List.countP_eq_length_filter] at gathered
  calc (items.map Prod.fst).count key
      = items.countP fun item => item.1 = key := by
        rw [List.count, List.countP_map]
        rfl
    _ = (((gather items).get? key).getD []).length := gathered.symm
    _ ≤ 1 := by
        cases found : (gather items).get? key with
        | none => exact Nat.zero_le 1
        | some members => exact single _ (get?_eq_some_iff.mp found)

/-- The last value a list has for a key. -/
def lastOf (items : List (Key × Value)) (key : Key) : Option Value :=
  (items.findRev? fun item => item.1 = key).map Prod.snd

/-- `dict[key] = value` for each item. -/
def setAll (dict : OrderedDict Key Value) (items : List (Key × Value)) : OrderedDict Key Value :=
  items.foldl (fun dict item => dict.set item.1 item.2) dict

/-- `dict.pop(key, None)` for each key. -/
def eraseAll (dict : OrderedDict Key Value) (gone : List Key) : OrderedDict Key Value :=
  gone.foldl erase dict

@[simp] theorem lastOf_nil : lastOf ([] : List (Key × Value)) key = none := rfl

theorem lastOf_append (front back : List (Key × Value)) :
    lastOf (front ++ back) key = (lastOf back key).or (lastOf front key) := by
  simp only [lastOf, List.findRev?_eq_find?_reverse, List.reverse_append, List.find?_append,
    Option.map_or]

theorem lastOf_singleton :
    lastOf [(other, value)] key = if key = other then some value else none := by
  by_cases same : key = other
  · simp only [lastOf, List.findRev?, same, decide_true, ↓reduceIte, Option.map_some]
  · have different : ¬ other = key := fun equal => same equal.symm
    simp only [lastOf, List.findRev?, same, different, decide_false, Bool.false_eq_true,
      ↓reduceIte, Option.map_none]

theorem lastOf_isSome {items : List (Key × Value)} :
    (lastOf items key).isSome ↔ key ∈ items.map Prod.fst := by
  simp only [lastOf, List.findRev?_eq_find?_reverse, Option.isSome_map, List.find?_isSome,
    List.mem_reverse, decide_eq_true_eq, List.mem_map]

theorem lastOf_eq_none {items : List (Key × Value)} :
    lastOf items key = none ↔ key ∉ items.map Prod.fst := by
  rw [← lastOf_isSome, Option.not_isSome_iff_eq_none]

theorem entries_set_of_mem (present : key ∈ dict.keys) :
    (dict.set key value).entries = replaceEntry key value dict.entries := if_pos present

theorem entries_set_of_notMem (absent : key ∉ dict.keys) :
    (dict.set key value).entries = dict.entries ++ [(key, value)] := if_neg absent

theorem keys_set : (dict.set key value).keys =
    if key ∈ dict.keys then dict.keys else dict.keys ++ [key] := by
  unfold keys set
  by_cases present : key ∈ dict.entries.map Prod.fst
  · simp only [present, ↓reduceIte, replaceEntry_keys]
  · simp only [present, ↓reduceIte, List.map_append, List.map_cons, List.map_nil]

theorem get?_setAll (items : List (Key × Value)) :
    (dict.setAll items).get? key = (lastOf items key).or (dict.get? key) := by
  induction items using List.reverseRecOn with
  | nil => rfl
  | append_singleton items item ih =>
      rw [setAll, List.foldl_concat, ← setAll, get?_set, ih, lastOf_append, lastOf_singleton]
      by_cases same : key = item.1
      · simp only [same, ↓reduceIte, Option.some_or]
      · simp only [same, ↓reduceIte, Option.none_or]

/-- Whatever each item is set to, the keys are there in the order they were first
set. -/
theorem keys_foldl_set {Item : Type*} (keyOf : Item → Key)
    (valueOf : OrderedDict Key Value → Item → Value) (items : List Item) :
    (items.foldl (fun dict item => dict.set (keyOf item) (valueOf dict item)) empty).keys =
      (items.map keyOf).eraseDups := by
  induction items using List.reverseRecOn with
  | nil => rfl
  | append_singleton items item ih =>
      rw [List.foldl_concat, keys_set, ih, List.map_append, List.map_cons, List.map_nil,
        List.eraseDups_append]
      simp only [List.mem_eraseDups]
      by_cases before : keyOf item ∈ items.map keyOf
      · simp only [before, ↓reduceIte, List.removeAll, List.elem_eq_mem, decide_true, Bool.not_true,
          Bool.false_eq_true, not_false_eq_true, List.filter_cons_of_neg, List.filter_nil,
          List.eraseDups_nil, List.append_nil]
      · simp only [before, ↓reduceIte, List.removeAll, List.elem_eq_mem, decide_false,
          Bool.not_false, List.filter_cons_of_pos, List.filter_nil, List.eraseDups_cons,
          List.eraseDups_nil]

theorem keys_setAll (items : List (Key × Value)) :
    (empty.setAll items).keys = (items.map Prod.fst).eraseDups :=
  keys_foldl_set Prod.fst (fun _ item => item.2) items

theorem entries_eraseAll (gone : List Key) :
    (dict.eraseAll gone).entries = dict.entries.filter fun entry => entry.1 ∉ gone := by
  induction gone generalizing dict with
  | nil => simp only [eraseAll, List.foldl_nil, List.not_mem_nil, not_false_eq_true, decide_true,
      List.filter_true]
  | cons key gone ih =>
      rw [eraseAll, List.foldl_cons, ← eraseAll, ih, erase, List.filter_filter]
      simp only [List.mem_cons, not_or, ne_eq, decide_not, Bool.decide_and, Bool.and_comm]

theorem get?_eraseAll (gone : List Key) :
    (dict.eraseAll gone).get? key = if key ∈ gone then none else dict.get? key := by
  apply Option.ext
  intro held
  rw [get?_eq_some_iff, entries_eraseAll, List.mem_filter]
  by_cases erased : key ∈ gone
  · simp only [erased, not_true_eq_false, decide_false, Bool.false_eq_true, and_false, ↓reduceIte,
      reduceCtorEq]
  · simp only [erased, not_false_eq_true, decide_true, and_true, ↓reduceIte, get?_eq_some_iff]

theorem keys_eraseAll (gone : List Key) :
    (dict.eraseAll gone).keys = dict.keys.filter fun key => key ∉ gone := by
  rw [keys, entries_eraseAll, keys, List.filter_map]
  rfl

/-- The values are what the keys are looked up as. -/
theorem values_eq : dict.values = dict.keys.filterMap dict.get? := by
  have looked : ∀ entry ∈ dict.entries, dict.get? entry.1 = some entry.2 := fun entry member =>
    get?_eq_some_iff.mpr member
  rw [values, keys, List.filterMap_map, ← List.filterMap_eq_map]
  exact (List.filterMap_congr looked).symm

/-- What is left of the items when the later ones of their keys are set behind them. -/
theorem values_setAll_eraseAll (items : List (Key × Value)) (gone : List Key) :
    ((empty.setAll items).eraseAll gone).values =
      ((items.map Prod.fst).eraseDups.filter fun key => key ∉ gone).filterMap (lastOf items) := by
  rw [values_eq, keys_eraseAll, keys_setAll]
  refine List.filterMap_congr fun key member => ?_
  have kept := (List.mem_filter.mp member).2
  rw [decide_eq_true_eq] at kept
  rw [get?_eraseAll, if_neg kept, get?_setAll]
  exact Option.or_none

/-- A dictionary has one value for each key, so that its last is the one looked up. -/
theorem lastOf_entries : lastOf dict.entries key = dict.get? key := by
  apply Option.ext
  intro held
  rw [get?_eq_some_iff, lastOf, List.findRev?_eq_find?_reverse]
  constructor
  · intro last
    obtain ⟨entry, found, rfl⟩ := Option.map_eq_some_iff.mp last
    have same := List.find?_some found
    rw [decide_eq_true_eq] at same
    rw [← same]
    exact List.mem_reverse.mp (List.mem_of_find?_eq_some found)
  · intro member
    have some : (dict.entries.reverse.find? fun entry => entry.1 = key).isSome :=
      List.find?_isSome.mpr ⟨_, List.mem_reverse.mpr member, by simp only [decide_true]⟩
    obtain ⟨entry, found⟩ := Option.isSome_iff_exists.mp some
    have same := List.find?_some found
    rw [decide_eq_true_eq] at same
    have one := List.inj_on_of_nodup_map dict.nodup
      (List.mem_reverse.mp (List.mem_of_find?_eq_some found)) member same
    rw [found, one]
    rfl

/-- Of items with different keys each is the last of its own. -/
theorem lastOf_of_mem {items : List (Key × Value)} (nodup : (items.map Prod.fst).Nodup)
    (member : (key, value) ∈ items) : lastOf items key = some value := by
  have found : (OrderedDict.mk items nodup).get? key = some value := get?_eq_some_iff.mpr member
  rwa [← lastOf_entries] at found

/-- The entries of a key. -/
theorem filter_entries : (dict.entries.filter fun entry => entry.1 = key) =
    ((dict.get? key).map fun value => (key, value)).toList := by
  have nodup : dict.entries.Nodup := dict.nodup.of_map
  cases found : dict.get? key with
  | none =>
      rw [Option.map_none, Option.toList_none, List.filter_eq_nil_iff]
      intro entry member same
      have some := get?_eq_some_iff.mpr member
      rw [of_decide_eq_true same, found] at some
      cases some
  | some value =>
      have only : (dict.entries.filter fun entry => entry.1 = key).Perm [(key, value)] := by
        refine (List.perm_ext_iff_of_nodup (nodup.filter _) (List.nodup_singleton _)).mpr ?_
        rintro ⟨other, held⟩
        rw [List.mem_filter, decide_eq_true_eq, List.mem_singleton, Prod.mk.injEq]
        constructor
        · rintro ⟨member, rfl⟩
          exact ⟨rfl, Option.some.inj ((get?_eq_some_iff.mpr member).symm.trans found)⟩
        · rintro ⟨rfl, rfl⟩
          exact ⟨get?_eq_some_iff.mp found, rfl⟩
      exact List.perm_singleton.mp only

/-- Entries set under other keys are looked up as they were. -/
theorem lastOf_map_entries {Other : Type*} [DecidableEq Other] {embed : Key → Other}
    (injective : Function.Injective embed) :
    lastOf (dict.entries.map fun entry => (embed entry.1, entry.2)) (embed key) =
      dict.get? key := by
  rw [← lastOf_entries, lastOf, lastOf, List.findRev?_eq_find?_reverse,
    List.findRev?_eq_find?_reverse, ← List.map_reverse, List.find?_map, Option.map_map]
  simp only [Function.comp_def, injective.eq_iff]

/-- Setting what is made of each value, under its key, maps or drops the values. -/
theorem foldl_set_filterMap {Other : Type*} (f : Value → Option Other) :
    dict.entries.foldl (fun out entry => (f entry.2).elim out (out.set entry.1)) empty =
      dict.filterMapValues f := by
  suffices set : ∀ entries : List (Key × Value), (entries.map Prod.fst).Nodup →
      (entries.foldl (fun out entry => (f entry.2).elim out (out.set entry.1)) empty).entries =
        entries.filterMap fun entry => (f entry.2).map fun value => (entry.1, value) from
    eq_of_entries (set dict.entries dict.nodup)
  intro entries nodup
  induction entries using List.reverseRecOn with
  | nil => rfl
  | append_singleton entries entry ih =>
      rw [List.map_append, List.map_singleton, List.nodup_append] at nodup
      obtain ⟨before, -, apart⟩ := nodup
      rw [List.foldl_concat, List.filterMap_append]
      cases made : f entry.2 with
      | none =>
          rw [List.filterMap_cons_none (by rw [made]; rfl), List.filterMap_nil, List.append_nil]
          exact ih before
      | some value =>
          rw [List.filterMap_cons_some (by rw [made]; rfl), List.filterMap_nil, ← ih before]
          refine entries_set_of_notMem fun present => ?_
          rw [keys, ih before] at present
          obtain ⟨other, member, same⟩ := List.mem_map.mp present
          obtain ⟨source, inside, kept⟩ := List.mem_filterMap.mp member
          obtain ⟨held, _, rfl⟩ := Option.map_eq_some_iff.mp kept
          exact apart source.1 (List.mem_map_of_mem inside) entry.1 (List.mem_singleton_self _) same

variable {Other : Type*} (f : Value → Other)

theorem mapValues_set :
    (dict.set key value).mapValues f = (dict.mapValues f).set key (f value) := by
  apply eq_of_entries
  by_cases present : key ∈ dict.keys
  · have here : key ∈ (dict.mapValues f).keys := by rwa [keys_mapValues]
    rw [entries_set_of_mem here, entries_mapValues, entries_set_of_mem present, entries_mapValues,
      replaceEntry, replaceEntry, List.map_map, List.map_map]
    refine List.map_congr_left fun entry _ => ?_
    by_cases same : entry.1 = key
    · simp only [Function.comp_apply, same, ↓reduceIte]
    · simp only [Function.comp_apply, same, ↓reduceIte]
  · have absent : key ∉ (dict.mapValues f).keys := by rwa [keys_mapValues]
    rw [entries_set_of_notMem absent, entries_mapValues, entries_set_of_notMem present,
      entries_mapValues, List.map_append, List.map_cons, List.map_nil]

theorem mapValues_erase : (dict.erase key).mapValues f = (dict.mapValues f).erase key := by
  simp only [mapValues, erase, List.filter_map, Function.comp_def]

/-- `dict[key] = dict.get(key, 0) + 1` for each key. -/
def tally (dict : OrderedDict Key ℕ) (items : List Key) : OrderedDict Key ℕ :=
  items.foldl (fun dict key => dict.set key ((dict.get? key).getD 0 + 1)) dict

section

variable {dict : OrderedDict Key ℕ}

theorem getD_tally (items : List Key) :
    ((dict.tally items).get? key).getD 0 = (dict.get? key).getD 0 + items.count key := by
  induction items using List.reverseRecOn with
  | nil => rfl
  | append_singleton items item ih =>
      rw [tally, List.foldl_concat, ← tally, get?_set, List.count_append, List.count_singleton]
      by_cases same : key = item
      · rw [same] at ih
        simp only [same, ↓reduceIte, Option.getD_some, BEq.rfl, ih, Nat.add_assoc]
      · have different : ¬ item = key := fun equal => same equal.symm
        simp only [same, different, ↓reduceIte, ih, beq_iff_eq, Nat.add_zero]

theorem keys_tally (items : List Key) : (empty.tally items).keys = items.eraseDups := by
  have keys := keys_foldl_set id
    (fun (dict : OrderedDict Key ℕ) key => (dict.get? key).getD 0 + 1) items
  rwa [List.map_id] at keys

/-- Counting keys that are there adds none. -/
theorem keys_tally_of_mem {items : List Key} (present : ∀ key ∈ items, key ∈ dict.keys) :
    (dict.tally items).keys = dict.keys := by
  induction items using List.reverseRecOn with
  | nil => rfl
  | append_singleton items item ih =>
      obtain ⟨front, last⟩ := List.forall_mem_append.mp present
      rw [tally, List.foldl_concat, ← tally, keys_set, ih front,
        if_pos (last item (List.mem_singleton_self item))]

/-- A dictionary of counts is given by its keys and what they are looked up as. -/
theorem entries_eq (dict : OrderedDict Key ℕ) :
    dict.entries = dict.keys.map fun key => (key, (dict.get? key).getD 0) := by
  rw [keys, List.map_map]
  refine (List.map_id _).symm.trans (List.map_congr_left fun entry member => ?_)
  rw [Function.comp_apply, get?_eq_some_iff.mpr member]
  rfl

/-- The counts of the keys with a property add up to the items with it. -/
theorem sum_tally (p : Key → Bool) (items : List Key) :
    (((empty.tally items).entries.filter fun entry => p entry.1).map Prod.snd).sum =
      items.countP p := by
  have entries : (empty.tally items).entries =
      items.eraseDups.map fun key => (key, items.count key) := by
    rw [entries_eq, keys_tally]
    refine List.map_congr_left fun key _ => ?_
    rw [getD_tally]
    exact congrArg (Prod.mk key) (Nat.zero_add _)
  have same : (items.eraseDups.filter p).Perm (items.dedup.filter p) := by
    apply List.Perm.filter
    refine (List.perm_ext_iff_of_nodup (nodup_eraseDups items) (List.nodup_dedup items)).mpr ?_
    intro key
    rw [List.mem_eraseDups, List.mem_dedup]
  rw [entries, List.filter_map, List.map_map]
  calc ((items.eraseDups.filter p).map fun key => items.count key).sum
      = ((items.dedup.filter p).map fun key => items.count key).sum := (same.map _).sum_eq
    _ = items.countP p := List.sum_map_count_dedup_filter_eq_countP p items

end

end OrderedDict

end Foundation
