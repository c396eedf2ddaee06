import Collections.Entries.Grouping
import Collections.Proofs.Elements
import Mathlib.Logic.Function.Iterate

/-! Folds over the occurrences of a bag.

A bag shows a visitor each entry once for every occurrence. A fold keeps its value in a slot, which each visit
empties and fills again. An aggregation keeps a value under each key and asks for a start when the key first
comes. Both come to plain folds, over all occurrences in their order or over those of one key.
-/

set_option autoImplicit false

namespace Collections

variable {α κ ν σ : Type}

namespace Entries

def forEach (visitor : σ → α → σ) (entries : Entries α) (state : σ) : σ :=
  entries.foldl (fun state entry => (visitor · entry.1)^[entry.2] state) state

/-- A fold that takes its value out of the slot for each step. There is no result if the slot is empty at
the end. -/
def injectBySlot (entries : Entries α) (start : ν) (step : ν → α → ν) : Option ν :=
  forEach (fun slot item => slot.map (step · item)) entries (some start)

theorem iterate_eq_foldl (visitor : σ → α → σ) (item : α) (count : Nat) (state : σ) :
    (visitor · item)^[count] state = (List.replicate count item).foldl visitor state := by
  induction count generalizing state with
  | zero => rfl
  | succ count ih => rw [Function.iterate_succ_apply, ih, List.replicate_succ, List.foldl_cons]

theorem forEach_eq (visitor : σ → α → σ) (entries : Entries α) (state : σ) :
    forEach visitor entries state = (expand entries).foldl visitor state := by
  simp only [forEach, expand, List.foldl_flatMap, iterate_eq_foldl]

theorem forEach_collect (entries : Entries α) :
    forEach (fun taken item => taken ++ [item]) entries [] = expand entries := by
  rw [forEach_eq, List.foldl_append_eq_append, List.nil_append, ← List.flatMap_def,
    List.flatMap_singleton']

/-- The slot is never found empty. -/
theorem injectBySlot_eq (entries : Entries α) (start : ν) (step : ν → α → ν) :
    injectBySlot entries start step = some ((expand entries).foldl step start) := by
  rw [injectBySlot, forEach_eq]
  exact List.foldl_hom some fun _ _ => rfl

end Entries

/-! ## Aggregations -/

structure Aggregation (κ ν : Type) where
  filed : Keyed κ ν
  asked : Nat

namespace Aggregation

def keys (reached : Aggregation κ ν) : List κ :=
  reached.filed.map Prod.fst

variable [DecidableEq κ]

/-- Fold the occurrences of an entry into the value under its key. A key that is new gets the next start;
what that is may depend on how many were asked for before. -/
def next (key : α → κ) (zero : Nat → ν) (step : ν → α → ν) (reached : Aggregation κ ν)
    (entry : α × Nat) : Aggregation κ ν :=
  let (value, asked) := match reached.filed.valueOf? (key entry.1) with
    | some value => (value, reached.asked)
    | none => (zero reached.asked, reached.asked + 1)
  ⟨reached.filed.insert (key entry.1) ((step · entry.1)^[entry.2] value), asked⟩

def ofEntries (entries : Entries α) (key : α → κ) (zero : Nat → ν) (step : ν → α → ν) : Aggregation κ ν :=
  entries.foldl (next key zero step) ⟨[], 0⟩

def occurrences (entries : Entries α) (key : α → κ) (value : κ) : List α :=
  (Entries.expand entries).filter fun item => key item = value

variable {key : α → κ} {zero : Nat → ν} {step : ν → α → ν} {reached : Aggregation κ ν}
  {entries : Entries α} {entry : α × Nat}

theorem occurrences_append_singleton (entries : Entries α) (entry : α × Nat) (key : α → κ) (value : κ) :
    occurrences (entries ++ [entry]) key value =
      if key entry.1 = value then occurrences entries key value ++ List.replicate entry.2 entry.1
      else occurrences entries key value := by
  rw [occurrences, Entries.expand_append, List.filter_append, Entries.expand_cons, List.filter_append,
    List.filter_replicate]
  by_cases same : key entry.1 = value <;> simp [occurrences, Entries.expand, same]

structure Folds (entries : Entries α) (key : α → κ) (zero : Nat → ν) (step : ν → α → ν)
    (reached : Aggregation κ ν) : Prop where
  distinct : reached.keys.Nodup
  mem_keys_iff (value : κ) : value ∈ reached.keys ↔ ∃ entry ∈ entries, key entry.1 = value
  asked : reached.asked = reached.keys.length
  valueOf? (value : κ) : value ∈ reached.keys → reached.filed.valueOf? value =
    some ((occurrences entries key value).foldl step (zero (reached.keys.idxOf value)))

theorem occurrences_of_absent {value : κ} (absent : ¬ ∃ entry ∈ entries, key entry.1 = value) :
    occurrences entries key value = [] := by
  rw [occurrences, List.filter_eq_nil_iff]
  intro item member same
  obtain ⟨entry, listed, rfl⟩ := List.mem_map.mp (Entries.mem_expand member)
  exact absent ⟨entry, listed, of_decide_eq_true same⟩

def keysWith (reached : Aggregation κ ν) (name : κ) : List κ :=
  if name ∈ reached.keys then reached.keys else reached.keys ++ [name]

theorem keysWith_of_mem {name : κ} (known : name ∈ reached.keys) : reached.keysWith name = reached.keys :=
  if_pos known

theorem keysWith_of_not_mem {name : κ} (new : name ∉ reached.keys) :
    reached.keysWith name = reached.keys ++ [name] :=
  if_neg new

theorem keys_insert (reached : Aggregation κ ν) (name : κ) (value : ν) (asked : Nat) :
    keys ⟨reached.filed.insert name value, asked⟩ = reached.keysWith name :=
  Keyed.keys_update ..

theorem mem_keysWith {name value : κ} :
    value ∈ reached.keysWith name ↔ value ∈ reached.keys ∨ name = value := by
  by_cases known : name ∈ reached.keys
  · rw [keysWith_of_mem known]
    exact (or_iff_left_of_imp fun same => same ▸ known).symm
  · rw [keysWith_of_not_mem known, List.mem_append, List.mem_singleton, eq_comm]

theorem idxOf_keysWith {name value : κ} (earlier : value ∈ reached.keys) :
    (reached.keysWith name).idxOf value = reached.keys.idxOf value := by
  by_cases known : name ∈ reached.keys
  · rw [keysWith_of_mem known]
  · rw [keysWith_of_not_mem known, List.idxOf_append_of_mem earlier]

/-- One entry more: its key has this value from the entries before. -/
theorem Folds.insert (folds : Folds entries key zero step reached) {value : ν} {asked : Nat}
    (started : (occurrences entries key (key entry.1)).foldl step
      (zero ((reached.keysWith (key entry.1)).idxOf (key entry.1))) = value)
    (counted : asked = (reached.keysWith (key entry.1)).length) :
    Folds (entries ++ [entry]) key zero step
      ⟨reached.filed.insert (key entry.1) ((step · entry.1)^[entry.2] value), asked⟩ := by
  constructor
  case distinct => exact Keyed.nodup_update folds.distinct _ _ _
  case mem_keys_iff =>
    intro name
    simp only [keys_insert, mem_keysWith, folds.mem_keys_iff, List.mem_append, List.mem_singleton,
      or_and_right, exists_or, exists_eq_left]
  case asked =>
    rw [keys_insert]
    exact counted
  case valueOf? =>
    intro name member
    rw [keys_insert] at member ⊢
    rw [Keyed.insert, Keyed.valueOf?_update, Entries.iterate_eq_foldl, occurrences_append_singleton]
    split
    case isTrue same => rw [← same, List.foldl_append, started]
    case isFalse other =>
      have earlier := (mem_keysWith.mp member).resolve_right other
      rw [idxOf_keysWith earlier]
      exact folds.valueOf? name earlier

-- A key that came before keeps its start. A new one goes behind the others, and its number among them is that
-- of the start it gets.
theorem Folds.next (folds : Folds entries key zero step reached) (entry : α × Nat) :
    Folds (entries ++ [entry]) key zero step (reached.next key zero step entry) := by
  by_cases known : key entry.1 ∈ reached.keys
  case pos =>
    have found := folds.valueOf? _ known
    rw [Aggregation.next, found]
    apply folds.insert
    · rw [idxOf_keysWith known]
    · rw [keysWith_of_mem known, folds.asked]
  case neg =>
    have none : reached.filed.valueOf? (key entry.1) = none := Keyed.valueOf?_eq_none.mpr known
    have first : occurrences entries key (key entry.1) = [] :=
      occurrences_of_absent fun earlier => known ((folds.mem_keys_iff _).mpr earlier)
    rw [Aggregation.next, none]
    apply folds.insert
    · rw [first, keysWith_of_not_mem known, List.idxOf_append_of_notMem known, List.idxOf_cons_self,
        Nat.add_zero, folds.asked, List.foldl_nil]
    · rw [keysWith_of_not_mem known, List.length_append, folds.asked, List.length_singleton]

theorem folds_ofEntries (entries : Entries α) (key : α → κ) (zero : Nat → ν) (step : ν → α → ν) :
    Folds entries key zero step (ofEntries entries key zero step) := by
  induction entries using List.reverseRecOn with
  | nil => exact ⟨List.nodup_nil, by simp [ofEntries, keys], rfl, fun _ member => nomatch member⟩
  | append_singleton entries entry ih =>
    rw [ofEntries, List.foldl_append]
    exact ih.next entry

/-- With one and the same start for every key it does not matter when the starts are asked for. -/
theorem filed_ofEntries (entries : Entries α) (key : α → κ) (start : ν) (step : ν → α → ν) :
    (ofEntries entries key (fun _ => start) step).filed = Entries.aggregateBy entries key start step := by
  rw [ofEntries, Entries.aggregateBy]
  refine (List.foldl_hom filed ?_).symm
  intro reached entry
  cases found : reached.filed.valueOf? (key entry.1) with
  | none =>
    simp only [next, found, Keyed.insert, Entries.iterate_eq_foldl]
    exact Keyed.update_congr (by rw [found, Option.getD_none])
  | some value =>
    simp only [next, found, Keyed.insert, Entries.iterate_eq_foldl]
    exact Keyed.update_congr (by rw [found, Option.getD_some])

end Aggregation

/-! ## Folds of a bag -/

namespace Bag

variable [DecidableEq α] {bag : Bag α}

/-- What an aggregation of a bag comes to, when the starts may differ from one request to the next. -/
structure Aggregates [DecidableEq κ] (bag : Bag α) (key : α → κ) (zero : Nat → ν) (step : ν → α → ν)
    (reached : Aggregation κ ν) : Prop where
  mem_keys_iff (value : κ) : value ∈ reached.keys ↔ ∃ item, bag.contains item ∧ key item = value
  valueOf? (value : κ) : value ∈ reached.keys → reached.filed.valueOf? value = some
    ((bag.toList.filter fun item => key item = value).foldl step (zero (reached.keys.idxOf value)))
  -- As many starts as keys, and no two keys with the start of one number.
  asked : reached.asked = reached.keys.length
  distinct : reached.keys.Nodup

structure FoldsOccurrences (bag : Bag α) : Prop where
  visited {σ : Type} (visitor : σ → α → σ) (state : σ) :
    bag.entries.forEach visitor state = bag.toList.foldl visitor state
  collected : bag.entries.forEach (fun taken item => taken ++ [item]) [] = bag.toList
  length : bag.toList.length = bag.size
  counted (item : α) : bag.toList.count item = bag.countOf item
  injected {ν : Type} (start : ν) (step : ν → α → ν) :
    bag.entries.inject start step = bag.toList.foldl step start
  injectedBySlot {ν : Type} (start : ν) (step : ν → α → ν) :
    bag.entries.injectBySlot start step = some (bag.entries.inject start step)
  aggregated {κ ν : Type} [DecidableEq κ] (key : α → κ) (zero : Nat → ν) (step : ν → α → ν) :
    Aggregates bag key zero step (.ofEntries bag.entries key zero step)
  aggregatedBy {κ ν : Type} [DecidableEq κ] (key : α → κ) (start : ν) (step : ν → α → ν) (value : κ)
    (result : ν) : (bag.entries.aggregateBy key start step).valueOf? value = some result ↔
      (∃ item, bag.contains item ∧ key item = value) ∧
        (bag.toList.filter fun item => key item = value).foldl step start = result

theorem exists_entry_iff (valid : bag.contents.Valid) (key : α → κ) (value : κ) :
    (∃ entry ∈ bag.entries, key entry.1 = value) ↔ ∃ item, bag.contains item ∧ key item = value := by
  simp only [contains_iff_mem valid, Entries.items, List.mem_map, exists_exists_and_eq_and]

theorem aggregates [DecidableEq κ] (valid : bag.contents.Valid) (key : α → κ) (zero : Nat → ν)
    (step : ν → α → ν) : Aggregates bag key zero step (.ofEntries bag.entries key zero step) := by
  have folds := Aggregation.folds_ofEntries bag.entries key zero step
  constructor
  case mem_keys_iff =>
    intro value
    rw [folds.mem_keys_iff, exists_entry_iff valid]
  case valueOf? => exact folds.valueOf?
  case asked => exact folds.asked
  case distinct => exact folds.distinct

theorem Aggregates.valueOf?_eq_some_iff [DecidableEq κ] {key : α → κ} {start : ν} {step : ν → α → ν}
    {reached : Aggregation κ ν} (aggregates : Aggregates bag key (fun _ => start) step reached)
    (value : κ) (result : ν) : reached.filed.valueOf? value = some result ↔
      (∃ item, bag.contains item ∧ key item = value) ∧
        (bag.toList.filter fun item => key item = value).foldl step start = result := by
  rw [← aggregates.mem_keys_iff]
  constructor
  · intro found
    have member : value ∈ reached.keys := List.mem_map_of_mem (Keyed.mem_of_valueOf? found)
    exact ⟨member, Option.some.inj ((aggregates.valueOf? value member).symm.trans found)⟩
  · rintro ⟨member, rfl⟩
    exact aggregates.valueOf? value member

theorem folds_by_occurrence (valid : bag.contents.Valid) : FoldsOccurrences bag := by
  constructor
  case visited => exact fun visitor state => Entries.forEach_eq visitor bag.entries state
  case collected => exact Entries.forEach_collect bag.entries
  case length => exact length_toList valid
  case counted => exact count_toList valid
  case injected => exact fun start step => rfl
  case injectedBySlot => exact fun start step => Entries.injectBySlot_eq bag.entries start step
  case aggregated => exact fun key zero step => aggregates valid key zero step
  case aggregatedBy =>
    intro κ ν _ key start step value result
    rw [← Aggregation.filed_ofEntries]
    exact (aggregates valid key (fun _ => start) step).valueOf?_eq_some_iff value result

/-- The elements of either key are scattered over the order, and the steps do not commute. The starts tell
when they were asked for. -/
theorem folds_by_occurrence_of_scattered_keys :
    let bag : Bag Nat := .parallel (.ofParts (.pool 4) (.ofBatchSize 2))
      (.sorted (fun first second => compare second first)
        (.plain ⟨[(2, 1), (5, 3), (1, 2), (4, 2)], 8⟩))
    let reached : Aggregation Nat (List Nat) :=
      .ofEntries bag.entries (· % 2) (fun number => [number]) (fun taken item => item :: taken)
    bag.contents.Valid ∧ FoldsOccurrences bag ∧
      reached = ⟨[(1, [1, 1, 5, 5, 5, 0]), (0, [2, 4, 4, 1])], 2⟩ := by
  intro bag reached
  have valid : bag.contents.Valid := ⟨by decide, by decide, by decide, by decide⟩
  have read : bag.entries = [(5, 3), (4, 2), (2, 1), (1, 2)] := by
    simp [bag, entries, arrange, compare, compareOfLessAndEq, List.mergeSort,
      List.MergeSort.Internal.splitInTwo]
  refine ⟨valid, folds_by_occurrence valid, ?_⟩
  simp only [reached, read]
  rfl

end Bag

end Collections
