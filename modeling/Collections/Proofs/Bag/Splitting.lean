import Collections.Proofs.Bag.Equality
import Collections.Proofs.Bag.Transparent
import Collections.Proofs.Bag.Values
import Collections.Proofs.Ranking

/-! Splitting a bag by a predicate, by keys or by counts.

What is split off is filled by insertions that clamp, and sums of counts are not checked. Neither loses
anything: each part is a part of one bag that fits, so every element goes where it belongs with the count
that it has in the bag.
-/

set_option autoImplicit false

namespace Collections

open Occurrences (holding)

variable {α κ : Type}

namespace Entries

def countInWords (entries : Entries α) (wanted : α → Bool) : Option Nat :=
  entries.foldlM
    (fun sum entry => if wanted entry.1 then Occurrences.grownInWords sum entry.2 else some sum) 0

theorem countInWords_eq {entries : Entries α} (fits : total entries ≤ maxTotal) (wanted : α → Bool) :
    countInWords entries wanted = some (count entries wanted) := by
  have part : 0 + total (entries.filter fun entry => wanted entry.1) ≤ maxTotal := by
    rw [Nat.zero_add]
    exact Nat.le_trans (total_sublist List.filter_sublist) fits
  calc countInWords entries wanted
    _ = totalInWords 0 (entries.filter fun entry => wanted entry.1) := List.foldlM_filter.symm
    _ = some (count entries wanted) := by rw [totalInWords_eq part, Nat.zero_add, count_eq_total]

theorem count_add_count (entries : Entries α) (wanted : α → Bool) :
    count entries wanted + count entries (fun item => !wanted item) = total entries := by
  rw [count_eq_total, count_eq_total]
  exact total_filter_add entries fun entry => wanted entry.1

section Counts

variable [DecidableEq α]

theorem nodup_groupBy [DecidableEq κ] (entries : Entries α) (key : α → κ) :
    ((groupBy entries key).map Prod.fst).Nodup :=
  List.foldlRecOn (motive := fun groups => (List.map Prod.fst groups).Nodup) entries _ List.nodup_nil
    fun _ distinct _ _ => Keyed.nodup_update distinct _ _ _

end Counts

end Entries

theorem Keyed.mem_keys_iff {ν : Type} [DecidableEq κ] {filed : Keyed κ ν} {key : κ} :
    key ∈ filed.map Prod.fst ↔ ∃ value, filed.valueOf? key = some value := by
  rw [← Option.ne_none_iff_exists', Ne, valueOf?_eq_none, not_not]

/-- What is filed under all keys together, key by key. -/
theorem Keyed.sum_map {ν : Type} [DecidableEq κ] {filed : Keyed κ ν}
    (distinct : (filed.map Prod.fst).Nodup) (measure : ν → Nat) :
    (filed.map fun pair => measure pair.2).sum =
      ∑ key ∈ (filed.map Prod.fst).toFinset, (filed.valueOf? key).elim 0 measure := by
  rw [List.sum_toFinset _ distinct, List.map_map]
  congr 1
  apply List.map_congr_left
  intro pair member
  rw [Function.comp, valueOf?_of_mem distinct member]
  rfl

namespace Bag

variable [DecidableEq α] {bag : Bag α} {read : Entries α} {part other : Occurrences α}

/-- A bag of these elements of another bag, all of them and with the counts they have there. -/
structure Portion (bag : Bag α) (wanted : α → Prop) [DecidablePred wanted] (part : Occurrences α) :
    Prop where
  valid : part.Valid
  countOf (item : α) : part.countOf item = if wanted item then bag.countOf item else 0

namespace Portion

variable {wanted : α → Prop} [DecidablePred wanted]

theorem contains_iff (portion : Portion bag wanted part) (item : α) :
    part.contains item ↔ bag.contains item ∧ wanted item := by
  rw [portion.valid.contains_iff, portion.countOf, contains, decide_eq_true_eq]
  split
  · rename_i chosen
    exact (and_iff_left chosen).symm
  · rename_i left
    exact ⟨fun none => absurd none (Nat.lt_irrefl 0), fun both => absurd both.2 left⟩

theorem same (portion : Portion bag wanted part) (again : Portion bag wanted other) : part.same other :=
  (portion.valid.same_iff again.valid).mpr fun item => by rw [portion.countOf, again.countOf]

end Portion

-- What a read keeps may depend on the element and on its count, and in a bag the element has only one.
theorem portion_filter (valid : bag.contents.Valid) (order : read.Perm bag.entries)
    (keep : α × Nat → Bool) {wanted : α → Prop} [DecidablePred wanted]
    (chosen : ∀ item, keep (item, bag.countOf item) ↔ wanted item) :
    Portion bag wanted (holding (read.filter keep)) where
  valid := (valid_read valid order).part List.filter_sublist
  countOf item := by
    have distinct : (Entries.items read).Nodup := (valid_read valid order).distinct
    have counted : Entries.countOf read item = bag.countOf item := countOf_read valid order item
    rw [Occurrences.countOf, Occurrences.holding_entries, Entries.countOf_filter distinct, counted]
    simp only [chosen]

theorem portion_ofEntries (valid : bag.contents.Valid) (order : read.Perm bag.entries)
    (keep : α × Nat → Bool) {wanted : α → Prop} [DecidablePred wanted]
    (chosen : ∀ item, keep (item, bag.countOf item) ↔ wanted item) :
    Portion bag wanted (.ofEntries (read.filter keep)) := by
  rw [Batching.ofEntries_filter (valid_read valid order)]
  exact portion_filter valid order keep chosen

/-! ## By a predicate -/

structure Splits (bag : Bag α) (read : Entries α) (wanted : α → Bool) : Prop where
  partition : Entries.partition read wanted = (Entries.select read wanted, Entries.reject read wanted)
  selected : Portion bag (wanted · = true) (Entries.select read wanted)
  rejected : Portion bag (wanted · = false) (Entries.reject read wanted)
  oneSide (item : α) : bag.contains item →
    ((Entries.select read wanted).contains item ↔ ¬ (Entries.reject read wanted).contains item)
  reordered (again : Entries α) : again.Perm bag.entries →
    (Entries.select again wanted).same (Entries.partition read wanted).1 ∧
      (Entries.reject again wanted).same (Entries.partition read wanted).2
  count : Entries.count read wanted = (Entries.select read wanted).size
  counts : Entries.count read wanted + Entries.count read (fun item => !wanted item) = bag.size
  countInWords : Entries.countInWords read wanted = some (Entries.count read wanted)
  countsInWords : Occurrences.grownInWords (Entries.count read wanted)
    (Entries.count read fun item => !wanted item) = some bag.size

theorem selected_portion (valid : bag.contents.Valid) (order : read.Perm bag.entries)
    (wanted : α → Bool) : Portion bag (wanted · = true) (Entries.select read wanted) :=
  portion_ofEntries valid order (fun entry => wanted entry.1) fun _ => Iff.rfl

theorem rejected_portion (valid : bag.contents.Valid) (order : read.Perm bag.entries)
    (wanted : α → Bool) : Portion bag (wanted · = false) (Entries.reject read wanted) :=
  portion_ofEntries valid order (fun entry => !wanted entry.1) fun _ => by rw [Bool.not_eq_true']

omit [DecidableEq α] in
theorem total_read (valid : bag.contents.Valid) (order : read.Perm bag.entries) :
    Entries.total read = bag.size := by
  rw [Entries.total_perm (order.trans bag.entries_perm), ← valid.size_eq, size]

theorem splits (valid : bag.contents.Valid) (order : read.Perm bag.entries) (wanted : α → Bool) :
    Splits bag read wanted := by
  have whole := valid_read valid order
  have partition := Entries.partition_eq read wanted
  have selected := selected_portion valid order wanted
  have rejected := rejected_portion valid order wanted
  have counts : Entries.count read wanted + Entries.count read (fun item => !wanted item) = bag.size :=
    (Entries.count_add_count read wanted).trans (total_read valid order)
  constructor
  case partition => exact partition
  case selected => exact selected
  case rejected => exact rejected
  case oneSide =>
    intro item present
    rw [selected.contains_iff, rejected.contains_iff, and_iff_right present, and_iff_right present,
      Bool.not_eq_false]
  case reordered =>
    intro again permuted
    rw [partition]
    exact ⟨(selected_portion valid permuted wanted).same selected,
      (rejected_portion valid permuted wanted).same rejected⟩
  case count =>
    rw [Entries.count_eq_total, Entries.select, Batching.ofEntries_filter whole, Occurrences.holding_size]
  case counts => exact counts
  case countInWords => exact Entries.countInWords_eq whole.size_le wanted
  case countsInWords =>
    rw [← counts]
    exact Occurrences.grownInWords_eq (counts ▸ valid.size_le)

/-! ## By keys -/

section Groups

variable [DecidableEq κ]

structure Groups (bag : Bag α) (read : Entries α) (key : α → κ) : Prop where
  distinct : ((Entries.groupBy read key).map Prod.fst).Nodup
  exists_iff (value : κ) : (∃ group, (Entries.groupBy read key).valueOf? value = some group) ↔
    ∃ item, bag.contains item ∧ key item = value
  portion (value : κ) (group : Occurrences α) : (Entries.groupBy read key).valueOf? value = some group →
    Portion bag (key · = value) group
  member (item : α) (value : κ) (group : Occurrences α) :
    (Entries.groupBy read key).valueOf? value = some group →
      (group.contains item ↔ bag.contains item ∧ key item = value)
  sizes : ((Entries.groupBy read key).map fun filed => filed.2.size).sum = bag.size

theorem group_exists_iff (valid : bag.contents.Valid) (order : read.Perm bag.entries) (key : α → κ)
    (value : κ) : (∃ group, (Entries.groupBy read key).valueOf? value = some group) ↔
      ∃ item, bag.contains item ∧ key item = value := by
  have some_entry : Entries.under read key value ≠ [] ↔
      ∃ item, bag.contains item ∧ key item = value := by
    simp only [Entries.under, ne_eq, List.filter_eq_nil_iff, decide_eq_true_eq, not_forall, not_not,
      Prod.exists, exists_prop, order.mem_iff, mem_entries_iff valid]
    constructor
    · rintro ⟨item, -, ⟨present, -⟩, same⟩
      exact ⟨item, present, same⟩
    · rintro ⟨item, present, same⟩
      exact ⟨item, _, ⟨present, rfl⟩, same⟩
  rw [← some_entry, Entries.valueOf?_groupBy (valid_read valid order), Entries.groupOf]
  split
  · rename_i none
    constructor
    · rintro ⟨group, found⟩
      cases found
    · exact fun some => absurd none some
  · rename_i some
    exact ⟨fun _ => some, fun _ => ⟨_, rfl⟩⟩

theorem group_portion (valid : bag.contents.Valid) (order : read.Perm bag.entries) {key : α → κ}
    {value : κ} {group : Occurrences α}
    (found : (Entries.groupBy read key).valueOf? value = some group) :
    Portion bag (key · = value) group := by
  rw [Entries.valueOf?_groupBy (valid_read valid order), Entries.groupOf] at found
  split at found
  · cases found
  · cases found
    exact portion_filter valid order _ fun _ => decide_eq_true_iff

theorem sum_groups (valid : bag.contents.Valid) (order : read.Perm bag.entries) (key : α → κ) :
    ((Entries.groupBy read key).map fun filed => filed.2.size).sum = bag.size := by
  have keys : ((Entries.groupBy read key).map Prod.fst).toFinset = bag.contents.elements.image key := by
    ext value
    rw [List.mem_toFinset, Keyed.mem_keys_iff, group_exists_iff valid order, mem_image_elements valid]
  calc ((Entries.groupBy read key).map fun filed => filed.2.size).sum
    _ = ∑ value ∈ bag.contents.elements.image key,
          ((Entries.groupBy read key).valueOf? value).elim 0 Occurrences.size := by
      rw [Keyed.sum_map (Entries.nodup_groupBy read key), keys]
    _ = ∑ value ∈ bag.contents.elements.image key,
          ∑ item ∈ bag.contents.elements with key item = value, bag.countOf item := by
      simp only [size_group valid order, gathered_read valid order]
    _ = ∑ item ∈ bag.contents.elements, bag.countOf item :=
      Finset.sum_fiberwise_of_maps_to (fun _ => Finset.mem_image_of_mem key) _
    _ = bag.size := valid.size_eq_sum.symm

theorem groups (valid : bag.contents.Valid) (order : read.Perm bag.entries) (key : α → κ) :
    Groups bag read key := by
  constructor
  case distinct => exact Entries.nodup_groupBy read key
  case exists_iff => exact group_exists_iff valid order key
  case portion => exact fun _ _ found => group_portion valid order found
  case member =>
    intro item value group found
    exact (group_portion valid order found).contains_iff item
  case sizes => exact sum_groups valid order key

end Groups

/-! ## By counts -/

/-- What is picked off a bag by counts: entry by entry in this order, and by the reads of the bag itself,
which are in batches if the executors of its parallel layers run in this way. -/
structure Picks (run : Batching → Executor.Runs) (bag : Bag α) (read : Entries α) : Prop where
  byCount (wanted : Nat → Bool) :
    Portion bag (fun item => wanted (bag.countOf item) = true) (Entries.selectByCount read wanted)
  duplicates : Portion bag (1 < bag.countOf ·) (Entries.duplicates read)
  unique : (Entries.unique read).Nodup ∧ ∀ item, item ∈ Entries.unique read ↔ bag.countOf item = 1
  ownDuplicates : ∃ found, (bag.duplicatesBy run).answer = .ok found ∧
    Portion bag (1 < bag.countOf ·) found
  ownUnique : ∃ found, (bag.uniqueBy run).answer = .ok found ∧
    found.Nodup ∧ ∀ item, item ∈ found ↔ bag.countOf item = 1

theorem picked_portion (valid : bag.contents.Valid) (order : read.Perm bag.entries)
    (wanted : Nat → Bool) :
    Portion bag (fun item => wanted (bag.countOf item) = true) (Entries.selectByCount read wanted) :=
  portion_ofEntries valid order (fun entry => wanted entry.2) fun _ => Iff.rfl

theorem duplicates_portion (valid : bag.contents.Valid) (order : read.Perm bag.entries) :
    Portion bag (1 < bag.countOf ·) (Entries.duplicates read) :=
  portion_ofEntries valid order (fun entry => 1 < entry.2) fun _ => decide_eq_true_iff

omit [DecidableEq α] in
theorem nodup_unique (valid : bag.contents.Valid) (order : read.Perm bag.entries) :
    (Entries.unique read).Nodup :=
  (valid_read valid order).distinct.sublist (List.filter_sublist.map Prod.fst)

theorem mem_unique_iff (valid : bag.contents.Valid) (order : read.Perm bag.entries) (item : α) :
    item ∈ Entries.unique read ↔ bag.countOf item = 1 := by
  simp only [Entries.unique, Entries.items, List.mem_map, List.mem_filter, beq_iff_eq, Prod.exists,
    order.mem_iff, mem_entries_iff valid]
  constructor
  · rintro ⟨item, count, ⟨⟨-, same⟩, rfl⟩, rfl⟩
    exact same
  · intro single
    have present : bag.contains item := by
      rw [contains, single]
      rfl
    exact ⟨item, 1, ⟨⟨present, single⟩, rfl⟩, rfl⟩

theorem picks {run : Batching → Executor.Runs} (inOrder : ∀ batching, Executor.InOrder (run batching))
    (valid : bag.contents.Valid) (order : read.Perm bag.entries) : Picks run bag read := by
  have own : bag.entries.Perm bag.entries := List.Perm.refl _
  constructor
  case byCount => exact picked_portion valid order
  case duplicates => exact duplicates_portion valid order
  case unique => exact ⟨nodup_unique valid order, mem_unique_iff valid order⟩
  case ownDuplicates =>
    exact ⟨_, duplicatesBy_answer inOrder valid, duplicates_portion valid own⟩
  case ownUnique =>
    obtain ⟨found, answered, same⟩ := uniqueBy_answer inOrder valid
    refine ⟨found, answered, same.nodup_iff.mpr (nodup_unique valid own), ?_⟩
    intro item
    rw [same.mem_iff, mem_unique_iff valid own]

/-! ## All of them -/

/-- In whatever order a bag is read, a predicate, keys and counts split it without losing or inventing
anything. -/
theorem splits_lose_nothing [DecidableEq κ] {run : Batching → Executor.Runs}
    (inOrder : ∀ batching, Executor.InOrder (run batching)) (valid : bag.contents.Valid)
    (order : read.Perm bag.entries) (wanted : α → Bool) (key : α → κ) :
    Splits bag read wanted ∧ Groups bag read key ∧ Picks run bag read :=
  ⟨splits valid order wanted, groups valid order key, picks inOrder valid order⟩

/-- Two full elements and a third in a bag that is full itself, read against the order of its layers. -/
theorem splits_lose_nothing_at_limit :
    let run (_ : Batching) : Executor.Runs := (Executor.pool 4).run
    let bag : Bag Nat := .parallel (.ofParts (.pool 4) (.ofBatchSize 2))
      (.sorted compare (.plain ⟨[(3, maxCount), (1, maxCount), (2, 1)], maxTotal⟩))
    let read : Entries Nat := [(2, 1), (1, maxCount), (3, maxCount)]
    (∀ batching, Executor.InOrder (run batching)) ∧ bag.contents.Valid ∧ read.Perm bag.entries ∧
      (Splits bag read (· != 1) ∧ Groups bag read (· / 2) ∧ Picks run bag read) ∧
      Entries.partition read (· != 1) =
        (⟨[(2, 1), (3, maxCount)], maxCount + 1⟩, ⟨[(1, maxCount)], maxCount⟩) ∧
      Entries.groupBy read (· / 2) =
        [(1, ⟨[(2, 1), (3, maxCount)], maxCount + 1⟩), (0, ⟨[(1, maxCount)], maxCount⟩)] := by
  intro run bag read
  have inOrder (batching : Batching) : Executor.InOrder (run batching) := Executor.inOrder_runInOrder
  have valid : bag.contents.Valid := ⟨by decide, by decide, by decide, by decide⟩
  have order : read.Perm bag.entries := by
    have listed : read.Perm bag.contents.entries := by decide
    exact listed.trans bag.entries_perm.symm
  exact ⟨inOrder, valid, order, splits_lose_nothing inOrder valid order _ _, by decide, by decide⟩

end Bag

end Collections
