import Collections.Proofs.Elements
import Collections.Proofs.Grouping
import Mathlib.Algebra.Order.BigOperators.Group.Finset

/-! Collecting a bag by values, against sums over its elements.

A value gets the counts of all its elements, up to the limit of a count. The limit of the total plays no
part. What was collected is never more than what was read, so that there is room for every entry that is
still to come.
-/

set_option autoImplicit false

namespace Collections

open Occurrences (holding)

variable {α κ : Type} [DecidableEq α] [DecidableEq κ]

theorem Occurrences.Valid.contains_iff {counts : Occurrences α} (valid : counts.Valid) (item : α) :
    counts.contains item ↔ 0 < counts.countOf item := by
  rw [← valid.mem_elements, elements, List.mem_toFinset, contains, List.contains_iff_mem]

namespace Bag

variable {bag : Bag α} {read other : Entries α}

theorem gathered_read (valid : bag.contents.Valid) (order : read.Perm bag.entries) (f : α → κ)
    (value : κ) : Entries.gathered read f value =
      ∑ item ∈ bag.contents.elements with f item = value, bag.countOf item :=
  total_filter_read valid order (f · = value)

theorem mem_image_elements (valid : bag.contents.Valid) (f : α → κ) (value : κ) :
    value ∈ bag.contents.elements.image f ↔ ∃ item, bag.contains item ∧ f item = value := by
  simp only [Finset.mem_image, valid.mem_elements, contains, decide_eq_true_eq]
  rfl

theorem gathered_pos_iff (valid : bag.contents.Valid) (order : read.Perm bag.entries) (f : α → κ)
    (value : κ) : 0 < Entries.gathered read f value ↔ ∃ item, bag.contains item ∧ f item = value := by
  rw [gathered_read valid order, Finset.sum_pos_iff]
  simp only [Finset.mem_filter, valid.mem_elements, contains, decide_eq_true_eq]
  constructor
  · rintro ⟨item, ⟨-, same⟩, present⟩
    exact ⟨item, present, same⟩
  · rintro ⟨item, present, same⟩
    exact ⟨item, ⟨present, same⟩, present⟩

/-! ## Collecting -/

theorem contains_collect (valid : bag.contents.Valid) (order : read.Perm bag.entries) (f : α → κ)
    (value : κ) : (Entries.collect read f).contains value ↔
      ∃ item, bag.contains item ∧ f item = value := by
  have whole := valid_read valid order
  have some_room : 0 < maxCount := by decide
  rw [(Entries.valid_collect whole f).contains_iff, Entries.countOf_collect whole,
    ← gathered_pos_iff valid order, lt_min_iff]
  exact and_iff_right some_room

theorem elements_collect (valid : bag.contents.Valid) (order : read.Perm bag.entries) (f : α → κ) :
    (Entries.collect read f).elements = bag.contents.elements.image f := by
  ext value
  have collected := Entries.valid_collect (valid_read valid order) f
  rw [collected.mem_elements, ← collected.contains_iff, contains_collect valid order,
    mem_image_elements valid]

omit [DecidableEq α] in
/-- When an entry is read, what was collected before leaves room for all of it. -/
theorem room_for_entry {earlier later : Entries α} {entry : α × Nat}
    (valid : (holding (earlier ++ entry :: later)).Valid) (f : α → κ) :
    entry.2 ≤ (Entries.collect earlier f).room := by
  have bounded := (valid.counted entry (List.mem_append_right _ List.mem_cons_self)).2
  have front : (holding earlier).Valid := valid.part (List.sublist_append_left _ _)
  have collected := Entries.collect_size_le front f
  have fits := valid.size_le
  rw [Occurrences.holding_size, Entries.total_append, Entries.total_cons] at fits
  unfold Occurrences.room
  omega

theorem size_group (valid : bag.contents.Valid) (order : read.Perm bag.entries) (key : α → κ)
    (value : κ) : ((Entries.groupBy read key).valueOf? value).elim 0 Occurrences.size =
      Entries.gathered read key value := by
  rw [Entries.valueOf?_groupBy (valid_read valid order), Entries.groupOf, Entries.gathered]
  split
  · rename_i none
    rw [none]
    rfl
  · rfl

structure Collects (bag : Bag α) (read : Entries α) (f : α → κ) : Prop where
  countOf (value : κ) : (Entries.collect read f).countOf value =
    min maxCount (∑ item ∈ bag.contents.elements with f item = value, bag.countOf item)
  contains (value : κ) : (Entries.collect read f).contains value ↔
    ∃ item, bag.contains item ∧ f item = value
  size : (Entries.collect read f).size =
    ∑ value ∈ bag.contents.elements.image f, (Entries.collect read f).countOf value
  -- No entry is clamped by the limit of the total at the time it is read.
  roomy (earlier later : Entries α) (entry : α × Nat) : read = earlier ++ entry :: later →
    entry.2 ≤ (Entries.collect earlier f).room
  countBy : Entries.countBy read f = Entries.collect read f
  reordered (other : Entries α) : other.Perm bag.entries →
    (Entries.collect other f).Alike (Entries.collect read f)
  grouped (other : Entries α) (key : κ) : other.Perm bag.entries →
    (Entries.countBy read f).countOf key =
      min maxCount (((Entries.groupBy other f).valueOf? key).elim 0 Occurrences.size)

/-- In whatever order a bag is read, a value gets the sum of the counts of its elements, up to the limit of
a count. -/
theorem collect_sums_counts (valid : bag.contents.Valid) (order : read.Perm bag.entries) (f : α → κ) :
    Collects bag read f := by
  have whole := valid_read valid order
  have counted := Entries.countOf_collect whole f
  constructor
  case countOf =>
    intro value
    rw [counted, gathered_read valid order]
  case contains => exact contains_collect valid order f
  case size =>
    rw [(Entries.valid_collect whole f).size_eq_sum, elements_collect valid order]
  case roomy =>
    rintro earlier later entry rfl
    exact room_for_entry whole f
  case countBy => rfl
  case reordered =>
    intro other permuted
    exact Entries.collect_alike whole (permuted.trans order.symm) f
  case grouped =>
    intro other key permuted
    rw [size_group valid permuted, gathered_read valid permuted, Entries.countBy, counted,
      gathered_read valid order]

/-- Two elements of one value go beyond the limit of a count together, next to the limit of the total. -/
theorem collect_sums_counts_up_to_limit :
    let bag : Bag Nat := .shared 0 (.plain ⟨[(2, maxCount), (4, 1), (3, maxCount)], maxTotal⟩)
    let read : Entries Nat := [(4, 1), (2, maxCount), (3, maxCount)]
    bag.contents.Valid ∧ read.Perm bag.entries ∧ Collects bag read (· / 2) ∧
      (Entries.collect read (· / 2)).entries = [(2, 1), (1, maxCount)] := by
  intro bag read
  have valid : bag.contents.Valid := ⟨by decide, by decide, by decide, by decide⟩
  have order : read.Perm bag.entries := List.Perm.swap _ _ _
  exact ⟨valid, order, collect_sums_counts valid order _, by decide⟩

end Bag

end Collections
