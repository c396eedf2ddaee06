import Collections.Proofs.Bag.Parallel
import Collections.Proofs.Occurrences.Alike
import Mathlib.Algebra.BigOperators.Group.Finset.Basic

/-! The elements of a bag as a finite set. Totals are sums of counts over them, and a sum over a set says
nothing of the order in which the entries are read.
-/

set_option autoImplicit false

namespace Collections

open Occurrences (holding)

variable {α : Type}

namespace Entries

/-! ## Occurrences one by one -/

theorem expand_cons (entry : α × Nat) (entries : Entries α) :
    expand (entry :: entries) = List.replicate entry.2 entry.1 ++ expand entries := rfl

theorem length_expand (entries : Entries α) : (expand entries).length = total entries := by
  induction entries with
  | nil => rfl
  | cons entry rest ih =>
    rw [expand_cons, List.length_append, List.length_replicate, ih, total_cons]

theorem mem_expand {entries : Entries α} {item : α} (member : item ∈ expand entries) :
    item ∈ items entries := by
  obtain ⟨entry, listed, repeated⟩ := List.mem_flatMap.mp member
  rw [List.eq_of_mem_replicate repeated]
  exact List.mem_map_of_mem listed

theorem expand_append (entries more : Entries α) :
    expand (entries ++ more) = expand entries ++ expand more :=
  List.flatMap_append

theorem filter_expand (entries : Entries α) (wanted : α → Bool) :
    (expand entries).filter wanted = expand (entries.filter fun entry => wanted entry.1) := by
  induction entries with
  | nil => rfl
  | cons entry rest ih =>
    rw [expand_cons, List.filter_append, List.filter_replicate, ih, List.filter_cons]
    cases wanted entry.1 <;> rfl

variable [DecidableEq α]

theorem count_expand {entries : Entries α} (distinct : (items entries).Nodup) (item : α) :
    (expand entries).count item = countOf entries item := by
  induction entries with
  | nil => rfl
  | cons entry rest ih =>
    obtain ⟨fresh, distinct⟩ := List.nodup_cons.mp distinct
    rw [expand_cons, List.count_append, List.count_replicate, ih distinct, countOf_cons]
    by_cases same : entry.1 = item
    · subst same
      rw [if_pos BEq.rfl, if_pos rfl, countOf_of_not_mem fresh, Nat.add_zero]
    · rw [beq_false_of_ne same, if_neg Bool.false_ne_true, if_neg same, Nat.zero_add]

/-! ## Totals -/

omit [DecidableEq α] in
theorem total_eq_sum_map (entries : Entries α) : total entries = (entries.map Prod.snd).sum := by
  induction entries with
  | nil => rfl
  | cons entry rest ih => rw [total_cons, ih, List.map_cons, List.sum_cons]

/-- The total of a part of the entries is the sum of the counts that its elements have in the whole. -/
theorem total_eq_sum {entries part : Entries α} (distinct : (items entries).Nodup)
    (within : part.Sublist entries) :
    total part = ∑ item ∈ (items part).toFinset, countOf entries item := by
  have counted : part.map Prod.snd = (items part).map (countOf entries) := by
    rw [items, List.map_map]
    apply List.map_congr_left
    intro entry member
    exact (countOf_of_mem distinct (within.subset member)).symm
  have apart : (items part).Nodup := distinct.sublist (within.map Prod.fst)
  rw [total_eq_sum_map, counted, List.sum_toFinset _ apart]

theorem toFinset_items_filter (entries : Entries α) (wanted : α → Prop) [DecidablePred wanted] :
    (items (entries.filter fun entry => wanted entry.1)).toFinset =
      {item ∈ (items entries).toFinset | wanted item} := by
  have kept : items (entries.filter fun entry => wanted entry.1) =
      (items entries).filter fun item => wanted item := by
    rw [items, items, List.filter_map]
    rfl
  rw [kept, List.toFinset_filter]
  simp only [decide_eq_true_eq]

end Entries

namespace Occurrences

variable [DecidableEq α] {counts : Occurrences α}

def elements (counts : Occurrences α) : Finset α :=
  (Entries.items counts.entries).toFinset

theorem Valid.mem_elements (valid : counts.Valid) (item : α) :
    item ∈ counts.elements ↔ 0 < counts.countOf item := by
  rw [elements, List.mem_toFinset]
  constructor
  · intro member
    obtain ⟨entry, listed, rfl⟩ := List.mem_map.mp member
    obtain ⟨positive, same⟩ := (valid.mem_entries_iff entry).mp listed
    exact same ▸ positive
  · intro present
    exact List.mem_map_of_mem (Entries.mem_of_countOf present)

theorem Valid.size_eq_sum (valid : counts.Valid) :
    counts.size = ∑ item ∈ counts.elements, counts.countOf item := by
  rw [valid.size_eq]
  exact Entries.total_eq_sum valid.distinct (List.Sublist.refl _)

end Occurrences

/-! ## Reading a bag in any order -/

namespace Bag

variable {bag : Bag α} {read : Entries α}

theorem valid_read (valid : bag.contents.Valid) (order : read.Perm bag.entries) :
    (holding read).Valid :=
  (valid_entries valid).perm order

theorem isEmpty_iff (valid : bag.contents.Valid) : bag.isEmpty ↔ bag.entries = [] := by
  have counted := (valid_entries valid).counted
  rw [isEmpty, beq_iff_eq, size, valid.size_eq, ← Entries.total_perm bag.entries_perm]
  cases entries : bag.entries with
  | nil => exact iff_of_true rfl rfl
  | cons entry rest =>
    have positive : 0 < entry.2 := (counted entry (entries ▸ List.mem_cons_self)).1
    rw [Entries.total_cons]
    exact iff_of_false (by omega) (List.cons_ne_nil entry rest)

theorem length_toList (valid : bag.contents.Valid) : bag.toList.length = bag.size := by
  rw [toList, Entries.length_expand, Entries.total_perm bag.entries_perm, ← valid.size_eq, size]

variable [DecidableEq α]

theorem mem_entries_iff (valid : bag.contents.Valid) (item : α) (count : Nat) :
    (item, count) ∈ bag.entries ↔ bag.contains item ∧ bag.countOf item = count := by
  rw [bag.entries_perm.mem_iff, valid.mem_entries_iff, contains, decide_eq_true_eq]
  apply and_congr_left
  intro same
  rw [countOf, same]

theorem contains_iff_mem (valid : bag.contents.Valid) (item : α) :
    bag.contains item ↔ item ∈ Entries.items bag.entries := by
  rw [Entries.items, List.mem_map]
  constructor
  · intro present
    exact ⟨(item, bag.countOf item), (mem_entries_iff valid _ _).mpr ⟨present, rfl⟩, rfl⟩
  · rintro ⟨⟨item, count⟩, member, rfl⟩
    exact ((mem_entries_iff valid item count).mp member).1

theorem countOf_read (valid : bag.contents.Valid) (order : read.Perm bag.entries) (item : α) :
    (holding read).countOf item = bag.countOf item :=
  Entries.countOf_perm (valid_read valid order).distinct (order.trans bag.entries_perm) item

theorem count_toList (valid : bag.contents.Valid) (item : α) :
    bag.toList.count item = bag.countOf item := by
  have distinct : (Entries.items bag.entries).Nodup := (valid_entries valid).distinct
  rw [toList, Entries.count_expand distinct]
  exact countOf_read valid (List.Perm.refl _) item

theorem total_filter_read (valid : bag.contents.Valid) (order : read.Perm bag.entries)
    (wanted : α → Prop) [DecidablePred wanted] :
    Entries.total (read.filter fun entry => wanted entry.1) =
      ∑ item ∈ bag.contents.elements with wanted item, bag.countOf item := by
  rw [Entries.total_perm ((order.trans bag.entries_perm).filter _),
    Entries.total_eq_sum valid.distinct List.filter_sublist, Entries.toFinset_items_filter]
  rfl

end Bag

end Collections
