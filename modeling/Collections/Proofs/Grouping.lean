import Collections.Entries.Grouping
import Collections.Entries.Selection
import Collections.Proofs.Occurrences.Alike

/-! Reads that bring together what has one value or one key.

A value gets the occurrences of all its elements, as far as one element can have them. The limit of a
total is never met: what is read comes from one valid bag. None of this depends on the order of the
entries.
-/

set_option autoImplicit false

namespace Collections

variable {α κ : Type} [DecidableEq κ]

namespace Entries

def under (entries : Entries α) (f : α → κ) (value : κ) : Entries α :=
  entries.filter fun entry => f entry.1 = value

def gathered (entries : Entries α) (f : α → κ) (value : κ) : Nat :=
  total (under entries f value)

theorem under_append (entries more : Entries α) (f : α → κ) (value : κ) :
    under (entries ++ more) f value = under entries f value ++ under more f value :=
  List.filter_append ..

@[simp] theorem gathered_nil (f : α → κ) (value : κ) : gathered [] f value = 0 := rfl

theorem gathered_append (entries more : Entries α) (f : α → κ) (value : κ) :
    gathered (entries ++ more) f value = gathered entries f value + gathered more f value := by
  rw [gathered, under_append, total_append, gathered, gathered]

theorem gathered_cons (entry : α × Nat) (entries : Entries α) (f : α → κ) (value : κ) :
    gathered (entry :: entries) f value =
      (if f entry.1 = value then entry.2 else 0) + gathered entries f value := by
  unfold gathered under
  by_cases same : f entry.1 = value
  · simp only [List.filter_cons, same, decide_true, ↓reduceIte, total_cons]
  · simp only [List.filter_cons, same, decide_false, Bool.false_eq_true, ↓reduceIte, Nat.zero_add]

theorem gathered_perm {entries others : Entries α} (same : entries.Perm others) (f : α → κ)
    (value : κ) : gathered entries f value = gathered others f value :=
  total_perm (same.filter _)

end Entries

namespace Occurrences

theorem accumulate_size_le (counts : Occurrences κ) (item : κ) (amount : Nat) :
    (counts.accumulate (item, amount)).size ≤ counts.size + amount := by
  simp only [accumulate]
  split
  · exact Nat.le_add_right _ _
  · simp only
    omega

/-- Where the total has room for all of them, occurrences are lost at the limit of a count only. -/
theorem Valid.countOf_accumulate {counts : Occurrences κ} (valid : counts.Valid) (item : κ)
    {amount : Nat} (positive : 0 < amount) (fits : counts.size + amount ≤ maxTotal) (each : κ) :
    (counts.accumulate (item, amount)).countOf each =
      min maxCount (counts.countOf each + if item = each then amount else 0) := by
  have bounded := valid.countOf_le_maxCount each
  have some_room : 0 < maxCount := by decide
  have left : counts.room ≠ 0 := by
    unfold room
    omega
  simp only [Occurrences.accumulate, left, ↓reduceIte, countOf_put]
  split
  · rename_i same
    subst same
    unfold room
    omega
  · exact (Nat.min_eq_right bounded).symm

-- The induction is over what is still to come, into any bag that has room for it.
theorem Valid.foldl_accumulate {counts : Occurrences κ} (valid : counts.Valid) {entries : Entries α}
    (f : α → κ) (positive : ∀ entry ∈ entries, 0 < entry.2)
    (fits : counts.size + Entries.total entries ≤ maxTotal) :
    let full := entries.foldl (fun counts entry => counts.accumulate (f entry.1, entry.2)) counts
    full.Valid ∧ full.size ≤ counts.size + Entries.total entries ∧
      ∀ value, full.countOf value =
        min maxCount (counts.countOf value + Entries.gathered entries f value) := by
  induction entries generalizing counts with
  | nil =>
    refine ⟨valid, Nat.le_refl _, ?_⟩
    intro value
    exact (Nat.min_eq_right (valid.countOf_le_maxCount value)).symm
  | cons entry rest ih =>
    rw [Entries.total_cons] at fits
    have first := positive entry List.mem_cons_self
    have added := accumulate_size_le counts (f entry.1) entry.2
    have added_valid : (counts.accumulate (f entry.1, entry.2)).Valid := valid.accumulate first
    obtain ⟨full_valid, full_size, full_counts⟩ := ih added_valid
      (fun other member => positive other (List.mem_cons_of_mem _ member)) (by omega)
    refine ⟨full_valid, ?_, ?_⟩
    · rw [Entries.total_cons]
      exact Nat.le_trans full_size (by omega)
    · intro value
      rw [List.foldl_cons, full_counts, valid.countOf_accumulate (f entry.1) first (by omega),
        Entries.gathered_cons]
      omega

end Occurrences

open Occurrences (holding)

namespace Entries

variable {entries others : Entries α}

/-! ## Collecting -/

theorem foldl_collect (valid : (holding entries).Valid) (f : α → κ) :
    (collect entries f).Valid ∧ (collect entries f).size ≤ total entries ∧
      ∀ value, (collect entries f).countOf value = min maxCount (gathered entries f value) := by
  have positive : ∀ entry ∈ entries, 0 < entry.2 := fun entry member =>
    (valid.counted entry member).1
  have empty_size : (Occurrences.empty : Occurrences κ).size = 0 := rfl
  have empty_count (value : κ) : Occurrences.empty.countOf value = 0 := rfl
  have fits : (Occurrences.empty : Occurrences κ).size + total entries ≤ maxTotal := by
    rw [empty_size, Nat.zero_add]
    exact valid.size_le
  obtain ⟨full_valid, size_le, counted⟩ := Occurrences.valid_empty.foldl_accumulate f positive fits
  rw [empty_size, Nat.zero_add] at size_le
  simp only [empty_count, Nat.zero_add] at counted
  exact ⟨full_valid, size_le, counted⟩

theorem valid_collect (valid : (holding entries).Valid) (f : α → κ) : (collect entries f).Valid :=
  (foldl_collect valid f).1

theorem collect_size_le (valid : (holding entries).Valid) (f : α → κ) :
    (collect entries f).size ≤ total entries :=
  (foldl_collect valid f).2.1

theorem countOf_collect (valid : (holding entries).Valid) (f : α → κ) (value : κ) :
    (collect entries f).countOf value = min maxCount (gathered entries f value) :=
  (foldl_collect valid f).2.2 value

theorem collect_alike (valid : (holding entries).Valid) (same : others.Perm entries) (f : α → κ) :
    (collect others f).Alike (collect entries f) := by
  have other_valid := valid.perm same
  apply (valid_collect other_valid f).alike (valid_collect valid f)
  intro value
  rw [countOf_collect valid, countOf_collect other_valid, gathered_perm same]

/-! ## Groups -/

def groupOf (entries : Entries α) (key : α → κ) (value : κ) : Option (Occurrences α) :=
  if under entries key value = [] then none else some (holding (under entries key value))

theorem groupOf_getD (entries : Entries α) (key : α → κ) (value : κ) :
    (groupOf entries key value).getD .empty = holding (under entries key value) := by
  unfold groupOf
  split
  · rename_i none
    rw [none]
    rfl
  · rfl

theorem groupOf_append_singleton (entries : Entries α) (entry : α × Nat) (key : α → κ) (value : κ) :
    groupOf (entries ++ [entry]) key value =
      if key entry.1 = value then some (holding (under entries key value ++ [entry]))
      else groupOf entries key value := by
  by_cases same : key entry.1 = value
  · have last : under [entry] key value = [entry] := by simp [under, same]
    rw [groupOf, under_append, last, if_neg (List.append_ne_nil_of_right_ne_nil _ (by simp)),
      if_pos same]
  · have last : under [entry] key value = [] := by simp [under, same]
    rw [groupOf, under_append, last, List.append_nil, if_neg same, groupOf]

variable [DecidableEq α]

-- The groups of the entries read so far go on to the groups of those and one more.
theorem valueOf?_foldl_group {key : α → κ} {more : Entries α} {groups : Keyed κ (Occurrences α)}
    (valid : (holding (entries ++ more)).Valid)
    (filed : ∀ value, groups.valueOf? value = groupOf entries key value) (value : κ) :
    (more.foldl (fun groups entry => groups.update (key entry.1) .empty (·.insertClamped entry))
      groups).valueOf? value = groupOf (entries ++ more) key value := by
  induction more generalizing entries groups with
  | nil => rw [List.foldl_nil, List.append_nil, filed]
  | cons entry rest ih =>
    have whole := valid.next_entry.2
    have group_valid : (holding (under entries key (key entry.1) ++ [entry])).Valid := by
      have within : (under entries key (key entry.1) ++ [entry]).Sublist (entries ++ entry :: rest) :=
        List.filter_sublist.append (List.singleton_sublist.mpr List.mem_cons_self)
      exact valid.part within
    rw [List.foldl_cons, List.append_cons entries]
    apply ih whole
    intro each
    rw [Keyed.valueOf?_update, groupOf_append_singleton]
    split
    · rename_i same
      rw [filed, groupOf_getD, Occurrences.insertClamped_of_valid group_valid, same]
    · exact filed each

theorem valueOf?_groupBy (valid : (holding entries).Valid) (key : α → κ) (value : κ) :
    (groupBy entries key).valueOf? value = groupOf entries key value := by
  have whole : (holding ([] ++ entries)).Valid := valid
  exact valueOf?_foldl_group whole (fun _ => rfl) value

theorem groupOf_alike (valid : (holding entries).Valid) (same : others.Perm entries) (key : α → κ)
    (value : κ) :
    Option.Rel Occurrences.Alike (groupOf others key value) (groupOf entries key value) := by
  have kept : (under others key value).Perm (under entries key value) := same.filter _
  have part : (holding (under entries key value)).Valid := valid.part List.filter_sublist
  unfold groupOf
  by_cases none : under entries key value = []
  · rw [none] at kept
    rw [if_pos none, if_pos kept.eq_nil]
    exact .none
  · have some : under others key value ≠ [] := fun empty => none (empty ▸ kept).nil_eq.symm
    rw [if_neg none, if_neg some]
    exact .some (part.alike_of_perm kept)

/-! ## Splitting -/

theorem foldl_partition (entries : Entries α) (wanted : α → Bool) (sides : Occurrences α × Occurrences α) :
    entries.foldl
        (fun (selected, rejected) entry =>
          if wanted entry.1 then (selected.insertClamped entry, rejected)
          else (selected, rejected.insertClamped entry)) sides =
      ((entries.filter fun entry => wanted entry.1).foldl Occurrences.insertClamped sides.1,
        (entries.filter fun entry => !wanted entry.1).foldl Occurrences.insertClamped sides.2) := by
  induction entries generalizing sides with
  | nil => rfl
  | cons entry rest ih =>
    cases chosen : wanted entry.1 with
    | true =>
      simp only [List.foldl_cons, List.filter_cons, chosen, ih, ↓reduceIte, Bool.not_true,
        Bool.false_eq_true]
    | false =>
      simp only [List.foldl_cons, List.filter_cons, chosen, ih, ↓reduceIte, Bool.not_false,
        Bool.false_eq_true]

/-- A single pass gives the two selections. -/
theorem partition_eq (entries : Entries α) (wanted : α → Bool) :
    partition entries wanted = (select entries wanted, reject entries wanted) :=
  foldl_partition entries wanted (.empty, .empty)

end Entries

end Collections
