import Collections.Proofs.Grouping
import Mathlib.Algebra.BigOperators.Group.Finset.Piecewise
import Mathlib.Algebra.Order.BigOperators.Group.Finset

/-! Clamped additions, one after the other.

An addition takes in what both limits leave room for. An element that is full takes in nothing while others
still do; once the total has reached its limit, none does. So in a run each element takes in as much as its
own limit allows, until the total is full, and what was left out for one element leaves more for others.
-/

set_option autoImplicit false

namespace Collections.Occurrences

open Entries (gathered)

variable {α : Type} [DecidableEq α]

/-! ## One addition -/

def admits (counts : Occurrences α) (item : α) (amount : Nat) : Nat :=
  min amount (maxCount - counts.countOf item)

def intake (counts : Occurrences α) (entry : α × Nat) : Nat :=
  min (counts.admits entry.1 entry.2) (maxTotal - counts.size)

theorem size_accumulate (counts : Occurrences α) (entry : α × Nat) :
    (counts.accumulate entry).size = counts.size + counts.intake entry := by
  simp only [accumulate, intake, admits]
  split
  · unfold room at *
    omega
  · simp only [room]
    omega

theorem countOf_accumulate (counts : Occurrences α) (entry : α × Nat) (each : α) :
    (counts.accumulate entry).countOf each =
      counts.countOf each + if entry.1 = each then counts.intake entry else 0 := by
  simp only [accumulate, intake, admits]
  split
  · unfold room at *
    split <;> omega
  · rw [countOf_put]
    split
    · rename_i same
      subst same
      simp only [room]
      omega
    · rfl

theorem size_accumulate_le {counts : Occurrences α} (fits : counts.size ≤ maxTotal) (entry : α × Nat) :
    (counts.accumulate entry).size ≤ maxTotal := by
  rw [size_accumulate, intake]
  omega

/-- An addition that is not refused takes in everything. -/
theorem accumulate_of_add {counts next : Occurrences α} {item : α} {amount : Nat} {changed : Bool}
    (positive : 0 < amount) (accepted : counts.add item amount = .ok (changed, next)) :
    counts.accumulate (item, amount) = next := by
  unfold add at accepted
  rw [if_neg (by omega), if_neg (by omega), Int.toNat_natCast] at accepted
  split at accepted
  · cases accepted
  split at accepted
  · cases accepted
  · cases accepted
    have left : counts.room ≠ 0 := by
      unfold room
      omega
    have whole : min (min amount (maxCount - counts.countOf item)) counts.room = amount := by
      unfold room
      omega
    simp only [accumulate, left, ↓reduceIte, whole]

/-- An insertion of a new element is an addition. -/
theorem insertClamped_eq_accumulate {counts : Occurrences α} {entry : α × Nat}
    (absent : counts.countOf entry.1 = 0) (positive : 0 < entry.2) (bounded : entry.2 ≤ maxCount) :
    counts.insertClamped entry = counts.accumulate entry := by
  have same : min entry.2 (min (counts.room + 0) maxCount) =
      min (min entry.2 (maxCount - 0)) counts.room := by
    unfold room
    omega
  simp only [insertClamped, accumulate, absent, same, Nat.zero_add, Nat.sub_zero]
  by_cases full : counts.room = 0
  · simp only [full, Nat.min_zero, ↓reduceIte]
  · rw [if_neg (by omega), if_neg full]

/-! ## Many additions -/

structure Saturated (counts : Occurrences α) (entries : Entries α) (full : Occurrences α) : Prop where
  valid : full.Valid
  least (item : α) : counts.countOf item ≤ full.countOf item
  most (item : α) : full.countOf item ≤ counts.countOf item + gathered entries id item
  size : full.size = min maxTotal
    (counts.size + ∑ item ∈ (Entries.items entries).toFinset,
      counts.admits item (gathered entries id item))

variable {counts : Occurrences α} {entries : Entries α}

theorem Valid.foldl_accumulate_valid (valid : counts.Valid)
    (positive : ∀ entry ∈ entries, 0 < entry.2) : (entries.foldl Occurrences.accumulate counts).Valid := by
  induction entries generalizing counts with
  | nil => exact valid
  | cons entry rest ih =>
    obtain ⟨first, later⟩ := List.forall_mem_cons.mp positive
    exact ih (valid.accumulate first) later

theorem countOf_le_foldl_accumulate (counts : Occurrences α) (entries : Entries α) (item : α) :
    counts.countOf item ≤ (entries.foldl accumulate counts).countOf item := by
  induction entries generalizing counts with
  | nil => exact Nat.le_refl _
  | cons entry rest ih =>
    have first := countOf_accumulate counts entry item
    have later := ih (counts.accumulate entry)
    rw [List.foldl_cons]
    omega

theorem countOf_foldl_accumulate_le (counts : Occurrences α) (entries : Entries α) (item : α) :
    (entries.foldl accumulate counts).countOf item ≤
      counts.countOf item + gathered entries id item := by
  induction entries generalizing counts with
  | nil => exact Nat.le_refl _
  | cons entry rest ih =>
    have taken : counts.intake entry ≤ entry.2 := by
      unfold intake admits
      omega
    have first := countOf_accumulate counts entry item
    have later := ih (counts.accumulate entry)
    rw [List.foldl_cons, Entries.gathered_cons, id]
    by_cases same : entry.1 = item
    · simp only [same, ↓reduceIte] at first ⊢
      omega
    · simp only [same, ↓reduceIte] at first ⊢
      omega

-- Where the total does not clamp, what the first addition takes in is no longer admitted afterwards.
theorem admits_gathered_cons {entry : α × Nat} (roomy : counts.intake entry = counts.admits entry.1 entry.2)
    (rest : Entries α) (item : α) :
    counts.admits item (gathered (entry :: rest) id item) =
      (counts.accumulate entry).admits item (gathered rest id item) +
        if entry.1 = item then counts.intake entry else 0 := by
  rw [Entries.gathered_cons, id]
  unfold admits at roomy ⊢
  rw [countOf_accumulate]
  by_cases same : entry.1 = item
  · subst same
    simp only [↓reduceIte, roomy]
    omega
  · simp only [same, ↓reduceIte, Nat.zero_add, Nat.add_zero]

-- The set stays the same while the entries become fewer; elements that are done admit nothing more.
theorem size_foldl_accumulate (fits : counts.size ≤ maxTotal) {elements : Finset α}
    (within : ∀ entry ∈ entries, entry.1 ∈ elements) :
    (entries.foldl accumulate counts).size = min maxTotal
      (counts.size + ∑ item ∈ elements, counts.admits item (gathered entries id item)) := by
  induction entries generalizing counts with
  | nil =>
    have none (item : α) : counts.admits item (gathered [] id item) = 0 := Nat.zero_min _
    simp only [none, Finset.sum_const_zero, List.foldl_nil, Nat.add_zero]
    exact (Nat.min_eq_right fits).symm
  | cons entry rest ih =>
    obtain ⟨member, later⟩ := List.forall_mem_cons.mp within
    have grown := size_accumulate counts entry
    rw [List.foldl_cons, ih (size_accumulate_le fits entry) later]
    by_cases roomy : counts.intake entry = counts.admits entry.1 entry.2
    · have first : ∑ item ∈ elements, (if entry.1 = item then counts.intake entry else 0) =
          counts.intake entry := by
        rw [Finset.sum_ite_eq, if_pos member]
      simp only [admits_gathered_cons roomy, Finset.sum_add_distrib, first]
      omega
    · have own : counts.admits entry.1 (gathered (entry :: rest) id entry.1) ≤
          ∑ item ∈ elements, counts.admits item (gathered (entry :: rest) id item) :=
        Finset.single_le_sum
          (f := fun item => counts.admits item (gathered (entry :: rest) id item))
          (fun _ _ => Nat.zero_le _) member
      have more : counts.admits entry.1 entry.2 ≤
          counts.admits entry.1 (gathered (entry :: rest) id entry.1) := by
        rw [Entries.gathered_cons, id, if_pos rfl]
        unfold admits
        omega
      unfold intake at grown roomy
      omega

/-- Insertions of new elements that come once each are additions. -/
theorem foldl_insertClamped_eq_accumulate (distinct : (Entries.items entries).Nodup)
    (counted : ∀ entry ∈ entries, 0 < entry.2 ∧ entry.2 ≤ maxCount)
    (absent : ∀ entry ∈ entries, counts.countOf entry.1 = 0) :
    entries.foldl insertClamped counts = entries.foldl accumulate counts := by
  induction entries generalizing counts with
  | nil => rfl
  | cons entry rest ih =>
    obtain ⟨fresh, distinct⟩ := List.nodup_cons.mp distinct
    obtain ⟨⟨positive, bounded⟩, later⟩ := List.forall_mem_cons.mp counted
    obtain ⟨new, others⟩ := List.forall_mem_cons.mp absent
    rw [List.foldl_cons, List.foldl_cons, insertClamped_eq_accumulate new positive bounded]
    apply ih distinct later
    intro other member
    have different : entry.1 ≠ other.1 := fun same => fresh (same ▸ List.mem_map_of_mem member)
    rw [countOf_accumulate, if_neg different, others other member]

theorem Valid.saturated (valid : counts.Valid) (positive : ∀ entry ∈ entries, 0 < entry.2) :
    Saturated counts entries (entries.foldl Occurrences.accumulate counts) where
  valid := valid.foldl_accumulate_valid positive
  least := countOf_le_foldl_accumulate counts entries
  most := countOf_foldl_accumulate_le counts entries
  size := size_foldl_accumulate valid.size_le fun _ member =>
    List.mem_toFinset.mpr (List.mem_map_of_mem member)

end Collections.Occurrences
