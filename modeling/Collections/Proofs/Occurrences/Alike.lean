import Collections.Proofs.Occurrences.Parts
import Collections.Proofs.Occurrences.Runs

/-! Bags that count alike, whatever the order of their entries.

The counts of a valid bag decide the rest of it, up to that order. So two valid bags that count alike
answer every change alike, and go on counting alike.
-/

set_option autoImplicit false

namespace Collections.Occurrences

variable {α : Type} [DecidableEq α]

structure Alike (counts other : Occurrences α) : Prop where
  countOf (item : α) : counts.countOf item = other.countOf item
  size : counts.size = other.size
  distinct : counts.distinct = other.distinct

variable {counts other : Occurrences α}

/-- The entries of a valid bag are its elements with their counts. -/
theorem Valid.mem_entries_iff (valid : counts.Valid) (entry : α × Nat) :
    entry ∈ counts.entries ↔ 0 < entry.2 ∧ counts.countOf entry.1 = entry.2 := by
  constructor
  · intro member
    exact ⟨(valid.counted entry member).1, Entries.countOf_of_mem valid.distinct member⟩
  · rintro ⟨positive, same⟩
    rw [← same] at positive
    have member := Entries.mem_of_countOf positive
    rwa [show Entries.countOf counts.entries entry.1 = entry.2 from same] at member

theorem Valid.entries_perm (valid : counts.Valid) (other_valid : other.Valid)
    (same : ∀ item, counts.countOf item = other.countOf item) :
    counts.entries.Perm other.entries := by
  apply (List.perm_ext_iff_of_nodup valid.distinct.of_map other_valid.distinct.of_map).mpr
  intro entry
  rw [valid.mem_entries_iff, other_valid.mem_entries_iff, same]

theorem Valid.alike (valid : counts.Valid) (other_valid : other.Valid)
    (same : ∀ item, counts.countOf item = other.countOf item) : Alike counts other where
  countOf := same
  size := by
    rw [valid.size_eq, other_valid.size_eq]
    exact Entries.total_perm (valid.entries_perm other_valid same)
  distinct := (valid.entries_perm other_valid same).length_eq

theorem Valid.alike_of_perm {entries others : Entries α} (valid : (holding entries).Valid)
    (same : others.Perm entries) : Alike (holding others) (holding entries) where
  countOf item := Entries.countOf_perm (valid.perm same).distinct same item
  size := Entries.total_perm same
  distinct := same.length_eq

/-! ## Changes -/

inductive Concur : Except Error (Bool × Occurrences α) → Except Error (Bool × Occurrences α) → Prop
  | refused (error : Error) : Concur (.error error) (.error error)
  | accepted (changed : Bool) {counts other : Occurrences α}
      (same : ∀ item, counts.countOf item = other.countOf item) :
      Concur (.ok (changed, counts)) (.ok (changed, other))

namespace Concur

variable {here there : Except Error (Bool × Occurrences α)}

theorem answer (concur : Concur here there) :
    (Attempt.ofExcept counts here).answer = (Attempt.ofExcept other there).answer := by
  cases concur <;> rfl

theorem after (concur : Concur here there) (same : ∀ item, counts.countOf item = other.countOf item)
    (item : α) : (counts.after here).countOf item = (other.after there).countOf item := by
  cases concur with
  | refused error => exact same item
  | accepted changed same => exact same item

end Concur

theorem countOf_put (entries : Entries α) (item : α) (count size : Nat) (each : α) :
    (Occurrences.mk (entries.put item count) size).countOf each =
      if item = each then count else Entries.countOf entries each :=
  Entries.countOf_put entries item count each

theorem Valid.countOf_erase (valid : counts.Valid) (item : α) (size : Nat) (each : α) :
    (Occurrences.mk (counts.entries.erase item) size).countOf each =
      if item = each then 0 else counts.countOf each :=
  Entries.countOf_erase valid.distinct item each

/-- As many occurrences as are asked for go, or all there are, and no others. -/
theorem Valid.remove_takes (valid : counts.Valid) (item : α) (amount : Nat) :
    ∃ changed next, counts.remove item amount = .ok (changed, next) ∧
      ∀ each, next.countOf each = counts.countOf each - if item = each then amount else 0 := by
  unfold Occurrences.remove
  rw [if_neg (Int.not_lt.mpr (Int.natCast_nonneg amount)), Int.toNat_natCast]
  split
  · rename_i none
    refine ⟨false, counts, rfl, ?_⟩
    intro each
    split
    · rename_i same
      subst same
      omega
    · omega
  split
  · refine ⟨true, _, rfl, ?_⟩
    intro each
    rw [countOf_put]
    split
    · rename_i same
      rw [same]
    · rfl
  · refine ⟨true, _, rfl, ?_⟩
    intro each
    rw [valid.countOf_erase]
    split
    · rename_i same
      subst same
      omega
    · rfl

theorem Alike.put (alike : Alike counts other) (item : α) (count size : Nat) (each : α) :
    (Occurrences.mk (counts.entries.put item count) size).countOf each =
      (Occurrences.mk (other.entries.put item count) size).countOf each := by
  simp only [countOf_put]
  split
  · rfl
  · exact alike.countOf each

theorem Alike.erase (alike : Alike counts other) (valid : counts.Valid) (other_valid : other.Valid)
    (item : α) (size : Nat) (each : α) :
    (Occurrences.mk (counts.entries.erase item) size).countOf each =
      (Occurrences.mk (other.entries.erase item) size).countOf each := by
  rw [valid.countOf_erase, other_valid.countOf_erase, alike.countOf]

-- Each update looks at the size and at the count of its element, and these agree. What it then puts or
-- takes out is the same entry on both sides.
theorem Alike.add (alike : Alike counts other) (item : α) (amount : Int) :
    Concur (counts.add item amount) (other.add item amount) := by
  simp only [Occurrences.add, alike.countOf, alike.size]
  split
  · exact .refused _
  split
  · exact .accepted _ alike.countOf
  split
  · exact .refused _
  split
  · exact .refused _
  · exact .accepted _ (alike.put item _ _)

theorem Alike.remove (alike : Alike counts other) (valid : counts.Valid) (other_valid : other.Valid)
    (item : α) (amount : Int) : Concur (counts.remove item amount) (other.remove item amount) := by
  simp only [Occurrences.remove, alike.countOf, alike.size]
  split
  · exact .refused _
  split
  · exact .accepted _ alike.countOf
  split
  · exact .accepted _ (alike.put item _ _)
  · exact .accepted _ (alike.erase valid other_valid item _)

theorem Alike.set (alike : Alike counts other) (valid : counts.Valid) (other_valid : other.Valid)
    (item : α) (count : Int) : Concur (counts.set item count) (other.set item count) := by
  simp only [Occurrences.set, alike.countOf, alike.size]
  split
  · exact .refused _
  split
  · exact .accepted _ (alike.erase valid other_valid item _)
  split
  · exact .refused _
  split
  · exact .refused _
  · exact .accepted _ (alike.put item _ _)

theorem Alike.isEmpty (alike : Alike counts other) : counts.isEmpty = other.isEmpty := by
  have lengths : counts.entries.length = other.entries.length := alike.distinct
  rw [Occurrences.isEmpty, Occurrences.isEmpty, Bool.eq_iff_iff, List.isEmpty_iff_length_eq_zero,
    List.isEmpty_iff_length_eq_zero, lengths]

theorem Alike.apply (alike : Alike counts other) (valid : counts.Valid) (other_valid : other.Valid)
    (change : Change α) : Concur (counts.apply change) (other.apply change) := by
  cases change with
  | add item amount => exact alike.add item amount
  | remove item amount => exact alike.remove valid other_valid item amount
  | set item count => exact alike.set valid other_valid item count
  | clear =>
    simp only [Occurrences.apply, alike.isEmpty]
    exact .accepted _ fun _ => rfl

end Collections.Occurrences
