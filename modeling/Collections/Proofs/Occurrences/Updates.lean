import Collections.Proofs.Occurrences.Alike

/-! Exactly what the four checked updates do: when each is refused, which counts it leaves, and what its
flag tells.

An update of one element has several ways out, but all that are accepted come to the same: the element has
a new count, the others keep theirs, and the size moves by the difference.
-/

set_option autoImplicit false

namespace Collections

namespace Occurrences

variable {α : Type} [DecidableEq α]

def withCount (counts : Occurrences α) (item : α) (count : Int) (each : α) : Int :=
  if item = each then count else counts.countOf each

/-- An outcome of an update that is refused on a condition only, and otherwise gives each element its
count and grows the bag by so much. -/
structure Exactly (counts : Occurrences α) (beyond : Prop) (counted : α → Int) (growth : Int)
    (outcome : Except Error (Bool × Occurrences α)) : Prop where
  refused_iff : (∃ error, outcome = .error error) ↔ beyond
  refusal (error : Error) : outcome = .error error →
    (∃ reason, error = .invalidArgument reason) ∧ counts.after outcome = counts
  accepted (changed : Bool) (next : Occurrences α) : outcome = .ok (changed, next) →
    (∀ item, (next.countOf item : Int) = counted item) ∧ (next.size : Int) = counts.size + growth ∧
      (changed ↔ ∃ item, next.countOf item ≠ counts.countOf item)

variable {counts other next : Occurrences α} {beyond : Prop} {counted : α → Int} {growth : Int}

theorem exactly_refused (above : beyond) (reason : String) :
    Exactly counts beyond counted growth (.error (.invalidArgument reason)) where
  refused_iff := ⟨fun _ => above, fun _ => ⟨_, rfl⟩⟩
  refusal _ refused := by
    cases refused
    exact ⟨⟨reason, rfl⟩, rfl⟩
  accepted _ _ done := nomatch done

theorem exactly_accepted {changed : Bool} (within : ¬ beyond)
    (recounted : ∀ item, (next.countOf item : Int) = counted item)
    (resized : (next.size : Int) = counts.size + growth)
    (flagged : changed ↔ ∃ item, next.countOf item ≠ counts.countOf item) :
    Exactly counts beyond counted growth (.ok (changed, next)) where
  refused_iff := by simp [within]
  refusal _ refused := nomatch refused
  accepted _ _ done := by
    cases done
    exact ⟨recounted, resized, flagged⟩

/-! ## Updates of one element -/

variable {item : α} {target : Int}

theorem exactly_one {count : Nat} {changed : Bool} (within : ¬ beyond) (reached : target = count)
    (recounted : ∀ each, next.countOf each = if item = each then count else counts.countOf each)
    (resized : (next.size : Int) = counts.size + growth)
    (flagged : changed = (counts.countOf item != count)) :
    Exactly counts beyond (counts.withCount item target) growth (.ok (changed, next)) := by
  refine exactly_accepted within ?_ resized ?_
  · intro each
    rw [recounted, withCount, reached]
    split <;> rfl
  · rw [flagged, bne_iff_ne]
    constructor
    · intro moved
      refine ⟨item, ?_⟩
      rw [recounted, if_pos rfl]
      exact moved.symm
    · rintro ⟨each, moved⟩
      rw [recounted] at moved
      split at moved
      · rename_i same
        exact same ▸ moved.symm
      · exact absurd rfl moved

theorem exactly_same (within : ¬ beyond) (reached : target = counts.countOf item)
    (resized : growth = 0) :
    Exactly counts beyond (counts.withCount item target) growth (.ok (false, counts)) := by
  refine exactly_one within reached ?_ (by omega) (by simp)
  intro each
  split
  · rename_i same
    rw [same]
  · rfl

theorem exactly_put {count size : Nat} {changed : Bool} (within : ¬ beyond) (reached : target = count)
    (resized : (size : Int) = counts.size + growth)
    (flagged : changed = (counts.countOf item != count)) :
    Exactly counts beyond (counts.withCount item target) growth
      (.ok (changed, ⟨counts.entries.put item count, size⟩)) :=
  exactly_one within reached (countOf_put counts.entries item count size) resized flagged

theorem Valid.exactly_erase (valid : counts.Valid) {size : Nat} {changed : Bool} (within : ¬ beyond)
    (reached : target = 0) (resized : (size : Int) = counts.size + growth)
    (flagged : changed = (counts.countOf item != 0)) :
    Exactly counts beyond (counts.withCount item target) growth
      (.ok (changed, ⟨counts.entries.erase item, size⟩)) :=
  exactly_one within reached (valid.countOf_erase item size) resized flagged

-- What a valid bag holds is within the limits already, so an update by nothing is never refused, although
-- it comes before the limits are looked at.
theorem Valid.exactly_add (valid : counts.Valid) (item : α) (amount : Int) :
    Exactly counts
      (amount < 0 ∨ maxCount < counts.countOf item + amount ∨ maxTotal < counts.size + amount)
      (counts.withCount item (counts.countOf item + amount)) amount (counts.add item amount) := by
  have held := valid.countOf_le_maxCount item
  have whole := valid.size_le
  unfold Occurrences.add
  split
  · rename_i negative
    exact exactly_refused (.inl negative) _
  split
  · exact exactly_same (by omega) (by omega) (by omega)
  split
  · exact exactly_refused (by omega) _
  split
  · exact exactly_refused (by omega) _
  · exact exactly_put (by omega) (by omega) (by omega) (by simp; omega)

theorem Valid.exactly_remove (valid : counts.Valid) (item : α) (amount : Int) :
    Exactly counts (amount < 0) (counts.withCount item (max 0 (counts.countOf item - amount)))
      (max 0 (counts.countOf item - amount) - counts.countOf item) (counts.remove item amount) := by
  have held := valid.countOf_le_size item
  unfold Occurrences.remove
  split
  · rename_i negative
    exact exactly_refused negative _
  split
  · exact exactly_same (by omega) (by omega) (by omega)
  split
  · exact exactly_put (by omega) (by omega) (by omega) (by simp; omega)
  · exact valid.exactly_erase (by omega) (by omega) (by omega) (by simp; omega)

theorem Valid.exactly_set (valid : counts.Valid) (item : α) {count : Int} (word : count ≤ maxCount) :
    Exactly counts (count < 0 ∨ maxTotal < (counts.size : Int) - counts.countOf item + count)
      (counts.withCount item count) (count - counts.countOf item) (counts.set item count) := by
  have held := valid.countOf_le_size item
  have whole := valid.size_le
  unfold Occurrences.set
  split
  · rename_i negative
    exact exactly_refused (.inl negative) _
  split
  · exact valid.exactly_erase (by omega) (by omega) (by omega) rfl
  split
  · exact exactly_refused (by omega) _
  split
  · omega
  · exact exactly_put (by omega) (by omega) (by omega) rfl

/-! ## Merging -/

/-- An element has an entry exactly when it occurs. -/
theorem Valid.exists_pos_iff (valid : counts.Valid) : (∃ item, 0 < counts.countOf item) ↔
    !counts.isEmpty := by
  rw [Occurrences.isEmpty, Bool.not_eq_true', List.isEmpty_eq_false_iff_exists_mem]
  constructor
  · rintro ⟨item, present⟩
    exact ⟨_, Entries.mem_of_countOf present⟩
  · rintro ⟨entry, member⟩
    obtain ⟨positive, same⟩ := (valid.mem_entries_iff entry).mp member
    exact ⟨entry.1, by omega⟩

/-- An element that overflows has an entry in the bag that is merged. -/
theorem Valid.overflows_iff (valid : counts.Valid) (other_valid : other.Valid) :
    (∃ entry ∈ other.entries, maxCount < counts.countOf entry.1 + entry.2) ↔
      ∃ item, maxCount < counts.countOf item + other.countOf item := by
  constructor
  · rintro ⟨entry, member, above⟩
    rw [← ((other_valid.mem_entries_iff entry).mp member).2] at above
    exact ⟨entry.1, above⟩
  · rintro ⟨item, above⟩
    have held := valid.countOf_le_maxCount item
    exact ⟨_, Entries.mem_of_countOf (by unfold countOf at *; omega), above⟩

theorem Valid.exactly_merge (valid : counts.Valid) (other_valid : other.Valid) :
    Exactly counts
      (maxTotal < counts.size + other.size ∨
        ∃ item, maxCount < counts.countOf item + other.countOf item)
      (fun item => counts.countOf item + other.countOf item) other.size (counts.merge other) := by
  rw [← valid.overflows_iff other_valid]
  cases merged : counts.merge other with
  | error error =>
    have above := merge_refused_iff.mp ⟨error, merged⟩
    unfold Occurrences.merge at merged
    split at merged
    · cases merged
      exact exactly_refused above _
    split at merged
    · cases merged
      exact exactly_refused above _
    · cases merged
  | ok answer =>
    obtain ⟨changed, next⟩ := answer
    obtain ⟨-, -, flag, rfl⟩ := merge_cases merged
    have within : ¬ (maxTotal < counts.size + other.size ∨
        ∃ entry ∈ other.entries, maxCount < counts.countOf entry.1 + entry.2) := by
      rw [← merge_refused_iff, merged]
      rintro ⟨_, refused⟩
      cases refused
    have summed (item : α) :
        (Occurrences.mk (other.entries.foldl Entries.bump counts.entries)
          (counts.size + other.size)).countOf item = counts.countOf item + other.countOf item :=
      Entries.countOf_foldl_bump other_valid.distinct counts.entries item
    refine exactly_accepted within (fun item => by rw [summed, Int.natCast_add]) (by simp) ?_
    rw [flag, ← other_valid.exists_pos_iff]
    apply exists_congr
    intro item
    rw [summed]
    omega

end Occurrences

namespace Run

open Occurrences (Exactly)

variable {α : Type} [DecidableEq α]

/-- What the four updates do to any bag that was reached, with any word as their amount and any other bag
that was reached. -/
theorem updates_exact (run other : Run α) (item : α) (word : Int64) :
    let counts := run.reached
    let added := other.reached
    let held : Int := counts.countOf item
    let amount := word.toInt
    Exactly counts (amount < 0 ∨ maxCount < held + amount ∨ maxTotal < counts.size + amount)
        (counts.withCount item (held + amount)) amount (counts.add item amount) ∧
      Exactly counts (amount < 0) (counts.withCount item (max 0 (held - amount)))
        (max 0 (held - amount) - held) (counts.remove item amount) ∧
      Exactly counts (amount < 0 ∨ maxTotal < counts.size - held + amount)
        (counts.withCount item amount) (amount - held) (counts.set item amount) ∧
      Exactly counts
        (maxTotal < counts.size + added.size ∨
          ∃ each, maxCount < counts.countOf each + added.countOf each)
        (fun each => counts.countOf each + added.countOf each) added.size (counts.merge added) := by
  intro counts added held amount
  have valid := run.reached_valid
  have bounded : amount ≤ maxCount := by
    have := word.toInt_lt
    unfold maxCount
    omega
  exact ⟨valid.exactly_add item amount, valid.exactly_remove item amount,
    valid.exactly_set item bounded, valid.exactly_merge other.reached_valid⟩

end Run

end Collections
