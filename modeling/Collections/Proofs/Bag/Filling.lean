import Collections.Proofs.Bag.Calls
import Collections.Proofs.Occurrences.Alike

/-! Adding many items. Each is checked on its own, so a list that is refused has been added up to the item
that finds no room.
-/

set_option autoImplicit false

namespace Collections

namespace Occurrences

variable {α : Type} [DecidableEq α] {counts next after : Occurrences α} {item : α} {items : List α}

structure Gains (counts : Occurrences α) (items : List α) (after : Occurrences α) : Prop where
  valid : after.Valid
  countOf (item : α) : after.countOf item = counts.countOf item + items.count item
  size : after.size = counts.size + items.length

/-- No occurrence of the item can be added, and this is why. The total is looked at first. -/
inductive Full (counts : Occurrences α) (item : α) : Error → Prop
  | total (reached : counts.size = maxTotal) : Full counts item .totalOverflow
  | count (left : counts.size < maxTotal) (reached : counts.countOf item = maxCount) :
      Full counts item .occurrenceOverflow

inductive Inserted (counts : Occurrences α) : List α → Attempt (Occurrences α) Bool → Prop
  | all {items : List α} {after : Occurrences α} (gains : Gains counts items after) :
      Inserted counts items ⟨.ok !items.isEmpty, after⟩
  | before {accepted : List α} {item : α} (rest : List α) {after : Occurrences α} {error : Error}
      (gains : Gains counts accepted after) (full : Full after item error) :
      Inserted counts (accepted ++ item :: rest) ⟨.error error, after⟩

theorem Valid.gains_none (valid : counts.Valid) : Gains counts [] counts :=
  ⟨valid, fun _ => rfl, rfl⟩

theorem Gains.append {more : List α} (first : Gains counts items next)
    (later : Gains next more after) : Gains counts (items ++ more) after where
  valid := later.valid
  countOf each := by rw [later.countOf, first.countOf, Nat.add_assoc, ← List.count_append]
  size := by rw [later.size, first.size, Nat.add_assoc, ← List.length_append]

theorem add_of_room (room : counts.size < maxTotal) (below : counts.countOf item < maxCount) :
    counts.add item 1 = .ok (true, {
      entries := counts.entries.put item (counts.countOf item + 1)
      size := counts.size + 1 }) := by
  have fits : ¬ maxTotal < counts.size + 1 := by omega
  have bounded : ¬ maxCount < counts.countOf item + 1 := by omega
  simp [Occurrences.add, fits, bounded]

theorem Full.add {error : Error} (full : Full counts item error) : counts.add item 1 = .error error := by
  cases full with
  | total reached => simp [Occurrences.add, reached]
  | count left reached =>
    have fits : ¬ maxTotal < counts.size + 1 := by omega
    simp [Occurrences.add, fits, reached]

theorem Valid.gains_one (valid : counts.Valid) (room : counts.size < maxTotal)
    (below : counts.countOf item < maxCount) :
    Gains counts [item] ⟨counts.entries.put item (counts.countOf item + 1), counts.size + 1⟩ where
  valid := valid.add (add_of_room room below)
  countOf each := by
    rw [countOf_put, List.count_singleton]
    by_cases same : item = each
    · simp [same]
    · simp [same, countOf]
  size := rfl

theorem Valid.add_one (valid : counts.Valid) (item : α) :
    (∃ error, counts.attempt (.add item 1) = ⟨.error error, counts⟩ ∧ Full counts item error) ∨
      ∃ next, counts.attempt (.add item 1) = ⟨.ok true, next⟩ ∧ Gains counts [item] next := by
  have refused {error : Error} (full : Full counts item error) :
      counts.attempt (.add item 1) = ⟨.error error, counts⟩ := by
    rw [attempt, Occurrences.apply, full.add]
    rfl
  rcases Nat.eq_or_lt_of_le valid.size_le with reached | room
  · exact .inl ⟨_, refused (.total reached), .total reached⟩
  rcases Nat.eq_or_lt_of_le (valid.countOf_le_maxCount item) with reached | below
  · exact .inl ⟨_, refused (.count room reached), .count room reached⟩
  · refine .inr ⟨_, ?_, valid.gains_one room below⟩
    rw [attempt, Occurrences.apply, add_of_room room below]
    rfl

-- What is added first is there when the rest is; the induction is for any valid bag.
theorem Valid.inserted (valid : counts.Valid) (items : List α) :
    Inserted counts items
      (Attempt.anyChange (fun item counts => counts.attempt (.add item 1)) items counts) := by
  induction items generalizing counts with
  | nil => exact .all valid.gains_none
  | cons item rest ih =>
    obtain ⟨error, refused, full⟩ | ⟨next, accepted, first⟩ := valid.add_one item
    · rw [Attempt.anyChange_cons_refused refused]
      exact .before rest valid.gains_none full
    · have inserted := ih first.valid
      rw [Attempt.anyChange_cons accepted]
      generalize Attempt.anyChange _ rest next = outcome at inserted ⊢
      cases inserted with
      | all later => exact .all (first.append later)
      | before remaining later full => exact .before remaining (first.append later) full

end Occurrences

namespace Bag

open Occurrences (Alike Full Gains)

variable {α : Type} [DecidableEq α]

/-- A list that is refused stays added up to the item that found no room. So the bag is as it was only
where that is the first item. -/
theorem addAll_refused {bag : Bag α} (writable : bag.isWritable) (valid : bag.contents.Valid)
    {items : List α} {error : Error} (refused : (bag.addAll items).answer = .error error) :
    ∃ accepted item rest, items = accepted ++ item :: rest ∧
      Gains bag.contents accepted (bag.addAll items).state.contents ∧
      Full (bag.addAll items).state.contents item error ∧
      (Alike (bag.addAll items).state.contents bag.contents ↔ accepted = []) := by
  have inserted := valid.inserted items
  rw [addAll_of_writable writable] at refused ⊢
  generalize Attempt.anyChange _ items bag.contents = outcome at inserted refused ⊢
  cases inserted with
  | all gains => cases refused
  | @before accepted item rest after _ gains full =>
    cases refused
    simp only [Attempt.within, contents_refilled]
    refine ⟨accepted, item, rest, rfl, gains, full, ?_, ?_⟩
    · intro alike
      have sizes := gains.size
      rw [alike.size] at sizes
      exact List.length_eq_zero_iff.mp (by omega)
    · rintro rfl
      exact gains.valid.alike valid gains.countOf

/-- Two layers above a full element, which comes second in the list. -/
theorem addAll_refused_at_second :
    let bag : Bag Nat := .sorted compare (.shared 0 (.plain ⟨[(1, maxCount)], maxCount⟩))
    bag.isWritable ∧ bag.contents.Valid ∧
      (bag.addAll [2, 1, 3]).answer = .error .occurrenceOverflow ∧
      ∃ accepted item rest, [2, 1, 3] = accepted ++ item :: rest ∧
        Gains bag.contents accepted (bag.addAll [2, 1, 3]).state.contents ∧
        Full (bag.addAll [2, 1, 3]).state.contents item .occurrenceOverflow ∧
        (Alike (bag.addAll [2, 1, 3]).state.contents bag.contents ↔ accepted = []) := by
  have valid : Occurrences.Valid ⟨[(1, maxCount)], maxCount⟩ :=
    ⟨by decide, by decide, by decide, by decide⟩
  exact ⟨rfl, valid, rfl, addAll_refused rfl valid rfl⟩

/-- The item before a full one is added, although the list is refused. -/
theorem addAll_refused_not_undone :
    let bag : Bag Nat := .plain ⟨[(1, maxCount)], maxCount⟩
    bag.contents.Valid ∧ (bag.addAll [2, 1]).answer = .error .occurrenceOverflow ∧
      bag.size = maxCount ∧ (bag.addAll [2, 1]).state.size = maxCount + 1 ∧
      bag.distinct = 1 ∧ (bag.addAll [2, 1]).state.distinct = 2 ∧
      bag.countOf 2 = 0 ∧ (bag.addAll [2, 1]).state.countOf 2 = 1 :=
  ⟨⟨by decide, by decide, by decide, by decide⟩, rfl, rfl, rfl, rfl, rfl, rfl, rfl⟩

end Bag

end Collections
