import Collections.Bag.Frozen
import Collections.Proofs.Bag.Conversions
import Collections.Proofs.Bag.Transparent
import Collections.Proofs.Bag.Values

/-! Ways of taking elements out of a bag: those that satisfy a predicate, looked up beforehand or dropped in
place, and those of a list, taken out of the bag itself or left out of a copy.

They go through the bag in different orders and reckon its size in different ways. But each takes out whole
entries, and what is left is known by the elements that are gone. So a list may name an element twice, or
one that the bag does not have, and still takes out what a predicate would.
-/

set_option autoImplicit false

namespace Collections

open Occurrences (Copies)

variable {α : Type} [DecidableEq α]

def Entries.listedIn (items : List α) (entry : α × Nat) : Bool :=
  items.contains entry.1

namespace Occurrences

variable {counts held left : Occurrences α}

omit [DecidableEq α] in
def lacking (counts : Occurrences α) (unwanted : α × Nat → Bool) : Occurrences α :=
  holding (counts.entries.filter fun entry => !unwanted entry)

omit [DecidableEq α] in
theorem Valid.lacking (valid : counts.Valid) (unwanted : α × Nat → Bool) :
    (counts.lacking unwanted).Valid :=
  valid.part List.filter_sublist

theorem Valid.countOf_lacking (valid : counts.Valid) (unwanted : α × Nat → Bool) (item : α) :
    (counts.lacking unwanted).countOf item =
      if unwanted (item, counts.countOf item) then 0 else counts.countOf item := by
  have kept : (counts.lacking unwanted).countOf item =
      if !unwanted (item, counts.countOf item) then counts.countOf item else 0 :=
    Entries.countOf_filter valid.distinct (fun entry => !unwanted entry) item
  rw [kept]
  by_cases gone : unwanted (item, counts.countOf item) <;> simp [gone]

/-! ## In place -/

theorem Valid.retain_copies (valid : counts.Valid) (unwanted : α × Nat → Bool) :
    Copies (counts.retain fun entry => !unwanted entry) (counts.lacking unwanted) :=
  (valid.retain _).copies (valid.lacking unwanted) fun _ => rfl

/-! ## Element by element -/

theorem without_cons (counts : Occurrences α) (item : α) (rest : List α) :
    counts.without (item :: rest) = (counts.without [item]).without rest := rfl

theorem Valid.without (valid : counts.Valid) (items : List α) : (counts.without items).Valid := by
  unfold Occurrences.without
  induction items generalizing counts with
  | nil => exact valid
  | cons item rest ih => exact ih (valid.erase item)

theorem Valid.countOf_without (valid : counts.Valid) (items : List α) (each : α) :
    (counts.without items).countOf each = if each ∈ items then 0 else counts.countOf each := by
  unfold Occurrences.without
  induction items generalizing counts with
  | nil => rfl
  | cons item rest ih =>
    rw [List.foldl_cons, ih (valid.erase item), valid.countOf_erase]
    by_cases first : item = each
    · simp [first]
    · simp [first, Ne.symm first]

theorem Copies.without (copies : Copies held counts) (valid : counts.Valid) (items : List α) :
    Copies (held.without items) (counts.lacking (Entries.listedIn items)) := by
  apply (copies.valid.without items).copies (valid.lacking _)
  intro each
  rw [copies.valid.countOf_without, valid.countOf_lacking, copies.alike.countOf]
  simp only [Entries.listedIn, List.contains_iff_mem]

theorem without_absent {item : α} (absent : counts.contains item = false) :
    counts.without [item] = counts := by
  have missing : item ∉ Entries.items counts.entries := by simpa [contains] using absent
  have none : counts.countOf item = 0 := Entries.countOf_of_not_mem missing
  have erased : counts.entries.erase item = counts.entries := Keyed.erase_of_not_mem missing
  rw [Occurrences.without, List.foldl_cons, List.foldl_nil, none, erased]
  rfl

/-- Taking away all that an element has is the same with and without asking first. -/
theorem Valid.remove_whole (valid : counts.Valid) (item : α) :
    counts.attempt (.remove item (counts.countOf item)) =
      ⟨.ok (counts.contains item), counts.without [item]⟩ := by
  have positive_iff := valid.contains_iff item
  cases present : counts.contains item with
  | true => exact valid.remove_entry (Entries.mem_of_countOf (positive_iff.mp present))
  | false =>
    have none : counts.countOf item = 0 := by
      rw [present] at positive_iff
      simpa using positive_iff
    rw [without_absent present, Occurrences.attempt, Occurrences.apply, Occurrences.remove, none]
    rfl

-- An element that comes again has gone by then, and its second turn changes nothing. The flag has been set
-- at the first.
theorem Valid.removeEach_run (valid : counts.Valid) (items : List α) :
    Attempt.anyChange (fun item counts => counts.attempt (.remove item (counts.countOf item))) items
      counts = ⟨.ok (items.any counts.contains), counts.without items⟩ := by
  induction items generalizing counts with
  | nil => rfl
  | cons item rest ih =>
    rw [Attempt.anyChange_cons (valid.remove_whole item), ih (valid.without [item]), List.any_cons,
      counts.without_cons item rest]
    cases present : counts.contains item with
    | true => rfl
    | false =>
      rw [without_absent present]
      rfl

/-! ## What is gone -/

/-- The elements of the entries that satisfy the predicate. -/
theorem Valid.mem_items_filter (valid : counts.Valid) (unwanted : α × Nat → Bool) (item : α) :
    item ∈ Entries.items (counts.entries.filter unwanted) ↔
      0 < counts.countOf item ∧ unwanted (item, counts.countOf item) := by
  simp only [Entries.items, List.mem_map, List.mem_filter, valid.mem_entries_iff]
  constructor
  · rintro ⟨entry, ⟨⟨positive, same⟩, gone⟩, rfl⟩
    rw [same]
    exact ⟨positive, gone⟩
  · rintro ⟨positive, gone⟩
    exact ⟨(item, counts.countOf item), ⟨⟨positive, rfl⟩, gone⟩, rfl⟩

theorem Valid.any_contains (valid : counts.Valid) (items : List α) :
    items.any counts.contains ↔ ∃ entry ∈ counts.entries, Entries.listedIn items entry := by
  simp only [List.any_eq_true, valid.contains_iff, Entries.listedIn, List.contains_iff_mem,
    valid.mem_entries_iff]
  constructor
  · rintro ⟨item, listed, positive⟩
    exact ⟨(item, counts.countOf item), ⟨positive, rfl⟩, listed⟩
  · rintro ⟨entry, ⟨positive, same⟩, listed⟩
    exact ⟨entry.1, listed, same ▸ positive⟩

theorem Copies.lost_iff {unwanted : α × Nat → Bool} (valid : counts.Valid)
    (copies : Copies left (counts.lacking unwanted)) :
    (∃ entry ∈ counts.entries, entry ∉ left.entries) ↔ ∃ entry ∈ counts.entries, unwanted entry := by
  have kept : left.entries.Perm (counts.lacking unwanted).entries :=
    copies.valid.entries_perm (valid.lacking unwanted) copies.alike.countOf
  refine exists_congr fun entry => and_congr_right fun member => ?_
  rw [kept.mem_iff, lacking, holding_entries, List.mem_filter]
  simp [member]

end Occurrences

namespace Bag

variable {bag : Bag α}

/-- The call is accepted, leaves the entries that do not satisfy the predicate, and its flag tells whether
any others were there. -/
def TakesOut (bag : Bag α) (unwanted : α × Nat → Bool) (attempt : Attempt (Bag α) Bool) : Prop :=
  ∃ flag left, attempt = ⟨.ok flag, bag.refilled left⟩ ∧
    Copies left (bag.contents.lacking unwanted) ∧
    (flag ↔ ∃ entry ∈ bag.contents.entries, entry ∉ left.entries)

theorem removeIf_takesOut (writable : bag.isWritable) (valid : bag.contents.Valid)
    (unwanted : α × Nat → Bool) : TakesOut bag unwanted (bag.removeIf unwanted) := by
  obtain ⟨left, taken, left_valid, counted⟩ := remove_unwanted valid unwanted
  have doomed : (bag.entries.filter unwanted).Perm (bag.contents.entries.filter unwanted) :=
    bag.entries_perm.filter _
  have copies : Copies left (bag.contents.lacking unwanted) := by
    apply left_valid.copies (valid.lacking unwanted)
    intro item
    have gone : item ∈ Entries.items (bag.entries.filter unwanted) ↔
        item ∈ Entries.items (bag.contents.entries.filter unwanted) := (doomed.map Prod.fst).mem_iff
    rw [counted, valid.countOf_lacking]
    simp only [gone, valid.mem_items_filter]
    by_cases present : 0 < bag.contents.countOf item
    · simp [present]
    · simp [Nat.eq_zero_of_not_pos present]
  refine ⟨!(bag.entries.filter unwanted).isEmpty, left, ?_, copies, ?_⟩
  · rw [removeIf_of_writable writable, taken]
    rfl
  · rw [copies.lost_iff valid, doomed.isEmpty_eq]
    simp

theorem removeAll_takesOut (writable : bag.isWritable) (valid : bag.contents.Valid) (items : List α) :
    TakesOut bag (Entries.listedIn items) (bag.removeAll items) := by
  have copies := (valid.copies valid fun _ => rfl).without valid items
  refine ⟨items.any bag.contents.contains, bag.contents.without items, ?_, copies, ?_⟩
  · rw [removeAll_of_writable writable, valid.removeEach_run]
    rfl
  · rw [copies.lost_iff valid, valid.any_contains]

/-- The ways of taking elements out leave the same, none of them is refused, and each tells whether it took
any. -/
theorem removals_agree (writable : bag.isWritable) (valid : bag.contents.Valid) :
    (∀ unwanted, TakesOut bag unwanted (bag.removeIf unwanted) ∧
      Copies (bag.contents.retain fun entry => !unwanted entry) (bag.contents.lacking unwanted)) ∧
    ∀ items, TakesOut bag (Entries.listedIn items) (bag.removeAll items) ∧
      ∀ held storage fresh, Copies held bag.contents →
        ∃ left, Bag.minusAll fresh items (.frozen storage held) = .frozen fresh left ∧
          Copies left (bag.contents.lacking (Entries.listedIn items)) := by
  constructor
  · exact fun unwanted => ⟨removeIf_takesOut writable valid unwanted, valid.retain_copies unwanted⟩
  · intro items
    refine ⟨removeAll_takesOut writable valid items, ?_⟩
    exact fun held _ _ copies => ⟨_, rfl, copies.without valid items⟩

/-- The list names a full element twice, and an element that is absent. -/
theorem removals_agree_with_repeated_items :
    let bag : Bag Nat := .shared 0 (.plain ⟨[(3, 1), (1, maxCount), (2, 4)], maxCount + 5⟩)
    let items := [1, 5, 1, 2]
    bag.isWritable ∧ bag.contents.Valid ∧
      ((∀ unwanted, TakesOut bag unwanted (bag.removeIf unwanted) ∧
        Copies (bag.contents.retain fun entry => !unwanted entry) (bag.contents.lacking unwanted)) ∧
      ∀ items, TakesOut bag (Entries.listedIn items) (bag.removeAll items) ∧
        ∀ held storage fresh, Copies held bag.contents →
          ∃ left, Bag.minusAll fresh items (.frozen storage held) = .frozen fresh left ∧
            Copies left (bag.contents.lacking (Entries.listedIn items))) ∧
      (bag.removeAll items).state.contents = ⟨[(3, 1)], 1⟩ ∧
      (bag.removeIf (Entries.listedIn items)).state.contents = ⟨[(3, 1)], 1⟩ ∧
      (bag.removeAll items).answer = .ok true ∧ (bag.removeAll [5]).answer = .ok false := by
  intro bag items
  have valid : bag.contents.Valid := ⟨by decide, by decide, by decide, by decide⟩
  exact ⟨rfl, valid, removals_agree rfl valid, by decide, by decide, rfl, rfl⟩

end Bag

end Collections
