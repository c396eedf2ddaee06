import Collections.Proofs.Bag.Conversions
import Collections.Proofs.Bag.Filling
import Collections.Proofs.Occurrences.Clamping

/-! Adding items where nothing is refused.

A list that the checked additions accept is added just as they add it. Any other list is added as far as the
limits allow: items of a full element are passed over and leave the room to the others, and when the total
is full the rest is passed over as well.
-/

set_option autoImplicit false

namespace Collections

open Occurrences (Copies Saturated)

variable {α : Type} [DecidableEq α]

/-! ## Items one by one -/

def Entries.singles (items : List α) : Entries α :=
  items.map fun item => (item, 1)

omit [DecidableEq α] in
theorem Entries.items_singles (items : List α) : (singles items).items = items := by
  rw [Entries.items, singles, List.map_map]
  exact List.map_id items

theorem Entries.gathered_singles (items : List α) (item : α) :
    gathered (singles items) id item = items.count item := by
  induction items with
  | nil => rfl
  | cons first rest ih =>
    rw [singles, List.map_cons, gathered_cons, List.count_cons, Nat.add_comm]
    simp only [singles] at ih
    simp only [ih, id, beq_iff_eq]

namespace Occurrences

variable {counts held : Occurrences α}

theorem extend_eq_foldl (counts : Occurrences α) (items : List α) :
    counts.extend items = (Entries.singles items).foldl accumulate counts := by
  rw [extend, Entries.singles, List.foldl_map]

theorem Valid.extend_saturated (valid : counts.Valid) (items : List α) :
    Saturated counts (Entries.singles items) (counts.extend items) := by
  rw [extend_eq_foldl]
  apply valid.saturated
  intro entry member
  obtain ⟨item, -, rfl⟩ := List.mem_map.mp member
  exact Nat.one_pos

/-! ## Copies -/

theorem Copies.accumulate (copies : Copies held counts) (valid : counts.Valid) {entry : α × Nat}
    (positive : 0 < entry.2) : Copies (held.accumulate entry) (counts.accumulate entry) := by
  apply (copies.valid.accumulate positive).copies (valid.accumulate positive)
  intro item
  have taken : held.intake entry = counts.intake entry := by
    rw [intake, intake, admits, admits, copies.alike.countOf, copies.alike.size]
  rw [countOf_accumulate, countOf_accumulate, copies.alike.countOf, taken]

theorem Copies.extend (copies : Copies held counts) (valid : counts.Valid) (items : List α) :
    Copies (held.extend items) (counts.extend items) := by
  induction items generalizing held counts with
  | nil => exact copies
  | cons item rest ih =>
    exact ih (copies.accumulate valid Nat.one_pos) (valid.accumulate Nat.one_pos)

end Occurrences

/-! ## Extending a bag -/

namespace Bag

variable {bag : Bag α}

theorem contents_of_addAll (writable : bag.isWritable) {items : List α} {flag : Bool}
    (accepted : (bag.addAll items).answer = .ok flag) :
    (bag.addAll items).state.contents = bag.contents.extend items := by
  rw [addAll_of_writable writable] at accepted ⊢
  simp only [Attempt.within, contents_refilled] at accepted ⊢
  refine Attempt.anyChange_of_accepted ?_ accepted
  intro item counts changed next added
  cases taken : counts.add item 1 with
  | error error =>
    rw [Occurrences.attempt, Occurrences.apply, taken] at added
    cases added
  | ok answer =>
    rw [Occurrences.attempt, Occurrences.apply, taken] at added
    cases added
    exact Occurrences.accumulate_of_add Nat.one_pos taken

/-- One more occurrence for each step, which names the storage of the bag it makes and the element. -/
def plusEach (steps : List (Nat × α)) (bag : Bag α) : Bag α :=
  steps.foldl (fun (bag : Bag α) step => bag.plus step.1 step.2) bag

theorem plusEach_frozen (steps : List (Nat × α)) (storage : Nat) (counts : Occurrences α) :
    ∃ last, plusEach steps (.frozen storage counts) =
      .frozen last (counts.extend (steps.map Prod.snd)) := by
  induction steps generalizing storage counts with
  | nil => exact ⟨storage, rfl⟩
  | cons step rest ih => exact ih step.1 (counts.accumulate (step.2, 1))

structure Extends (bag : Bag α) (items : List α) : Prop where
  valid : (bag.contents.extend items).Valid
  least (item : α) : bag.countOf item ≤ (bag.contents.extend items).countOf item
  most (item : α) : (bag.contents.extend items).countOf item ≤
    min maxCount (bag.countOf item + items.count item)
  size : (bag.contents.extend items).size = min maxTotal
    (bag.size + ∑ item ∈ items.toFinset, min (items.count item) (maxCount - bag.countOf item))
  checked (flag : Bool) : (bag.addAll items).answer = .ok flag →
    (bag.addAll items).state.contents = bag.contents.extend items
  frozen (held : Occurrences α) (storage fresh : Nat) : Copies held bag.contents →
    ∃ full, Bag.plusAll fresh items (.frozen storage held) = .frozen fresh full ∧
      Copies full (bag.contents.extend items)
  stepwise (held : Occurrences α) (storage : Nat) (steps : List (Nat × α)) : Copies held bag.contents →
    steps.map Prod.snd = items →
      ∃ last full, plusEach steps (.frozen storage held) = .frozen last full ∧
        Copies full (bag.contents.extend items)

/-- What refuses nothing adds what the checked additions add, where these are accepted, and as much as the
limits allow in every case. -/
theorem extend_saturates (writable : bag.isWritable) (valid : bag.contents.Valid) (items : List α) :
    Extends bag items := by
  have full := valid.extend_saturated items
  have most := full.most
  have size := full.size
  simp only [Entries.gathered_singles, Entries.items_singles] at most size
  constructor
  case valid => exact full.valid
  case least => exact full.least
  case most => exact fun item => le_min (full.valid.countOf_le_maxCount item) (most item)
  case size => exact size
  case checked => exact fun _ accepted => contents_of_addAll writable accepted
  case frozen => exact fun held _ _ copies => ⟨_, rfl, copies.extend valid items⟩
  case stepwise =>
    rintro held storage steps copies rfl
    obtain ⟨last, added⟩ := plusEach_frozen steps storage held
    exact ⟨last, _, added, copies.extend valid _⟩

/-- A full element at the front of a list that is longer than the room in the bag, and a list that just
fits. -/
theorem extend_saturates_at_both_limits :
    let bag : Bag Nat := .shared 0 (.plain ⟨[(1, maxCount), (2, maxCount - 1)], maxTotal - 2⟩)
    bag.isWritable ∧ bag.contents.Valid ∧
      Extends bag [1, 2, 3, 4, 2] ∧
      (bag.addAll [1, 2, 3, 4, 2]).answer = .error .occurrenceOverflow ∧
      bag.contents.extend [1, 2, 3, 4, 2] = ⟨[(1, maxCount), (2, maxCount), (3, 1)], maxTotal⟩ ∧
      Extends bag [4, 2] ∧ (bag.addAll [4, 2]).answer = .ok true := by
  intro bag
  have valid : bag.contents.Valid := ⟨by decide, by decide, by decide, by decide⟩
  exact ⟨rfl, valid, extend_saturates rfl valid _, rfl, by decide, extend_saturates rfl valid _, rfl⟩

end Bag

end Collections
