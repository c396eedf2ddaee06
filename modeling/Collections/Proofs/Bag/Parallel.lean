import Collections.Bag.Batched
import Collections.Proofs.Batch.Reads

/-! A parallel bag answers what the bag below it answers.

The order of the entries and the way they are cut do not matter, nor when a batch goes to an executor.
All that is asked of the executor is that it runs the task on every batch and keeps the results in
order.
-/

set_option autoImplicit false

namespace Collections.Bag

open Occurrences (holding)

variable {α : Type}

theorem entries_perm (bag : Bag α) : bag.entries.Perm bag.contents.entries := by
  induction bag with
  | plain counts => exact List.Perm.refl _
  | frozen storage counts => exact List.Perm.refl _
  | sorted order inner ih => exact (List.mergeSort_perm _ _).trans ih
  | readOnly inner ih => exact ih
  | shared cell inner ih => exact ih
  | parallel batching inner ih => exact ih

theorem valid_entries {bag : Bag α} (valid : bag.contents.Valid) : (holding bag.entries).Valid :=
  valid.holding_valid.perm bag.entries_perm

theorem length_entries (bag : Bag α) : bag.entries.length = bag.distinct :=
  bag.entries_perm.length_eq

/-- What goes to the executor fills more than one batch and has enough distinct elements. -/
theorem handsOver_iff {batching : Batching} {bag : Bag α}
    (positive : 1 ≤ batching.settings.batchSize) :
    batching.handsOver bag.entries = true ↔
      batching.settings.batchSize < bag.distinct ∧ batching.settings.minEntries ≤ bag.distinct := by
  have several : bag.distinct ⌈/⌉ batching.settings.batchSize ≤ 1 ↔
      bag.distinct ≤ batching.settings.batchSize := by
    rw [ceilDiv_le_iff_le_mul positive, Nat.mul_one]
  rw [Batching.handsOver, Batching.cut, length_batchesOf positive, length_entries, Bool.and_eq_true,
    decide_eq_true_eq, decide_eq_true_eq]
  omega

variable [DecidableEq α]

structure Agrees (run : Executor.Runs) (batching : Batching) (bag : Bag α) : Prop where
  select (wanted : α → Bool) :
    (batching.readBy run bag.entries (.select fun item => .done (wanted item))).answer =
      .ok (Entries.select bag.entries wanted)
  selectByCount (wanted : Nat → Bool) :
    (batching.readBy run bag.entries (.selectByCount wanted)).answer =
      .ok (Entries.selectByCount bag.entries wanted)
  unique : ∃ found, (batching.readBy run bag.entries .unique).answer = .ok found ∧
    found.Perm (Entries.unique bag.entries)
  count (wanted : α → Bool) :
    (batching.readBy run bag.entries (.count fun item => .done (wanted item))).answer =
      .ok (Entries.count bag.entries wanted)
  -- The same count with every sum kept in its word, and selections that lose no occurrence.
  countInWords (wanted : α → Bool) :
    (batching.readBy run bag.entries (.countInWords wanted)).answer =
      .ok (Entries.count bag.entries wanted)
  selected (wanted : α → Bool) : (Entries.select bag.entries wanted).entries =
    bag.entries.filter fun entry => wanted entry.1
  selectedByCount (wanted : Nat → Bool) : (Entries.selectByCount bag.entries wanted).entries =
    bag.entries.filter fun entry => wanted entry.2
  -- The reads of the parallel bag itself, beside those of the bag below it.
  ownUnique : ∃ found, ((Bag.parallel batching bag).uniqueBy fun _ => run).answer = .ok found ∧
    ∀ given, bag.unique.answer = .ok given → found.Perm given
  ownDuplicates : ∃ found,
    ((Bag.parallel batching bag).duplicatesBy fun _ => run).answer = .ok found ∧
      ∀ given, bag.duplicates.answer = .ok given → found = given
  ownMap : ∃ found, ((Bag.parallel batching bag).toMapBy fun _ => run).answer = .ok found ∧
    ∀ given, bag.toMap.answer = .ok given → found = given

/-! ## The bag below -/

-- The bag below may be parallel itself and then reads in batches too, by an executor that may refuse.
-- So its answers are the ones it gives if it gives any.
theorem unique_given {bag : Bag α} (valid : bag.contents.Valid) {given : List α}
    (answered : bag.unique.answer = .ok given) : given.Perm (Entries.unique bag.entries) := by
  cases bag with
  | parallel batching inner =>
    obtain ⟨found, spot, same⟩ :=
      Batching.unique_answer batching Executor.inOrder_runInOrder (valid_entries valid)
    cases spot.symm.trans (Batching.read_eq_ok answered)
    exact same
  | _ =>
    cases answered
    exact List.Perm.refl _

theorem duplicates_given {bag : Bag α} (valid : bag.contents.Valid) {given : Occurrences α}
    (answered : bag.duplicates.answer = .ok given) : given = Entries.duplicates bag.entries := by
  cases bag with
  | parallel batching inner =>
    have spot := Batching.selectByCount_answer batching Executor.inOrder_runInOrder
      (valid_entries valid) (1 < ·)
    cases spot.symm.trans (Batching.read_eq_ok answered)
    rfl
  | _ =>
    cases answered
    rfl

theorem toMap_given {bag : Bag α} (valid : bag.contents.Valid) {given : Entries α}
    (answered : bag.toMap.answer = .ok given) : given = bag.entries := by
  cases bag with
  | parallel batching inner =>
    have spot := Batching.toMap_answer batching Executor.inOrder_runInOrder
      (valid_entries valid)
    cases spot.symm.trans (Batching.read_eq_ok answered)
    rfl
  | _ =>
    cases answered
    rfl

/-! ## The parallel bag -/

theorem agrees_in_batches (run : Executor.Runs) (inOrder : Executor.InOrder run)
    (batching : Batching) (bag : Bag α) (valid : bag.contents.Valid) : Agrees run batching bag := by
  have whole := valid_entries valid
  have fits : Entries.total bag.entries ≤ maxTotal := whole.size_le
  obtain ⟨found, answered, same⟩ := Batching.unique_answer batching inOrder whole
  have duplicates := Batching.selectByCount_answer batching inOrder whole (1 < ·)
  have map := Batching.toMap_answer batching inOrder whole
  constructor
  case select => exact Batching.select_answer batching inOrder whole
  case selectByCount => exact Batching.selectByCount_answer batching inOrder whole
  case unique => exact ⟨found, answered, same⟩
  case count => exact Batching.count_answer batching inOrder
  case countInWords => exact fun wanted => Batching.countInWords_answer batching inOrder wanted fits
  case selected =>
    intro wanted
    rw [Entries.select, Batching.ofEntries_filter whole]
    rfl
  case selectedByCount =>
    intro wanted
    rw [Entries.selectByCount, Batching.ofEntries_filter whole]
    rfl
  case ownUnique =>
    refine ⟨found, answered, ?_⟩
    intro given below
    exact same.trans (unique_given valid below).symm
  case ownDuplicates =>
    refine ⟨_, duplicates, ?_⟩
    intro given below
    exact (duplicates_given valid below).symm
  case ownMap =>
    refine ⟨_, map, ?_⟩
    intro given below
    exact (toMap_given valid below).symm

theorem agrees_in_batches_of_two :
    Executor.InOrder (Executor.pool 4).run ∧
      (Occurrences.Valid ⟨[(3, 1), (1, maxCount), (2, 2)], maxCount + 3⟩ ∧
        Agrees (Executor.pool 4).run (.ofParts (.pool 4) (.ofBatchSize 2))
          (.sorted compare (.plain ⟨[(3, 1), (1, maxCount), (2, 2)], maxCount + 3⟩))) := by
  have valid : Occurrences.Valid ⟨[(3, 1), (1, maxCount), (2, 2)], maxCount + 3⟩ :=
    ⟨by decide, by decide, by decide, by decide⟩
  exact ⟨Executor.inOrder_runInOrder, valid,
    agrees_in_batches (Executor.pool 4).run Executor.inOrder_runInOrder
      (.ofParts (.pool 4) (.ofBatchSize 2))
      (.sorted compare (.plain ⟨[(3, 1), (1, maxCount), (2, 2)], maxCount + 3⟩)) valid⟩

end Collections.Bag
