import Collections.Proofs.Bag.Parallel
import Collections.Proofs.Combination.Strategies
import Collections.Proofs.Grouping

/-! Collecting a bag in batches, against collecting it entry by entry.

Within a batch the occurrences of one value are clamped at the limit of a count; where batches meet, a
count beyond the limit is refused. So the two agree as long as no value goes beyond the limit from
several batches, and whether one does depends on where the batches are cut.
-/

set_option autoImplicit false

namespace Collections

open Occurrences (holding)

variable {α κ : Type} [DecidableEq κ]

namespace Entries

/-- More occurrences have this value than one element can have, and they come from several batches. -/
def Spills (batches : List (Entries α)) (f : α → κ) (value : κ) : Prop :=
  maxCount < gathered batches.flatten f value ∧
    1 < batches.countP fun batch => 0 < gathered batch f value

theorem gathered_flatten_eq_zero {batches : List (Entries α)} {f : α → κ} {value : κ}
    (none : (batches.countP fun batch => 0 < gathered batch f value) = 0) :
    gathered batches.flatten f value = 0 := by
  induction batches with
  | nil => rfl
  | cons batch rest ih =>
    rw [List.countP_cons] at none
    have here : ¬ 0 < gathered batch f value := by
      intro some
      simp only [some, decide_true, ↓reduceIte] at none
      omega
    rw [List.flatten_cons, gathered_append, ih (by omega)]
    omega

theorem spills_nil_cons {batches : List (Entries α)} {f : α → κ} {value : κ} :
    Spills ([] :: batches) f value ↔ Spills batches f value := by
  simp [Spills]

/-- A value spills where the first two batches meet, or after they are one. -/
theorem spills_cons_cons (first next : Entries α) (rest : List (Entries α)) (f : α → κ) (value : κ) :
    Spills (first :: next :: rest) f value ↔
      (0 < gathered first f value ∧ 0 < gathered next f value ∧
        maxCount < gathered first f value + gathered next f value) ∨
      Spills ((first ++ next) :: rest) f value := by
  have later : (rest.countP fun batch => 0 < gathered batch f value) = 0 →
      gathered rest.flatten f value = 0 := gathered_flatten_eq_zero
  simp only [Spills, List.flatten_cons, gathered_append, List.countP_cons, Nat.add_assoc,
    decide_eq_true_eq]
  generalize (rest.countP fun batch => 0 < gathered batch f value) = sources at later ⊢
  split_ifs <;> omega

structure Collected (entries : Entries α) (f : α → κ) (counts : Occurrences κ) : Prop where
  valid : counts.Valid
  size_le : counts.size ≤ total entries
  countOf (value : κ) : counts.countOf value = min maxCount (gathered entries f value)

theorem collected_collect {entries : Entries α} (valid : (holding entries).Valid) (f : α → κ) :
    Collected entries f (collect entries f) :=
  ⟨valid_collect valid f, collect_size_le valid f, countOf_collect valid f⟩

namespace Collected

variable {first next : Entries α} {f : α → κ} {counts more : Occurrences κ}

theorem alike (here : Collected first f counts) (there : Collected first f more) :
    counts.Alike more := by
  apply here.valid.alike there.valid
  intro value
  rw [here.countOf, there.countOf]

theorem fits (here : Collected first f counts) (there : Collected next f more)
    (room : total first + total next ≤ maxTotal) : counts.size + more.size ≤ maxTotal := by
  have := here.size_le
  have := there.size_le
  omega

/-- An entry of a bag of collected values is one that some element has. -/
theorem of_mem (there : Collected next f more) {entry : κ × Nat} (member : entry ∈ more.entries) :
    0 < gathered next f entry.1 ∧ entry.2 = min maxCount (gathered next f entry.1) := by
  obtain ⟨positive, same⟩ := (there.valid.mem_entries_iff entry).mp member
  rw [there.countOf] at same
  omega

/-- Without a value that goes beyond the limit only together, the merge holds what both collected. -/
theorem merge (here : Collected first f counts) (there : Collected next f more)
    (room : total first + total next ≤ maxTotal)
    (apart : ∀ value, ¬ (0 < gathered first f value ∧ 0 < gathered next f value ∧
      maxCount < gathered first f value + gathered next f value)) :
    ∃ changed merged, counts.merge more = .ok (changed, merged) ∧
      Collected (first ++ next) f merged := by
  have bounded : ∀ entry ∈ more.entries, counts.countOf entry.1 + entry.2 ≤ maxCount := by
    intro entry member
    obtain ⟨positive, clamped⟩ := there.of_mem member
    have := apart entry.1
    rw [here.countOf, clamped]
    omega
  have merged := Occurrences.merge_eq_ok (here.fits there room) bounded
  refine ⟨_, _, merged, ?_, ?_, ?_⟩
  · exact here.valid.merge there.valid merged
  · rw [total_append]
    have := here.size_le
    have := there.size_le
    simp only
    omega
  · intro value
    have := apart value
    rw [Occurrences.countOf, countOf_foldl_bump there.valid.distinct, gathered_append]
    show counts.countOf value + more.countOf value = _
    rw [here.countOf, there.countOf]
    omega

theorem merge_refused (here : Collected first f counts) (there : Collected next f more)
    (room : total first + total next ≤ maxTotal) {value : κ}
    (together : 0 < gathered first f value ∧ 0 < gathered next f value ∧
      maxCount < gathered first f value + gathered next f value) :
    counts.merge more = .error .occurrenceOverflow := by
  have some_room : 0 < maxCount := by decide
  have counted := there.countOf value
  have present : (value, more.countOf value) ∈ more.entries :=
    (there.valid.mem_entries_iff _).mpr ⟨by simp only; omega, rfl⟩
  have above : more.entries.any fun entry => maxCount < counts.countOf entry.1 + entry.2 := by
    apply List.any_eq_true.mpr
    refine ⟨_, present, decide_eq_true ?_⟩
    simp only [here.countOf, counted]
    omega
  rw [Occurrences.merge, if_neg (Nat.not_lt.mpr (here.fits there room)), if_pos above]

end Collected

end Entries

namespace Batching

open Entries (Collected Spills)
open Strategy (combine_bag_of_merge combine_bag_of_refused)

variable {first next : Entries α} {rest : List (Entries α)} {f : α → κ} {counts : Occurrences κ}

theorem next_batch (valid : (holding (first ++ (next :: rest).flatten)).Valid) (f : α → κ) :
    (holding ((first ++ next) ++ rest.flatten)).Valid ∧
      Collected next f (Entries.collect next f) ∧
      Entries.total first + Entries.total next ≤ maxTotal := by
  rw [List.flatten_cons, ← List.append_assoc] at valid
  have fits := valid.size_le
  rw [Occurrences.holding_size, Entries.total_append, Entries.total_append] at fits
  have within : next.Sublist ((first ++ next) ++ rest.flatten) :=
    (List.sublist_append_right first next).trans (List.sublist_append_left _ _)
  exact ⟨valid, Entries.collected_collect (valid.part within) f, by omega⟩

-- The batches merged so far count as one batch. The next one either spills together with it or makes a
-- longer one.
theorem takes_collect (valid : (holding (first ++ rest.flatten)).Valid)
    (here : Collected first f counts) (unspilled : ∀ value, ¬ Spills (first :: rest) f value) :
    ∃ final, Takes .bag (rest.map (Entries.collect · f)) counts final ∧
      Collected (first ++ rest.flatten) f final := by
  induction rest generalizing first counts with
  | nil =>
    rw [List.flatten_nil, List.append_nil]
    exact ⟨counts, .none counts, here⟩
  | cons next rest ih =>
    obtain ⟨longer, there, room⟩ := next_batch valid f
    simp only [Entries.spills_cons_cons, not_or] at unspilled
    obtain ⟨changed, merged, accepted, both⟩ := here.merge there room fun value => (unspilled value).1
    obtain ⟨final, takes, full⟩ := ih longer both fun value => (unspilled value).2
    refine ⟨final, .more (combine_bag_of_merge accepted) takes, ?_⟩
    rwa [List.flatten_cons, ← List.append_assoc]

theorem refuses_collect (valid : (holding (first ++ rest.flatten)).Valid)
    (here : Collected first f counts) {value : κ} (spilled : Spills (first :: rest) f value) :
    Refuses .bag (rest.map (Entries.collect · f)) counts .occurrenceOverflow := by
  induction rest generalizing first counts with
  | nil =>
    -- One batch does not spill.
    have single : ([first].countP fun batch => 0 < Entries.gathered batch f value) ≤ 1 :=
      List.countP_le_length
    exact absurd spilled.2 (Nat.not_lt.mpr single)
  | cons next rest ih =>
    obtain ⟨longer, there, room⟩ := next_batch valid f
    by_cases apart : ∀ value, ¬ (0 < Entries.gathered first f value ∧
        0 < Entries.gathered next f value ∧
        maxCount < Entries.gathered first f value + Entries.gathered next f value)
    · obtain ⟨changed, merged, accepted, both⟩ := here.merge there room apart
      have later := ((Entries.spills_cons_cons first next rest f value).mp spilled).resolve_left
        (apart value)
      exact .later (combine_bag_of_merge accepted) (ih longer both later)
    · obtain ⟨other, together⟩ := not_forall_not.mp apart
      exact .now (combine_bag_of_refused (here.merge_refused there room together))

end Batching

namespace Bag

open Entries (Spills)

variable {run : Executor.Runs}

/-- Collected in batches, a bag answers as it does entry by entry, unless a value spills. Then the count
of that value is refused. -/
theorem collect_in_batches (inOrder : Executor.InOrder run) (batching : Batching) {bag : Bag α}
    (valid : bag.contents.Valid) (f : α → κ) :
    ((∀ value, ¬ Spills (batching.cut bag.entries) f value) →
      ∃ found, (batching.readBy run bag.entries (.collect fun item => .done (f item))).answer =
          .ok found ∧
        found.Alike (Entries.collect bag.entries f)) ∧
    ((∃ value, Spills (batching.cut bag.entries) f value) →
      (batching.readBy run bag.entries (.collect fun item => .done (f item))).answer =
        .error .occurrenceOverflow) := by
  have whole := valid_entries valid
  have cut : (holding ([] ++ (batching.cut bag.entries).flatten)).Valid := by
    rwa [List.nil_append, Batching.cut, flatten_batchesOf]
  have none : Entries.Collected [] f (.empty : Occurrences κ) :=
    Entries.collected_collect (Occurrences.valid_empty : (holding ([] : Entries α)).Valid) f
  have done (batch : Entries α) :
      (BatchRead.collect fun item => Outcome.done (f item)).task batch =
        .done (Entries.collect batch f) :=
    Batching.foldBatch_done (fun _ _ => rfl) Occurrences.empty batch
  constructor
  · intro unspilled
    obtain ⟨final, takes, full⟩ := Batching.takes_collect cut none fun value =>
      Entries.spills_nil_cons.not.mpr (unspilled value)
    rw [List.nil_append, Batching.cut, flatten_batchesOf] at full
    refine ⟨final, ?_, full.alike (Entries.collected_collect whole f)⟩
    exact Batching.readBy_eq_ok inOrder _ rfl (fun batch _ => done batch) takes
  · rintro ⟨value, spilled⟩
    have refuses := Batching.refuses_collect cut none (Entries.spills_nil_cons.mpr spilled)
    rw [Batching.readBy_answer inOrder _ _ fun batch _ => done batch]
    exact Batching.combine_of_refuses rfl refuses

/-- A full element beside two others, each in a batch of its own. Halves bring the two others together;
one value for all brings them to the full one. -/
theorem collect_in_batches_of_one :
    let bag : Bag Nat := .plain ⟨[(1, maxCount), (2, 1), (3, 5)], maxCount + 6⟩
    let batching := Batching.ofParts (.pool 4) (.ofBatchSize 1)
    let collected (f : Nat → Nat) := (batching.readBy (Executor.pool 4).run bag.entries
      (.collect fun item => .done (f item))).answer
    Executor.InOrder (Executor.pool 4).run ∧ bag.contents.Valid ∧
      (∀ value, ¬ Spills (batching.cut bag.entries) (· / 2) value) ∧
      (∃ found, collected (· / 2) = .ok found ∧
        found.Alike (Entries.collect bag.entries (· / 2))) ∧
      (∃ value, Spills (batching.cut bag.entries) (fun _ => 0) value) ∧
      collected (fun _ => 0) = .error .occurrenceOverflow := by
  intro bag batching collected
  have inOrder : Executor.InOrder (Executor.pool 4).run := Executor.inOrder_runInOrder
  have valid : bag.contents.Valid := ⟨by decide, by decide, by decide, by decide⟩
  have ones : batching.cut bag.entries = [[(1, maxCount)], [(2, 1)], [(3, 5)]] := by
    simp [batching, bag, entries, Batching.cut, Batching.ofParts, BatchSettings.ofBatchSize, batchesOf]
  have unspilled (value : Nat) : ¬ Spills (batching.cut bag.entries) (· / 2) value := by
    have limit : 6 < maxCount := by decide
    rw [ones]
    simp only [Spills, List.flatten_cons, List.flatten_nil, List.append_nil, List.cons_append,
      List.nil_append, Entries.gathered_cons, Nat.reduceDiv, Nat.zero_lt_succ, Nat.div_self,
      Entries.gathered_nil, Nat.add_zero, List.countP_cons, List.countP_nil, decide_eq_true_eq,
      Nat.zero_add, not_and, Nat.not_lt]
    split_ifs <;> omega
  have spilled : ∃ value, Spills (batching.cut bag.entries) (fun _ => 0) value := by
    rw [ones]
    exact ⟨0, by decide, by decide⟩
  exact ⟨inOrder, valid, unspilled, (collect_in_batches inOrder batching valid (· / 2)).1 unspilled,
    spilled, (collect_in_batches inOrder batching valid fun _ => 0).2 spilled⟩

/-- Batches of one refuse what batches of two, and no batches, clamp. -/
theorem collect_depends_on_batch_size :
    let bag : Bag Nat := .plain ⟨[(1, maxCount), (2, 1)], maxCount + 1⟩
    let collected (size : Nat) :=
      (Batching.ofParts .sequential (.ofBatchSize size)).collect bag.entries fun _ => .done 0
    bag.contents.Valid ∧ (collected 1).answer = .error .occurrenceOverflow ∧
      (collected 2).answer = .ok ⟨[(0, maxCount)], maxCount⟩ ∧
      Entries.collect bag.entries (fun _ => 0) = ⟨[(0, maxCount)], maxCount⟩ := by
  have ones : batchesOf 1 [(1, maxCount), (2, 1)] = [[(1, maxCount)], [(2, 1)]] := by
    simp [batchesOf]
  have twos : batchesOf 2 [(1, maxCount), (2, 1)] = [[(1, maxCount), (2, 1)]] := by
    simp [batchesOf]
  have answered (size : Nat) :
      ((Batching.ofParts .sequential (.ofBatchSize size)).collect [(1, maxCount), (2, 1)]
          fun _ => .done 0).answer =
        Batching.combine .bag
          ((batchesOf size [(1, maxCount), (2, 1)]).map fun batch => Entries.collect batch fun _ => 0) :=
    Batching.readBy_answer Executor.inOrder_runInOrder _ _ fun batch _ =>
      Batching.foldBatch_done (fun _ _ => rfl) Occurrences.empty batch
  refine ⟨⟨by decide, by decide, by decide, by decide⟩, ?_, ?_, ?_⟩
  · refine (answered 1).trans ?_
    rw [ones]
    rfl
  · refine (answered 2).trans ?_
    rw [twos]
    rfl
  · rfl

end Bag

end Collections
