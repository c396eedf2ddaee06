import Collections.Bag.Basic
import Collections.Proofs.Combination.Strategies
import Collections.Proofs.Occurrences.Parts
import Collections.Proofs.Occurrences.Words

/-! Batched reads of valid entries, against the same reads entry by entry.

The batches are parts of one valid bag that follow each other. So a part fits wherever the bag fits:
nothing is clamped in a task, no merge of parts is refused, and no sum of counts leaves its word.
-/

set_option autoImplicit false

namespace Collections

open Occurrences (holding)

variable {α : Type}

namespace Entries

theorem foldl_count (entries : Entries α) (wanted : α → Bool) (start : Nat) :
    entries.foldl (fun sum entry => if wanted entry.1 then sum + entry.2 else sum) start =
      start + total (entries.filter fun entry => wanted entry.1) := by
  induction entries generalizing start with
  | nil => rfl
  | cons entry rest ih =>
    rw [List.foldl_cons, ih, List.filter_cons]
    split
    · rw [total_cons, Nat.add_assoc]
    · rfl

theorem count_eq_total (entries : Entries α) (wanted : α → Bool) :
    count entries wanted = total (entries.filter fun entry => wanted entry.1) := by
  rw [count, foldl_count, Nat.zero_add]

theorem count_le_of_sublist {part entries : Entries α} (within : part.Sublist entries)
    (wanted : α → Bool) : count part wanted ≤ total entries := by
  rw [count_eq_total]
  exact total_sublist (List.filter_sublist.trans within)

theorem count_append (entries more : Entries α) (wanted : α → Bool) :
    count (entries ++ more) wanted = count entries wanted + count more wanted := by
  simp only [count_eq_total, List.filter_append, total_append]

end Entries

namespace Batching

variable {ρ : Type} {batching : Batching} {entries : Entries α} {run : Executor.Runs}

theorem foldBatch_done {step : ρ → α × Nat → Outcome ρ} {next : ρ → α × Nat → ρ}
    (done : ∀ result entry, step result entry = .done (next result entry)) (result : ρ)
    (batch : Entries α) : foldBatch step result batch = .done (batch.foldl next result) := by
  induction batch generalizing result with
  | nil => rfl
  | cons entry rest ih =>
    rw [foldBatch, done]
    exact ih (next result entry)

theorem flatten_filter_cut (keep : α × Nat → Bool) :
    ((batching.cut entries).map (·.filter keep)).flatten = entries.filter keep := by
  rw [← List.filter_flatten, cut, flatten_batchesOf]

/-! ## Counting -/

theorem takes_count (wanted : α → Bool) (parts : List (Entries α)) (sum : Nat) :
    Takes (BatchRead.count fun item => .done (wanted item)).strategy
      (parts.map fun part => Entries.count part wanted) sum
      (sum + Entries.count parts.flatten wanted) := by
  induction parts generalizing sum with
  | nil => exact .none sum
  | cons part rest ih =>
    rw [List.flatten_cons, Entries.count_append, ← Nat.add_assoc]
    exact .more rfl (ih (sum + Entries.count part wanted))

theorem count_answer (batching : Batching) (inOrder : Executor.InOrder run) (wanted : α → Bool) :
    (batching.readBy run entries (.count fun item => .done (wanted item))).answer =
      .ok (Entries.count entries wanted) := by
  have taken := takes_count wanted (batching.cut entries) 0
  rw [cut, flatten_batchesOf, Nat.zero_add] at taken
  exact readBy_eq_ok inOrder _ rfl (fun batch _ => foldBatch_done (fun _ _ => rfl) 0 batch) taken

end Batching

/-- Counting in words of sixty-four bits. A sum that leaves its word refuses the read. -/
def BatchRead.countInWords (wanted : α → Bool) : BatchRead α Nat Nat where
  strategy := .fold 0 fun part sum =>
    match Occurrences.grownInWords sum part with
    | some sum => ⟨.ok (), sum⟩
    | none => ⟨.error .totalOverflow, sum⟩
  task := Batching.foldBatch
    (fun sum entry =>
      if wanted entry.1 then
        match Occurrences.grownInWords sum entry.2 with
        | some sum => .done sum
        | none => .failed .totalOverflow
      else .done sum)
    0

namespace Batching

variable {batching : Batching} {entries : Entries α} {run : Executor.Runs}

theorem countInWords_task (wanted : α → Bool) {batch : Entries α}
    (fits : Entries.count batch wanted ≤ maxTotal) :
    (BatchRead.countInWords wanted).task batch = .done (Entries.count batch wanted) := by
  simp only [BatchRead.countInWords, Entries.count, Entries.foldl_count] at fits ⊢
  -- The sum within a batch starts at zero and goes on from any sum.
  generalize 0 = start at fits ⊢
  induction batch generalizing start with
  | nil => rfl
  | cons entry rest ih =>
    rw [List.filter_cons] at fits ⊢
    rw [foldBatch]
    cases chosen : wanted entry.1 with
    | true =>
      simp only [chosen, if_true, Entries.total_cons, ← Nat.add_assoc] at fits ⊢
      rw [Occurrences.grownInWords_eq (by omega)]
      exact ih (start + entry.2) fits
    | false =>
      simp only [chosen] at fits ⊢
      exact ih start fits

theorem takes_countInWords (wanted : α → Bool) {parts : List (Entries α)} {sum : Nat}
    (fits : sum + Entries.count parts.flatten wanted ≤ maxTotal) :
    Takes (BatchRead.countInWords wanted).strategy
      (parts.map fun part => Entries.count part wanted) sum
      (sum + Entries.count parts.flatten wanted) := by
  induction parts generalizing sum with
  | nil => exact .none sum
  | cons part rest ih =>
    rw [List.flatten_cons, Entries.count_append, ← Nat.add_assoc] at fits ⊢
    refine .more ?_ (ih fits)
    simp only [BatchRead.countInWords, Strategy.fold]
    rw [Occurrences.grownInWords_eq (by omega)]

theorem countInWords_answer (batching : Batching) (inOrder : Executor.InOrder run)
    (wanted : α → Bool) (fits : Entries.total entries ≤ maxTotal) :
    (batching.readBy run entries (.countInWords wanted)).answer =
      .ok (Entries.count entries wanted) := by
  have bounded {part : Entries α} (within : part.Sublist entries) :
      Entries.count part wanted ≤ maxTotal :=
    Nat.le_trans (Entries.count_le_of_sublist within wanted) fits
  have whole : 0 + Entries.count (batching.cut entries).flatten wanted ≤ maxTotal := by
    rw [cut, flatten_batchesOf, Nat.zero_add]
    exact bounded (List.Sublist.refl entries)
  have taken := takes_countInWords wanted whole
  rw [cut, flatten_batchesOf, Nat.zero_add] at taken
  refine readBy_eq_ok inOrder _ rfl ?_ taken
  intro batch member
  exact countInWords_task wanted (bounded (sublist_of_batch member))

/-! ## Bags -/

section Bags

variable [DecidableEq α]

-- The result so far and the parts to come make up one valid bag, so each merge finds room.
theorem takes_bag {parts : List (Entries α)} {entries : Entries α}
    (valid : (holding (entries ++ parts.flatten)).Valid) :
    Takes .bag (parts.map holding) (holding entries) (holding (entries ++ parts.flatten)) := by
  induction parts generalizing entries with
  | nil =>
    rw [List.flatten_nil, List.append_nil]
    exact .none _
  | cons part rest ih =>
    rw [List.flatten_cons, ← List.append_assoc] at valid ⊢
    have front : (holding (entries ++ part)).Valid := valid.part (List.sublist_append_left _ _)
    exact .more (Strategy.combine_bag_of_merge (Occurrences.merge_holding front)) (ih valid)

/-- A read into bags whose tasks keep what a predicate keeps of their batches. -/
theorem bag_answer (batching : Batching) (inOrder : Executor.InOrder run) (valid : (holding entries).Valid)
    {read : BatchRead α (Occurrences α) (Occurrences α)} (bag : read.strategy = .bag)
    (keep : α × Nat → Bool)
    (task : ∀ batch : Entries α, batch.Sublist entries →
      read.task batch = .done (.ofEntries (batch.filter keep))) :
    (batching.readBy run entries read).answer = .ok (holding (entries.filter keep)) := by
  have kept : (holding ([] ++ ((batching.cut entries).map (·.filter keep)).flatten)).Valid := by
    rw [List.nil_append, flatten_filter_cut]
    exact valid.part List.filter_sublist
  have taken := takes_bag kept
  rw [List.nil_append, flatten_filter_cut, List.map_map] at taken
  refine readBy_eq_ok inOrder (holding ∘ (·.filter keep)) (by rw [bag]; rfl) ?_ (bag ▸ taken)
  intro batch member
  have within := sublist_of_batch member
  rw [task batch within, valid.ofEntries_part (List.filter_sublist.trans within)]
  rfl

theorem ofEntries_filter (valid : (holding entries).Valid) (keep : α × Nat → Bool) :
    Occurrences.ofEntries (entries.filter keep) = holding (entries.filter keep) :=
  valid.ofEntries_part List.filter_sublist

theorem select_answer (batching : Batching) (inOrder : Executor.InOrder run) (valid : (holding entries).Valid)
    (wanted : α → Bool) :
    (batching.readBy run entries (.select fun item => .done (wanted item))).answer =
      .ok (Entries.select entries wanted) := by
  rw [Entries.select, ofEntries_filter valid]
  apply bag_answer batching inOrder valid rfl
  intro batch _
  rw [Occurrences.ofEntries, List.foldl_filter]
  exact foldBatch_done (fun _ _ => rfl) Occurrences.empty batch

theorem selectByCount_answer (batching : Batching) (inOrder : Executor.InOrder run) (valid : (holding entries).Valid)
    (wanted : Nat → Bool) :
    (batching.readBy run entries (.selectByCount wanted)).answer =
      .ok (Entries.selectByCount entries wanted) := by
  rw [Entries.selectByCount, ofEntries_filter valid]
  exact bag_answer batching inOrder valid rfl _ fun _ _ => rfl

/-! ## Sets and maps -/

theorem foldl_insert_of_nodup {items found : List α} (distinct : (items ++ found).Nodup) :
    items.foldl (fun found item => found.insert item) found = items.reverse ++ found := by
  induction items generalizing found with
  | nil => rfl
  | cons item rest ih =>
    obtain ⟨fresh, later⟩ := List.nodup_cons.mp distinct
    have absent : item ∉ found := by
      intro member
      exact fresh (List.mem_append_right rest member)
    have moved : (rest ++ item :: found).Nodup := List.nodup_middle.mpr distinct
    rw [List.foldl_cons, List.insert_of_not_mem absent, ih moved, List.reverse_cons,
      List.append_assoc]
    rfl

-- Sets have no order. The one that is read in batches lists its elements from the last to the first.
theorem unique_answer (batching : Batching) (inOrder : Executor.InOrder run) (valid : (holding entries).Valid) :
    ∃ found, (batching.readBy run entries .unique).answer = .ok found ∧
      found.Perm (Entries.unique entries) := by
  have parts : ((batching.cut entries).map fun batch =>
      Entries.items (batch.filter fun entry => entry.2 == 1)).flatten = Entries.unique entries := by
    rw [Entries.unique, ← flatten_filter_cut]
    simp only [Entries.items, List.map_flatten, List.map_map]
    rfl
  have distinct : (Entries.unique entries ++ []).Nodup := by
    rw [List.append_nil]
    exact valid.distinct.sublist (List.filter_sublist.map Prod.fst)
  refine ⟨(Entries.unique entries).reverse, ?_, List.reverse_perm _⟩
  rw [readBy_answer inOrder .unique _ fun _ _ => rfl]
  show Except.ok (List.foldl _ [] (List.flatMap id _)) = _
  rw [List.flatMap_id, parts, foldl_insert_of_nodup distinct, List.append_nil]

theorem toMap_answer (batching : Batching) (inOrder : Executor.InOrder run) (valid : (holding entries).Valid) :
    (batching.readBy run entries .toMap).answer = .ok entries := by
  have distinct : (([] ++ entries).map Prod.fst).Nodup := valid.distinct
  rw [readBy_answer inOrder .toMap id fun _ _ => rfl]
  show Except.ok (List.foldl _ [] (List.flatMap id _)) = _
  rw [List.map_id, List.flatMap_id, cut, flatten_batchesOf, Keyed.foldl_of_fresh _ distinct]
  · rfl
  · intro filed pair fresh
    exact Keyed.update_of_not_mem fresh _ _

end Bags

end Batching

end Collections
