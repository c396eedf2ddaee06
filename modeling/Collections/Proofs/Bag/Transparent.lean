import Collections.Proofs.Bag.Calls
import Collections.Proofs.Bag.Parallel
import Collections.Proofs.Grouping

/-! Layers that pass changes on are transparent: through any stack of them a bag answers every call as it
does without, and what is read through them is what is read off the bag itself.

An order changes the order of reading, and with it the order in which elements are looked for and taken
away. So two bags are compared by their counts, and what is read off them up to order.
-/

set_option autoImplicit false

namespace Collections

open Occurrences (Alike holding)

variable {α : Type} [DecidableEq α]

namespace Occurrences

variable {counts other : Occurrences α}

structure Paired (counts other : Occurrences α) : Prop where
  valid : counts.Valid
  other_valid : other.Valid
  countOf (item : α) : counts.countOf item = other.countOf item

theorem Valid.attempt (valid : counts.Valid) (change : Change α) :
    (counts.attempt change).state.Valid :=
  valid.after fun _ _ accepted => valid.apply accepted

theorem Paired.alike (paired : Paired counts other) : Alike counts other :=
  paired.valid.alike paired.other_valid paired.countOf

theorem Paired.attempt (paired : Paired counts other) (change : Change α) :
    Attempt.Agree Paired (counts.attempt change) (other.attempt change) := by
  have concur := paired.alike.apply paired.valid paired.other_valid change
  exact ⟨concur.answer, paired.valid.attempt change, paired.other_valid.attempt change,
    concur.after paired.countOf⟩

/-! ## Taking entries away -/

theorem Valid.remove_entry (valid : counts.Valid) {entry : α × Nat} (member : entry ∈ counts.entries) :
    counts.attempt (.remove entry.1 entry.2) =
      ⟨.ok true, ⟨counts.entries.erase entry.1, counts.size - counts.countOf entry.1⟩⟩ := by
  obtain ⟨positive, same⟩ := (valid.mem_entries_iff entry).mp member
  have counted : ¬ (entry.2 : Int) < 0 := by omega
  have some : ¬ ((entry.2 : Int) = 0 ∨ counts.countOf entry.1 = 0) := by omega
  have all : ¬ (entry.2 : Int).toNat < counts.countOf entry.1 := by omega
  rw [Occurrences.attempt, Occurrences.apply, Occurrences.remove, if_neg counted, if_neg some, if_neg all]
  rfl

-- The entries that are still to go are about other elements, so they are entries of what is left.
/-- Taking away what entries tell of leaves none of their elements. -/
theorem Valid.remove_entries (valid : counts.Valid) {entries : Entries α}
    (distinct : (Entries.items entries).Nodup) (held : entries ⊆ counts.entries) :
    ∃ left, Attempt.anyChange (fun (entry : α × Nat) counts => counts.attempt (.remove entry.1 entry.2))
        entries counts = ⟨.ok !entries.isEmpty, left⟩ ∧ left.Valid ∧
      ∀ item, left.countOf item = if item ∈ Entries.items entries then 0 else counts.countOf item := by
  induction entries generalizing counts with
  | nil => exact ⟨counts, rfl, valid, fun _ => rfl⟩
  | cons entry rest ih =>
    obtain ⟨fresh, distinct⟩ := List.nodup_cons.mp distinct
    obtain ⟨member, later⟩ := List.cons_subset.mp held
    have gone := valid.erase entry.1
    have still : rest ⊆ counts.entries.erase entry.1 := by
      intro next coming
      have other : entry.1 ≠ next.1 := fun same => fresh (same ▸ List.mem_map_of_mem coming)
      apply (gone.mem_entries_iff next).mpr
      rw [valid.countOf_erase, if_neg other]
      exact (valid.mem_entries_iff next).mp (later coming)
    obtain ⟨left, taken, left_valid, counted⟩ := ih gone distinct still
    refine ⟨left, ?_, left_valid, ?_⟩
    · rw [Attempt.anyChange_cons (valid.remove_entry member), taken]
      rfl
    · intro item
      have cons : Entries.items (entry :: rest) = entry.1 :: Entries.items rest := rfl
      rw [counted, valid.countOf_erase, cons]
      by_cases first : entry.1 = item
      · simp [first]
      · simp [first, Ne.symm first]

end Occurrences

namespace Bag

open Occurrences (Paired)

variable {bag other : Bag α}

structure Twins (bag other : Bag α) : Prop where
  writable : bag.isWritable
  other_writable : other.isWritable
  contents : Paired bag.contents other.contents

theorem Twins.refilled (twins : Twins bag other) {counts others : Occurrences α}
    (paired : Paired counts others) : Twins (bag.refilled counts) (other.refilled others) where
  writable := (isWritable_refilled bag counts).trans twins.writable
  other_writable := (isWritable_refilled other others).trans twins.other_writable
  contents := by
    rw [contents_refilled, contents_refilled]
    exact paired

theorem Twins.entries_perm (twins : Twins bag other) : bag.entries.Perm other.entries :=
  bag.entries_perm.trans ((twins.contents.valid.entries_perm twins.contents.other_valid
    twins.contents.countOf).trans other.entries_perm.symm)

/-! ## Calls -/

theorem Twins.through {ρ : Type} (twins : Twins bag other)
    {here there : Attempt (Occurrences α) ρ} (agree : Attempt.Agree Paired here there) :
    Attempt.Agree Twins (here.within bag.refilled) (there.within other.refilled) :=
  agree.within fun _ _ paired => twins.refilled paired

theorem Twins.apply (twins : Twins bag other) (change : Change α) :
    Attempt.Agree Twins (bag.apply change) (other.apply change) := by
  rw [apply_of_writable twins.writable, apply_of_writable twins.other_writable]
  exact twins.through (twins.contents.attempt change)

theorem Twins.addAll (twins : Twins bag other) (items : List α) :
    Attempt.Agree Twins (bag.addAll items) (other.addAll items) := by
  rw [addAll_of_writable twins.writable, addAll_of_writable twins.other_writable]
  apply twins.through
  exact Attempt.anyChange_agree (fun _ _ _ paired => paired.attempt _) items twins.contents

theorem Twins.removeAll (twins : Twins bag other) (items : List α) :
    Attempt.Agree Twins (bag.removeAll items) (other.removeAll items) := by
  rw [removeAll_of_writable twins.writable, removeAll_of_writable twins.other_writable]
  apply twins.through
  refine Attempt.anyChange_agree ?_ items twins.contents
  intro item counts others paired
  rw [paired.countOf]
  exact paired.attempt _

theorem remove_unwanted (valid : bag.contents.Valid) (unwanted : α × Nat → Bool) :
    ∃ left, Attempt.anyChange
        (fun (entry : α × Nat) counts => counts.attempt (.remove entry.1 entry.2))
        (bag.entries.filter unwanted) bag.contents =
          ⟨.ok !(bag.entries.filter unwanted).isEmpty, left⟩ ∧ left.Valid ∧
      ∀ item, left.countOf item =
        if item ∈ Entries.items (bag.entries.filter unwanted) then 0
        else bag.contents.countOf item := by
  apply valid.remove_entries
  · exact (valid_entries valid).distinct.sublist (List.filter_sublist.map Prod.fst)
  · exact fun _ member => bag.entries_perm.subset (List.mem_of_mem_filter member)

-- The two stacks go through the entries in different orders. But each knows beforehand which elements are
-- to go, and these are the same.
theorem Twins.removeIf (twins : Twins bag other) (unwanted : α × Nat → Bool) :
    Attempt.Agree Twins (bag.removeIf unwanted) (other.removeIf unwanted) := by
  have doomed : (bag.entries.filter unwanted).Perm (other.entries.filter unwanted) :=
    twins.entries_perm.filter _
  obtain ⟨left, taken, valid, counted⟩ := remove_unwanted twins.contents.valid unwanted
  obtain ⟨remaining, removed, other_valid, recounted⟩ :=
    remove_unwanted twins.contents.other_valid unwanted
  rw [removeIf_of_writable twins.writable, removeIf_of_writable twins.other_writable, taken, removed]
  apply twins.through
  refine ⟨?_, valid, other_valid, ?_⟩
  · simp only [doomed.isEmpty_eq]
  · intro item
    have gone : item ∈ Entries.items (bag.entries.filter unwanted) ↔
        item ∈ Entries.items (other.entries.filter unwanted) := (doomed.map Prod.fst).mem_iff
    simp only [counted, recounted, gone, twins.contents.countOf]

theorem Twins.perform (twins : Twins bag other) (call : Call α) :
    Attempt.Agree Twins (bag.perform call) (other.perform call) := by
  cases call with
  | add item => exact (twins.apply (.add item 1)).map some
  | addOccurrences item amount => exact (twins.apply (.add item amount)).map some
  | remove item => exact (twins.apply (.remove item 1)).map some
  | removeOccurrences item amount => exact (twins.apply (.remove item amount)).map some
  | setOccurrences item count => exact (twins.apply (.set item count)).map some
  | addAll items => exact (twins.addAll items).map some
  | removeAll items => exact (twins.removeAll items).map some
  | removeIf unwanted => exact (twins.removeIf unwanted).map some
  | clear => exact ((twins.apply .clear).map fun _ => ()).map fun _ => none

/-! ## Reads -/

/-- What can be read off two bags is the same, up to the order in which it is listed. The executors of
parallel layers run in a given way. -/
structure ReadAlike (run : Batching → Executor.Runs) (bag other : Bag α) : Prop where
  countOf (item : α) : bag.countOf item = other.countOf item
  contains (item : α) : bag.contains item = other.contains item
  size : bag.size = other.size
  distinct : bag.distinct = other.distinct
  count (wanted : α → Bool) :
    Entries.count bag.entries wanted = Entries.count other.entries wanted
  select (wanted : α → Bool) :
    Alike (Entries.select bag.entries wanted) (Entries.select other.entries wanted)
  reject (unwanted : α → Bool) :
    Alike (Entries.reject bag.entries unwanted) (Entries.reject other.entries unwanted)
  partition (wanted : α → Bool) :
    Alike (Entries.partition bag.entries wanted).1 (Entries.partition other.entries wanted).1 ∧
      Alike (Entries.partition bag.entries wanted).2 (Entries.partition other.entries wanted).2
  collect {κ : Type} [DecidableEq κ] (f : α → κ) :
    Alike (Entries.collect bag.entries f) (Entries.collect other.entries f)
  groupBy {κ : Type} [DecidableEq κ] (key : α → κ) (value : κ) :
    Option.Rel Alike ((Entries.groupBy bag.entries key).valueOf? value)
      ((Entries.groupBy other.entries key).valueOf? value)
  toSet : (Entries.items bag.entries).Perm (Entries.items other.entries)
  unique : ∃ found given, (bag.uniqueBy run).answer = .ok found ∧
    (other.uniqueBy run).answer = .ok given ∧ found.Perm given
  duplicates : ∃ found given, (bag.duplicatesBy run).answer = .ok found ∧
    (other.duplicatesBy run).answer = .ok given ∧ Alike found given
  toMap : ∃ found given, (bag.toMapBy run).answer = .ok found ∧
    (other.toMapBy run).answer = .ok given ∧ found.Perm given

section Reading

variable {run : Batching → Executor.Runs}

theorem uniqueBy_answer (inOrder : ∀ batching, Executor.InOrder (run batching))
    (valid : bag.contents.Valid) : ∃ found, (bag.uniqueBy run).answer = .ok found ∧
      found.Perm (Entries.unique bag.entries) := by
  cases bag with
  | parallel batching inner =>
    exact Batching.unique_answer batching (inOrder batching) (valid_entries valid)
  | _ => exact ⟨_, rfl, List.Perm.refl _⟩

theorem duplicatesBy_answer (inOrder : ∀ batching, Executor.InOrder (run batching))
    (valid : bag.contents.Valid) :
    (bag.duplicatesBy run).answer = .ok (Entries.duplicates bag.entries) := by
  cases bag with
  | parallel batching inner =>
    exact Batching.selectByCount_answer batching (inOrder batching) (valid_entries valid) (1 < ·)
  | _ => rfl

theorem toMapBy_answer (inOrder : ∀ batching, Executor.InOrder (run batching))
    (valid : bag.contents.Valid) : (bag.toMapBy run).answer = .ok bag.entries := by
  cases bag with
  | parallel batching inner =>
    exact Batching.toMap_answer batching (inOrder batching) (valid_entries valid)
  | _ => rfl

theorem Twins.keep (twins : Twins bag other) (wanted : α × Nat → Bool) :
    Alike (.ofEntries (bag.entries.filter wanted)) (.ofEntries (other.entries.filter wanted)) := by
  have whole := valid_entries twins.contents.valid
  have other_whole := valid_entries twins.contents.other_valid
  rw [Batching.ofEntries_filter whole, Batching.ofEntries_filter other_whole]
  have part : (holding (other.entries.filter wanted)).Valid := other_whole.part List.filter_sublist
  exact part.alike_of_perm (twins.entries_perm.filter _)

theorem Twins.readAlike (twins : Twins bag other)
    (inOrder : ∀ batching, Executor.InOrder (run batching)) : ReadAlike run bag other := by
  have alike := twins.contents.alike
  have same := twins.entries_perm
  have other_whole := valid_entries twins.contents.other_valid
  constructor
  case countOf => exact alike.countOf
  case contains =>
    intro item
    rw [contains, countOf, alike.countOf]
    rfl
  case size => exact alike.size
  case distinct => exact alike.distinct
  case count =>
    intro wanted
    rw [Entries.count_eq_total, Entries.count_eq_total]
    exact Entries.total_perm (same.filter _)
  case select => exact fun wanted => twins.keep fun entry => wanted entry.1
  case reject => exact fun unwanted => twins.keep fun entry => !unwanted entry.1
  case partition =>
    intro wanted
    rw [Entries.partition_eq, Entries.partition_eq]
    exact ⟨twins.keep fun entry => wanted entry.1, twins.keep fun entry => !wanted entry.1⟩
  case collect => exact fun f => Entries.collect_alike other_whole same f
  case groupBy =>
    intro κ _ key value
    rw [Entries.valueOf?_groupBy (other_whole.perm same), Entries.valueOf?_groupBy other_whole]
    exact Entries.groupOf_alike other_whole same key value
  case toSet => exact same.map Prod.fst
  case unique =>
    obtain ⟨found, answered, permuted⟩ := uniqueBy_answer inOrder twins.contents.valid
    obtain ⟨given, replied, reordered⟩ := uniqueBy_answer inOrder twins.contents.other_valid
    have between : (Entries.unique bag.entries).Perm (Entries.unique other.entries) :=
      (same.filter _).map Prod.fst
    exact ⟨found, given, answered, replied, permuted.trans (between.trans reordered.symm)⟩
  case duplicates =>
    exact ⟨_, _, duplicatesBy_answer inOrder twins.contents.valid,
      duplicatesBy_answer inOrder twins.contents.other_valid, twins.keep fun entry => 1 < entry.2⟩
  case toMap =>
    exact ⟨_, _, toMapBy_answer inOrder twins.contents.valid,
      toMapBy_answer inOrder twins.contents.other_valid, same⟩

end Reading

/-! ## Runs -/

structure StepsAlike (run : Batching → Executor.Runs) (here there : Step (Bag α) (Call α) (Option Bool)) :
    Prop where
  call : here.call = there.call
  answer : here.answer = there.answer
  finish : ReadAlike run here.finish there.finish

/-- Through any layers that pass changes on, a bag answers any calls as the bare one does, and the same is
read off it before, between and after them. -/
theorem calls_through_layers {run : Batching → Executor.Runs}
    (inOrder : ∀ batching, Executor.InOrder (run batching)) {bag : Bag α} {counts : Occurrences α}
    (writable : bag.isWritable) (valid : bag.contents.Valid) (counts_valid : counts.Valid)
    (same : ∀ item, bag.countOf item = counts.countOf item) (calls : List (Call α)) :
    ReadAlike run bag (.plain counts) ∧
      List.Forall₂ (StepsAlike run) (Step.run perform bag calls)
        (Step.run perform (.plain counts) calls) := by
  have twins : Twins bag (.plain counts) := ⟨writable, rfl, valid, counts_valid, same⟩
  refine ⟨twins.readAlike inOrder, ?_⟩
  refine Step.run_agrees ?_ ?_ twins calls
  · exact fun _ _ call twins => (twins.perform call).state
  · intro state shadow call twins
    have agree := twins.perform call
    exact ⟨rfl, agree.answer, agree.state.readAlike inOrder⟩

/-- Four layers over a bag whose entries are in another order than those of the bare one. -/
theorem calls_through_four_layers :
    let run : Batching → Executor.Runs := fun _ => (Executor.pool 4).run
    let bag : Bag Nat := .sorted (fun first second => compare second first)
      (.parallel (.ofParts (.pool 4) (.ofBatchSize 1))
        (.shared 0 (.sorted compare (.plain ⟨[(1, 2), (3, 1)], 3⟩))))
    let counts : Occurrences Nat := ⟨[(3, 1), (1, 2)], 3⟩
    let calls : List (Call Nat) := [.addAll [5, 1], .addOccurrences 1 (-1), .removeAll [3, 4],
      .removeIf fun entry => entry.2 == 3, .setOccurrences 5 (maxCount + 1), .clear]
    (∀ batching, Executor.InOrder (run batching)) ∧ bag.isWritable ∧ bag.contents.Valid ∧
      counts.Valid ∧ (∀ item, bag.countOf item = counts.countOf item) ∧
      ReadAlike run bag (.plain counts) ∧
        List.Forall₂ (StepsAlike run) (Step.run perform bag calls)
          (Step.run perform (.plain counts) calls) := by
  intro run bag counts calls
  have inOrder (batching : Batching) : Executor.InOrder (run batching) := Executor.inOrder_runInOrder
  have valid : bag.contents.Valid := ⟨by decide, by decide, by decide, by decide⟩
  have counts_valid : counts.Valid := ⟨by decide, by decide, by decide, by decide⟩
  have same (item : Nat) : bag.countOf item = counts.countOf item :=
    Entries.countOf_perm valid.distinct (List.Perm.swap _ _ _) item
  exact ⟨inOrder, rfl, valid, counts_valid, same,
    calls_through_layers inOrder rfl valid counts_valid same calls⟩

end Bag

end Collections
