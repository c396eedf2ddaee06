import Collections.Entries.Basic
import Collections.Proofs.Keyed

/-! Laws of entries: the count of an element and the total after a change.

The total is told by what it gains and loses, so that no law needs a difference of counts.
-/

set_option autoImplicit false

namespace Collections.Entries

variable {α : Type}

/-! ## Totals -/

@[simp] theorem total_nil : total ([] : Entries α) = 0 := rfl

@[simp] theorem total_cons (entry : α × Nat) (entries : Entries α) :
    total (entry :: entries) = entry.2 + total entries := rfl

@[simp] theorem total_append (entries more : Entries α) :
    total (entries ++ more) = total entries + total more := by
  induction entries with
  | nil => simp
  | cons entry rest ih => simp only [List.cons_append, total_cons, ih, Nat.add_assoc]

theorem total_perm {entries others : Entries α} (same : entries.Perm others) :
    total entries = total others := by
  induction same with
  | nil => rfl
  | cons entry _ ih => simp only [total_cons, ih]
  | swap first second rest => simp only [total_cons, Nat.add_left_comm]
  | trans _ _ first second => exact first.trans second

theorem total_sublist {part entries : Entries α} (within : part.Sublist entries) :
    total part ≤ total entries := by
  induction within with
  | slnil => exact Nat.le_refl _
  | cons entry _ ih => exact Nat.le_trans ih (Nat.le_add_left _ _)
  | cons_cons entry _ ih => exact Nat.add_le_add_left ih _

/-- What satisfies a predicate and what does not make up the whole. -/
theorem total_filter_add (entries : Entries α) (keep : α × Nat → Bool) :
    total (entries.filter keep) + total (entries.filter fun entry => !keep entry) =
      total entries := by
  induction entries with
  | nil => rfl
  | cons entry rest ih =>
    cases kept : keep entry
    · simp only [List.filter_cons, kept, Bool.false_eq_true, ↓reduceIte, Bool.not_false,
        total_cons]
      omega
    · simp only [List.filter_cons, kept, ↓reduceIte, Bool.not_true, Bool.false_eq_true,
        total_cons]
      omega

theorem count_le_total {entries : Entries α} {entry : α × Nat} (member : entry ∈ entries) :
    entry.2 ≤ total entries := by
  simpa using total_sublist (List.singleton_sublist.mpr member)

/-! ## Counts -/

variable [DecidableEq α]

@[simp] theorem countOf_nil (item : α) : countOf [] item = 0 := rfl

theorem countOf_cons (entry : α × Nat) (entries : Entries α) (item : α) :
    countOf (entry :: entries) item = if entry.1 = item then entry.2 else countOf entries item := by
  by_cases same : entry.1 = item <;> simp [countOf, Keyed.valueOf?, same]

theorem countOf_of_not_mem {entries : Entries α} {item : α} (absent : item ∉ items entries) :
    countOf entries item = 0 := by
  rw [countOf, Keyed.valueOf?_eq_none.mpr absent]
  rfl

theorem countOf_of_mem {entries : Entries α} (distinct : (items entries).Nodup) {entry : α × Nat}
    (member : entry ∈ entries) : countOf entries entry.1 = entry.2 := by
  rw [countOf, Keyed.valueOf?_of_mem distinct member]
  rfl

theorem mem_of_countOf {entries : Entries α} {item : α} (present : 0 < countOf entries item) :
    (item, countOf entries item) ∈ entries := by
  unfold countOf at present ⊢
  cases found : Keyed.valueOf? entries item with
  | none => simp [found] at present
  | some count => exact Keyed.mem_of_valueOf? found

theorem countOf_le_total (entries : Entries α) (item : α) :
    countOf entries item ≤ total entries := by
  by_cases present : 0 < countOf entries item
  · exact count_le_total (mem_of_countOf present)
  · omega

/-- Entries in another order count alike. -/
theorem countOf_perm {entries others : Entries α} (distinct : (items entries).Nodup)
    (same : entries.Perm others) (item : α) : countOf entries item = countOf others item := by
  have others_distinct : (items others).Nodup := (same.map Prod.fst).nodup_iff.mp distinct
  by_cases present : item ∈ items entries
  · obtain ⟨entry, member, rfl⟩ := List.mem_map.mp present
    rw [countOf_of_mem distinct member, countOf_of_mem others_distinct (same.mem_iff.mp member)]
  · have absent : item ∉ items others := by
      intro found
      exact present ((same.map Prod.fst).mem_iff.mpr found)
    rw [countOf_of_not_mem present, countOf_of_not_mem absent]

theorem countOf_filter {entries : Entries α} (distinct : (items entries).Nodup) (keep : α × Nat → Bool)
    (item : α) : countOf (entries.filter keep) item =
      if keep (item, countOf entries item) then countOf entries item else 0 := by
  have part : (items (entries.filter keep)).Nodup := distinct.sublist (List.filter_sublist.map Prod.fst)
  by_cases kept : (item, countOf entries item) ∈ entries.filter keep
  · rw [if_pos (List.mem_filter.mp kept).2]
    exact countOf_of_mem part kept
  · have absent : item ∉ items (entries.filter keep) := by
      intro found
      obtain ⟨entry, member, rfl⟩ := List.mem_map.mp found
      rw [countOf_of_mem distinct (List.mem_filter.mp member).1] at kept
      exact kept member
    rw [countOf_of_not_mem absent]
    by_cases present : 0 < countOf entries item
    · rw [if_neg fun wanted => kept (List.mem_filter.mpr ⟨mem_of_countOf present, wanted⟩)]
    · rw [Nat.eq_zero_of_not_pos present, ite_self]

/-! ## Putting an entry -/

theorem countOf_put (entries : Entries α) (item : α) (count : Nat) (other : α) :
    countOf (put entries item count) other =
      if item = other then count else countOf entries other := by
  rw [countOf, put, Keyed.insert, Keyed.valueOf?_update]
  split <;> rfl

theorem nodup_put {entries : Entries α} (distinct : (items entries).Nodup) (item : α)
    (count : Nat) : (items (put entries item count)).Nodup :=
  Keyed.nodup_update distinct item count _

theorem mem_put {entries : Entries α} {item : α} {count : Nat} {entry : α × Nat}
    (member : entry ∈ put entries item count) : entry ∈ entries ∨ entry = (item, count) :=
  Keyed.mem_update member

theorem put_of_not_mem {entries : Entries α} {item : α} (absent : item ∉ items entries)
    (count : Nat) : put entries item count = entries ++ [(item, count)] :=
  Keyed.update_of_not_mem absent _ _

/-- Putting a count gains that count and loses the earlier one. -/
theorem total_put (entries : Entries α) (item : α) (count : Nat) :
    total (put entries item count) + countOf entries item = total entries + count := by
  induction entries with
  | nil => simp [put, Keyed.insert, Keyed.update]
  | cons entry rest ih =>
    unfold put Keyed.insert at ih ⊢
    by_cases same : entry.1 = item
    · simp only [Keyed.update, same, ↓reduceIte, total_cons, countOf_cons]
      omega
    · simp only [Keyed.update, same, ↓reduceIte, total_cons, countOf_cons]
      omega

/-! ## Taking an entry out -/

theorem countOf_erase {entries : Entries α} (distinct : (items entries).Nodup) (item other : α) :
    countOf (erase entries item) other = if item = other then 0 else countOf entries other := by
  rw [countOf, erase, Keyed.valueOf?_erase distinct]
  split <;> rfl

theorem erase_sublist (entries : Entries α) (item : α) : (erase entries item).Sublist entries :=
  Keyed.erase_sublist entries item

theorem total_erase (entries : Entries α) (item : α) :
    total (erase entries item) + countOf entries item = total entries := by
  induction entries with
  | nil => rfl
  | cons entry rest ih =>
    unfold erase at ih ⊢
    by_cases same : entry.1 = item
    · simp only [Keyed.erase, same, ↓reduceIte, total_cons, countOf_cons]
      omega
    · simp only [Keyed.erase, same, ↓reduceIte, total_cons, countOf_cons]
      omega

/-! ## Adding to an entry -/

theorem bump_eq_put (entries : Entries α) (entry : α × Nat) :
    bump entries entry = put entries entry.1 (countOf entries entry.1 + entry.2) :=
  Keyed.update_congr rfl

theorem countOf_bump (entries : Entries α) (entry : α × Nat) (item : α) :
    countOf (bump entries entry) item =
      countOf entries item + if entry.1 = item then entry.2 else 0 := by
  rw [bump_eq_put, countOf_put]
  split
  · rename_i same
    rw [same]
  · rfl

/-- Entries whose elements come later are about other elements. -/
theorem countOf_bump_of_later {entry : α × Nat} {rest : Entries α} (fresh : entry.1 ∉ items rest)
    (entries : Entries α) {other : α × Nat} (member : other ∈ rest) :
    countOf (bump entries entry) other.1 = countOf entries other.1 := by
  have different : entry.1 ≠ other.1 := by
    intro same
    exact fresh (same ▸ List.mem_map_of_mem member)
  rw [countOf_bump, if_neg different, Nat.add_zero]

/-! ## Adding many entries -/

-- Each element comes once among the entries that are added, so no count is added to twice.
theorem countOf_foldl_bump {more : Entries α} (distinct : (items more).Nodup)
    (entries : Entries α) (item : α) :
    countOf (more.foldl bump entries) item = countOf entries item + countOf more item := by
  induction more generalizing entries with
  | nil => rfl
  | cons entry rest ih =>
    obtain ⟨fresh, distinct⟩ := List.nodup_cons.mp distinct
    rw [List.foldl_cons, ih distinct, countOf_bump, countOf_cons, Nat.add_assoc]
    by_cases same : entry.1 = item
    · simp only [same, ↓reduceIte, countOf_of_not_mem (same ▸ fresh), Nat.add_zero]
    · simp only [same, ↓reduceIte, Nat.zero_add]

/-- Entries of new elements are not added to any, they follow. -/
theorem foldl_bump_of_distinct {entries more : Entries α}
    (distinct : (items (entries ++ more)).Nodup) : more.foldl bump entries = entries ++ more := by
  refine Keyed.foldl_of_fresh (fun filed entry fresh => ?_) distinct
  rw [bump, Keyed.update_of_not_mem fresh, Nat.zero_add]

end Collections.Entries
