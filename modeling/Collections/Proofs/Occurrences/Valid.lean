import Collections.Occurrences.Basic
import Collections.Proofs.Entries

/-! What every update of counted elements keeps.

Each update puts one entry, takes one out or leaves out several. The first three laws about `Valid` say
what that does to a valid bag; the updates follow from them.
-/

set_option autoImplicit false

namespace Collections.Occurrences

variable {α : Type}

/-- Every element has one entry, with a count above zero and within its limit. The size is the total
of the counts, and within the limit of a total. -/
structure Valid (counts : Occurrences α) : Prop where
  distinct : (Entries.items counts.entries).Nodup
  counted : ∀ entry ∈ counts.entries, 0 < entry.2 ∧ entry.2 ≤ maxCount
  size_eq : counts.size = Entries.total counts.entries
  size_le : counts.size ≤ maxTotal

theorem valid_empty : (empty : Occurrences α).Valid where
  distinct := List.nodup_nil
  counted := fun _ member => nomatch member
  size_eq := rfl
  size_le := Nat.zero_le _

/-- A part of the entries is a valid bag with their total as its size. -/
theorem Valid.part {counts : Occurrences α} (valid : counts.Valid) {entries : Entries α}
    (within : entries.Sublist counts.entries) : Valid ⟨entries, Entries.total entries⟩ where
  distinct := valid.distinct.sublist (within.map Prod.fst)
  counted := fun entry member => valid.counted entry (within.subset member)
  size_eq := rfl
  size_le := by
    have := Entries.total_sublist within
    have := valid.size_eq
    have := valid.size_le
    simp only
    omega

variable [DecidableEq α]

theorem Valid.countOf_le_maxCount {counts : Occurrences α} (valid : counts.Valid) (item : α) :
    counts.countOf item ≤ maxCount := by
  by_cases present : 0 < counts.countOf item
  · exact (valid.counted _ (Entries.mem_of_countOf present)).2
  · omega

theorem Valid.countOf_le_size {counts : Occurrences α} (valid : counts.Valid) (item : α) :
    counts.countOf item ≤ counts.size :=
  valid.size_eq ▸ Entries.countOf_le_total counts.entries item

theorem Valid.put {counts : Occurrences α} (valid : counts.Valid) {item : α} {count size : Nat}
    (positive : 0 < count) (bounded : count ≤ maxCount)
    (resized : size + counts.countOf item = counts.size + count) (fits : size ≤ maxTotal) :
    Valid ⟨counts.entries.put item count, size⟩ where
  distinct := Entries.nodup_put valid.distinct item count
  counted := by
    intro entry member
    rcases Entries.mem_put member with earlier | new
    · exact valid.counted entry earlier
    · exact new ▸ ⟨positive, bounded⟩
  size_eq := by
    have := Entries.total_put counts.entries item count
    have := valid.size_eq
    simp only [countOf] at resized ⊢
    omega
  size_le := fits

theorem Valid.erase {counts : Occurrences α} (valid : counts.Valid) (item : α) :
    Valid ⟨counts.entries.erase item, counts.size - counts.countOf item⟩ := by
  have gone : counts.size - counts.countOf item = Entries.total (counts.entries.erase item) := by
    have := Entries.total_erase counts.entries item
    have := valid.size_eq
    simp only [countOf]
    omega
  exact gone ▸ valid.part (Entries.erase_sublist counts.entries item)

theorem Valid.bump {counts : Occurrences α} (valid : counts.Valid) {entry : α × Nat}
    (positive : 0 < entry.2) (bounded : counts.countOf entry.1 + entry.2 ≤ maxCount)
    (fits : counts.size + entry.2 ≤ maxTotal) :
    Valid ⟨Entries.bump counts.entries entry, counts.size + entry.2⟩ := by
  rw [Entries.bump_eq_put]
  exact valid.put (by omega) bounded (by unfold countOf; omega) fits

theorem Valid.foldl_bump {counts : Occurrences α} (valid : counts.Valid) {more : Entries α}
    (distinct : (Entries.items more).Nodup) (positive : ∀ entry ∈ more, 0 < entry.2)
    (bounded : ∀ entry ∈ more, counts.countOf entry.1 + entry.2 ≤ maxCount)
    (fits : counts.size + Entries.total more ≤ maxTotal) :
    Valid ⟨more.foldl Entries.bump counts.entries, counts.size + Entries.total more⟩ := by
  induction more generalizing counts with
  | nil => exact valid
  | cons entry rest ih =>
    obtain ⟨fresh, distinct⟩ := List.nodup_cons.mp distinct
    rw [Entries.total_cons] at fits ⊢
    have first := valid.bump (positive entry List.mem_cons_self) (bounded entry List.mem_cons_self)
      (by omega)
    -- The entries still to come are about other elements, so their bounds stand.
    have apart : ∀ other ∈ rest, countOf ⟨Entries.bump counts.entries entry, counts.size + entry.2⟩
        other.1 + other.2 ≤ maxCount := by
      intro other member
      rw [countOf, Entries.countOf_bump_of_later fresh counts.entries member]
      exact bounded other (List.mem_cons_of_mem _ member)
    have whole := ih first distinct (fun other member => positive other (List.mem_cons_of_mem _ member))
      apart (by simp only; omega)
    simpa only [List.foldl_cons, Nat.add_assoc] using whole

/-! ## Checked updates -/

-- A checked update has an early answer for each request it refuses and for those that change nothing.
-- In the last case it puts or drops one entry, and the size moves by what that entry gained or lost.
theorem Valid.add {counts next : Occurrences α} (valid : counts.Valid) {item : α} {amount : Int}
    {changed : Bool} (accepted : counts.add item amount = .ok (changed, next)) : next.Valid := by
  unfold Occurrences.add at accepted
  split at accepted
  · cases accepted
  split at accepted
  · cases accepted
    exact valid
  split at accepted
  · cases accepted
  split at accepted
  · cases accepted
  · cases accepted
    apply valid.put <;> omega

theorem Valid.remove {counts next : Occurrences α} (valid : counts.Valid) {item : α} {amount : Int}
    {changed : Bool} (accepted : counts.remove item amount = .ok (changed, next)) :
    next.Valid := by
  unfold Occurrences.remove at accepted
  split at accepted
  · cases accepted
  split at accepted
  · cases accepted
    exact valid
  split at accepted
  · cases accepted
    have := valid.countOf_le_maxCount item
    have := valid.countOf_le_size item
    have := valid.size_le
    apply valid.put <;> omega
  · cases accepted
    exact valid.erase item

theorem Valid.set {counts next : Occurrences α} (valid : counts.Valid) {item : α} {count : Int}
    {changed : Bool} (accepted : counts.set item count = .ok (changed, next)) : next.Valid := by
  unfold Occurrences.set at accepted
  split at accepted
  · cases accepted
  split at accepted
  · cases accepted
    exact valid.erase item
  split at accepted
  · cases accepted
  split at accepted
  · cases accepted
  · cases accepted
    have := valid.countOf_le_size item
    apply valid.put <;> omega

/-- Nothing is refused when the sizes and the counts of each element fit together. -/
theorem merge_eq_ok {counts other : Occurrences α} (fits : counts.size + other.size ≤ maxTotal)
    (bounded : ∀ entry ∈ other.entries, counts.countOf entry.1 + entry.2 ≤ maxCount) :
    counts.merge other = .ok (!other.isEmpty,
      ⟨other.entries.foldl Entries.bump counts.entries, counts.size + other.size⟩) := by
  have none : ¬ other.entries.any fun entry => maxCount < counts.countOf entry.1 + entry.2 := by
    intro some
    obtain ⟨entry, member, above⟩ := List.any_eq_true.mp some
    exact absurd (bounded entry member) (Nat.not_le.mpr (of_decide_eq_true above))
  rw [merge, if_neg (Nat.not_lt.mpr fits), if_neg none]

/-- A merge is refused unless both fit, and then counts each element in both bags. -/
theorem merge_cases {counts other next : Occurrences α} {changed : Bool}
    (accepted : counts.merge other = .ok (changed, next)) :
    counts.size + other.size ≤ maxTotal ∧
      (∀ entry ∈ other.entries, counts.countOf entry.1 + entry.2 ≤ maxCount) ∧
      changed = !other.isEmpty ∧
      next = ⟨other.entries.foldl Entries.bump counts.entries, counts.size + other.size⟩ := by
  unfold merge at accepted
  split at accepted
  · cases accepted
  split at accepted
  · cases accepted
  · rename_i fits none
    cases accepted
    have bounded : ∀ entry ∈ other.entries, counts.countOf entry.1 + entry.2 ≤ maxCount := by
      intro entry member
      apply Nat.not_lt.mp
      intro above
      exact none (List.any_eq_true.mpr ⟨entry, member, decide_eq_true above⟩)
    exact ⟨Nat.not_lt.mp fits, bounded, rfl, rfl⟩

theorem merge_refused_iff {counts other : Occurrences α} :
    (∃ error, counts.merge other = .error error) ↔ maxTotal < counts.size + other.size ∨
      ∃ entry ∈ other.entries, maxCount < counts.countOf entry.1 + entry.2 := by
  constructor
  · rintro ⟨error, refused⟩
    by_contra within
    obtain ⟨fits, bounded⟩ := not_or.mp within
    have accepted := merge_eq_ok (Nat.not_lt.mp fits) fun entry member =>
      Nat.not_lt.mp fun above => bounded ⟨entry, member, above⟩
    rw [accepted] at refused
    cases refused
  · intro beyond
    cases merged : counts.merge other with
    | error error => exact ⟨error, rfl⟩
    | ok answer =>
      obtain ⟨fits, bounded, -, -⟩ := merge_cases merged
      rcases beyond with above | ⟨entry, member, above⟩
      · exact absurd fits (Nat.not_le.mpr above)
      · exact absurd (bounded entry member) (Nat.not_le.mpr above)

theorem Valid.merge {counts other next : Occurrences α} (valid : counts.Valid)
    (other_valid : other.Valid) {changed : Bool}
    (accepted : counts.merge other = .ok (changed, next)) : next.Valid := by
  obtain ⟨fits, bounded, -, rfl⟩ := merge_cases accepted
  rw [other_valid.size_eq] at fits ⊢
  exact valid.foldl_bump other_valid.distinct (fun entry member => (other_valid.counted entry member).1)
    bounded fits

/-! ## Updates that are never refused -/

omit [DecidableEq α] in
theorem Valid.retain {counts : Occurrences α} (valid : counts.Valid) (keep : α × Nat → Bool) :
    (counts.retain keep).Valid := by
  have left : (counts.retain keep).size = Entries.total (counts.entries.filter keep) := by
    have := Entries.total_filter_add counts.entries keep
    have := valid.size_eq
    simp only [Occurrences.retain]
    omega
  have within : (counts.entries.filter keep).Sublist counts.entries := List.filter_sublist
  have part := valid.part within
  exact ⟨part.distinct, part.counted, left, left ▸ part.size_le⟩

-- The old count is part of the size, so what the room and the old count leave for the new one fits
-- the total once the old one is taken out.
theorem Valid.insertClamped {counts : Occurrences α} (valid : counts.Valid) (entry : α × Nat) :
    (counts.insertClamped entry).Valid := by
  simp only [Occurrences.insertClamped]
  split
  · exact valid
  · have := valid.countOf_le_size entry.1
    have := valid.size_le
    unfold room at *
    apply valid.put <;> omega

/-- An element without an entry gets one, so there has to be something to put in it. -/
theorem Valid.accumulate {counts : Occurrences α} (valid : counts.Valid) {entry : α × Nat}
    (positive : 0 < entry.2) : (counts.accumulate entry).Valid := by
  simp only [Occurrences.accumulate]
  split
  · exact valid
  · have := valid.countOf_le_maxCount entry.1
    have := valid.size_le
    unfold room at *
    apply valid.put <;> omega

theorem Valid.extend {counts : Occurrences α} (valid : counts.Valid) (items : List α) :
    (counts.extend items).Valid := by
  unfold Occurrences.extend
  induction items generalizing counts with
  | nil => exact valid
  | cons item rest ih => exact ih (valid.accumulate Nat.one_pos)

end Collections.Occurrences
