import Collections.Proofs.Bag.Conversions
import Collections.Proofs.Bag.Values
import Collections.Proofs.Occurrences.Clamping

/-! Bags made from a map whose counts may be any words.

Counts that are not positive are passed over. The others are inserted as far as the total has room for them.
Which of them are cut short then depends on the order in which the map is read; the size does not.
-/

set_option autoImplicit false

namespace Collections

open Occurrences (Copies holding)

variable {α : Type} [DecidableEq α]

namespace Keyed

def listed (map : Keyed α Int) (item : α) : Int :=
  (map.valueOf? item).getD 0

omit [DecidableEq α] in
def positiveSum (map : Keyed α Int) : Nat :=
  (map.map fun pair => pair.2.toNat).sum

end Keyed

/-! ## Entries with a positive count -/

namespace Entries

omit [DecidableEq α] in
def ofPositive (map : Keyed α Int) : Entries α :=
  (map.filter fun pair => 0 < pair.2).map fun pair => (pair.1, pair.2.toNat)

variable {map order : Keyed α Int}

omit [DecidableEq α] in
theorem ofPositive_cons (pair : α × Int) (map : Keyed α Int) :
    ofPositive (pair :: map) =
      if 0 < pair.2 then (pair.1, pair.2.toNat) :: ofPositive map else ofPositive map := by
  by_cases positive : 0 < pair.2 <;> simp [ofPositive, positive]

omit [DecidableEq α] in
theorem nodup_ofPositive (distinct : (map.map Prod.fst).Nodup) : (items (ofPositive map)).Nodup := by
  have kept : items (ofPositive map) = (map.filter fun pair => 0 < pair.2).map Prod.fst := by
    rw [items, ofPositive, List.map_map]
    rfl
  rw [kept]
  exact distinct.sublist (List.filter_sublist.map Prod.fst)

omit [DecidableEq α] in
theorem counted_ofPositive (words : ∀ pair ∈ map, pair.2 ≤ maxCount) :
    ∀ entry ∈ ofPositive map, 0 < entry.2 ∧ entry.2 ≤ maxCount := by
  intro entry member
  obtain ⟨pair, listed, rfl⟩ := List.mem_map.mp member
  obtain ⟨present, positive⟩ := List.mem_filter.mp listed
  have above := of_decide_eq_true positive
  have bounded := words pair present
  constructor <;> simp only <;> omega

omit [DecidableEq α] in
theorem total_ofPositive (map : Keyed α Int) : total (ofPositive map) = map.positiveSum := by
  induction map with
  | nil => rfl
  | cons pair rest ih =>
    have sum : Keyed.positiveSum (pair :: rest) = pair.2.toNat + Keyed.positiveSum rest := rfl
    rw [ofPositive_cons, sum]
    split
    · rw [total_cons, ih]
    · rw [ih]
      omega

theorem countOf_ofPositive (distinct : (map.map Prod.fst).Nodup) (item : α) :
    countOf (ofPositive map) item = (map.listed item).toNat := by
  induction map with
  | nil => rfl
  | cons pair rest ih =>
    obtain ⟨fresh, distinct⟩ := List.nodup_cons.mp distinct
    have later := ih distinct
    rw [ofPositive_cons]
    by_cases same : pair.1 = item
    · subst same
      have absent : Keyed.listed rest pair.1 = 0 := by
        rw [Keyed.listed, Keyed.valueOf?_eq_none.mpr fresh]
        rfl
      have first : Keyed.listed (pair :: rest) pair.1 = pair.2 := by simp [Keyed.listed, Keyed.valueOf?]
      rw [first]
      split
      · rw [countOf_cons, if_pos rfl]
      · rw [later, absent]
        omega
    · have skipped : Keyed.listed (pair :: rest) item = Keyed.listed rest item := by
        simp [Keyed.listed, Keyed.valueOf?, same]
      rw [skipped]
      split
      · rw [countOf_cons, if_neg same, later]
      · exact later

theorem gathered_of_distinct {entries : Entries α} (distinct : (items entries).Nodup) (item : α) :
    gathered entries id item = countOf entries item := by
  induction entries with
  | nil => rfl
  | cons entry rest ih =>
    obtain ⟨fresh, distinct⟩ := List.nodup_cons.mp distinct
    rw [gathered_cons, countOf_cons, ih distinct, id]
    split
    · rename_i same
      rw [← same, countOf_of_not_mem fresh, Nat.add_zero]
    · exact Nat.zero_add _

/-- The entries are those of the map in its own order, with the same counts. -/
theorem countOf_ofPositive_reordered (distinct : (map.map Prod.fst).Nodup) (reordered : order.Perm map)
    (item : α) : countOf (ofPositive order) item = (map.listed item).toNat := by
  rw [← countOf_ofPositive distinct]
  have same : (ofPositive order).Perm (ofPositive map) := (reordered.filter _).map _
  exact countOf_perm (nodup_ofPositive ((reordered.map Prod.fst).nodup_iff.mpr distinct)) same item

end Entries

/-! ## Filling a bag from a map -/

namespace Occurrences

variable {map order other : Keyed α Int}

structure FilledFrom (map : Keyed α Int) (counts : Occurrences α) : Prop where
  valid : counts.Valid
  size : counts.size = min maxTotal map.positiveSum
  absent (item : α) : map.listed item ≤ 0 → ¬ counts.contains item
  within (item : α) : counts.contains item →
    1 ≤ counts.countOf item ∧ (counts.countOf item : Int) ≤ map.listed item
  whole : map.positiveSum ≤ maxTotal → ∀ item, (counts.countOf item : Int) = max 0 (map.listed item)

theorem saturated_ofCounts (distinct : (order.map Prod.fst).Nodup)
    (words : ∀ pair ∈ order, pair.2 ≤ maxCount) :
    Saturated empty (Entries.ofPositive order) (ofCounts order) := by
  have counted := Entries.counted_ofPositive words
  have filled : ofCounts order = (Entries.ofPositive order).foldl accumulate empty :=
    foldl_insertClamped_eq_accumulate (Entries.nodup_ofPositive distinct) counted fun _ _ => rfl
  rw [filled]
  exact valid_empty.saturated fun entry member => (counted entry member).1

/-- All of these entries find room below the limit of a count. -/
theorem sum_admits (distinct : (order.map Prod.fst).Nodup)
    (words : ∀ pair ∈ order, pair.2 ≤ maxCount) :
    ∑ item ∈ (Entries.items (Entries.ofPositive order)).toFinset,
        empty.admits item (Entries.gathered (Entries.ofPositive order) id item) =
      order.positiveSum := by
  have apart := Entries.nodup_ofPositive distinct
  rw [← Entries.total_ofPositive, Entries.total_eq_sum apart (List.Sublist.refl _)]
  apply Finset.sum_congr rfl
  intro item member
  obtain ⟨entry, listed, rfl⟩ := List.mem_map.mp (List.mem_toFinset.mp member)
  have bounded := (Entries.counted_ofPositive words entry listed).2
  rw [Entries.gathered_of_distinct apart, Entries.countOf_of_mem apart listed]
  exact Nat.min_eq_left bounded

theorem ofCounts_whole (distinct : (order.map Prod.fst).Nodup)
    (words : ∀ pair ∈ order, pair.2 ≤ maxCount) (fits : order.positiveSum ≤ maxTotal) :
    ofCounts order = holding (Entries.ofPositive order) := by
  have size : (holding (Entries.ofPositive order)).size ≤ maxTotal :=
    Nat.le_trans (Nat.le_of_eq (Entries.total_ofPositive order)) fits
  have whole : (holding (Entries.ofPositive order)).Valid :=
    ⟨Entries.nodup_ofPositive distinct, Entries.counted_ofPositive words, rfl, size⟩
  exact whole.ofEntries_eq

theorem filledFrom_ofCounts (distinct : (map.map Prod.fst).Nodup)
    (words : ∀ pair ∈ map, pair.2 ≤ maxCount) (reordered : order.Perm map) :
    FilledFrom map (ofCounts order) := by
  have apart : (order.map Prod.fst).Nodup := (reordered.map Prod.fst).nodup_iff.mpr distinct
  have order_words : ∀ pair ∈ order, pair.2 ≤ maxCount := fun pair member =>
    words pair (reordered.mem_iff.mp member)
  have sums : order.positiveSum = map.positiveSum := (reordered.map _).sum_nat
  have full := saturated_ofCounts apart order_words
  have listed := Entries.countOf_ofPositive_reordered distinct reordered
  have most (item : α) : (ofCounts order).countOf item ≤ (map.listed item).toNat := by
    have most := full.most item
    rw [Entries.gathered_of_distinct (Entries.nodup_ofPositive apart), listed] at most
    exact Nat.le_trans most (Nat.le_of_eq (Nat.zero_add _))
  have within (item : α) (present : (ofCounts order).contains item) :
      1 ≤ (ofCounts order).countOf item ∧ ((ofCounts order).countOf item : Int) ≤ map.listed item := by
    have held := (full.valid.contains_iff item).mp present
    have := most item
    omega
  constructor
  case valid => exact full.valid
  case size =>
    have size := full.size
    rw [sum_admits apart order_words, sums] at size
    exact size.trans (congrArg _ (Nat.zero_add _))
  case absent =>
    intro item none present
    have := within item present
    omega
  case within => exact within
  case whole =>
    intro fits item
    have counted : (ofCounts order).countOf item = (map.listed item).toNat := by
      rw [ofCounts_whole apart order_words (sums ▸ fits), ← listed]
      rfl
    omega

/-- In whatever order a map is read, the bag takes in all its positive counts, or as much of them as fills
it. -/
theorem ofCounts_saturates (distinct : (map.map Prod.fst).Nodup)
    (words : ∀ pair ∈ map, pair.2 ≤ maxCount) :
    (∀ order : Keyed α Int, order.Perm map → FilledFrom map (ofCounts order)) ∧
      (map.positiveSum ≤ maxTotal → ∀ order other : Keyed α Int, order.Perm map → other.Perm map →
        Copies (ofCounts other) (ofCounts order)) := by
  refine ⟨fun order => filledFrom_ofCounts distinct words, ?_⟩
  intro fits order other reordered again
  have here := filledFrom_ofCounts distinct words reordered
  have there := filledFrom_ofCounts distinct words again
  apply there.valid.copies here.valid
  intro item
  have first := here.whole fits item
  have second := there.whole fits item
  omega

/-- Two orders in which different elements are cut short, and a map that fills a bag to the last
occurrence. -/
theorem ofCounts_saturates_beyond_total :
    let map : Keyed Nat Int := [(1, maxCount), (2, -5), (3, maxCount), (4, 0), (5, 7)]
    let full : Keyed Nat Int := [(5, 1), (1, maxCount), (2, -5), (3, maxCount)]
    (map.map Prod.fst).Nodup ∧ (∀ pair ∈ map, pair.2 ≤ maxCount) ∧ map.reverse.Perm map ∧
      FilledFrom map (ofCounts map) ∧
      ofCounts map = ⟨[(1, maxCount), (3, maxCount), (5, 1)], maxTotal⟩ ∧
      FilledFrom map (ofCounts map.reverse) ∧
      ofCounts map.reverse = ⟨[(5, 7), (3, maxCount), (1, maxCount - 6)], maxTotal⟩ ∧
      (full.map Prod.fst).Nodup ∧ (∀ pair ∈ full, pair.2 ≤ maxCount) ∧ full.positiveSum = maxTotal ∧
      Copies (ofCounts full.reverse) (ofCounts full) := by
  intro map full
  have distinct : (map.map Prod.fst).Nodup := by decide
  have words : ∀ pair ∈ map, pair.2 ≤ maxCount := by decide
  have full_distinct : (full.map Prod.fst).Nodup := by decide
  have full_words : ∀ pair ∈ full, pair.2 ≤ maxCount := by decide
  obtain ⟨fills, -⟩ := ofCounts_saturates distinct words
  obtain ⟨-, copies⟩ := ofCounts_saturates full_distinct full_words
  have reversed : map.reverse.Perm map := map.reverse_perm
  exact ⟨distinct, words, reversed, fills map (.refl _), by decide, fills map.reverse reversed,
    by decide, full_distinct, full_words, by decide,
    copies (by decide) full full.reverse (.refl _) full.reverse_perm⟩

end Occurrences

end Collections
