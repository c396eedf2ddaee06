import Collections.Bag.Shelf
import Collections.Proofs.Bag.Parallel
import Collections.Proofs.Occurrences.Alike
import Mathlib.Data.List.Perm.Subperm

/-! Comparing bags. Only the entries of one bag are looked at, and besides them two numbers of the other.

That decides whether all counts agree: with as many entries on either side, entries that are all found on
the other side leave none there to be missed. Cells are read without being locked, so handles to one cell
compare like any other bags.
-/

set_option autoImplicit false

namespace Collections

namespace Occurrences

variable {α : Type} [DecidableEq α] {counts other : Occurrences α}

/-- Entries that are found in a bag with as many of them are all it has. -/
theorem Valid.countOf_eq_of_found (valid : counts.Valid) (other_valid : other.Valid)
    (lengths : counts.distinct = other.distinct)
    (found : ∀ entry ∈ counts.entries, other.countOf entry.1 = entry.2) (item : α) :
    counts.countOf item = other.countOf item := by
  have within : counts.entries ⊆ other.entries := by
    intro entry member
    exact (other_valid.mem_entries_iff entry).mpr ⟨(valid.counted entry member).1, found entry member⟩
  have same : counts.entries.Perm other.entries :=
    (List.subperm_of_subset valid.distinct.of_map within).perm_of_length_le (Nat.le_of_eq lengths.symm)
  exact Entries.countOf_perm valid.distinct same item

theorem Valid.same_iff (valid : counts.Valid) (other_valid : other.Valid) :
    counts.same other ↔ ∀ item, counts.countOf item = other.countOf item := by
  simp only [same, Bool.and_eq_true, beq_iff_eq, List.all_eq_true]
  constructor
  · rintro ⟨⟨-, lengths⟩, found⟩
    exact valid.countOf_eq_of_found other_valid lengths found
  · intro agree
    have alike := valid.alike other_valid agree
    refine ⟨⟨alike.size, alike.distinct⟩, ?_⟩
    intro entry member
    rw [← agree]
    exact ((valid.mem_entries_iff entry).mp member).2

end Occurrences

namespace Bag

variable {α : Type} [DecidableEq α] {bag other : Bag α}

-- Layers reorder the entries at most, and all of them are looked at.
theorem equals_eq_same (bag other : Bag α) : bag.equals other = bag.contents.same other.contents := by
  rw [equals, Occurrences.same, Entries.allSatisfy, Entries.anySatisfy, List.not_any_eq_all_not]
  simp only [Bool.not_not]
  rw [bag.entries_perm.all_eq]
  rfl

theorem equals_iff (valid : bag.contents.Valid) (other_valid : other.contents.Valid) :
    bag.equals other ↔ ∀ item, bag.countOf item = other.countOf item := by
  rw [equals_eq_same]
  exact valid.same_iff other_valid

/-- To compare two bags is to compare their counts, whatever their kinds, the order of their entries and
the way they came about. -/
structure ComparesCounts (bag other : Bag α) : Prop where
  iff_counts : bag.equals other ↔ ∀ item, bag.countOf item = other.countOf item
  refl : bag.equals bag
  symm : bag.equals other = other.equals bag
  trans (third : Bag α) : third.contents.Valid → bag.equals other → other.equals third →
    bag.equals third
  unaffected (again another : Bag α) : again.contents.Valid → another.contents.Valid →
    (∀ item, again.countOf item = bag.countOf item) →
    (∀ item, another.countOf item = other.countOf item) → again.equals another = bag.equals other
  plain (counts others : Occurrences α) : bag = .plain counts → other = .plain others →
    bag.equals other = counts.same others
  -- Frozen bags with one storage are equal before their contents are looked at. They are copies.
  frozen (storage own : Nat) (counts others : Occurrences α) : bag = .frozen storage counts →
    other = .frozen own others → (storage = own → counts = others) →
    bag.equals other = (bag.isSame other || counts.same others)

theorem equals_compares_counts (valid : bag.contents.Valid) (other_valid : other.contents.Valid) :
    ComparesCounts bag other := by
  have here := equals_iff valid other_valid
  have there := equals_iff other_valid valid
  constructor
  case iff_counts => exact here
  case refl => exact (equals_iff valid valid).mpr fun _ => rfl
  case symm =>
    rw [Bool.eq_iff_iff, here, there]
    exact ⟨fun agree item => (agree item).symm, fun agree item => (agree item).symm⟩
  case trans =>
    intro third third_valid first second
    have agree := (equals_iff other_valid third_valid).mp second
    exact (equals_iff valid third_valid).mpr fun item => (here.mp first item).trans (agree item)
  case unaffected =>
    intro again another again_valid another_valid left right
    rw [Bool.eq_iff_iff, here, equals_iff again_valid another_valid]
    simp only [left, right]
  case plain =>
    rintro counts others rfl rfl
    exact equals_eq_same _ _
  case frozen =>
    rintro storage own counts others rfl rfl copies
    rw [equals_eq_same, isSame]
    by_cases shared : storage = own
    · have whole : others.same others := (other_valid.same_iff other_valid).mpr fun _ => rfl
      simp only [contents, copies shared, whole, Bool.or_true]
    · rw [beq_eq_false_iff_ne.mpr shared, Bool.false_or]
      rfl

/-- A stack of layers and a frozen bag, which list the same entries in different orders. -/
theorem equals_compares_counts_across_layers :
    let bag : Bag Nat := .readOnly (.shared 0 (.parallel (.ofParts .sequential (.ofBatchSize 2))
      (.sorted compare (.plain ⟨[(3, 1), (1, maxCount)], maxCount + 1⟩))))
    let other : Bag Nat := .frozen 7 ⟨[(1, maxCount), (3, 1)], maxCount + 1⟩
    bag.contents.Valid ∧ other.contents.Valid ∧ ComparesCounts bag other := by
  intro bag other
  have valid : bag.contents.Valid := ⟨by decide, by decide, by decide, by decide⟩
  have other_valid : other.contents.Valid := ⟨by decide, by decide, by decide, by decide⟩
  exact ⟨valid, other_valid, equals_compares_counts valid other_valid⟩

end Bag

end Collections
