import Collections.Batch.Cut
import Mathlib.Algebra.Order.Floor.Div
import Mathlib.Data.List.Basic

/-! How a sequence is cut into batches: nothing is lost or moved, and every batch but the last is full.

The batch in which an item lies is told by the number of items before it, divided by the size of a
batch.
-/

set_option autoImplicit false

namespace Collections

variable {β : Type} {size : Nat} {items batch : List β}

@[simp] theorem flatten_batchesOf : (batchesOf size items).flatten = items := by
  induction items using batchesOf.induct size with
  | case1 => simp [batchesOf]
  | case2 first rest ih => rw [batchesOf, List.flatten_cons, ih, List.cons_append, List.take_append_drop]

theorem sublist_of_batch (member : batch ∈ batchesOf size items) : batch.Sublist items := by
  have within := List.sublist_flatten_of_mem member
  rwa [flatten_batchesOf] at within

theorem length_batchesOf (positive : 1 ≤ size) :
    (batchesOf size items).length = items.length ⌈/⌉ size := by
  induction items using batchesOf.induct size with
  | case1 => simp [batchesOf]
  | case2 first rest ih =>
    have whole : rest.length + 1 + size - 1 = rest.length + size := by omega
    rw [batchesOf, List.length_cons, ih, List.length_drop, List.length_cons]
    simp only [Nat.ceilDiv_eq_add_pred_div]
    rw [whole, Nat.add_div_right _ positive]
    by_cases short : rest.length ≤ size - 1
    · have none : rest.length - (size - 1) + size - 1 = size - 1 := by omega
      rw [none, Nat.div_eq_of_lt (by omega), Nat.div_eq_of_lt (by omega)]
    · have more : rest.length - (size - 1) + size - 1 = rest.length := by omega
      rw [more]

/-- What holds of a batch however it is cut off holds of all batches. -/
theorem forall_batchesOf {held : List β → Prop}
    (cut : ∀ first rest, held (first :: List.take (size - 1) rest)) :
    ∀ batch ∈ batchesOf size items, held batch := by
  induction items using batchesOf.induct size with
  | case1 => simp [batchesOf]
  | case2 first rest ih =>
    rw [batchesOf, List.forall_mem_cons]
    exact ⟨cut first rest, ih⟩

theorem length_le_of_batch (positive : 1 ≤ size) :
    ∀ batch ∈ batchesOf size items, batch.length ≤ size := by
  apply forall_batchesOf
  intro first rest
  rw [List.length_cons, List.length_take]
  omega

/-- A batch that another one follows is full. -/
theorem length_eq_of_batch (positive : 1 ≤ size) (member : batch ∈ (batchesOf size items).dropLast) :
    batch.length = size := by
  induction items using batchesOf.induct size with
  | case1 => simp [batchesOf] at member
  | case2 first rest ih =>
    rw [batchesOf] at member
    by_cases last : batchesOf size (rest.drop (size - 1)) = []
    · simp [last] at member
    · rw [List.dropLast_cons_of_ne_nil last, List.mem_cons] at member
      rcases member with rfl | later
      · have more : size - 1 < rest.length := by
          by_contra none
          rw [List.drop_eq_nil_of_le (by omega)] at last
          exact last (by simp [batchesOf])
        rw [List.length_cons, List.length_take]
        omega
      · exact ih later

structure CutInto (size : Nat) (items : List β) (batches : List (List β)) : Prop where
  joined : batches.flatten = items
  number : batches.length = items.length ⌈/⌉ size
  present : ∀ batch ∈ batches, batch ≠ []
  bounded : ∀ batch ∈ batches, batch.length ≤ size
  full : ∀ batch ∈ batches.dropLast, batch.length = size

theorem cutInto_batchesOf (positive : 1 ≤ size) (items : List β) :
    CutInto size items (batchesOf size items) where
  joined := flatten_batchesOf
  number := length_batchesOf positive
  present := forall_batchesOf fun _ _ => List.cons_ne_nil _ _
  bounded := length_le_of_batch positive
  full _ := length_eq_of_batch positive

-- The batches before that of the item are full, so their number is a quotient of lengths.
theorem batchesOf_split (positive : 1 ≤ size) (before : List β) (item : β) (after : List β) :
    ∃ earlier front back later,
      batchesOf size (before ++ item :: after) = earlier ++ (front ++ item :: back) :: later ∧
        earlier.flatten ++ front = before ∧ earlier.length = before.length / size := by
  induction before using batchesOf.induct size with
  | case1 => exact ⟨[], [], after.take (size - 1), batchesOf size (after.drop (size - 1)),
      by rw [List.nil_append, batchesOf]; rfl, rfl, by simp⟩
  | case2 first rest ih =>
    by_cases short : rest.length < size - 1
    · refine ⟨[], first :: rest, after.take (size - 1 - (rest.length + 1)),
        batchesOf size (after.drop (size - 1 - (rest.length + 1))), ?_, rfl, ?_⟩
      · have beyond : rest.length ≤ size - 1 := by omega
        have further : size - 1 - rest.length = size - 1 - (rest.length + 1) + 1 := by omega
        rw [List.cons_append, batchesOf, List.take_append, List.drop_append, further,
          List.take_of_length_le beyond, List.drop_eq_nil_of_le beyond]
        rfl
      · rw [List.length_cons, Nat.div_eq_of_lt (by omega)]
        rfl
    · obtain ⟨earlier, front, back, later, cut, joined, number⟩ := ih
      refine ⟨(first :: rest.take (size - 1)) :: earlier, front, back, later, ?_, ?_, ?_⟩
      · rw [List.cons_append, batchesOf, List.take_append_of_le_length (by omega),
          List.drop_append_of_le_length (by omega), cut]
        rfl
      · rw [List.flatten_cons, List.append_assoc, joined, List.cons_append, List.take_append_drop]
      · rw [List.length_drop] at number
        rw [List.length_cons, number, List.length_cons]
        have split : rest.length + 1 = rest.length - (size - 1) + size := by omega
        rw [split, Nat.add_div_right _ positive]

end Collections
