import Collections.SegmentedList.Basic
import Mathlib.Data.List.Basic

/-! What a place in a table of segments means for the flat sequence.

A place that addresses an element splits the sequence in what precedes it, the element and what follows
it. A place at which an element can be put in cuts the sequence in two. The edits at a place and the
searches for one are told by these two relations; nothing else needs to look into the table.
-/

set_option autoImplicit false

namespace Collections.SegmentedList

variable {α : Type}

theorem countElements_eq (segments : List (List α)) :
    countElements segments = segments.flatten.length := by
  induction segments with
  | nil => rfl
  | cons segment rest ih =>
    rw [List.flatten_cons, List.length_append, ← ih]
    rfl

-- Between two segments there are several places for one cut: the end of the first, the start of the
-- second, and those of empty segments in between. The relation holds of all of them.
/-- The place lies between these elements. Past the last segment there is only the end. -/
inductive Cuts : List (List α) → Position → List α → List α → Prop where
  | within (left : List (List α)) (front back : List α) (right : List (List α)) :
      Cuts (left ++ (front ++ back) :: right) ⟨left.length, front.length⟩
        (left.flatten ++ front) (back ++ right.flatten)
  | pastEnd (segments : List (List α)) : Cuts segments ⟨segments.length, 0⟩ segments.flatten []

inductive Addresses : List (List α) → Position → List α → α → List α → Prop where
  | mk (left : List (List α)) (front : List α) (item : α) (back : List α)
      (right : List (List α)) :
      Addresses (left ++ (front ++ item :: back) :: right) ⟨left.length, front.length⟩
        (left.flatten ++ front) item (back ++ right.flatten)

def next (place : Position) : Position :=
  { place with offset := place.offset + 1 }

section Edits

variable {segments : List (List α)} {place : Position} {before after : List α} {item : α}

/-! ## Reading the table -/

theorem modify_middle {β : Type} (left : List β) (middle : β) (right : List β) (f : β → β) :
    (left ++ middle :: right).modify left.length f = left ++ f middle :: right := by
  induction left with
  | nil => rfl
  | cons head rest ih => simp only [List.cons_append, List.length_cons, List.modify_succ_cons, ih]

theorem getElem?_middle {β : Type} (left : List β) (middle : β) (right : List β) :
    (left ++ middle :: right)[left.length]? = some middle := by
  rw [List.getElem?_append_right (Nat.le_refl _), Nat.sub_self]
  rfl

theorem Cuts.flatten_eq (cut : Cuts segments place before after) :
    segments.flatten = before ++ after := by
  cases cut with
  | within left front back right => simp
  | pastEnd => simp

theorem Addresses.flatten_eq (found : Addresses segments place before item after) :
    segments.flatten = before ++ item :: after := by
  cases found with
  | mk left front item back right => simp

theorem Addresses.elementAt?_eq (found : Addresses segments place before item after) :
    elementAt? segments place = some item := by
  cases found with
  | mk left front item back right =>
    simp only [elementAt?, getElem?_middle, Option.bind_some]

/-- The place of an element cuts the sequence just before it. -/
theorem Addresses.cuts (found : Addresses segments place before item after) :
    Cuts segments place before (item :: after) := by
  cases found with
  | mk left front item back right => exact .within left front (item :: back) right

theorem Addresses.cuts_next (found : Addresses segments place before item after) :
    Cuts segments (next place) (before ++ [item]) after := by
  cases found with
  | mk left front item back right =>
    have cut := Cuts.within left (front ++ [item]) back right
    simpa only [List.append_assoc, List.singleton_append, List.length_append,
      List.length_singleton, next] using cut

/-! ## Changing the table -/

theorem Addresses.modifyAt (found : Addresses segments place before item after) (change : α → α) :
    Addresses (modifyAt segments place change) place before (change item) after := by
  cases found with
  | mk left front item back right =>
    rw [SegmentedList.modifyAt, modify_middle, modify_middle]
    exact .mk left front (change item) back right

theorem Addresses.eraseAt (found : Addresses segments place before item after) :
    Cuts (eraseAt segments place) place before after := by
  cases found with
  | mk left front item back right =>
    rw [SegmentedList.eraseAt, modify_middle, List.eraseIdx_append_of_length_le (Nat.le_refl _),
      Nat.sub_self, List.eraseIdx_cons_zero]
    exact .within left front back right

theorem insertIdx_middle {β : Type} (front back : List β) (item : β) :
    (front ++ back).insertIdx front.length item = front ++ item :: back := by
  induction front with
  | nil => rfl
  | cons head rest ih => simp only [List.cons_append, List.length_cons, List.insertIdx_succ_cons, ih]

theorem Cuts.insertAt (cut : Cuts segments place before after) (item : α) :
    Addresses (insertAt segments place item) place before item after := by
  cases cut with
  | within left front back right =>
    rw [SegmentedList.insertAt, if_neg (by simp), modify_middle, insertIdx_middle]
    exact .mk left front item back right
  | pastEnd =>
    rw [SegmentedList.insertAt, if_pos rfl]
    simpa using Addresses.mk segments [] item [] []

/-- A segment in front moves a place one segment on. -/
theorem Cuts.later (cut : Cuts segments place before after) (segment : List α) :
    Cuts (segment :: segments) place.later (segment ++ before) after := by
  cases cut with
  | within left front back right =>
    simpa only [List.cons_append, List.flatten_cons, List.append_assoc, List.length_cons,
      Position.later] using Cuts.within (segment :: left) front back right
  | pastEnd => exact .pastEnd (segment :: segments)

theorem Addresses.later (found : Addresses segments place before item after) (segment : List α) :
    Addresses (segment :: segments) place.later (segment ++ before) item after := by
  cases found with
  | mk left front item back right =>
    simpa only [List.cons_append, List.flatten_cons, List.append_assoc, List.length_cons,
      Position.later] using Addresses.mk (segment :: left) front item back right

end Edits

/-! ## Finding a place -/

/-- An element of two joined lists is in the first of them or in the second. -/
theorem split_append {left right before after : List α} {item : α}
    (split : left ++ right = before ++ item :: after) :
    (∃ back, left = before ++ item :: back ∧ after = back ++ right) ∨
      ∃ more, before = left ++ more ∧ right = more ++ item :: after := by
  rcases List.append_eq_append_iff.mp split with ⟨more, here, there⟩ | ⟨more, here, there⟩
  · exact Or.inr ⟨more, here, there⟩
  · cases more with
    | nil => exact Or.inr ⟨[], by simpa using here.symm, there.symm⟩
    | cons first back =>
      simp only [List.cons_append, List.cons.injEq] at there
      exact Or.inl ⟨back, there.1 ▸ here, there.2⟩

-- The search goes by the segments, so the split of the whole sequence is made one of the first segment
-- or one of those after it.
theorem locate_addresses {segments : List (List α)} {before after : List α} {item : α}
    (split : segments.flatten = before ++ item :: after) :
    ∃ place, locate segments before.length = some place ∧
      Addresses segments place before item after := by
  induction segments generalizing before with
  | nil => simp at split
  | cons segment rest ih =>
    rw [List.flatten_cons] at split
    rcases split_append split with ⟨back, rfl, rfl⟩ | ⟨more, rfl, there⟩
    · refine ⟨⟨0, before.length⟩, by simp [locate], ?_⟩
      simpa using Addresses.mk [] before item back rest
    · obtain ⟨place, found, addressed⟩ := ih there
      refine ⟨place.later, ?_, addressed.later segment⟩
      rw [locate, if_neg (by simp), List.length_append, Nat.add_sub_cancel_left, found]
      rfl

theorem locateInsert_cuts {segments : List (List α)} {before after : List α}
    (split : segments.flatten = before ++ after) :
    Cuts segments (locateInsert segments before.length) before after := by
  induction segments generalizing before with
  | nil =>
    obtain ⟨rfl, rfl⟩ := List.nil_eq_append_iff.mp split
    exact .pastEnd []
  | cons segment rest ih =>
    rw [List.flatten_cons] at split
    by_cases inside : before.length ≤ segment.length
    · obtain ⟨back, rfl⟩ := List.prefix_of_prefix_length_le (List.prefix_append before after)
        (split ▸ List.prefix_append segment rest.flatten) inside
      rw [List.append_assoc, List.append_cancel_left_eq] at split
      rw [locateInsert, if_pos inside, ← split]
      simpa using Cuts.within [] before back rest
    · obtain ⟨more, rfl⟩ := List.prefix_of_prefix_length_le (List.prefix_append segment rest.flatten)
        (split ▸ List.prefix_append before after) (by omega)
      rw [List.append_assoc, List.append_cancel_left_eq] at split
      rw [locateInsert, if_neg inside, List.length_append, Nat.add_sub_cancel_left]
      exact (ih split).later segment

end Collections.SegmentedList
