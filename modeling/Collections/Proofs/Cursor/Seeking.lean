import Collections.Proofs.Cursor.Guarded

/-! The searches of a cursor for a neighbouring element.

Where one segment ends and the next begins a cursor has several places to stand, one more for each
empty segment in between. From any of them the search in either direction finds the same neighbour, and
it stays within the table.
-/

set_option autoImplicit false

namespace Collections

namespace Cursor

open SegmentedList (Cuts Addresses)

variable {α : Type}

variable {segments : List (List α)} {place : Position} {before after : List α} {item : α}

/-- The place of an element in the tail of a table, in the whole of it. -/
theorem addresses_append (left : List (List α)) (found : Addresses segments place before item after) :
    Addresses (left ++ segments) ⟨left.length + place.segment, place.offset⟩
      (left.flatten ++ before) item after := by
  induction left with
  | nil => simpa using found
  | cons segment rest ih =>
    have here := ih.later segment
    simpa only [List.cons_append, List.flatten_cons, List.append_assoc, List.length_cons,
      Position.later, Nat.add_right_comm] using here

-- Empty segments are passed one by one; the first element of the sequence is in the first segment that
-- is not empty.
theorem seekForward?_of_flatten (split : segments.flatten = item :: after) :
    ∃ found, seekForward? segments 0 = some found ∧ Addresses segments found [] item after := by
  induction segments with
  | nil => cases split
  | cons segment rest ih =>
    cases segment with
    | nil =>
      obtain ⟨found, sought, addressed⟩ := ih split
      exact ⟨found.later, by rw [seekForward?, if_neg (by simp), sought]; rfl, addressed.later []⟩
    | cons first back =>
      simp only [List.flatten_cons, List.cons_append, List.cons.injEq] at split
      obtain ⟨rfl, rfl⟩ := split
      exact ⟨⟨0, 0⟩, by rw [seekForward?, if_pos (by simp)], .mk [] [] first back rest⟩

/-- From a place before an element the search forward ends at that element. -/
theorem seekForward?_of_cuts (cut : Cuts segments place before (item :: after)) :
    ∃ found, seekForward? (segments.drop place.segment) place.offset = some found ∧
      Addresses segments ⟨place.segment + found.segment, found.offset⟩ before item after := by
  generalize ahead : item :: after = rest at cut
  cases cut with
  | pastEnd => cases ahead
  | within left front back right =>
    rw [List.drop_left]
    cases back with
    | cons first back =>
      simp only [List.cons_append, List.cons.injEq] at ahead
      obtain ⟨rfl, rfl⟩ := ahead
      exact ⟨⟨0, front.length⟩, by rw [seekForward?, if_pos (by simp)],
        .mk left front item back right⟩
    | nil =>
      obtain ⟨found, sought, addressed⟩ := seekForward?_of_flatten ahead.symm
      refine ⟨found.later, by rw [seekForward?, if_neg (by simp), sought]; rfl, ?_⟩
      simpa using addresses_append left (addressed.later front)

/-- At the very start of the table nothing precedes. -/
theorem before_eq_nil (cut : Cuts segments ⟨0, 0⟩ before after) : before = [] := by
  generalize start : (⟨0, 0⟩ : Position) = place at cut
  cases cut with
  | within left front back right =>
    simp only [Position.mk.injEq] at start
    rw [List.length_eq_zero_iff.mp start.1.symm, List.length_eq_zero_iff.mp start.2.symm]
    rfl
  | pastEnd =>
    simp only [Position.mk.injEq, and_true] at start
    rw [List.length_eq_zero_iff.mp start.symm]
    rfl

/-- The start of a segment is also the end of the one before it. -/
theorem cuts_end_of_start {number : Nat} (cut : Cuts segments ⟨number + 1, 0⟩ before after) :
    ∃ items, segments[number]? = some items ∧ Cuts segments ⟨number, items.length⟩ before after := by
  generalize start : (⟨number + 1, 0⟩ : Position) = place at cut
  -- In either kind of cut some segment lies before the place, and the last of these ends there.
  have earlier : ∀ left right : List (List α), number + 1 = left.length →
      ∃ items, (left ++ right)[number]? = some items ∧
        Cuts (left ++ right) ⟨number, items.length⟩ left.flatten right.flatten := by
    intro left right counted
    rcases List.eq_nil_or_concat left with rfl | ⟨init, items, rfl⟩
    · cases counted
    · simp only [List.concat_eq_append, List.length_append, List.length_singleton,
        Nat.add_right_cancel_iff] at counted
      subst counted
      refine ⟨items, by simp, ?_⟩
      simpa using Cuts.within init items [] right
  cases cut with
  | within left front back right =>
    simp only [Position.mk.injEq] at start
    obtain rfl := List.length_eq_zero_iff.mp start.2.symm
    simpa using earlier left (back :: right) start.1
  | pastEnd =>
    simp only [Position.mk.injEq, and_true] at start
    simpa using earlier segments [] start

/-- Further on in a segment, what precedes is the element just before. -/
theorem addresses_of_cuts_next (cut : Cuts segments (SegmentedList.next place) before after) :
    ∃ init item, before = init ++ [item] ∧ Addresses segments place init item after := by
  generalize moved : SegmentedList.next place = further at cut
  cases cut with
  | within left front back right =>
    simp only [SegmentedList.next, Position.mk.injEq] at moved
    rcases List.eq_nil_or_concat front with rfl | ⟨init, item, rfl⟩
    · cases moved.2
    · simp only [List.concat_eq_append, List.length_append, List.length_singleton,
        Nat.add_right_cancel_iff] at moved
      refine ⟨left.flatten ++ init, item, by simp, ?_⟩
      obtain rfl : place = ⟨left.length, init.length⟩ := by rw [← moved.1, ← moved.2]
      simpa using Addresses.mk left init item back right
  | pastEnd => cases (Position.mk.inj moved).2

/-- From a place after an element the search backward ends just after that element. -/
theorem seekBackward?_of_cuts {number offset : Nat}
    (cut : Cuts segments ⟨number, offset⟩ (before ++ [item]) after) :
    ∃ place, seekBackward? segments number offset = some (SegmentedList.next place) ∧
      Addresses segments place before item after := by
  -- Inside a segment the search is over; at the start of one it goes on at the end of the one before,
  -- so the induction is on the number of the segment.
  have here : ∀ number offset : Nat, Cuts segments ⟨number, offset + 1⟩ (before ++ [item]) after →
      Addresses segments ⟨number, offset⟩ before item after := by
    intro number offset cut
    have moved : Cuts segments (SegmentedList.next ⟨number, offset⟩) (before ++ [item]) after := cut
    obtain ⟨init, last, same, addressed⟩ := addresses_of_cuts_next moved
    obtain ⟨rfl, single⟩ := List.append_inj' same rfl
    obtain rfl : item = last := List.singleton_inj.mp single
    exact addressed
  induction number generalizing offset with
  | zero =>
    cases offset with
    | zero => exact absurd (before_eq_nil cut) (by simp)
    | succ offset => exact ⟨⟨0, offset⟩, by simp [seekBackward?, SegmentedList.next], here 0 offset cut⟩
  | succ number ih =>
    cases offset with
    | zero =>
      obtain ⟨items, there, earlier⟩ := cuts_end_of_start cut
      obtain ⟨place, sought, addressed⟩ := ih earlier
      exact ⟨place, by rw [seekBackward?, if_pos rfl, there, Option.bind_some, sought], addressed⟩
    | succ offset =>
      exact ⟨⟨number + 1, offset⟩, by simp [seekBackward?, SegmentedList.next],
        here (number + 1) offset cut⟩

/-- A place that cuts the sequence is one to put an item in at. -/
theorem insertAt?_of_cuts (cut : Cuts segments place before after) (item : α) :
    insertAt? segments place item = some (SegmentedList.insertAt segments place item) := by
  cases cut with
  | within left front back right =>
    rw [insertAt?, if_neg (by simp), SegmentedList.getElem?_middle, Option.bind_some,
      if_pos (by simp)]
  | pastEnd => rw [insertAt?, if_pos rfl]

/-- Past the last segment a cursor has no offset to give up. -/
theorem place_of_cuts (cut : Cuts segments place before after) :
    (if place.segment = segments.length then { place with offset := 0 } else place) = place := by
  cases cut with
  | within left front back right => rw [if_neg (by simp)]
  | pastEnd => rw [if_pos rfl]

end Cursor

end Collections
