import Collections.Proofs.Cursor.Agreement
import Collections.Proofs.SegmentedList.Refinement
import Collections.Proofs.Traversal.Stepping

/-! The lists there can be: those made of segments, and whatever calls on a list, on a cursor in it and on a
traversal that replaces what it takes make of them. All of them know their length.
-/

set_option autoImplicit false

namespace Collections.SegmentedList

variable {α : Type} {list : SegmentedList α}

theorem Counted.eq_ofSegments (counted : list.Counted) : list = ofSegments list.segments := by
  rw [ofSegments, countElements_eq, ← flat, ← counted]

theorem Counted.stands_start (counted : list.Counted) {index : Nat} {cursor : Cursor α}
    (started : Cursor.start list index = .ok cursor) : ∃ flat, cursor.Stands flat := by
  rw [Cursor.start, checkInsertBounds] at started
  split at started
  case isTrue inside =>
    cases started
    rw [counted, flat] at inside
    have begun := Cursor.stands_start (List.take_append_drop index list.segments.flatten).symm
    rw [List.length_take_of_le inside, ← counted.eq_ofSegments] at begun
    exact ⟨_, begun⟩
  case isFalse outside => cases started

/-- The relation of a cursor to a plain one is kept by every call. -/
theorem stands_call (cursor : Cursor α) (call : CursorCall α)
    (stood : ∃ flat, cursor.Stands flat) : ∃ flat, (cursor.call call).state.Stands flat := by
  obtain ⟨flat, stands⟩ := stood
  obtain ⟨moved, passed, stands⟩ := stands.call call
  rw [Cursor.call_of_guarded passed]
  exact ⟨_, stands⟩

theorem counted_of_stands {cursor : Cursor α} {flat : FlatCursor α} (stands : cursor.Stands flat) :
    cursor.list.Counted := by
  rw [Counted, stands.size, SegmentedList.flat, stands.cut.flatten_eq, List.length_append]

theorem parts_call (revision : Revision α) (change : End × (α → α))
    (held : ∃ before left after, revision.Parts before left after) :
    ∃ before left after, (revision.call change).state.Parts before left after := by
  obtain ⟨before, left, after, parts⟩ := held
  obtain ⟨next, passed, parts⟩ := parts.call change.1 change.2
  rw [Revision.call_of_guarded passed]
  exact ⟨_, _, _, parts⟩

inductive Reachable [BEq α] : SegmentedList α → Prop where
  | made (segments : List (List α)) : Reachable (ofSegments segments)
  | called {ρ : Type} {list : SegmentedList α} (call : ListCall α ρ) :
      Reachable list → Reachable (list.call call).state
  | edited {list : SegmentedList α} {index : Nat} {cursor : Cursor α} (calls : List (CursorCall α)) :
      Reachable list → Cursor.start list index = .ok cursor →
        Reachable (Step.reached Cursor.call cursor calls).list
  | revised {list : SegmentedList α} (calls : List (End × (α → α))) :
      Reachable list → Reachable (Step.reached Revision.call (.start list) calls).list

theorem Reachable.counted [BEq α] (reachable : list.Reachable) : list.Counted := by
  induction reachable with
  | made segments => exact counted_ofSegments segments
  | called call _ ih => exact (ih.call call).counted
  | edited calls _ started ih =>
    obtain ⟨flat, stands⟩ := Step.reached_keeps stands_call (ih.stands_start started) calls
    exact counted_of_stands stands
  | revised calls _ ih =>
    obtain ⟨_, _, _, parts⟩ := Step.reached_keeps parts_call ⟨_, _, _, Revision.parts_start ih⟩ calls
    exact parts.counted

end Collections.SegmentedList
