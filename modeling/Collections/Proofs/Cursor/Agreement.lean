import Collections.Proofs.Cursor.Flat
import Collections.Proofs.Cursor.Seeking

/-! A cursor over segments is a cursor over the plain sequence.

The segmented cursor keeps a place in a table, an index and the place of the remembered element. One
relation ties it to the plain one: the place cuts the sequence where the plain cursor stands, and the
remembered place is that of the remembered neighbour. Every call keeps the relation and gives the same
answer on either side, and where the relation holds no guard is met.
-/

set_option autoImplicit false

namespace Collections

namespace Cursor

open SegmentedList (Cuts Addresses elementAt?)

variable {α ρ ε : Type} {cursor : Cursor α} {flat : FlatCursor α}

-- A remembered element on the left shares its segment with the cursor. That is how a removal can tell
-- the two sides apart and knows whether the cursor has to step back.
/-- The remembered place is that of the remembered neighbour. A neighbour on the left has its place
right before the cursor's own, in the same segment. -/
def Remembers (cursor : Cursor α) : FlatCursor α → Prop
  | .fresh _ _ => cursor.last = none
  | .left before item after => ∃ place, cursor.last = some place ∧
      cursor.place = SegmentedList.next place ∧
      Addresses cursor.list.segments place before item after
  | .right before item after => cursor.last = some cursor.place ∧
      Addresses cursor.list.segments cursor.place before item after

structure Stands (cursor : Cursor α) (flat : FlatCursor α) : Prop where
  cut : Cuts cursor.list.segments cursor.place flat.before flat.after
  size : cursor.list.size = flat.before.length + flat.after.length
  index : cursor.index = flat.before.length
  last : Remembers cursor flat

/-- A guarded call that passes, answers what the plain cursor answers and ends where it ends. -/
def Follows (attempt : Option (Attempt (Cursor α) ρ)) (model : Attempt (FlatCursor α) ρ) : Prop :=
  ∃ cursor, attempt = some ⟨model.answer, cursor⟩ ∧ Stands cursor model.state

theorem Follows.map {attempt : Option (Attempt (Cursor α) ρ)} {model : Attempt (FlatCursor α) ρ}
    (follows : Follows attempt model) (f : ρ → ε) :
    Follows (attempt.map (·.map f)) (model.map f) := by
  obtain ⟨cursor, rfl, stands⟩ := follows
  exact ⟨cursor, rfl, stands⟩

theorem stands_start {segments : List (List α)} {before after : List α}
    (split : segments.flatten = before ++ after) :
    Stands ⟨.ofSegments segments, SegmentedList.locateInsert segments before.length, before.length,
      none⟩ (.fresh before after) where
  cut := SegmentedList.locateInsert_cuts split
  size := by
    rw [SegmentedList.ofSegments, SegmentedList.countElements_eq, split, List.length_append]
    rfl
  index := rfl
  last := rfl

/-! ## One call -/

theorem Stands.hasNext (stands : Stands cursor flat) : cursor.hasNext = !flat.after.isEmpty := by
  rw [Cursor.hasNext, stands.size, stands.index]
  cases flat.after with
  | nil => simp
  | cons item after => simp

theorem Stands.hasPrevious (stands : Stands cursor flat) :
    cursor.hasPrevious = !flat.before.isEmpty := by
  rw [Cursor.hasPrevious, stands.index]
  cases flat.before with
  | nil => rfl
  | cons item before => simp

theorem Stands.previousIndex (stands : Stands cursor flat) :
    cursor.previousIndex =
      if flat.before.isEmpty then none else some (flat.before.length - 1) := by
  rw [Cursor.previousIndex, stands.index]
  cases flat.before with
  | nil => rfl
  | cons item before => simp

theorem Stands.next (stands : Stands cursor flat) : Follows cursor.next? flat.next := by
  have more := stands.hasNext
  unfold next? FlatCursor.next
  cases ahead : flat.after with
  | nil =>
    rw [ahead] at more
    exact ⟨cursor, by simp [more], stands⟩
  | cons item after =>
    rw [ahead] at more
    obtain ⟨found, sought, addressed⟩ := seekForward?_of_cuts (ahead ▸ stands.cut)
    rw [if_pos (by simpa using more), sought]
    simp only [Option.bind_some, addressed.elementAt?_eq, Option.map_some]
    refine ⟨_, rfl, addressed.cuts_next, ?_, ?_, ⟨_, rfl, rfl, addressed⟩⟩
    · have size := stands.size
      rw [ahead, List.length_cons] at size
      simp only [FlatCursor.before_left, FlatCursor.after_left, List.length_append,
        List.length_singleton]
      omega
    · simp only [FlatCursor.before_left, List.length_append, List.length_singleton, stands.index]

theorem Stands.previous (stands : Stands cursor flat) : Follows cursor.previous? flat.previous := by
  have more := stands.hasPrevious
  unfold previous? FlatCursor.previous
  cases behind : flat.before.getLast? with
  | none =>
    rw [List.getLast?_eq_none_iff.mp behind] at more
    exact ⟨cursor, by simp [more], stands⟩
  | some item =>
    -- What precedes ends in the element that is passed over, so neither index is zero.
    have split : flat.before = flat.before.dropLast ++ [item] :=
      (List.dropLast_append_getLast? item behind).symm
    have counted : flat.before.length = flat.before.dropLast.length + 1 := by
      rw [split, List.length_append, List.dropLast_concat, List.length_singleton]
    obtain ⟨place, sought, addressed⟩ := seekBackward?_of_cuts (split ▸ stands.cut)
    rw [if_pos (by rw [more, split]; simp), sought, stands.index, counted]
    simp only [Option.bind_eq_bind, Option.bind_some, SegmentedList.next, lower?_succ,
      addressed.elementAt?_eq, Option.pure_def]
    refine ⟨_, rfl, addressed.cuts, ?_, rfl, rfl, addressed⟩
    have size := stands.size
    simp only [FlatCursor.before_right, FlatCursor.after_right, List.length_cons]
    omega

theorem Stands.remove (stands : Stands cursor flat) : Follows cursor.remove? flat.remove := by
  have size := stands.size
  have index := stands.index
  cases flat with
  | fresh before after =>
    exact ⟨cursor, by rw [remove?, stands.last]; rfl, stands⟩
  | left before item after =>
    obtain ⟨place, kept, beyond, addressed⟩ := stands.last
    simp only [FlatCursor.before_left, FlatCursor.after_left, List.length_append,
      List.length_singleton] at size index
    rw [Nat.add_right_comm] at size
    rw [remove?, kept]
    simp only [addressed.elementAt?_eq, beyond, SegmentedList.next, size, index, lower?_succ,
      Option.bind_eq_bind, Option.bind_some, Option.pure_def]
    -- The cursor stands right behind the removed element and steps back with what follows.
    rw [if_pos ⟨trivial, Nat.lt_succ_self _⟩]
    exact ⟨_, rfl, addressed.eraseAt, rfl, rfl, rfl⟩
  | right before item after =>
    obtain ⟨kept, addressed⟩ := stands.last
    simp only [FlatCursor.before_right, FlatCursor.after_right, List.length_cons] at size
    rw [← Nat.add_assoc] at size
    rw [remove?, kept]
    simp only [addressed.elementAt?_eq, size, lower?_succ, Option.bind_eq_bind, Option.bind_some,
      Option.pure_def]
    -- The cursor stands at the removed element itself, and what follows comes up to it.
    rw [if_neg (fun behind => Nat.lt_irrefl _ behind.2)]
    exact ⟨_, rfl, addressed.eraseAt, rfl, index, rfl⟩

theorem Stands.set (stands : Stands cursor flat) (item : α) :
    Follows (cursor.set? item) (flat.set item) := by
  cases flat with
  | fresh before after =>
    exact ⟨cursor, by rw [set?, stands.last]; rfl, stands⟩
  | left before old after =>
    obtain ⟨place, kept, beyond, addressed⟩ := stands.last
    have changed := addressed.modifyAt fun _ => item
    rw [set?, kept]
    simp only [addressed.elementAt?_eq, Option.map_some]
    show Follows _ ⟨.ok old, .left before item after⟩
    refine ⟨_, rfl, beyond ▸ changed.cuts_next, ?_, ?_, place, rfl, beyond, changed⟩
    · simpa using stands.size
    · simpa using stands.index
  | right before old after =>
    obtain ⟨kept, addressed⟩ := stands.last
    have changed := addressed.modifyAt fun _ => item
    rw [set?, kept]
    simp only [addressed.elementAt?_eq, Option.map_some]
    exact ⟨_, rfl, changed.cuts, stands.size, stands.index, rfl, changed⟩

-- The item goes in at the cut, so the cursor passes over it and nothing is remembered.
theorem Stands.add (stands : Stands cursor flat) (item : α) :
    ∃ moved, cursor.add? item = some moved ∧ Stands moved (flat.add item) := by
  have added := stands.cut.insertAt item
  have size := stands.size
  rw [add?, place_of_cuts stands.cut, insertAt?_of_cuts stands.cut]
  refine ⟨_, rfl, added.cuts_next, ?_, ?_, rfl⟩
  · simp only [FlatCursor.add, FlatCursor.before_fresh, FlatCursor.after_fresh, List.length_append,
      List.length_singleton]
    omega
  · simp only [FlatCursor.add, FlatCursor.before_fresh, List.length_append, List.length_singleton,
      stands.index]

theorem Stands.call (stands : Stands cursor flat) (call : CursorCall α) :
    Follows (cursor.call? call) (flat.call call) := by
  cases call with
  | hasNext => exact ⟨cursor, by rw [call?, stands.hasNext]; rfl, stands⟩
  | next => exact stands.next.map CursorAnswer.item
  | hasPrevious => exact ⟨cursor, by rw [call?, stands.hasPrevious]; rfl, stands⟩
  | previous => exact stands.previous.map CursorAnswer.item
  | nextIndex => exact ⟨cursor, by rw [call?, nextIndex, stands.index]; rfl, stands⟩
  | previousIndex => exact ⟨cursor, by rw [call?, stands.previousIndex]; rfl, stands⟩
  | remove => exact stands.remove.map CursorAnswer.item
  | set item => exact (stands.set item).map CursorAnswer.item
  | add item =>
    obtain ⟨moved, added, stands⟩ := stands.add item
    exact ⟨moved, by rw [call?, added]; rfl, stands⟩

theorem next_refused {error : Error} (refused : cursor.next.answer = .error error) :
    cursor.next.state = cursor := by
  unfold Cursor.next at refused ⊢
  split at refused
  · cases refused
  · rfl

theorem previous_refused {error : Error} (refused : cursor.previous.answer = .error error) :
    cursor.previous.state = cursor := by
  rw [Cursor.previous] at refused ⊢
  split at refused
  · cases refused
  · rfl

/-- A refused call changes nothing, wherever the cursor stands. -/
theorem call_refused {call : CursorCall α} {error : Error}
    (refused : (cursor.call call).answer = .error error) : (cursor.call call).state = cursor := by
  cases call with
  | next => exact next_refused (Attempt.map_refused.mp refused)
  | previous => exact previous_refused (Attempt.map_refused.mp refused)
  | remove => exact Attempt.ofExcept_refused (Attempt.map_refused.mp refused)
  | set item => exact Attempt.ofExcept_refused (Attempt.map_refused.mp refused)
  | hasNext | hasPrevious | nextIndex | previousIndex | add item => cases refused

/-! ## A run of calls -/

structure Agrees (here : Step (Cursor α) (CursorCall α) (CursorAnswer α))
    (there : Step (FlatCursor α) (CursorCall α) (CursorAnswer α)) : Prop where
  call : here.call = there.call
  answer : here.answer = there.answer
  refused (error : Error) : here.answer = .error error ↔ there.start.refusal here.call = some error
  unchanged (error : Error) : here.answer = .error error → here.finish = here.start
  remembered : here.finish.last.isNone = there.finish.last.isNone
  index : here.finish.nextIndex = there.finish.before.length
  sequence : here.finish.list.flat = there.finish.before ++ there.finish.after
  size : here.finish.list.size = here.finish.list.flat.length

theorem Stands.remembered (stands : Stands cursor flat) :
    cursor.last.isNone = flat.last.isNone := by
  cases flat with
  | fresh before after => rw [stands.last]; rfl
  | left before item after =>
    obtain ⟨place, kept, _⟩ := stands.last
    rw [kept]
    rfl
  | right before item after => rw [stands.last.1]; rfl

theorem Stands.agrees (stands : Stands cursor flat) (call : CursorCall α) :
    Agrees (.of cursor call (cursor.call call)) (.of flat call (flat.call call)) := by
  obtain ⟨moved, passed, after⟩ := stands.call call
  have same := call_of_guarded passed
  rw [same]
  refine ⟨rfl, rfl, flat.refused_iff call, ?_, after.remembered, after.index, after.cut.flatten_eq, ?_⟩
  · intro error refused
    have kept : (cursor.call call).state = cursor := call_refused (by rw [same]; exact refused)
    rwa [same] at kept
  · rw [Step.of, after.size, SegmentedList.flat, after.cut.flatten_eq, List.length_append]

/-- Whatever the segments and wherever it starts, a cursor goes through any calls as the plain cursor
does, and no call breaks down. -/
theorem calls_agree_with_flat (segments : List (List α)) (index : Nat)
    (bounded : index ≤ segments.flatten.length) (calls : List (CursorCall α)) :
    ∃ cursor, Cursor.start (.ofSegments segments) index = .ok cursor ∧
      Step.runGuarded call? cursor calls = some (Step.run Cursor.call cursor calls) ∧
      List.Forall₂ Agrees (Step.run Cursor.call cursor calls)
        (Step.run FlatCursor.call
          (.fresh (segments.flatten.take index) (segments.flatten.drop index)) calls) := by
  have begun := stands_start (List.take_append_drop index segments.flatten).symm
  rw [List.length_take_of_le bounded] at begun
  -- One call has all there is: it passes its guards and ends where the plain cursor ends.
  have kept : ∀ (cursor : Cursor α) (flat : FlatCursor α) (call : CursorCall α),
      Stands cursor flat → Stands (cursor.call call).state (flat.call call).state := by
    intro cursor flat call stands
    obtain ⟨moved, passed, after⟩ := stands.call call
    rw [call_of_guarded passed]
    exact after
  have safe : ∀ (cursor : Cursor α) (flat : FlatCursor α) (call : CursorCall α),
      Stands cursor flat → cursor.call? call = some (cursor.call call) := by
    intro cursor flat call stands
    obtain ⟨moved, passed, _⟩ := stands.call call
    rw [call_of_guarded passed, passed]
  refine ⟨_, ?_, Step.runGuarded_eq kept safe begun calls,
    Step.run_agrees kept (fun _ _ call stands => stands.agrees call) begun calls⟩
  rw [start, checkInsertBounds, if_pos]
  · rfl
  · rw [SegmentedList.ofSegments, SegmentedList.countElements_eq]
    exact bounded

theorem calls_agree_across_empty_segment :
    2 ≤ [[1, 2], [], [3]].flatten.length ∧
      ∃ cursor, Cursor.start (.ofSegments [[1, 2], [], [3]]) 2 = .ok cursor ∧
        Step.runGuarded call? cursor [.next, .previous, .previous, .remove, .remove] =
          some (Step.run Cursor.call cursor [.next, .previous, .previous, .remove, .remove]) ∧
        List.Forall₂ Agrees
          (Step.run Cursor.call cursor [.next, .previous, .previous, .remove, .remove])
          (Step.run FlatCursor.call (.fresh [1, 2] [3])
            [.next, .previous, .previous, .remove, .remove]) :=
  ⟨by decide, calls_agree_with_flat [[1, 2], [], [3]] 2 (by decide)
    [.next, .previous, .previous, .remove, .remove]⟩

end Cursor

end Collections
