import Collections.Proofs.Calls
import Collections.Proofs.SegmentedList.Places
import Collections.SegmentedList.Cursor

/-! A cursor that breaks down as soon as it reads outside the table of segments or counts below zero.

What it returns is what the unguarded cursor returns, on any state. That it returns at all needs a state
whose coordinates belong together.
-/

set_option autoImplicit false

namespace Collections

inductive CursorCall (α : Type) where
  | hasNext
  | next
  | hasPrevious
  | previous
  | nextIndex
  | previousIndex
  | remove
  | set (item : α)
  | add (item : α)

inductive CursorAnswer (α : Type) where
  | flag (value : Bool)
  | index (value : Nat)
  | maybeIndex (value : Option Nat)
  | item (value : α)
  | done
  deriving DecidableEq

namespace Cursor

variable {α : Type}

def call (cursor : Cursor α) : CursorCall α → Attempt (Cursor α) (CursorAnswer α)
  | .hasNext => ⟨.ok (.flag cursor.hasNext), cursor⟩
  | .next => cursor.next.map .item
  | .hasPrevious => ⟨.ok (.flag cursor.hasPrevious), cursor⟩
  | .previous => cursor.previous.map .item
  | .nextIndex => ⟨.ok (.index cursor.nextIndex), cursor⟩
  | .previousIndex => ⟨.ok (.maybeIndex cursor.previousIndex), cursor⟩
  | .remove => cursor.remove.map .item
  | .set item => (cursor.set item).map .item
  | .add item => ⟨.ok .done, cursor.add item⟩

/-! ## Guards -/

def lower? : Nat → Option Nat
  | 0 => none
  | value + 1 => some value

@[simp] theorem lower?_succ (value : Nat) : lower? (value + 1) = some value := rfl

theorem of_lower? {value lowered : Nat} (found : lower? value = some lowered) :
    value - 1 = lowered := by
  cases value with
  | zero => cases found
  | succ value => exact Option.some.inj found

/-- `seekForward`, where every segment it passes must be in the table. -/
def seekForward? : List (List α) → Nat → Option Position
  | [], _ => none
  | segment :: rest, offset =>
    if offset < segment.length then some ⟨0, offset⟩ else (seekForward? rest 0).map .later

def seekBackward? (segments : List (List α)) : Nat → Nat → Option Position
  | 0, offset => if offset = 0 then none else some ⟨0, offset⟩
  | segment + 1, offset =>
    if offset = 0 then
      segments[segment]?.bind fun items => seekBackward? segments segment items.length
    else some ⟨segment + 1, offset⟩

/-- `SegmentedList.insertAt`, at a place of the table or just past its last segment. -/
def insertAt? (segments : List (List α)) (place : Position) (item : α) :
    Option (List (List α)) :=
  if place.segment = segments.length then some (SegmentedList.insertAt segments place item)
  else segments[place.segment]?.bind fun items =>
    if place.offset ≤ items.length then some (SegmentedList.insertAt segments place item) else none

def next? (cursor : Cursor α) : Option (Attempt (Cursor α) α) :=
  if cursor.hasNext then
    (seekForward? (cursor.list.segments.drop cursor.place.segment) cursor.place.offset).bind
      fun found =>
        let passed : Position := ⟨cursor.place.segment + found.segment, found.offset⟩
        (SegmentedList.elementAt? cursor.list.segments passed).map fun item =>
          ⟨.ok item, { cursor with
            place := SegmentedList.next passed
            index := cursor.index + 1
            last := some passed }⟩
  else some ⟨.error .atEnd, cursor⟩

def previous? (cursor : Cursor α) : Option (Attempt (Cursor α) α) :=
  if cursor.hasPrevious then do
    let found ← seekBackward? cursor.list.segments cursor.place.segment cursor.place.offset
    let offset ← lower? found.offset
    let index ← lower? cursor.index
    let passed : Position := { found with offset }
    let item ← SegmentedList.elementAt? cursor.list.segments passed
    return ⟨.ok item, { cursor with place := passed, index, last := some passed }⟩
  else some ⟨.error .atStart, cursor⟩

def remove? (cursor : Cursor α) : Option (Attempt (Cursor α) α) :=
  match cursor.last with
  | none => some ⟨.error (.nothingRemembered "remove"), cursor⟩
  | some place => do
    let item ← SegmentedList.elementAt? cursor.list.segments place
    let size ← lower? cursor.list.size
    let list : SegmentedList α := ⟨SegmentedList.eraseAt cursor.list.segments place, size⟩
    if place.segment = cursor.place.segment ∧ place.offset < cursor.place.offset then
      let offset ← lower? cursor.place.offset
      let index ← lower? cursor.index
      return ⟨.ok item, { list, place := { cursor.place with offset }, index, last := none }⟩
    else return ⟨.ok item, { cursor with list, last := none }⟩

def set? (cursor : Cursor α) (item : α) : Option (Attempt (Cursor α) α) :=
  match cursor.last with
  | none => some ⟨.error (.nothingRemembered "set"), cursor⟩
  | some place => (SegmentedList.elementAt? cursor.list.segments place).map fun old =>
    ⟨.ok old, { cursor with list := { cursor.list with
      segments := SegmentedList.modifyAt cursor.list.segments place fun _ => item } }⟩

def add? (cursor : Cursor α) (item : α) : Option (Cursor α) :=
  let place := if cursor.place.segment = cursor.list.segments.length then
      { cursor.place with offset := 0 } else cursor.place
  (insertAt? cursor.list.segments place item).map fun segments =>
    { list := ⟨segments, cursor.list.size + 1⟩
      place := SegmentedList.next place
      index := cursor.index + 1
      last := none }

def call? (cursor : Cursor α) : CursorCall α → Option (Attempt (Cursor α) (CursorAnswer α))
  | .hasNext => some ⟨.ok (.flag cursor.hasNext), cursor⟩
  | .next => cursor.next?.map (·.map .item)
  | .hasPrevious => some ⟨.ok (.flag cursor.hasPrevious), cursor⟩
  | .previous => cursor.previous?.map (·.map .item)
  | .nextIndex => some ⟨.ok (.index cursor.nextIndex), cursor⟩
  | .previousIndex => some ⟨.ok (.maybeIndex cursor.previousIndex), cursor⟩
  | .remove => cursor.remove?.map (·.map .item)
  | .set item => (cursor.set? item).map (·.map .item)
  | .add item => (cursor.add? item).map (⟨.ok .done, ·⟩)

/-! ## A guard that lets a call pass does not change it -/

-- These laws ask nothing of the state. A call that passes its guards is the call itself, so the guards
-- tell how it was computed and cannot change what it returns.
theorem seekForward_of_guarded {segments : List (List α)} {offset : Nat} {found : Position}
    (sought : seekForward? segments offset = some found) :
    seekForward segments offset = found := by
  induction segments generalizing offset found with
  | nil => cases sought
  | cons segment rest ih =>
    rw [seekForward?] at sought
    rw [seekForward]
    split
    case isTrue inside =>
      rw [if_pos inside] at sought
      exact Option.some.inj sought
    case isFalse outside =>
      rw [if_neg outside] at sought
      obtain ⟨ahead, there, rfl⟩ := Option.map_eq_some_iff.mp sought
      rw [ih there]

theorem seekBackward_of_guarded {segments : List (List α)} {number offset : Nat} {found : Position}
    (sought : seekBackward? segments number offset = some found) :
    seekBackward segments number offset = found := by
  induction number generalizing offset found with
  | zero =>
    rw [seekBackward?] at sought
    split at sought
    · cases sought
    · exact Option.some.inj sought
  | succ number ih =>
    rw [seekBackward?] at sought
    rw [seekBackward]
    split
    case isTrue atStart =>
      rw [if_pos atStart] at sought
      obtain ⟨items, there, earlier⟩ := Option.bind_eq_some_iff.mp sought
      rw [there]
      exact ih earlier
    case isFalse inside =>
      rw [if_neg inside] at sought
      exact Option.some.inj sought

theorem insertAt_of_guarded {segments changed : List (List α)} {place : Position} {item : α}
    (inserted : insertAt? segments place item = some changed) :
    SegmentedList.insertAt segments place item = changed := by
  unfold insertAt? at inserted
  split at inserted
  · exact Option.some.inj inserted
  · obtain ⟨items, _, within⟩ := Option.bind_eq_some_iff.mp inserted
    split at within
    · exact Option.some.inj within
    · cases within

theorem next_of_guarded {cursor : Cursor α} {attempt : Attempt (Cursor α) α}
    (returned : cursor.next? = some attempt) : cursor.next = attempt := by
  unfold next? at returned
  split at returned
  case isTrue more =>
    obtain ⟨found, sought, read⟩ := Option.bind_eq_some_iff.mp returned
    obtain ⟨item, there, rfl⟩ := Option.map_eq_some_iff.mp read
    have upcoming : cursor.upcoming = ⟨cursor.place.segment + found.segment, found.offset⟩ := by
      rw [Cursor.upcoming, seekForward_of_guarded sought]
    rw [Cursor.next, more, upcoming, there]
    rfl
  case isFalse none =>
    rw [Cursor.next, Bool.eq_false_iff.mpr none]
    exact Option.some.inj returned

theorem previous_of_guarded {cursor : Cursor α} {attempt : Attempt (Cursor α) α}
    (returned : cursor.previous? = some attempt) : cursor.previous = attempt := by
  unfold previous? at returned
  split at returned
  case isTrue more =>
    simp only [Option.bind_eq_bind, Option.bind_eq_some_iff, Option.pure_def,
      Option.some.injEq] at returned
    obtain ⟨found, sought, offset, lowered, index, counted, item, there, rfl⟩ := returned
    have preceding : cursor.afterPreceding = found := seekBackward_of_guarded sought
    rw [Cursor.previous, more, preceding, of_lower? lowered, of_lower? counted, there]
  case isFalse none =>
    rw [Cursor.previous, Bool.eq_false_iff.mpr none]
    exact Option.some.inj returned

theorem remembered_eq_none {cursor : Cursor α} (forgotten : cursor.last = none)
    (operation : String) : cursor.remembered operation = .error (.nothingRemembered operation) := by
  rw [remembered, forgotten]

theorem remembered_eq_ok {cursor : Cursor α} {place : Position} {item : α}
    (kept : cursor.last = some place)
    (there : SegmentedList.elementAt? cursor.list.segments place = some item)
    (operation : String) : cursor.remembered operation = .ok (place, item) := by
  rw [remembered, kept]
  simp only [there]

theorem remove_of_guarded {cursor : Cursor α} {attempt : Attempt (Cursor α) α}
    (returned : cursor.remove? = some attempt) : cursor.remove = attempt := by
  cases kept : cursor.last with
  | none =>
    rw [Cursor.remove, remembered_eq_none kept]
    rw [remove?, kept] at returned
    exact Option.some.inj returned
  | some place =>
    rw [remove?, kept] at returned
    simp only [Option.bind_eq_bind, Option.bind_eq_some_iff] at returned
    obtain ⟨item, there, size, counted, returned⟩ := returned
    rw [Cursor.remove, remembered_eq_ok kept there]
    simp only [Except.map, of_lower? counted]
    -- Only an element that lies before the cursor in its segment takes the cursor along.
    split at returned
    case isTrue behind =>
      simp only [Option.bind_eq_some_iff, Option.pure_def, Option.some.injEq] at returned
      obtain ⟨offset, lowered, index, moved, rfl⟩ := returned
      rw [if_pos behind, of_lower? lowered, of_lower? moved]
      rfl
    case isFalse ahead =>
      rw [if_neg ahead]
      exact Option.some.inj returned

theorem set_of_guarded {cursor : Cursor α} {item : α} {attempt : Attempt (Cursor α) α}
    (returned : cursor.set? item = some attempt) : cursor.set item = attempt := by
  cases kept : cursor.last with
  | none =>
    rw [Cursor.set, remembered_eq_none kept]
    rw [set?, kept] at returned
    exact Option.some.inj returned
  | some place =>
    rw [set?, kept] at returned
    obtain ⟨old, there, rfl⟩ := Option.map_eq_some_iff.mp returned
    rw [Cursor.set, remembered_eq_ok kept there, ← kept]
    rfl

theorem add_of_guarded {cursor moved : Cursor α} {item : α}
    (returned : cursor.add? item = some moved) : cursor.add item = moved := by
  obtain ⟨segments, inserted, rfl⟩ := Option.map_eq_some_iff.mp returned
  rw [Cursor.add, insertAt_of_guarded inserted]
  rfl

theorem call_of_guarded {cursor : Cursor α} {call : CursorCall α}
    {attempt : Attempt (Cursor α) (CursorAnswer α)} (returned : cursor.call? call = some attempt) :
    cursor.call call = attempt := by
  cases call with
  | next =>
    obtain ⟨inner, passed, rfl⟩ := Option.map_eq_some_iff.mp returned
    rw [Cursor.call, next_of_guarded passed]
  | previous =>
    obtain ⟨inner, passed, rfl⟩ := Option.map_eq_some_iff.mp returned
    rw [Cursor.call, previous_of_guarded passed]
  | remove =>
    obtain ⟨inner, passed, rfl⟩ := Option.map_eq_some_iff.mp returned
    rw [Cursor.call, remove_of_guarded passed]
  | set item =>
    obtain ⟨inner, passed, rfl⟩ := Option.map_eq_some_iff.mp returned
    rw [Cursor.call, set_of_guarded passed]
  | add item =>
    obtain ⟨moved, passed, rfl⟩ := Option.map_eq_some_iff.mp returned
    rw [Cursor.call, add_of_guarded passed]
  | hasNext => exact Option.some.inj returned
  | hasPrevious => exact Option.some.inj returned
  | nextIndex => exact Option.some.inj returned
  | previousIndex => exact Option.some.inj returned

end Cursor

end Collections
