import Collections.Attempt
import Collections.SegmentedList.Basic

/-! Cursors: a place between two elements of a segmented list, which moves over one element at a time
and changes the list where it stands.

A move remembers the element it passed over. Removing and replacing act on the remembered element;
removing and adding forget it. A refused call changes nothing.
-/

set_option autoImplicit false

namespace Collections

/-- The list, the place of the cursor in it and the index of that place, and the place of the
remembered element. -/
structure Cursor (α : Type) where
  list : SegmentedList α
  place : Position
  index : Nat
  last : Option Position

namespace Cursor

variable {α : Type}

def start (list : SegmentedList α) (index : Nat) : Except Error (Cursor α) :=
  (checkInsertBounds index list.size).map fun _ =>
    ⟨list, SegmentedList.locateInsert list.segments index, index, none⟩

def hasNext (cursor : Cursor α) : Bool :=
  cursor.index < cursor.list.size

def hasPrevious (cursor : Cursor α) : Bool :=
  0 < cursor.index

def nextIndex (cursor : Cursor α) : Nat :=
  cursor.index

def previousIndex (cursor : Cursor α) : Option Nat :=
  if cursor.index = 0 then none else some (cursor.index - 1)

/-- Pass from the end of a segment to the start of the one after it, until an element follows. -/
def seekForward : List (List α) → Nat → Position
  | [], offset => ⟨0, offset⟩
  | segment :: rest, offset =>
    if offset < segment.length then ⟨0, offset⟩ else (seekForward rest 0).later

/-- Pass from the start of a segment to the end of the one before it, until an element precedes. -/
def seekBackward (segments : List (List α)) : Nat → Nat → Position
  | 0, offset => ⟨0, offset⟩
  | segment + 1, offset =>
    if offset = 0 then seekBackward segments segment (segments[segment]?.getD []).length
    else ⟨segment + 1, offset⟩

def upcoming (cursor : Cursor α) : Position :=
  let found := seekForward (cursor.list.segments.drop cursor.place.segment) cursor.place.offset
  ⟨cursor.place.segment + found.segment, found.offset⟩

def afterPreceding (cursor : Cursor α) : Position :=
  seekBackward cursor.list.segments cursor.place.segment cursor.place.offset

def next (cursor : Cursor α) : Attempt (Cursor α) α :=
  match cursor.hasNext, SegmentedList.elementAt? cursor.list.segments cursor.upcoming with
  | true, some item =>
    let passed := cursor.upcoming
    ⟨.ok item, { cursor with
      place := { passed with offset := passed.offset + 1 }
      index := cursor.index + 1
      last := some passed }⟩
  | _, _ => ⟨.error .atEnd, cursor⟩

def previous (cursor : Cursor α) : Attempt (Cursor α) α :=
  let passed := { cursor.afterPreceding with offset := cursor.afterPreceding.offset - 1 }
  match cursor.hasPrevious, SegmentedList.elementAt? cursor.list.segments passed with
  | true, some item =>
    ⟨.ok item, { cursor with place := passed, index := cursor.index - 1, last := some passed }⟩
  | _, _ => ⟨.error .atStart, cursor⟩

def remembered (cursor : Cursor α) (operation : String) : Except Error (Position × α) :=
  match cursor.last with
  | none => .error (.nothingRemembered operation)
  | some place =>
    match SegmentedList.elementAt? cursor.list.segments place with
    | none => .error (.nothingRemembered operation)
    | some item => .ok (place, item)

/-- Take the remembered element out of the list. A cursor that stands after it in its segment moves
back by one. -/
def remove (cursor : Cursor α) : Attempt (Cursor α) α :=
  .ofExcept cursor ((cursor.remembered "remove").map fun (place, item) =>
    let list := ⟨SegmentedList.eraseAt cursor.list.segments place, cursor.list.size - 1⟩
    if place.segment = cursor.place.segment ∧ place.offset < cursor.place.offset then
      (item, {
        list
        place := { cursor.place with offset := cursor.place.offset - 1 }
        index := cursor.index - 1
        last := none })
    else (item, { cursor with list, last := none }))

def set (cursor : Cursor α) (item : α) : Attempt (Cursor α) α :=
  .ofExcept cursor ((cursor.remembered "set").map fun (place, old) =>
    (old, { cursor with list := { cursor.list with
      segments := SegmentedList.modifyAt cursor.list.segments place fun _ => item } }))

/-- Put an item in at the cursor, which then stands after it. Past the last segment a new one is
opened. -/
def add (cursor : Cursor α) (item : α) : Cursor α :=
  let place := if cursor.place.segment = cursor.list.segments.length then
      { cursor.place with offset := 0 } else cursor.place
  { list := ⟨SegmentedList.insertAt cursor.list.segments place item, cursor.list.size + 1⟩
    place := { place with offset := place.offset + 1 }
    index := cursor.index + 1
    last := none }

end Cursor

end Collections
