import Collections.SegmentedList.Basic

/-! Changing a segmented list. Every change keeps the segments it does not touch, empty ones too, and
takes the length along. A refused change leaves the list as it was.
-/

set_option autoImplicit false

namespace Collections.SegmentedList

variable {α : Type}

/-! ## One element -/

/-- Append to the last segment; without segments the item becomes the first one. -/
def push (list : SegmentedList α) (item : α) : SegmentedList α where
  segments := match list.segments with
    | [] => [[item]]
    | segments@(_ :: _) => segments.modify (segments.length - 1) (· ++ [item])
  size := list.size + 1

def modify (list : SegmentedList α) (index : Nat) (change : α → α) :
    Except Error ((α × α) × SegmentedList α) :=
  (list.resolve index).map fun (position, item) =>
    ((item, change item), { list with segments := modifyAt list.segments position change })

def set (list : SegmentedList α) (index : Nat) (item : α) : Except Error (α × SegmentedList α) :=
  (list.modify index fun _ => item).map fun ((old, _), list) => (old, list)

/-- Put an item in before the element at an index, or at the end when the index is the length. -/
def insert (list : SegmentedList α) (index : Nat) (item : α) : Except Error (SegmentedList α) :=
  (checkInsertBounds index list.size).map fun _ =>
    ⟨insertAt list.segments (locateInsert list.segments index) item, list.size + 1⟩

def remove (list : SegmentedList α) (index : Nat) : Except Error (α × SegmentedList α) :=
  (list.resolve index).map fun (position, item) =>
    (item, ⟨eraseAt list.segments position, list.size - 1⟩)

def eraseFirst [BEq α] (item : α) : List (List α) → Option (List (List α))
  | [] => none
  | segment :: rest =>
    match segment.findIdx? (· == item) with
    | some offset => some (segment.eraseIdx offset :: rest)
    | none => (eraseFirst item rest).map (segment :: ·)

def removeItem [BEq α] (list : SegmentedList α) (item : α) : Bool × SegmentedList α :=
  match eraseFirst item list.segments with
  | none => (false, list)
  | some segments => (true, ⟨segments, list.size - 1⟩)

/-! ## Many elements -/

def retain (list : SegmentedList α) (keep : α → Bool) : Bool × SegmentedList α :=
  let kept := ofSegments (list.segments.map (·.filter keep))
  (kept.size != list.size, kept)

def removeIf (list : SegmentedList α) (unwanted : α → Bool) : Bool × SegmentedList α :=
  list.retain fun item => !unwanted item

def removeAll [BEq α] (list : SegmentedList α) (items : List α) : Bool × SegmentedList α :=
  list.retain fun item => !items.any (· == item)

def retainAll [BEq α] (list : SegmentedList α) (items : List α) : Bool × SegmentedList α :=
  list.retain fun item => items.any (· == item)

def replaceAll (list : SegmentedList α) (f : α → α) : SegmentedList α :=
  { list with segments := list.segments.map (·.map f) }

def extend (list : SegmentedList α) (items : List α) : SegmentedList α :=
  (list.addAll items).2

/-! ## The whole list -/

/-- Join several segments into one. A list of at most one segment stays as it is. -/
def flatten (list : SegmentedList α) : SegmentedList α :=
  match list.segments with
  | _ :: _ :: _ => { list with segments := [list.flat] }
  | _ => list

/-- Join all segments and sort. Elements that are equal in the order keep their places relative to
each other. -/
def sortBy (list : SegmentedList α) (le : α → α → Bool) : SegmentedList α :=
  { list.flatten with segments := list.flatten.segments.modifyHead (·.mergeSort le) }

def reverse (list : SegmentedList α) : SegmentedList α :=
  { list with segments := (list.segments.map List.reverse).reverse }

/-! ## One segment -/

/-- Change one segment at will. The answer is what the change itself answers. -/
def editSegment {ρ : Type} (list : SegmentedList α) (segment : Nat)
    (edit : List α → ρ × List α) : Except Error (ρ × SegmentedList α) :=
  (list.getSegment segment).map fun items =>
    let (answer, edited) := edit items
    (answer, ⟨list.segments.set segment edited, list.size - items.length + edited.length⟩)

end Collections.SegmentedList
