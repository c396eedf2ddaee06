import Collections.Error

/-! Segmented lists: one sequence kept in segments that were appended one after the other, with a
length that is kept up to date and never counted again.

An index addresses the flat sequence. Segments may be empty and then add nothing to it.
-/

set_option autoImplicit false

namespace Collections

structure SegmentedList (α : Type) where
  segments : List (List α)
  size : Nat
  deriving DecidableEq

structure Position where
  segment : Nat
  offset : Nat
  deriving DecidableEq

def Position.later (position : Position) : Position :=
  { position with segment := position.segment + 1 }

namespace SegmentedList

variable {α : Type}

def empty : SegmentedList α := ⟨[], 0⟩

def flat (list : SegmentedList α) : List α :=
  list.segments.flatten

def isEmpty (list : SegmentedList α) : Bool :=
  list.size == 0

def countElements (segments : List (List α)) : Nat :=
  segments.foldr (fun segment sum => segment.length + sum) 0

def ofSegments (segments : List (List α)) : SegmentedList α :=
  ⟨segments, countElements segments⟩

/-! ## Appending -/

/-- Append a segment, even an empty one. -/
def addSegment (list : SegmentedList α) (segment : List α) : SegmentedList α :=
  ⟨list.segments ++ [segment], list.size + segment.length⟩

/-- Append items as a segment. Without items nothing is appended; the answer is whether there were
any. -/
def addAll (list : SegmentedList α) (items : List α) : Bool × SegmentedList α :=
  if items.isEmpty then (false, list) else (true, list.addSegment items)

def ofItems (items : List α) : SegmentedList α :=
  (empty.addAll items).2

/-! ## Addressing -/

def locate : List (List α) → Nat → Option Position
  | [], _ => none
  | segment :: rest, index =>
    if index < segment.length then some ⟨0, index⟩
    else (locate rest (index - segment.length)).map .later

/-- The first place at which inserting puts an element at an index. Past the last segment this is the
start of a segment yet to come. -/
def locateInsert : List (List α) → Nat → Position
  | [], _ => ⟨0, 0⟩
  | segment :: rest, index =>
    if index ≤ segment.length then ⟨0, index⟩
    else (locateInsert rest (index - segment.length)).later

def elementAt? (segments : List (List α)) (position : Position) : Option α :=
  segments[position.segment]?.bind (·[position.offset]?)

def modifyAt (segments : List (List α)) (position : Position) (change : α → α) : List (List α) :=
  segments.modify position.segment (·.modify position.offset change)

def eraseAt (segments : List (List α)) (position : Position) : List (List α) :=
  segments.modify position.segment (·.eraseIdx position.offset)

/-- Put an element in at a place; past the last segment it starts one of its own. -/
def insertAt (segments : List (List α)) (position : Position) (item : α) : List (List α) :=
  if position.segment = segments.length then segments ++ [[item]]
  else segments.modify position.segment (·.insertIdx position.offset item)

def resolve (list : SegmentedList α) (index : Nat) : Except Error (Position × α) := do
  checkBounds index list.size
  match locate list.segments index with
  | none => .error (.outOfBounds index list.size)
  | some position =>
    match elementAt? list.segments position with
    | none => .error (.outOfBounds index list.size)
    | some item => .ok (position, item)

def get (list : SegmentedList α) (index : Nat) : Except Error α :=
  (list.resolve index).map Prod.snd

/-! ## Segments -/

def segmentCount (list : SegmentedList α) : Nat :=
  list.segments.length

def getSegment (list : SegmentedList α) (segment : Nat) : Except Error (List α) :=
  match list.segments[segment]? with
  | some items => .ok items
  | none => .error (.outOfBounds segment list.segments.length)

/-- Equal sequences are equal lists, whatever their segments. -/
def same [BEq α] (list other : SegmentedList α) : Bool :=
  list.size == other.size && list.flat == other.flat

def sameItems [BEq α] (list : SegmentedList α) (items : List α) : Bool :=
  list.size == items.length && list.flat == items

def feed {η : Type} (list : SegmentedList α) (takeLength : η → Nat → η) (takeItem : η → α → η)
    (hasher : η) : η :=
  list.flat.foldl takeItem (takeLength hasher list.size)

def inspect (literal : α → String) (list : SegmentedList α) : String :=
  "[" ++ ", ".intercalate (list.flat.map literal) ++ "]"

end SegmentedList

end Collections
