import Collections.SegmentedList.Basic

/-! Questions about a segmented list, answered segment by segment. Positions are indices of the flat
sequence.
-/

set_option autoImplicit false

namespace Collections.SegmentedList

variable {α : Type}

def firstIndexIn (wanted : α → Bool) : List (List α) → Option Nat
  | [] => none
  | segment :: rest =>
    match segment.findIdx? wanted with
    | some offset => some offset
    | none => (firstIndexIn wanted rest).map (segment.length + ·)

def lastOffset (wanted : α → Bool) : List α → Option Nat
  | [] => none
  | item :: rest =>
    match lastOffset wanted rest with
    | some offset => some (offset + 1)
    | none => if wanted item then some 0 else none

def lastIndexIn (wanted : α → Bool) : List (List α) → Option Nat
  | [] => none
  | segment :: rest =>
    match lastIndexIn wanted rest with
    | some index => some (segment.length + index)
    | none => lastOffset wanted segment

def position (list : SegmentedList α) (wanted : α → Bool) : Option Nat :=
  firstIndexIn wanted list.segments

def lastPosition (list : SegmentedList α) (wanted : α → Bool) : Option Nat :=
  lastIndexIn wanted list.segments

def count (list : SegmentedList α) (wanted : α → Bool) : Nat :=
  list.segments.foldr (fun segment sum => segment.countP wanted + sum) 0

def anySatisfy (list : SegmentedList α) (wanted : α → Bool) : Bool :=
  list.segments.any (·.any wanted)

def allSatisfy (list : SegmentedList α) (wanted : α → Bool) : Bool :=
  list.segments.all (·.all wanted)

def noneSatisfy (list : SegmentedList α) (wanted : α → Bool) : Bool :=
  !list.anySatisfy wanted

variable [BEq α]

def indexOf (list : SegmentedList α) (item : α) : Option Nat :=
  list.position (· == item)

def lastIndexOf (list : SegmentedList α) (item : α) : Option Nat :=
  list.lastPosition (· == item)

def contains (list : SegmentedList α) (item : α) : Bool :=
  list.segments.any (·.any (· == item))

def containsAll (list : SegmentedList α) (items : List α) : Bool :=
  items.all list.contains

end Collections.SegmentedList
