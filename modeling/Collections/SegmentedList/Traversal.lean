import Collections.SegmentedList.Edit

/-! Traversals of a segmented list from both ends, which know at each step how many elements are left.

Empty segments are passed over in either direction.
-/

set_option autoImplicit false

namespace Collections

/-- What lies between the two ends, and the number of its elements. -/
structure Traversal (α : Type) where
  pending : List (List α)
  remaining : Nat

namespace Traversal

variable {α : Type}

def start (list : SegmentedList α) : Traversal α :=
  ⟨list.segments, list.size⟩

def takeFirst : List (List α) → Option (α × List (List α))
  | [] => none
  | [] :: rest => takeFirst rest
  | (item :: segment) :: rest => some (item, segment :: rest)

def takeLast : List (List α) → Option (α × List (List α))
  | [] => none
  | segment :: rest =>
    match takeLast rest with
    | some (item, left) => some (item, segment :: left)
    | none => segment.getLast?.map fun item => (item, [segment.dropLast])

def proceed (traversal : Traversal α) : Option (α × List (List α)) → Option α × Traversal α
  | none => (none, { traversal with pending := [] })
  | some (item, pending) => (some item, ⟨pending, traversal.remaining - 1⟩)

def next (traversal : Traversal α) : Option α × Traversal α :=
  traversal.proceed (takeFirst traversal.pending)

def nextBack (traversal : Traversal α) : Option α × Traversal α :=
  traversal.proceed (takeLast traversal.pending)

/-- Pass over this many elements from the front and take the one after them. -/
def nth (traversal : Traversal α) : Nat → Option α × Traversal α
  | 0 => traversal.next
  | skipped + 1 =>
    match traversal.next with
    | (none, traversal) => (none, traversal)
    | (some _, traversal) => traversal.nth skipped

/-- Bounds on the number of elements left; they are exact. -/
def sizeHint (traversal : Traversal α) : Nat × Option Nat :=
  (traversal.remaining, some traversal.remaining)

end Traversal

namespace SegmentedList

variable {α : Type}

def indexFrom (start : Nat) : List (List α) → List (List (α × Nat))
  | [] => []
  | segment :: rest => segment.zipIdx start :: indexFrom (start + segment.length) rest

def indexed (list : SegmentedList α) : SegmentedList (α × Nat) :=
  ⟨indexFrom 0 list.segments, list.size⟩

def backward (list : SegmentedList α) : List α :=
  list.flat.reverse

end SegmentedList

structure Revision (α : Type) where
  list : SegmentedList α
  traversal : Traversal (α × Nat)

namespace Revision

variable {α : Type}

def start (list : SegmentedList α) : Revision α :=
  ⟨list, .start list.indexed⟩

/-- Take a step and put the value of what it took in its place. The answer is that value. -/
def replace (revision : Revision α) (f : α → α)
    (step : Traversal (α × Nat) → Option (α × Nat) × Traversal (α × Nat)) :
    Option α × Revision α :=
  match step revision.traversal with
  | (none, traversal) => (none, { revision with traversal })
  | (some (item, index), traversal) =>
    -- The index is in bounds: it was when the traversal was laid out, and no step changes the length.
    (some (f item), ⟨(revision.list.set index (f item)).toOption.elim revision.list Prod.snd,
      traversal⟩)

end Revision

end Collections
