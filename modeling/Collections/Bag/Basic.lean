import Collections.Batch.Batching
import Collections.Entries.Selection

/-! Bags: counted elements at the bottom and any number of layers above them.

A layer may change the order in which entries are read, refuse changes, share what is below it with
other bags, or read it in batches. No layer changes how often an element occurs.
-/

set_option autoImplicit false

namespace Collections

/-- A frozen bag carries the number of its storage and a shared bag the number of its cell. Bags with
the same storage are copies of one bag; bags with the same cell are handles to one bag. -/
inductive Bag (α : Type) where
  | plain (counts : Occurrences α)
  | frozen (storage : Nat) (counts : Occurrences α)
  | sorted (order : α → α → Ordering) (inner : Bag α)
  | readOnly (inner : Bag α)
  | shared (cell : Nat) (inner : Bag α)
  | parallel (batching : Batching) (inner : Bag α)

namespace Bag

variable {α : Type}

def contents : Bag α → Occurrences α
  | .plain counts | .frozen _ counts => counts
  | .sorted _ inner | .readOnly inner | .shared _ inner | .parallel _ inner => inner.contents

def inner? : Bag α → Option (Bag α)
  | .plain _ | .frozen _ _ => none
  | .sorted _ inner | .readOnly inner | .shared _ inner | .parallel _ inner => some inner

/-- Elements in an order; elements that are equal in it keep their places. -/
def arrange (order : α → α → Ordering) (entries : Entries α) : Entries α :=
  entries.mergeSort fun first second => order first.1 second.1 != .gt

def entries : Bag α → Entries α
  | .plain counts | .frozen _ counts => counts.entries
  | .sorted order inner => arrange order inner.entries
  | .readOnly inner | .shared _ inner | .parallel _ inner => inner.entries

def isOrdered : Bag α → Bool
  | .plain _ | .frozen _ _ => false
  | .sorted _ _ => true
  | .readOnly inner | .shared _ inner | .parallel _ inner => inner.isOrdered

def size (bag : Bag α) : Nat :=
  bag.contents.size

def distinct (bag : Bag α) : Nat :=
  bag.contents.distinct

def isEmpty (bag : Bag α) : Bool :=
  bag.size == 0

def toList (bag : Bag α) : List α :=
  Entries.expand bag.entries

variable [DecidableEq α]

def countOf (bag : Bag α) (item : α) : Nat :=
  bag.contents.countOf item

def contains (bag : Bag α) (item : α) : Bool :=
  0 < bag.countOf item

def equals (bag other : Bag α) : Bool :=
  bag.size == other.size && bag.distinct == other.distinct &&
    Entries.allSatisfy bag.entries fun entry => other.countOf entry.1 == entry.2

end Bag

end Collections
