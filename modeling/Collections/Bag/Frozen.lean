import Collections.Bag.Basic

/-! Frozen bags. They never change; what would change one makes another, in a storage of its own unless
nothing differs.
-/

set_option autoImplicit false

namespace Collections.Bag

variable {α : Type} [DecidableEq α]

/-- The elements of a bag in a frozen one. A bag that is frozen already keeps its storage. -/
def freeze (storage : Nat) : Bag α → Bag α
  | .frozen own counts => .frozen own counts
  | bag => .frozen storage (.ofEntries bag.entries)

def thaw (bag : Bag α) : Bag α :=
  .plain (.ofEntries bag.entries)

def plus (storage : Nat) (item : α) (bag : Bag α) : Bag α :=
  .frozen storage (bag.contents.accumulate (item, 1))

def plusOccurrences (storage : Nat) (item : α) (amount : Int) (bag : Bag α) :
    Except Error (Bag α) :=
  (bag.contents.add item amount).map fun (_, counts) => .frozen storage counts

def plusAll (storage : Nat) (items : List α) (bag : Bag α) : Bag α :=
  .frozen storage (bag.contents.extend items)

/-- The bag with one occurrence of an element less. Without any there is nothing to take away, and the
bag itself is the answer. -/
def minus (storage : Nat) (item : α) (bag : Bag α) : Bag α :=
  if bag.contents.contains item then
    match bag.contents.remove item 1 with
    | .ok (_, counts) => .frozen storage counts
    | .error _ => .frozen storage bag.contents
  else bag

def minusAll (storage : Nat) (items : List α) (bag : Bag α) : Bag α :=
  .frozen storage (bag.contents.without items)

end Collections.Bag
