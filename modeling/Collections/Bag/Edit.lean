import Collections.Attempt
import Collections.Bag.Basic

/-! Changes to a bag. They pass through the layers to the counted elements; a read-only layer refuses
them and a frozen bag cannot be changed.

Changes of many elements are made one after the other. When one of them is refused the run ends there
and the earlier ones stay made.
-/

set_option autoImplicit false

namespace Collections

inductive Change (α : Type) where
  | add (item : α) (amount : Int)
  | remove (item : α) (amount : Int)
  | set (item : α) (count : Int)
  | clear

/-- The name under which a change is refused. -/
def Change.operation {α : Type} : Change α → String
  | .add _ _ => "add_occurrences"
  | .remove _ _ => "remove_occurrences"
  | .set _ _ => "set_occurrences"
  | .clear => "clear"

def Occurrences.apply {α : Type} [DecidableEq α] (counts : Occurrences α) :
    Change α → Except Error (Bool × Occurrences α)
  | .add item amount => counts.add item amount
  | .remove item amount => counts.remove item amount
  | .set item count => counts.set item count
  | .clear => .ok (!counts.isEmpty, .empty)

namespace Bag

variable {α : Type} [DecidableEq α]

def apply (change : Change α) : Bag α → Attempt (Bag α) Bool
  | .plain counts => (Attempt.ofExcept counts (counts.apply change)).within .plain
  | .frozen storage counts => ⟨.error (.fixedContent change.operation), .frozen storage counts⟩
  | .sorted order inner => (apply change inner).within (.sorted order)
  | .readOnly inner => ⟨.error (.readOnly change.operation), .readOnly inner⟩
  | .shared cell inner => (apply change inner).within (.shared cell)
  | .parallel batching inner => (apply change inner).within (.parallel batching)

def add (item : α) (bag : Bag α) : Attempt (Bag α) Bool :=
  bag.apply (.add item 1)

def remove (item : α) (bag : Bag α) : Attempt (Bag α) Bool :=
  bag.apply (.remove item 1)

def clear (bag : Bag α) : Attempt (Bag α) Unit :=
  (bag.apply .clear).map fun _ => ()

def removeEach (item : α) (bag : Bag α) : Attempt (Bag α) Bool :=
  bag.apply (.remove item (bag.countOf item))

/-- Run a change of many elements. A read-only layer refuses the run as a whole, and a shared bag
leaves it to what it shares. -/
def bulk (operation : String) (run : Bag α → Attempt (Bag α) Bool) : Bag α → Attempt (Bag α) Bool
  | .readOnly inner => ⟨.error (.readOnly operation), .readOnly inner⟩
  | .shared cell inner => (bulk operation run inner).within (.shared cell)
  | bag => run bag

def addAll (items : List α) (bag : Bag α) : Attempt (Bag α) Bool :=
  bag.bulk "add_all" (Attempt.anyChange add items)

def removeAll (items : List α) (bag : Bag α) : Attempt (Bag α) Bool :=
  bag.bulk "remove_all" (Attempt.anyChange removeEach items)

def removeIf (unwanted : α × Nat → Bool) (bag : Bag α) : Attempt (Bag α) Bool :=
  bag.bulk "remove_if" fun bag =>
    Attempt.anyChange (fun entry => apply (.remove entry.1 entry.2)) (bag.entries.filter unwanted) bag

end Bag

end Collections
