import Collections.Bag.Edit
import Collections.Proofs.Calls

/-! Calls that change a bag, and the stacks in which they reach the counted elements.

There a call does to the elements at the bottom what it does to them without layers.
-/

set_option autoImplicit false

namespace Collections

inductive Call (α : Type) where
  | add (item : α)
  | addOccurrences (item : α) (amount : Int)
  | remove (item : α)
  | removeOccurrences (item : α) (amount : Int)
  | setOccurrences (item : α) (count : Int)
  | addAll (items : List α)
  | removeAll (items : List α)
  | removeIf (unwanted : α × Nat → Bool)
  | clear

/-- A change of the counted elements, which keeps them when it is refused. -/
def Occurrences.attempt {α : Type} [DecidableEq α] (counts : Occurrences α) (change : Change α) :
    Attempt (Occurrences α) Bool :=
  Attempt.ofExcept counts (counts.apply change)

namespace Bag

variable {α : Type}

def isWritable : Bag α → Bool
  | .plain _ => true
  | .frozen _ _ | .readOnly _ => false
  | .sorted _ inner | .shared _ inner | .parallel _ inner => inner.isWritable

def refilled : Bag α → Occurrences α → Bag α
  | .plain _, counts => .plain counts
  | .frozen storage _, counts => .frozen storage counts
  | .sorted order inner, counts => .sorted order (inner.refilled counts)
  | .readOnly inner, counts => .readOnly (inner.refilled counts)
  | .shared cell inner, counts => .shared cell (inner.refilled counts)
  | .parallel batching inner, counts => .parallel batching (inner.refilled counts)

@[simp] theorem contents_refilled (bag : Bag α) (counts : Occurrences α) :
    (bag.refilled counts).contents = counts := by
  induction bag with
  | plain _ => rfl
  | frozen _ _ => rfl
  | sorted _ inner ih => exact ih
  | readOnly inner ih => exact ih
  | shared _ inner ih => exact ih
  | parallel _ inner ih => exact ih

@[simp] theorem isWritable_refilled (bag : Bag α) (counts : Occurrences α) :
    (bag.refilled counts).isWritable = bag.isWritable := by
  induction bag with
  | plain _ => rfl
  | frozen _ _ => rfl
  | sorted _ inner ih => exact ih
  | readOnly inner ih => rfl
  | shared _ inner ih => exact ih
  | parallel _ inner ih => exact ih

@[simp] theorem refilled_contents (bag : Bag α) : bag.refilled bag.contents = bag := by
  induction bag with
  | plain _ => rfl
  | frozen _ _ => rfl
  | sorted order inner ih => exact congrArg (sorted order) ih
  | readOnly inner ih => exact congrArg readOnly ih
  | shared cell inner ih => exact congrArg (shared cell) ih
  | parallel batching inner ih => exact congrArg (parallel batching) ih

@[simp] theorem refilled_refilled (bag : Bag α) (counts other : Occurrences α) :
    (bag.refilled counts).refilled other = bag.refilled other := by
  induction bag with
  | plain _ => rfl
  | frozen _ _ => rfl
  | sorted order inner ih => exact congrArg (sorted order) ih
  | readOnly inner ih => exact congrArg readOnly ih
  | shared cell inner ih => exact congrArg (shared cell) ih
  | parallel batching inner ih => exact congrArg (parallel batching) ih

variable [DecidableEq α]

def perform (bag : Bag α) : Call α → Attempt (Bag α) (Option Bool)
  | .add item => (bag.add item).map some
  | .addOccurrences item amount => (bag.apply (.add item amount)).map some
  | .remove item => (bag.remove item).map some
  | .removeOccurrences item amount => (bag.apply (.remove item amount)).map some
  | .setOccurrences item count => (bag.apply (.set item count)).map some
  | .addAll items => (bag.addAll items).map some
  | .removeAll items => (bag.removeAll items).map some
  | .removeIf unwanted => (bag.removeIf unwanted).map some
  | .clear => bag.clear.map fun _ => none

/-- A change through layers that pass it on. -/
theorem apply_of_writable {bag : Bag α} (writable : bag.isWritable) (change : Change α) :
    bag.apply change = (bag.contents.attempt change).within bag.refilled := by
  induction bag with
  | plain counts => rfl
  | frozen _ _ => cases writable
  | sorted _ inner ih =>
    rw [apply, ih writable]
    rfl
  | readOnly _ _ => cases writable
  | shared _ inner ih =>
    rw [apply, ih writable]
    rfl
  | parallel _ inner ih =>
    rw [apply, ih writable]
    rfl

/-! ## Changes of many elements -/

omit [DecidableEq α] in
/-- A run of steps that shared layers hand on is made alike above and below them. -/
theorem bulk_of_writable {operation : String} {run : Bag α → Attempt (Bag α) Bool}
    (passes : ∀ cell inner, run (.shared cell inner) = (run inner).within (.shared cell))
    {bag : Bag α} (writable : bag.isWritable) : bag.bulk operation run = run bag := by
  induction bag with
  | shared cell inner ih => rw [bulk, ih writable, passes]
  | readOnly _ _ => cases writable
  | _ => rfl

variable {β : Type} {step : β → Bag α → Attempt (Bag α) Bool}

/-- Steps that each make one change, chosen by what the bag holds, change what is below the layers. -/
theorem anyChange_of_writable (change : β → Occurrences α → Change α)
    (steps : ∀ item bag, step item bag = bag.apply (change item bag.contents)) {bag : Bag α}
    (writable : bag.isWritable) (items : List β) :
    Attempt.anyChange step items bag =
      (Attempt.anyChange (fun item counts => counts.attempt (change item counts)) items
        bag.contents).within bag.refilled := by
  have same : ∀ item counts, step item (bag.refilled counts) =
      (counts.attempt (change item counts)).within bag.refilled := by
    intro item counts
    rw [steps, apply_of_writable ((isWritable_refilled bag counts).trans writable), contents_refilled]
    simp only [Attempt.within, refilled_refilled]
  have lifted := Attempt.anyChange_within same items bag.contents
  rwa [refilled_contents] at lifted

omit [DecidableEq α] in
theorem anyChange_shared (steps : ∀ item cell inner,
    step item (.shared cell inner) = (step item inner).within (.shared cell)) (items : List β)
    (cell : Nat) (inner : Bag α) : Attempt.anyChange step items (.shared cell inner) =
      (Attempt.anyChange step items inner).within (.shared cell) :=
  Attempt.anyChange_within (fun item inner => steps item cell inner) items inner

variable {bag : Bag α}

theorem addAll_of_writable (writable : bag.isWritable) (items : List α) :
    bag.addAll items =
      (Attempt.anyChange (fun item counts => counts.attempt (.add item 1)) items
        bag.contents).within bag.refilled :=
  (bulk_of_writable (anyChange_shared (fun _ _ _ => rfl) items) writable).trans
    (anyChange_of_writable (fun item _ => .add item 1) (fun _ _ => rfl) writable items)

theorem removeAll_of_writable (writable : bag.isWritable) (items : List α) :
    bag.removeAll items =
      (Attempt.anyChange (fun item counts => counts.attempt (.remove item (counts.countOf item))) items
        bag.contents).within bag.refilled :=
  (bulk_of_writable (anyChange_shared (fun _ _ _ => rfl) items) writable).trans
    (anyChange_of_writable (fun item counts => .remove item (counts.countOf item)) (fun _ _ => rfl)
      writable items)

-- The entries that are taken away are looked up before the first of them is.
theorem removeIf_of_writable (writable : bag.isWritable) (unwanted : α × Nat → Bool) :
    bag.removeIf unwanted =
      (Attempt.anyChange (fun entry counts => counts.attempt (.remove entry.1 entry.2))
        (bag.entries.filter unwanted) bag.contents).within bag.refilled := by
  refine (bulk_of_writable ?_ writable).trans ?_
  · exact fun cell inner => anyChange_shared (fun _ _ _ => rfl) (inner.entries.filter unwanted) cell inner
  · exact anyChange_of_writable (fun (entry : α × Nat) _ => .remove entry.1 entry.2) (fun _ _ => rfl)
      writable (bag.entries.filter unwanted)

end Bag

end Collections
