import Collections.Bag.Basic

/-! Reads that a parallel layer runs in batches. Only the outermost layer counts: under any other layer
the bag is read entry by entry.

The reads that every bag has cannot be refused. When a batch of theirs is, that is raised.
-/

set_option autoImplicit false

namespace Collections.Bag

variable {α ρ : Type}

/-- Read a bag in batches, if its outermost layer does that. -/
def inBatches? (read : Batching → Entries α → Attempt Batching ρ) :
    Bag α → Option (Attempt (Bag α) ρ)
  | .parallel batching inner => some ((read batching inner.entries).within (.parallel · inner))
  | _ => none

def batched (read : Batching → Entries α → Attempt Batching ρ) (otherwise : Entries α → ρ)
    (bag : Bag α) : Attempt (Bag α) ρ :=
  (bag.inBatches? read).getD ⟨.ok (otherwise bag.entries), bag⟩

variable [DecidableEq α]

def uniqueBy (run : Batching → Executor.Runs) : Bag α → Attempt (Bag α) (List α) :=
  batched (fun batching entries => batching.readBy (run batching) entries .unique) Entries.unique

def duplicatesBy (run : Batching → Executor.Runs) : Bag α → Attempt (Bag α) (Occurrences α) :=
  batched (fun batching entries => batching.readBy (run batching) entries .duplicates)
    Entries.duplicates

def toMapBy (run : Batching → Executor.Runs) : Bag α → Attempt (Bag α) (Entries α) :=
  batched (fun batching entries => batching.readBy (run batching) entries .toMap) id

/-- How a read ends that cannot be refused. -/
def ending (attempt : Attempt (Bag α) ρ) : Outcome ρ :=
  .raise attempt.answer

def unique : Bag α → Attempt (Bag α) (List α) :=
  uniqueBy fun batching => batching.executor.run

def duplicates : Bag α → Attempt (Bag α) (Occurrences α) :=
  duplicatesBy fun batching => batching.executor.run

def toMap : Bag α → Attempt (Bag α) (Entries α) :=
  toMapBy fun batching => batching.executor.run

end Collections.Bag
