import Collections.Bag.Edit
import Collections.Proofs.Occurrences.Parts
import Collections.Proofs.Occurrences.Words

/-! Runs of updates from the empty bag. Whatever the calls and their arguments, and whether they were
accepted or refused, the bag that is reached is valid, and it is the same one when every number is kept
in a word. Conversely each valid bag is reached.
-/

set_option autoImplicit false

namespace Collections

namespace Occurrences

variable {α : Type}

/-- The bag after a call: the new one, or the old one when the call was refused. -/
def after (counts : Occurrences α) (outcome : Except Error (Bool × Occurrences α)) :
    Occurrences α :=
  (Attempt.ofExcept counts outcome).state

theorem Valid.after {counts : Occurrences α} (valid : counts.Valid)
    {outcome : Except Error (Bool × Occurrences α)}
    (accepted : ∀ changed next, outcome = .ok (changed, next) → next.Valid) :
    (counts.after outcome).Valid := by
  cases outcome with
  | error error => exact valid
  | ok answer => exact accepted answer.1 answer.2 rfl

variable [DecidableEq α]

theorem Valid.apply {counts next : Occurrences α} (valid : counts.Valid) {change : Change α}
    {changed : Bool} (accepted : counts.apply change = .ok (changed, next)) : next.Valid := by
  cases change with
  | add item amount => exact valid.add accepted
  | remove item amount => exact valid.remove accepted
  | set item count => exact valid.set accepted
  | clear =>
    cases accepted
    exact valid_empty

def applyInWords (counts : Occurrences α) :
    Change α → Option (Except Error (Bool × Occurrences α))
  | .add item amount => counts.addInWords item amount
  | .remove item amount => counts.removeInWords item amount
  | .set item count => counts.setInWords item count
  | .clear => some (.ok (!counts.isEmpty, .empty))

theorem Valid.applyInWords_eq {counts : Occurrences α} (valid : counts.Valid)
    (change : Change α) : counts.applyInWords change = some (counts.apply change) := by
  cases change with
  | add item amount => exact valid.addInWords_eq item amount
  | remove item amount => exact valid.removeInWords_eq item amount
  | set item count => exact valid.setInWords_eq item count
  | clear => rfl

end Occurrences

/-- The calls that lead to a bag, with the last one outermost. A merge takes in a bag that calls of its
own lead to, and nobody accumulates less than one occurrence. -/
inductive Run (α : Type) where
  | start
  | apply (before : Run α) (change : Change α)
  | merge (before other : Run α)
  | retain (before : Run α) (keep : α × Nat → Bool)
  | extend (before : Run α) (items : List α)
  | accumulate (before : Run α) (entry : α × Nat) (positive : 0 < entry.2)
  | insertClamped (before : Run α) (entry : α × Nat)

namespace Run

variable {α : Type} [DecidableEq α]

def reached : Run α → Occurrences α
  | .start => .empty
  | .apply before change => before.reached.after (before.reached.apply change)
  | .merge before other => before.reached.after (before.reached.merge other.reached)
  | .retain before keep => before.reached.retain keep
  | .extend before items => before.reached.extend items
  | .accumulate before entry _ => before.reached.accumulate entry
  | .insertClamped before entry => before.reached.insertClamped entry

/-- The same in words. Nothing is reached once a number has left its word. -/
def reachedInWords : Run α → Option (Occurrences α)
  | .start => some .empty
  | .apply before change => do
    let counts ← before.reachedInWords
    let outcome ← counts.applyInWords change
    some (counts.after outcome)
  | .merge before other => do
    let counts ← before.reachedInWords
    let operand ← other.reachedInWords
    let outcome ← counts.mergeInWords operand
    some (counts.after outcome)
  | .retain before keep => before.reachedInWords.bind (·.retainInWords keep)
  | .extend before items => before.reachedInWords.bind (·.extendInWords items)
  | .accumulate before entry _ => before.reachedInWords.bind (·.accumulateInWords entry)
  | .insertClamped before entry => before.reachedInWords.bind (·.insertClampedInWords entry)

theorem reached_valid (run : Run α) : run.reached.Valid := by
  induction run with
  | start => exact Occurrences.valid_empty
  | apply before change ih => exact ih.after fun _ _ accepted => ih.apply accepted
  | merge before other ih other_ih =>
    exact ih.after fun _ _ accepted => ih.merge other_ih accepted
  | retain before keep ih => exact ih.retain keep
  | extend before items ih => exact ih.extend items
  | accumulate before entry positive ih => exact ih.accumulate positive
  | insertClamped before entry ih => exact ih.insertClamped entry

/-- Every run keeps the counts and the size valid, and no number in it ever leaves its word. -/
theorem reached_valid_inWords (run : Run α) :
    run.reached.Valid ∧ run.reachedInWords = some run.reached := by
  -- Each step in words starts from a bag that is valid, and there it loses nothing.
  refine ⟨run.reached_valid, ?_⟩
  induction run with
  | start => rfl
  | apply before change ih =>
    simp only [reachedInWords, ih, before.reached_valid.applyInWords_eq, Option.bind_eq_bind,
      Option.bind_some, reached]
  | merge before other ih other_ih =>
    simp only [reachedInWords, ih, other_ih, other.reached_valid.mergeInWords_eq,
      Option.bind_eq_bind, Option.bind_some, reached]
  | retain before keep ih =>
    rw [reachedInWords, ih]
    exact before.reached_valid.retainInWords_eq keep
  | extend before items ih =>
    rw [reachedInWords, ih]
    exact before.reached_valid.extendInWords_eq items
  | accumulate before entry positive ih =>
    rw [reachedInWords, ih]
    exact before.reached_valid.accumulateInWords_eq entry
  | insertClamped before entry ih =>
    rw [reachedInWords, ih]
    exact before.reached_valid.insertClampedInWords_eq entry

theorem reached_insertEach (entries : Entries α) (run : Run α) :
    (entries.foldl insertClamped run).reached =
      entries.foldl Occurrences.insertClamped run.reached := by
  induction entries generalizing run with
  | nil => rfl
  | cons entry rest ih => exact ih (run.insertClamped entry)

/-- Valid bags are the ones that runs reach. -/
theorem exists_reached_iff (counts : Occurrences α) :
    (∃ run : Run α, run.reached = counts) ↔ counts.Valid := by
  constructor
  · rintro ⟨run, rfl⟩
    exact run.reached_valid
  · intro valid
    -- Inserted one by one, the entries of a valid bag all find room.
    refine ⟨counts.entries.foldl insertClamped start, ?_⟩
    rw [reached_insertEach]
    exact valid.ofEntries_eq

end Run

end Collections
