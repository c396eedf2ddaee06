import Collections.Occurrences.Basic

/-! A walk over every occurrence of a bag, which knows at each step how many are left. -/

set_option autoImplicit false

namespace Collections

/-- Entries not yet reached, the element under way with the occurrences of it still to come, and the
occurrences still to come altogether. -/
structure OccurrenceWalk (α : Type) where
  pending : Entries α
  current : Option α
  left : Nat
  remaining : Nat

namespace OccurrenceWalk

variable {α : Type}

def start (counts : Occurrences α) : OccurrenceWalk α :=
  ⟨counts.entries, none, 0, counts.size⟩

/-- Take one occurrence of the element under way, or of the next entry that has any. The result is
what was taken, what is left of it, and the entries after it. -/
def advance : Entries α → Nat → Option α → Option (Option α × Nat × Entries α)
  | pending, left + 1, current => some (current, left, pending)
  | [], 0, _ => none
  | (item, count) :: rest, 0, _ => advance rest count (some item)

/-- Take one occurrence. At the end nothing is taken, however often it is asked. -/
def next (walk : OccurrenceWalk α) : Option α × OccurrenceWalk α :=
  match advance walk.pending walk.left walk.current with
  | none => (none, { walk with pending := [] })
  | some (current, left, pending) => (current, ⟨pending, current, left, walk.remaining - 1⟩)

def sizeHint (walk : OccurrenceWalk α) : Nat × Option Nat :=
  (walk.remaining, some walk.remaining)

def take (walk : OccurrenceWalk α) : Nat → List α × OccurrenceWalk α
  | 0 => ([], walk)
  | count + 1 =>
    match walk.next with
    | (none, walk) => ([], walk)
    | (some item, walk) =>
      match walk.take count with
      | (items, walk) => (item :: items, walk)

end OccurrenceWalk

end Collections
