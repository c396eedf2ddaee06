import Collections.Keyed

/-! Entries: each distinct element of a bag once, with its number of occurrences, in iteration order.

This is the view in which every bag is read, whatever its layers.
-/

set_option autoImplicit false

namespace Collections

abbrev Entries (α : Type) := Keyed α Nat

namespace Entries

variable {α : Type}

def items (entries : Entries α) : List α :=
  entries.map Prod.fst

def total (entries : Entries α) : Nat :=
  entries.foldr (fun entry sum => entry.2 + sum) 0

def expand (entries : Entries α) : List α :=
  entries.flatMap fun entry => List.replicate entry.2 entry.1

variable [DecidableEq α]

def countOf (entries : Entries α) (item : α) : Nat :=
  (Keyed.valueOf? entries item).getD 0

/-- Give an element this count, in its old place or else at the end. -/
def put (entries : Entries α) (item : α) (count : Nat) : Entries α :=
  Keyed.insert entries item count

def erase (entries : Entries α) (item : α) : Entries α :=
  Keyed.erase entries item

def bump (entries : Entries α) (entry : α × Nat) : Entries α :=
  Keyed.update entries entry.1 0 (· + entry.2)

end Entries

end Collections
