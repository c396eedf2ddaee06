import Collections.Occurrences.Basic

/-! Reads that pick entries of a bag. What they pick keeps its counts. -/

set_option autoImplicit false

namespace Collections.Entries

variable {α : Type}

/-- The entries visited up to and including the first that satisfies the predicate, and the element
of that one. -/
def visitUntil (stop : α × Nat → Bool) : Entries α → Entries α × Option α
  | [] => ([], none)
  | entry :: rest =>
    if stop entry then ([entry], some entry.1)
    else
      let (visited, found) := visitUntil stop rest
      (entry :: visited, found)

def detect (entries : Entries α) (wanted : α × Nat → Bool) : Option (α × Nat) :=
  entries.find? wanted

def anySatisfy (entries : Entries α) (wanted : α × Nat → Bool) : Bool :=
  entries.any wanted

def allSatisfy (entries : Entries α) (wanted : α × Nat → Bool) : Bool :=
  !anySatisfy entries fun entry => !wanted entry

def noneSatisfy (entries : Entries α) (wanted : α × Nat → Bool) : Bool :=
  !anySatisfy entries wanted

def count (entries : Entries α) (wanted : α → Bool) : Nat :=
  entries.foldl (fun sum entry => if wanted entry.1 then sum + entry.2 else sum) 0

def unique (entries : Entries α) : List α :=
  items (entries.filter fun entry => entry.2 == 1)

variable [DecidableEq α]

def select (entries : Entries α) (wanted : α → Bool) : Occurrences α :=
  .ofEntries (entries.filter fun entry => wanted entry.1)

def reject (entries : Entries α) (unwanted : α → Bool) : Occurrences α :=
  select entries fun item => !unwanted item

def partition (entries : Entries α) (wanted : α → Bool) : Occurrences α × Occurrences α :=
  entries.foldl
    (fun (selected, rejected) entry =>
      if wanted entry.1 then (selected.insertClamped entry, rejected)
      else (selected, rejected.insertClamped entry))
    (.empty, .empty)

def selectByCount (entries : Entries α) (wanted : Nat → Bool) : Occurrences α :=
  .ofEntries (entries.filter fun entry => wanted entry.2)

def duplicates (entries : Entries α) : Occurrences α :=
  selectByCount entries (1 < ·)

end Collections.Entries
