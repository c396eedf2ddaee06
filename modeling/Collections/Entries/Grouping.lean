import Collections.Occurrences.Basic

/-! Reads that send elements to values or keys and bring together what meets there. -/

set_option autoImplicit false

namespace Collections.Entries

variable {α κ ν : Type}

def mapEntries (entries : Entries α) (f : α × Nat → ν) : List ν :=
  entries.map f

def inject (entries : Entries α) (start : ν) (step : ν → α → ν) : ν :=
  (expand entries).foldl step start

variable [DecidableEq κ]

/-- Replace each element by its value. Occurrences of elements with one value add up, clamped. -/
def collect (entries : Entries α) (f : α → κ) : Occurrences κ :=
  entries.foldl (fun counts entry => counts.accumulate (f entry.1, entry.2)) .empty

def countBy (entries : Entries α) (key : α → κ) : Occurrences κ :=
  collect entries key

def groupBy [DecidableEq α] (entries : Entries α) (key : α → κ) : Keyed κ (Occurrences α) :=
  entries.foldl
    (fun groups entry => groups.update (key entry.1) .empty (·.insertClamped entry)) []

def aggregateBy (entries : Entries α) (key : α → κ) (zero : ν) (step : ν → α → ν) : Keyed κ ν :=
  entries.foldl
    (fun groups entry => groups.update (key entry.1) zero fun value =>
      (List.replicate entry.2 entry.1).foldl step value)
    []

end Collections.Entries
