import Collections.Entries.Basic

/-! The elements that occur most or least often. -/

set_option autoImplicit false

namespace Collections.Entries

variable {α : Type}

/-- The first entries of a ranking: as many as asked for, and those after them that are tied with the
last of these. -/
def leading (ranked : Entries α) (limit : Nat) : Entries α :=
  match limit, ranked.drop (limit - 1) with
  | 0, _ => []
  | _, [] => ranked
  | _, boundary :: rest => ranked.take limit ++ rest.takeWhile fun entry => entry.2 == boundary.2

def top (entries : Entries α) (limit : Nat) : Entries α :=
  leading (entries.mergeSort fun first second => second.2 ≤ first.2) limit

def bottom (entries : Entries α) (limit : Nat) : Entries α :=
  leading (entries.mergeSort fun first second => first.2 ≤ second.2) limit

end Collections.Entries
