import Collections.Bag.Basic

/-! The ends of an order among the elements of a bag. -/

set_option autoImplicit false

namespace Collections.Bag

variable {α : Type}

/-- Of the elements read so far, the first that none of the others beats. -/
def extreme (order : α → α → Ordering) (wanted : Ordering) (items : List α) : Option α :=
  items.foldl
    (fun best item =>
      match best with
      | none => some item
      | some current => if order item current = wanted then some item else some current)
    none

def first? : Bag α → Option α
  | .sorted order inner => extreme order .lt (Entries.items inner.entries)
  | _ => none

def last? : Bag α → Option α
  | .sorted order inner => extreme order .gt (Entries.items inner.entries)
  | _ => none

def compare? (left right : α) : Bag α → Option Ordering
  | .sorted order _ => some (order left right)
  | _ => none

end Collections.Bag
