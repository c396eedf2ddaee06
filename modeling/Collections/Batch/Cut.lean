/-! Cutting a sequence into batches. -/

set_option autoImplicit false

namespace Collections

variable {β : Type}

/-- Batches of the given size in order, of which only the last may be shorter and none is empty. -/
def batchesOf (size : Nat) (items : List β) : List (List β) :=
  match items with
  | [] => []
  | first :: rest => (first :: rest.take (size - 1)) :: batchesOf size (rest.drop (size - 1))
termination_by items.length

end Collections
