/-! Values filed under keys, in the order in which the keys first came. -/

set_option autoImplicit false

namespace Collections

abbrev Keyed (κ ν : Type) := List (κ × ν)

namespace Keyed

variable {κ ν : Type} [DecidableEq κ]

def valueOf? (filed : Keyed κ ν) (key : κ) : Option ν :=
  match filed with
  | [] => none
  | (head, value) :: rest => if head = key then some value else valueOf? rest key

/-- Change the value under a key, which is `start` when there is none yet. -/
def update (filed : Keyed κ ν) (key : κ) (start : ν) (change : ν → ν) : Keyed κ ν :=
  match filed with
  | [] => [(key, change start)]
  | (head, value) :: rest =>
    if head = key then (head, change value) :: rest
    else (head, value) :: update rest key start change

def insert (filed : Keyed κ ν) (key : κ) (value : ν) : Keyed κ ν :=
  update filed key value fun _ => value

def erase (filed : Keyed κ ν) (key : κ) : Keyed κ ν :=
  match filed with
  | [] => []
  | (head, value) :: rest => if head = key then rest else (head, value) :: erase rest key

end Keyed

end Collections
