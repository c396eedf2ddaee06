import Collections.Bag.Edit

/-! Live walks over a shared bag, which may change while the walk is under way.

A walk goes through the elements that the bag had at the start. It gives an element as long as the bag
has more occurrences of it than were given, and then passes on to the next one.
-/

set_option autoImplicit false

namespace Collections

/-- The elements of the start, the position of the one under way, how many occurrences of it were given
and not taken away again, and the position of the last one given. -/
structure LiveWalk (α : Type) where
  keys : List α
  position : Nat
  emitted : Int
  last : Option Nat

namespace LiveWalk

variable {α : Type}

def start (bag : Bag α) : LiveWalk α :=
  ⟨Entries.items bag.entries, 0, 0, none⟩

variable [DecidableEq α]

def seek (bag : Bag α) : List α → Nat → Int → Option α × Nat × Int
  | [], position, emitted => (none, position, emitted)
  | key :: rest, position, emitted =>
    if emitted < bag.countOf key then (some key, position, emitted + 1)
    else seek bag rest (position + 1) 0

def next (walk : LiveWalk α) (bag : Bag α) : Option α × LiveWalk α :=
  match seek bag (walk.keys.drop walk.position) walk.position walk.emitted with
  | (none, position, emitted) => (none, { walk with position, emitted })
  | (some key, position, emitted) =>
    (some key, { walk with position, emitted, last := some position })

/-- Take one occurrence of the last element given out of the bag. The element is forgotten even if the
bag refuses that. -/
def remove (walk : LiveWalk α) (bag : Bag α) : Attempt (LiveWalk α × Bag α) Unit :=
  match walk.last.bind fun position => walk.keys[position]?.map (position, ·) with
  | none => ⟨.error .nothingReturned, (walk, bag)⟩
  | some (position, key) =>
    match Bag.remove key bag with
    | ⟨.error error, bag⟩ => ⟨.error error, ({ walk with last := none }, bag)⟩
    | ⟨.ok _, bag⟩ =>
      ⟨.ok (), ({ walk with
        emitted := if position = walk.position then walk.emitted - 1 else walk.emitted
        last := none }, bag)⟩

end LiveWalk

end Collections
