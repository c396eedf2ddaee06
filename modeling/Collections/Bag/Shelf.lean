import Collections.Bag.Edit

/-! Shelves: bags under names, some of which share their content.

All handles to a cell hold the same content. A change made through one of them is passed on to the
others when its bag is put back.
-/

set_option autoImplicit false

namespace Collections

namespace Bag

variable {α : Type}

def cells : Bag α → List (Nat × Bag α)
  | .plain _ | .frozen _ _ => []
  | .shared cell inner => (cell, inner) :: inner.cells
  | .sorted _ inner | .readOnly inner | .parallel _ inner => inner.cells

/-- The cell that the bag is itself a handle to, through layers that do not share. -/
def handle? (bag : Bag α) : Option Nat :=
  bag.cells.head?.map Prod.fst

-- All handles to a cell show one content. Where the current one is known it takes the place of the
-- copy in the bag, whatever that copy holds.
def refresh (current : List (Nat × Bag α)) : Bag α → Bag α
  | .plain counts => .plain counts
  | .frozen storage counts => .frozen storage counts
  | .sorted order inner => .sorted order (inner.refresh current)
  | .readOnly inner => .readOnly (inner.refresh current)
  | .parallel batching inner => .parallel batching (inner.refresh current)
  | .shared cell inner => .shared cell ((Keyed.valueOf? current cell).getD (inner.refresh current))

def isSame : Bag α → Bag α → Bool
  | .shared cell _, .shared other _ => cell == other
  | .frozen storage _, .frozen other _ => storage == other
  | _, _ => false

end Bag

/-- The bags within reach, those of the shelves around this one, and the first number that no cell and
no storage has. -/
structure Shelf (α : Type) where
  bags : Keyed String (Bag α)
  around : List (Keyed String (Bag α))
  fresh : Nat

namespace Shelf

variable {α : Type}

def empty : Shelf α := ⟨[], [], 0⟩

def get? (shelf : Shelf α) (name : String) : Option (Bag α) :=
  Keyed.valueOf? shelf.bags name

def discard (shelf : Shelf α) (name : String) : Shelf α :=
  { shelf with bags := Keyed.erase shelf.bags name }

def issue (shelf : Shelf α) : Nat × Shelf α :=
  (shelf.fresh, { shelf with fresh := shelf.fresh + 1 })

def spread (shelf : Shelf α) (bag : Bag α) : Shelf α :=
  let refreshAll := List.map fun (name, other) => (name, Bag.refresh bag.cells other)
  { shelf with bags := refreshAll shelf.bags, around := shelf.around.map refreshAll }

def put (shelf : Shelf α) (name : String) (bag : Bag α) : Shelf α :=
  let shelf := shelf.spread bag
  { shelf with bags := Keyed.insert shelf.bags name bag }

def all (shelf : Shelf α) : List (Bag α) :=
  (shelf.bags :: shelf.around).flatten.map Prod.snd

def handles (shelf : Shelf α) (cell : Nat) : Nat :=
  -- A cell within reach of several bags is one content, and a handle in it counts once.
  let contents := (shelf.all.flatMap Bag.cells).foldl
    (fun known (number, content) => Keyed.insert known number content) []
  (shelf.all ++ contents.map Prod.snd).countP fun bag => bag.handle? == some cell

/-- Take the outermost layer off a bag that is not on the shelf. A shared bag keeps it as long as there
are other handles to its cell. The answer is whether the layer came off. -/
def unwrap (shelf : Shelf α) (bag : Bag α) : Bool × Bag α :=
  match bag with
  | .sorted _ inner | .parallel _ inner => (true, inner)
  | .shared cell inner =>
    if shelf.handles cell = 0 then (true, inner) else (false, .shared cell inner)
  | bag => (false, bag)

/-! ## Locking -/

/-- Open a shelf that holds only the content of a shared bag, under a name of its own. Until it is
closed all handles to the cell are empty. -/
def enter (shelf : Shelf α) (name inside : String) : Option (Shelf α) :=
  match shelf.get? name with
  | some (.shared cell inner) =>
    let locked := shelf.put name (.shared cell (.plain ⟨[], 0⟩))
    some ⟨[(inside, inner)], locked.bags :: locked.around, locked.fresh⟩
  | _ => none

/-- Close a shelf and give its content back to the shared bag. A content that is gone leaves an empty
bag behind. -/
def leave (shelf : Shelf α) (name inside : String) : Shelf α :=
  let content := (shelf.get? inside).getD (.plain ⟨[], 0⟩)
  match shelf.around with
  | [] => shelf
  | bags :: around =>
    let outer : Shelf α := ⟨bags, around, shelf.fresh⟩
    match outer.get? name with
    | some (.shared cell _) => outer.put name (.shared cell content)
    | _ => outer

end Shelf

end Collections
