import Collections.Bag.Edit

/-! Builders: a bag under construction, filled and layered step by step.

The first refusal is kept for the end. From then on the bag is not filled any more, but it still gets
its layers.
-/

set_option autoImplicit false

namespace Collections

structure Builder (α : Type) where
  bag : Bag α
  refusal : Option Error

namespace Builder

variable {α : Type}

def ofBag (bag : Bag α) : Builder α :=
  ⟨bag, none⟩

/-! ## Layers -/

def wrap (layer : Bag α → Bag α) (builder : Builder α) : Builder α :=
  { builder with bag := layer builder.bag }

def sorted (order : α → α → Ordering) (builder : Builder α) : Builder α :=
  builder.wrap (.sorted order)

def readOnly (builder : Builder α) : Builder α :=
  builder.wrap .readOnly

def shared (cell : Nat) (builder : Builder α) : Builder α :=
  builder.wrap (.shared cell)

def parallel (executor : Executor) (size : Nat) (builder : Builder α) : Builder α where
  bag := .parallel (.ofParts executor (.ofBatchSize size)) builder.bag
  refusal := match builder.refusal, Batching.checkSize size with
    | none, .error error => some error
    | refusal, _ => refusal

/-! ## Filling -/

variable [DecidableEq α]

/-- Fill the bag, unless a step was refused before. -/
def fill (step : Bag α → Attempt (Bag α) Bool) (builder : Builder α) : Builder α :=
  match builder.refusal with
  | some _ => builder
  | none =>
    match step builder.bag with
    | ⟨.ok _, bag⟩ => ⟨bag, none⟩
    | ⟨.error error, bag⟩ => ⟨bag, some error⟩

def add (item : α) (builder : Builder α) : Builder α :=
  builder.fill (Bag.add item)

def addAll (items : List α) (builder : Builder α) : Builder α :=
  builder.fill (Bag.addAll items)

def addOccurrences (item : α) (amount : Int) (builder : Builder α) : Builder α :=
  builder.fill (Bag.apply (.add item amount))

omit [DecidableEq α] in
def build (builder : Builder α) : Except Error (Bag α) :=
  match builder.refusal with
  | some error => .error error
  | none => .ok builder.bag

end Builder

end Collections
