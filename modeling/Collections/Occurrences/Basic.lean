import Collections.Entries.Basic
import Collections.Error

/-! Counted elements: entries together with their total, which is kept up to date and never counted
again.

Checked updates refuse a request that would leave the limits and then change nothing. Clamped updates
never refuse; they insert as much as the limits leave room for.
-/

set_option autoImplicit false

namespace Collections

/-- The most occurrences one element can have, one less than two to the power of sixty-three. -/
def maxCount : Nat := 0x7fff_ffff_ffff_ffff

/-- The most occurrences a bag can hold, one less than two to the power of sixty-four. -/
def maxTotal : Nat := 0xffff_ffff_ffff_ffff

structure Occurrences (α : Type) where
  entries : Entries α
  size : Nat
  deriving DecidableEq

namespace Occurrences

variable {α : Type} [DecidableEq α]

def empty : Occurrences α := ⟨[], 0⟩

def countOf (counts : Occurrences α) (item : α) : Nat :=
  counts.entries.countOf item

omit [DecidableEq α] in
def distinct (counts : Occurrences α) : Nat :=
  counts.entries.length

omit [DecidableEq α] in
def isEmpty (counts : Occurrences α) : Bool :=
  counts.entries.isEmpty

def contains (counts : Occurrences α) (item : α) : Bool :=
  (Entries.items counts.entries).contains item

omit [DecidableEq α] in
def room (counts : Occurrences α) : Nat :=
  min (maxTotal - counts.size) maxCount

/-! ## Checked updates -/

/-- Add occurrences of an element. The answer is whether there were any to add. The total is checked
before the count of the element. -/
def add (counts : Occurrences α) (item : α) (amount : Int) :
    Except Error (Bool × Occurrences α) :=
  if amount < 0 then .error (.negativeOccurrences amount)
  else if amount = 0 then .ok (false, counts)
  else if maxTotal < counts.size + amount.toNat then .error .totalOverflow
  else if maxCount < counts.countOf item + amount.toNat then .error .occurrenceOverflow
  else .ok (true, {
    entries := counts.entries.put item (counts.countOf item + amount.toNat)
    size := counts.size + amount.toNat })

/-- Take away at most this many occurrences of an element. The answer is whether any were taken. -/
def remove (counts : Occurrences α) (item : α) (amount : Int) :
    Except Error (Bool × Occurrences α) :=
  if amount < 0 then .error (.negativeOccurrences amount)
  else if amount = 0 ∨ counts.countOf item = 0 then .ok (false, counts)
  else if amount.toNat < counts.countOf item then .ok (true, {
    entries := counts.entries.put item (counts.countOf item - amount.toNat)
    size := counts.size - amount.toNat })
  else .ok (true, {
    entries := counts.entries.erase item
    size := counts.size - counts.countOf item })

def set (counts : Occurrences α) (item : α) (count : Int) : Except Error (Bool × Occurrences α) :=
  if count < 0 then .error (.negativeOccurrences count)
  else if count = 0 then .ok (counts.countOf item != 0, {
    entries := counts.entries.erase item
    size := counts.size - counts.countOf item })
  else if maxTotal < counts.size - counts.countOf item + count.toNat then .error .totalOverflow
  else if maxCount < count.toNat then .error .occurrenceOverflow
  else .ok (counts.countOf item != count.toNat, {
    entries := counts.entries.put item count.toNat
    size := counts.size - counts.countOf item + count.toNat })

/-- Add all occurrences of another bag. Everything is checked first, the total before the counts. The
answer is whether there were any to add. -/
def merge (counts other : Occurrences α) : Except Error (Bool × Occurrences α) :=
  if maxTotal < counts.size + other.size then .error .totalOverflow
  else if other.entries.any (fun entry => maxCount < counts.countOf entry.1 + entry.2) then
    .error .occurrenceOverflow
  else .ok (!other.isEmpty, {
    entries := other.entries.foldl Entries.bump counts.entries
    size := counts.size + other.size })

/-! ## Updates that are never refused -/

omit [DecidableEq α] in
def retain (counts : Occurrences α) (keep : α × Nat → Bool) : Occurrences α where
  entries := counts.entries.filter keep
  size := counts.size - Entries.total (counts.entries.filter fun entry => !keep entry)

def insertClamped (counts : Occurrences α) (entry : α × Nat) : Occurrences α :=
  let count := min entry.2 (min (counts.room + counts.countOf entry.1) maxCount)
  if count = 0 then counts
  else {
    entries := counts.entries.put entry.1 count
    size := counts.size - counts.countOf entry.1 + count }

/-- Add occurrences of an element, at least one, or the part of them that fits under both limits. -/
def accumulate (counts : Occurrences α) (entry : α × Nat) : Occurrences α :=
  if counts.room = 0 then counts
  else
    let added := min (min entry.2 (maxCount - counts.countOf entry.1)) counts.room
    { entries := counts.entries.put entry.1 (counts.countOf entry.1 + added)
      size := counts.size + added }

def extend (counts : Occurrences α) (items : List α) : Occurrences α :=
  items.foldl (fun counts item => counts.accumulate (item, 1)) counts

def without (counts : Occurrences α) (items : List α) : Occurrences α :=
  items.foldl (fun counts item => {
    entries := counts.entries.erase item
    size := counts.size - counts.countOf item }) counts

/-! ## Making and comparing -/

def ofItems (items : List α) : Occurrences α :=
  empty.extend items

def ofEntries (entries : Entries α) : Occurrences α :=
  entries.foldl insertClamped empty

def ofPairs (pairs : List (α × Int)) : Except Error (Occurrences α) :=
  pairs.foldlM (fun counts pair => (counts.add pair.1 pair.2).map Prod.snd) empty

/-- Insert the pairs with a positive count, clamped, and skip the others. -/
def ofCounts (pairs : List (α × Int)) : Occurrences α :=
  ofEntries ((pairs.filter fun pair => 0 < pair.2).map fun pair => (pair.1, pair.2.toNat))

def same (counts other : Occurrences α) : Bool :=
  counts.size == other.size && counts.distinct == other.distinct &&
    counts.entries.all fun entry => other.countOf entry.1 == entry.2

omit [DecidableEq α] in
/-- A digest that does not depend on the order of the entries: their digests are added up in
sixty-four bits, starting from their number. -/
def digest (digestEntry : α × Nat → UInt64) (counts : Occurrences α) : UInt64 :=
  counts.entries.foldl (fun sum entry => sum + digestEntry entry) (UInt64.ofNat counts.distinct)

end Occurrences

end Collections
