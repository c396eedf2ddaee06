import Collections.Bag.Basic

/-! Bags as keys: what of a bag is hashed, and when two keys are the same.

Only bags without layers are keys. Both kinds of them are hashed, but a bag is compared with one of its own
kind.
-/

set_option autoImplicit false

namespace Collections

structure Hasher (η : Type) where
  takeSize : η → Nat → η
  takeDigest : η → UInt64 → η

variable {α η : Type}

/-- Give a hasher the size of a bag, which is kept and not counted again, and the digest of its entries. -/
def Occurrences.feed (hasher : Hasher η) (digestEntry : α × Nat → UInt64) (counts : Occurrences α)
    (state : η) : η :=
  hasher.takeDigest (hasher.takeSize state counts.size) (counts.digest digestEntry)

namespace Bag

def feed? (hasher : Hasher η) (digestEntry : α × Nat → UInt64) (state : η) : Bag α → Option η
  | .plain counts | .frozen _ counts => some (counts.feed hasher digestEntry state)
  | .sorted _ _ | .readOnly _ | .shared _ _ | .parallel _ _ => none

/-- Whether two keys are the same. Copies from one storage are, before their entries are looked at. -/
def sameKey? [DecidableEq α] : Bag α → Bag α → Option Bool
  | .plain counts, .plain others => some (counts.same others)
  | .frozen storage counts, .frozen other others => some (storage == other || counts.same others)
  | _, _ => none

end Bag

end Collections
