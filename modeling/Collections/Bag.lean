import Collections.Bag.Batched
import Collections.Bag.Builder
import Collections.Bag.Frozen
import Collections.Bag.Hashing
import Collections.Bag.LiveWalk
import Collections.Bag.Order
import Collections.Bag.Shelf
import Collections.Bag.Text

/-! Bags and their layers: changes, reads, live walks, builders and shelves of named bags. -/
