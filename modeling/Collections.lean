import Collections.Bag
import Collections.Entries
import Collections.SegmentedList
import Collections.Settings.File
import Collections.Version
import Collections.Proofs.Occurrences.Walking
import Collections.Proofs.SegmentedList.Resolving
import Collections.Proofs.SegmentedList.Searching
import Collections.Proofs.SegmentedList.Sections
import Collections.Proofs.Traversal.BothEnds
import Collections.Proofs.Bag.Collecting
import Collections.Proofs.Bag.Guarded
import Collections.Proofs.Bag.Extending
import Collections.Proofs.Bag.FromMap
import Collections.Proofs.Bag.Building
import Collections.Proofs.Bag.Undisturbed
import Collections.Proofs.Bag.Ends
import Collections.Proofs.Bag.Handover
import Collections.Proofs.Bag.Visiting
import Collections.Proofs.Bag.Folding
import Collections.Proofs.Bag.Hashing
import Collections.Proofs.Combination.Totals
import Collections.Proofs.Combination.Containers
