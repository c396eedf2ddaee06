import Collections.Bag.Basic
import Collections.Entries.Text

/-! Written forms of bags. -/

set_option autoImplicit false

namespace Collections.Bag

variable {α : Type}

def text (render : α → String) (bag : Bag α) : String :=
  Entries.text render bag.entries

def inspectSettings (settings : BatchSettings) : String :=
  s!"ParallelConfig \x7b batch_size: {settings.batchSize}, min_parallel_entries: {settings.minEntries} \x7d"

def inspect (literal : α → String) : Bag α → String
  | .plain counts => s!"HashBag \x7b items: {Entries.inspect literal counts.entries} \x7d"
  | .frozen _ counts => s!"ImmutableBag \x7b items: {Entries.inspect literal counts.entries} \x7d"
  | .sorted _ inner => s!"SortedBag({inspect literal inner})"
  | .readOnly inner => s!"UnmodifiableBag({inspect literal inner})"
  | .shared _ inner => s!"SynchronizedBag({inspect literal inner})"
  | .parallel batching inner =>
    let delegate := inspect literal inner
    let config := inspectSettings batching.settings
    s!"ParallelBag \x7b delegate: {delegate}, config: {config} \x7d"

end Collections.Bag
