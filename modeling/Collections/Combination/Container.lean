import Collections.Occurrences.Basic
import Collections.SegmentedList.Basic

/-! Containers that can be filled from a sequence and read as one. -/

set_option autoImplicit false

namespace Collections

structure Container (γ ε : Type) where
  empty : γ
  elements : γ → List ε
  extend : γ → List ε → γ

namespace Container

variable {ε κ ν : Type}

def sequence : Container (List ε) ε where
  empty := []
  elements := id
  extend items more := items ++ more

/-- A set. Each element is listed once; the order means nothing. -/
def distinct [DecidableEq ε] : Container (List ε) ε where
  empty := []
  elements := id
  extend items more := more.foldl (fun items item => items.insert item) items

def keyed [DecidableEq κ] : Container (Keyed κ ν) (κ × ν) where
  empty := []
  elements := id
  extend filed more := more.foldl (fun filed pair => filed.insert pair.1 pair.2) filed

/-- A segmented list; what is added at once becomes one segment. -/
def segmented : Container (SegmentedList ε) ε where
  empty := .empty
  elements list := list.flat
  extend list more := (list.addAll more).2

def bag [DecidableEq ε] : Container (Occurrences ε) ε where
  empty := .empty
  elements counts := Entries.expand counts.entries
  extend counts more := counts.extend more

end Container

end Collections
