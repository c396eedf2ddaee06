import Collections.Combination.Container

/-! Containers filled from a segmented list, in the order of its sequence. -/

set_option autoImplicit false

namespace Collections.SegmentedList

variable {α β γ : Type}

def selectInto (list : SegmentedList α) (wanted : α → Bool) (container : Container γ α)
    (target : γ) : γ :=
  container.extend target (list.flat.filter wanted)

def rejectInto (list : SegmentedList α) (unwanted : α → Bool) (container : Container γ α)
    (target : γ) : γ :=
  list.selectInto (fun item => !unwanted item) container target

def collectInto (list : SegmentedList α) (f : α → β) (container : Container γ β) (target : γ) : γ :=
  container.extend target (list.flat.map f)

def flatCollectInto (list : SegmentedList α) (f : α → List β) (container : Container γ β)
    (target : γ) : γ :=
  container.extend target (list.flat.flatMap f)

def select (list : SegmentedList α) (wanted : α → Bool) : List α :=
  list.selectInto wanted .sequence []

def reject (list : SegmentedList α) (unwanted : α → Bool) : List α :=
  list.rejectInto unwanted .sequence []

def collect (list : SegmentedList α) (f : α → β) : List β :=
  list.collectInto f .sequence []

def flatCollect (list : SegmentedList α) (f : α → List β) : List β :=
  list.flatCollectInto f .sequence []

end Collections.SegmentedList
