import Collections.Proofs.Bag.Transparent

/-! Sound bags: what is counted at the bottom is valid, and every parallel layer has batches that hold
something. No call at the top of a stack changes that.
-/

set_option autoImplicit false

namespace Collections

namespace Batching

theorem size_of_check {size : Nat} (checked : checkSize size = .ok ()) : 1 ≤ size := by
  unfold checkSize at checked
  split at checked
  · cases checked
  · exact Nat.pos_of_ne_zero ‹_›

theorem batchSize_of_make {executor : Executor} {settings : BatchSettings} {made : Batching}
    (accepted : make executor settings = .ok made) : 1 ≤ made.settings.batchSize := by
  rw [make] at accepted
  cases checked : checkSize settings.batchSize with
  | error error =>
    rw [checked] at accepted
    cases accepted
  | ok _ =>
    have positive := size_of_check checked
    rw [checked] at accepted
    cases valid : Settings.check settings with
    | error error =>
      rw [valid] at accepted
      cases accepted
    | ok _ =>
      rw [valid] at accepted
      cases accepted
      exact positive

end Batching

namespace Bag

variable {α : Type}

def WellBatched : Bag α → Prop
  | .plain _ | .frozen _ _ => True
  | .sorted _ inner | .readOnly inner | .shared _ inner => inner.WellBatched
  | .parallel batching inner => 1 ≤ batching.settings.batchSize ∧ inner.WellBatched

@[simp] theorem wellBatched_refilled (bag : Bag α) (counts : Occurrences α) :
    (bag.refilled counts).WellBatched ↔ bag.WellBatched := by
  induction bag with
  | plain _ => exact Iff.rfl
  | frozen _ _ => exact Iff.rfl
  | sorted _ inner ih => exact ih
  | readOnly inner ih => exact ih
  | shared _ inner ih => exact ih
  | parallel batching inner ih => exact and_congr_right fun _ => ih

structure Sound (bag : Bag α) : Prop where
  valid : bag.contents.Valid
  batched : bag.WellBatched

/-- The same layers, over counted elements that are valid if those before were. -/
structure Edited (bag after : Bag α) : Prop where
  layers : after = bag.refilled after.contents
  valid : bag.contents.Valid → after.contents.Valid

theorem Sound.edited {bag after : Bag α} (sound : bag.Sound) (edited : Edited bag after) :
    after.Sound where
  valid := edited.valid sound.valid
  batched := by
    rw [edited.layers, wellBatched_refilled]
    exact sound.batched

/-! ## Calls -/

theorem Edited.refl (bag : Bag α) : Edited bag bag where
  layers := (refilled_contents bag).symm
  valid := id

theorem Edited.trans {bag middle after : Bag α} (first : Edited bag middle)
    (second : Edited middle after) : Edited bag after where
  layers := by
    have outer := second.layers
    rw [first.layers, refilled_refilled] at outer
    exact outer
  valid valid := second.valid (first.valid valid)

/-- A layer that a change passes through stays over what the change leaves. -/
theorem Edited.under {inner after : Bag α} {layer : Bag α → Bag α} (edited : Edited inner after)
    (contents : ∀ bag, (layer bag).contents = bag.contents)
    (refilled : ∀ bag counts, (layer bag).refilled counts = layer (bag.refilled counts)) :
    Edited (layer inner) (layer after) where
  layers := by
    rw [refilled, contents]
    exact congrArg layer edited.layers
  valid valid := by
    rw [contents] at valid ⊢
    exact edited.valid valid

variable [DecidableEq α]

theorem apply_edited (change : Change α) (bag : Bag α) : Edited bag (bag.apply change).state := by
  induction bag with
  | plain counts => exact ⟨rfl, fun valid => valid.attempt change⟩
  | frozen storage counts => exact .refl _
  | readOnly inner => exact .refl _
  | sorted order inner ih => exact ih.under (fun _ => rfl) fun _ _ => rfl
  | shared cell inner ih => exact ih.under (fun _ => rfl) fun _ _ => rfl
  | parallel batching inner ih => exact ih.under (fun _ => rfl) fun _ _ => rfl

/-! Every call is made of changes, one after the other, and shared layers hand it on. So what is known of a bag
and what one change leaves of it is known of any call. -/

section Keeps

variable (related : Bag α → Bag α → Prop) (refl : ∀ bag, related bag bag)
  (trans : ∀ bag middle after, related bag middle → related middle after → related bag after)
  (shared : ∀ cell inner after, related inner after → related (.shared cell inner) (.shared cell after))
  (apply : ∀ change bag, related bag (Bag.apply change bag).state)

include refl trans apply in
theorem anyChange_keeps {β : Type} (change : β → Bag α → Change α) (items : List β) (bag : Bag α) :
    related bag (Attempt.anyChange (fun item bag => bag.apply (change item bag)) items bag).state := by
  have kept (item : β) (state : Bag α) (earlier : related bag state) :
      related bag (state.apply (change item state)).state :=
    trans _ _ _ earlier (apply _ state)
  exact Attempt.traverse_keeps kept items (refl bag)

omit [DecidableEq α] in
include refl shared in
theorem bulk_keeps {operation : String} {run : Bag α → Attempt (Bag α) Bool}
    (kept : ∀ bag, related bag (run bag).state) (bag : Bag α) :
    related bag (bag.bulk operation run).state := by
  induction bag with
  | readOnly inner => exact refl _
  | shared cell inner ih => exact shared cell inner _ ih
  | _ => exact kept _

include refl trans shared apply in
theorem perform_keeps (call : Call α) (bag : Bag α) : related bag (bag.perform call).state := by
  have bulk {β : Type} (operation : String) (change : β → Bag α → Change α) (items : Bag α → List β) :
      related bag (bag.bulk operation fun bag =>
        Attempt.anyChange (fun item bag => bag.apply (change item bag)) (items bag) bag).state :=
    bulk_keeps related refl shared
      (fun bag => anyChange_keeps related refl trans apply change (items bag) bag) bag
  cases call with
  | addAll items => exact bulk "add_all" (fun item _ => .add item 1) fun _ => items
  | removeAll items =>
    exact bulk "remove_all" (fun item bag => .remove item (bag.countOf item)) fun _ => items
  | removeIf unwanted =>
    exact bulk "remove_if" (fun (entry : α × Nat) _ => .remove entry.1 entry.2)
      fun bag => bag.entries.filter unwanted
  | _ => exact apply _ bag

end Keeps

/-- No call changes a layer or makes the counted elements invalid, whether it is accepted or not. -/
theorem perform_edited (call : Call α) (bag : Bag α) : Edited bag (bag.perform call).state := by
  apply perform_keeps
  case refl => exact .refl
  case trans => exact fun _ _ _ => .trans
  case shared => exact fun _ _ _ edited => edited.under (fun _ => rfl) fun _ _ => rfl
  case apply => exact apply_edited

theorem Sound.perform {bag : Bag α} (sound : bag.Sound) (call : Call α) :
    (bag.perform call).state.Sound :=
  sound.edited (perform_edited call bag)

end Bag

end Collections
