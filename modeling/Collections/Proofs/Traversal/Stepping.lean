import Collections.Proofs.Cursor.Guarded
import Collections.Proofs.SegmentedList.Counted
import Collections.SegmentedList.Traversal

/-! One call on a traversal, from either end, as a call on the plain sequence of what is left.

A guarded call breaks down when it has to count below zero, or to replace an element that the list does not
have. It returns at all only if the number of elements left is that of the segments left.
-/

set_option autoImplicit false

namespace Collections

open Cursor (lower? of_lower?)

inductive End where
  | front
  | back
  deriving DecidableEq

namespace End

variable {α β : Type}

def pick (items : List α) : End → Option α
  | .front => items.head?
  | .back => items.getLast?

def drop (items : List α) : End → List α
  | .front => items.tail
  | .back => items.dropLast

/-- What one of two ends gains when an element comes from the other. -/
def share (side other : End) (item : Option α) : List α :=
  if side = other then item.toList else []

@[simp] theorem share_none (side other : End) : side.share other (none : Option α) = [] :=
  ite_self []

@[simp] theorem reverse_share (side other : End) (item : Option α) :
    (side.share other item).reverse = side.share other item := by
  unfold share
  cases item <;> split <;> rfl

@[simp] theorem length_share_map (side other : End) (item : Option α) (f : α → β) :
    (side.share other (item.map f)).length = (side.share other item).length := by
  unfold share
  cases item <;> split <;> rfl

@[simp] theorem pick_nil (side : End) : side.pick ([] : List α) = none := by
  cases side <;> rfl

@[simp] theorem drop_nil (side : End) : side.drop ([] : List α) = [] := by
  cases side <;> rfl

theorem pick_eq_none_iff {items : List α} (side : End) : side.pick items = none ↔ items = [] := by
  cases side with
  | front => exact List.head?_eq_none_iff
  | back => exact List.getLast?_eq_none_iff

theorem length_drop_of_pick {items : List α} {side : End} {item : α}
    (picked : side.pick items = some item) : items.length = (side.drop items).length + 1 := by
  have some : items ≠ [] := by
    rintro rfl
    rw [pick_nil] at picked
    cases picked
  have positive := List.length_pos_of_ne_nil some
  cases side with
  | front => rw [drop, List.length_tail]; omega
  | back => rw [drop, List.length_dropLast]; omega

/-- The element at an end and what is left make up the whole. -/
theorem share_pick (side : End) (items : List α) :
    side.share .front (side.pick items) ++ side.drop items ++ side.share .back (side.pick items) =
      items := by
  cases side with
  | front => cases items <;> simp [share, pick, drop]
  | back =>
    rcases List.eq_nil_or_concat items with rfl | ⟨init, last, rfl⟩ <;> simp [share, pick, drop]

/-- What is between two parts goes over to them one element at a time. -/
theorem append_share_pick (side : End) (front items back : List α) :
    (front ++ side.share .front (side.pick items)) ++ side.drop items ++
      (side.share .back (side.pick items) ++ back) = front ++ items ++ back := by
  conv => rhs; rw [← side.share_pick items]
  simp only [List.append_assoc]

end End

namespace Traversal

variable {α : Type} {traversal : Traversal α} {items : List α}

def take (pending : List (List α)) : End → Option (α × List (List α))
  | .front => takeFirst pending
  | .back => takeLast pending

def step (traversal : Traversal α) : End → Option α × Traversal α
  | .front => traversal.next
  | .back => traversal.nextBack

theorem step_eq (traversal : Traversal α) (side : End) :
    traversal.step side = traversal.proceed (take traversal.pending side) := by
  cases side <;> rfl

def call (traversal : Traversal α) (side : End) : Attempt (Traversal α) (Option α) :=
  let (item, left) := traversal.step side
  ⟨.ok item, left⟩

/-! ## Guards -/

/-- `step`, where one more element must be counted than there are afterwards. -/
def step? (traversal : Traversal α) (side : End) : Option (Option α × Traversal α) :=
  match take traversal.pending side with
  | none => some (none, { traversal with pending := [] })
  | some (item, pending) =>
    (lower? traversal.remaining).map fun remaining => (some item, ⟨pending, remaining⟩)

def call? (traversal : Traversal α) (side : End) : Option (Attempt (Traversal α) (Option α)) :=
  (traversal.step? side).map fun (item, left) => ⟨.ok item, left⟩

theorem step_of_guarded {side : End} {taken : Option α × Traversal α}
    (returned : traversal.step? side = some taken) : traversal.step side = taken := by
  rw [step_eq]
  unfold step? at returned
  cases found : take traversal.pending side with
  | none =>
    rw [found] at returned
    exact Option.some.inj returned
  | some pair =>
    rw [found] at returned
    obtain ⟨remaining, lowered, rfl⟩ := Option.map_eq_some_iff.mp returned
    rw [proceed, of_lower? lowered]

theorem call_of_guarded {side : End} {attempt : Attempt (Traversal α) (Option α)}
    (returned : traversal.call? side = some attempt) : traversal.call side = attempt := by
  obtain ⟨taken, stepped, rfl⟩ := Option.map_eq_some_iff.mp returned
  rw [call, step_of_guarded stepped]

/-! ## One element out of the segments -/

theorem takeFirst_flatten (segments : List (List α)) :
    (takeFirst segments).map (fun (item, left) => (item, left.flatten)) =
      segments.flatten.head?.map fun item => (item, segments.flatten.tail) := by
  fun_induction takeFirst segments with
  | case1 => rfl
  | case2 rest ih => exact ih
  | case3 item segment rest => rfl

-- The last element is that of the segments behind, and only without any there that of the segment itself.
theorem takeLast_flatten (segments : List (List α)) :
    (takeLast segments).map (fun (item, left) => (item, left.flatten)) =
      segments.flatten.getLast?.map fun item => (item, segments.flatten.dropLast) := by
  induction segments with
  | nil => rfl
  | cons segment rest ih =>
    rcases List.eq_nil_or_concat rest.flatten with empty | ⟨init, last, filled⟩
    · rw [empty] at ih
      rw [takeLast, Option.map_eq_none_iff.mp ih, List.flatten_cons, empty, List.append_nil,
        Option.map_map]
      simp [Function.comp_def]
    · rw [filled, List.concat_eq_append, List.getLast?_concat, List.dropLast_concat] at ih
      obtain ⟨⟨item, left⟩, taken, same⟩ := Option.map_eq_some_iff.mp ih
      cases same
      rw [takeLast, taken, List.flatten_cons, filled, List.concat_eq_append, ← List.append_assoc,
        List.getLast?_concat, List.dropLast_concat]
      rfl

theorem take_flatten (segments : List (List α)) (side : End) :
    (take segments side).map (fun (item, left) => (item, left.flatten)) =
      (side.pick segments.flatten).map fun item => (item, side.drop segments.flatten) := by
  cases side with
  | front => exact takeFirst_flatten segments
  | back => exact takeLast_flatten segments

/-! ## One call -/

structure Spans (traversal : Traversal α) (items : List α) : Prop where
  sequence : traversal.pending.flatten = items
  remaining : traversal.remaining = items.length

theorem spans_start {list : SegmentedList α} (counted : list.Counted) :
    Spans (.start list) list.flat :=
  ⟨rfl, counted⟩

theorem Spans.step (spans : Spans traversal items) (side : End) :
    ∃ left, traversal.step? side = some (side.pick items, left) ∧ Spans left (side.drop items) := by
  have taken := take_flatten traversal.pending side
  rw [spans.sequence] at taken
  unfold step?
  cases picked : side.pick items with
  | none =>
    rw [picked] at taken
    rw [Option.map_eq_none_iff.mp taken]
    obtain rfl := (End.pick_eq_none_iff side).mp picked
    rw [End.drop_nil]
    exact ⟨_, rfl, rfl, spans.remaining⟩
  | some item =>
    rw [picked] at taken
    obtain ⟨⟨_, left⟩, found, same⟩ := Option.map_eq_some_iff.mp taken
    obtain ⟨rfl, left_flatten⟩ := Prod.mk.inj same
    have fewer : traversal.remaining = (side.drop items).length + 1 := by
      rw [spans.remaining, End.length_drop_of_pick picked]
    rw [found, fewer]
    exact ⟨_, rfl, left_flatten, rfl⟩

theorem Spans.call (spans : Spans traversal items) (side : End) :
    ∃ left, traversal.call? side = some ⟨.ok (side.pick items), left⟩ ∧
      Spans left (side.drop items) := by
  obtain ⟨left, stepped, spans⟩ := spans.step side
  exact ⟨left, by rw [call?, stepped]; rfl, spans⟩

end Traversal

namespace SegmentedList

variable {α : Type} {list : SegmentedList α}

theorem flatten_indexFrom (start : Nat) (segments : List (List α)) :
    (indexFrom start segments).flatten = segments.flatten.zipIdx start := by
  induction segments generalizing start with
  | nil => rfl
  | cons segment rest ih => rw [indexFrom, List.flatten_cons, ih, List.flatten_cons, List.zipIdx_append]

theorem flat_indexed (list : SegmentedList α) : list.indexed.flat = list.flat.zipIdx :=
  flatten_indexFrom 0 list.segments

theorem Counted.indexed (counted : list.Counted) : list.indexed.Counted := by
  rw [Counted, flat_indexed, List.length_zipIdx]
  exact counted

theorem Counted.set_middle (counted : list.Counted) {before after : List α} {old : α}
    (split : list.flat = before ++ old :: after) (new : α) :
    ∃ changed, list.set before.length new = .ok (old, changed) ∧ changed.Counted ∧
      changed.flat = before ++ new :: after := by
  have tracks := counted.set before.length new
  have plain : Plain.set list.flat before.length new = ⟨.ok old, before ++ new :: after⟩ := by
    rw [split, Plain.set, Plain.modify, Plain.get, getElem?_middle,
      List.set_append_right _ _ (Nat.le_refl _), Nat.sub_self, List.set_cons_zero]
    rfl
  rw [plain] at tracks
  cases done : list.set before.length new with
  | error error =>
    rw [done] at tracks
    cases tracks.answer
  | ok answer =>
    rw [done] at tracks
    obtain ⟨value, changed⟩ := answer
    cases tracks.answer
    exact ⟨changed, rfl, tracks.counted, tracks.sequence⟩

end SegmentedList

namespace Revision

variable {α : Type} {revision : Revision α} {before left after : List α}

def call (revision : Revision α) (change : End × (α → α)) : Attempt (Revision α) (Option α) :=
  let (answer, revision) := revision.replace change.2 (·.step change.1)
  ⟨.ok answer, revision⟩

def replace? (revision : Revision α) (f : α → α) :
    Option (α × Nat) × Traversal (α × Nat) → Option (Option α × Revision α)
  | (none, traversal) => some (none, { revision with traversal })
  | (some (item, index), traversal) =>
    match revision.list.set index (f item) with
    | .error _ => none
    | .ok (_, list) => some (some (f item), ⟨list, traversal⟩)

def call? (revision : Revision α) (change : End × (α → α)) :
    Option (Attempt (Revision α) (Option α)) :=
  ((revision.traversal.step? change.1).bind (revision.replace? change.2)).map
    fun (answer, revision) => ⟨.ok answer, revision⟩

theorem call_of_guarded {change : End × (α → α)} {attempt : Attempt (Revision α) (Option α)}
    (returned : revision.call? change = some attempt) : revision.call change = attempt := by
  obtain ⟨⟨answer, next⟩, replaced, rfl⟩ := Option.map_eq_some_iff.mp returned
  obtain ⟨⟨taken, traversal⟩, stepped, put⟩ := Option.bind_eq_some_iff.mp replaced
  rw [call, replace, Traversal.step_of_guarded stepped]
  cases taken with
  | none =>
    cases put
    rfl
  | some pair =>
    obtain ⟨item, index⟩ := pair
    simp only [replace?] at put
    split at put
    · cases put
    · rename_i found
      cases put
      simp only [found]
      rfl

structure Parts (revision : Revision α) (before left after : List α) : Prop where
  counted : revision.list.Counted
  sequence : revision.list.flat = before ++ left ++ after
  spans : revision.traversal.Spans (left.zipIdx before.length)

theorem parts_start {list : SegmentedList α} (counted : list.Counted) :
    Parts (.start list) [] list.flat [] where
  counted := counted
  sequence := by simp [start]
  spans := by
    have spans := Traversal.spans_start counted.indexed
    rw [SegmentedList.flat_indexed] at spans
    exact spans

theorem replace?_middle (counted : revision.list.Counted) {item : α}
    (split : revision.list.flat = before ++ item :: after) (traversal : Traversal (α × Nat))
    (f : α → α) :
    ∃ list, revision.replace? f (some (item, before.length), traversal) =
        some (some (f item), ⟨list, traversal⟩) ∧
      list.Counted ∧ list.flat = before ++ f item :: after := by
  obtain ⟨changed, put, counted, sequence⟩ := counted.set_middle split (f item)
  exact ⟨changed, by rw [replace?, put], counted, sequence⟩

-- From the front the element is the first of those left, from the back the last, and its index is the
-- number of elements that stand before it in the list by now.
theorem Parts.call (parts : Parts revision before left after) (side : End) (f : α → α) :
    ∃ next, revision.call? (side, f) = some ⟨.ok ((side.pick left).map f), next⟩ ∧
      Parts next (before ++ side.share .front ((side.pick left).map f)) (side.drop left)
        (side.share .back ((side.pick left).map f) ++ after) := by
  obtain ⟨counted, sequence, spans⟩ := parts
  obtain ⟨traversal, stepped, spans⟩ := spans.step side
  rw [call?, stepped, Option.bind_some]
  cases side with
  | front =>
    cases left with
    | nil => exact ⟨_, rfl, counted, by simpa using sequence, by simpa using spans⟩
    | cons item rest =>
      rw [List.append_assoc] at sequence
      obtain ⟨list, put, counted, sequence⟩ := replace?_middle counted sequence traversal f
      refine ⟨⟨list, traversal⟩, ?_, counted, ?_, ?_⟩
      · rw [show End.front.pick ((item :: rest).zipIdx before.length) = some (item, before.length)
          from rfl, put]
        rfl
      · simp [sequence, End.share, End.pick, End.drop]
      · simpa [End.share, End.pick, End.drop] using spans
  | back =>
    rcases List.eq_nil_or_concat left with rfl | ⟨init, last, rfl⟩
    · exact ⟨_, rfl, counted, by simpa using sequence, by simpa using spans⟩
    · rw [List.concat_eq_append, ← List.append_assoc, List.append_assoc] at sequence
      obtain ⟨list, put, counted, sequence⟩ := replace?_middle counted sequence traversal f
      have picked : End.back.pick ((init.concat last).zipIdx before.length) =
          some (last, (before ++ init).length) := by
        simp [End.pick, List.zipIdx_append]
      refine ⟨⟨list, traversal⟩, ?_, counted, ?_, ?_⟩
      · rw [picked, put]
        simp [End.pick]
      · simp [sequence, End.share, End.pick, End.drop]
      · simpa [End.share, End.drop, List.zipIdx_append] using spans

end Revision

end Collections
