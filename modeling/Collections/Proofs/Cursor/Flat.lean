import Collections.Proofs.Cursor.Guarded

/-! A cursor over a plain sequence: the elements before it, those after it, and which of its two
neighbours it passed over last.
-/

set_option autoImplicit false

namespace Collections

/-- A cursor between two elements of a plain sequence. A neighbour is remembered at most once, so it is
set apart from the elements beyond it. -/
inductive FlatCursor (α : Type) where
  | fresh (before after : List α)
  | left (before : List α) (item : α) (after : List α)
  | right (before : List α) (item : α) (after : List α)

inductive Side where
  | left
  | right
  deriving DecidableEq

namespace FlatCursor

variable {α : Type}

def before : FlatCursor α → List α
  | .fresh before _ => before
  | .left before item _ => before ++ [item]
  | .right before _ _ => before

def after : FlatCursor α → List α
  | .fresh _ after => after
  | .left _ _ after => after
  | .right _ item after => item :: after

def last : FlatCursor α → Option Side
  | .fresh _ _ => none
  | .left _ _ _ => some .left
  | .right _ _ _ => some .right

def next (flat : FlatCursor α) : Attempt (FlatCursor α) α :=
  match flat.after with
  | [] => ⟨.error .atEnd, flat⟩
  | item :: after => ⟨.ok item, .left flat.before item after⟩

def previous (flat : FlatCursor α) : Attempt (FlatCursor α) α :=
  match flat.before.getLast? with
  | none => ⟨.error .atStart, flat⟩
  | some item => ⟨.ok item, .right flat.before.dropLast item flat.after⟩

def remove : FlatCursor α → Attempt (FlatCursor α) α
  | .fresh before after => ⟨.error (.nothingRemembered "remove"), .fresh before after⟩
  | .left before item after => ⟨.ok item, .fresh before after⟩
  | .right before item after => ⟨.ok item, .fresh before after⟩

def set (flat : FlatCursor α) (item : α) : Attempt (FlatCursor α) α :=
  match flat with
  | .fresh before after => ⟨.error (.nothingRemembered "set"), .fresh before after⟩
  | .left before old after => ⟨.ok old, .left before item after⟩
  | .right before old after => ⟨.ok old, .right before item after⟩

def add (flat : FlatCursor α) (item : α) : FlatCursor α :=
  .fresh (flat.before ++ [item]) flat.after

def call (flat : FlatCursor α) : CursorCall α → Attempt (FlatCursor α) (CursorAnswer α)
  | .hasNext => ⟨.ok (.flag !flat.after.isEmpty), flat⟩
  | .next => flat.next.map .item
  | .hasPrevious => ⟨.ok (.flag !flat.before.isEmpty), flat⟩
  | .previous => flat.previous.map .item
  | .nextIndex => ⟨.ok (.index flat.before.length), flat⟩
  | .previousIndex =>
    ⟨.ok (.maybeIndex (if flat.before.isEmpty then none else some (flat.before.length - 1))), flat⟩
  | .remove => flat.remove.map .item
  | .set item => (flat.set item).map .item
  | .add item => ⟨.ok .done, flat.add item⟩

def refusal (flat : FlatCursor α) : CursorCall α → Option Error
  | .next => if flat.after.isEmpty then some .atEnd else none
  | .previous => if flat.before.isEmpty then some .atStart else none
  | .remove => if flat.last.isNone then some (.nothingRemembered "remove") else none
  | .set _ => if flat.last.isNone then some (.nothingRemembered "set") else none
  | _ => none

section Neighbours

variable (before after : List α) (item : α)

@[simp] theorem before_fresh : (fresh before after).before = before := rfl

@[simp] theorem before_left : (left before item after).before = before ++ [item] := rfl

@[simp] theorem before_right : (right before item after).before = before := rfl

@[simp] theorem after_fresh : (fresh before after).after = after := rfl

@[simp] theorem after_left : (left before item after).after = after := rfl

@[simp] theorem after_right : (right before item after).after = item :: after := rfl

end Neighbours

theorem answer_next (flat : FlatCursor α) (error : Error) :
    flat.next.answer = .error error ↔ flat.after = [] ∧ .atEnd = error := by
  unfold next
  cases flat.after with
  | nil => simp
  | cons item after => simp

theorem answer_previous (flat : FlatCursor α) (error : Error) :
    flat.previous.answer = .error error ↔ flat.before = [] ∧ .atStart = error := by
  unfold previous
  cases reached : flat.before.getLast? with
  | none => simp [List.getLast?_eq_none_iff.mp reached]
  | some item => simp [List.ne_nil_of_mem (List.mem_of_getLast? reached)]

theorem refused_iff (flat : FlatCursor α) (call : CursorCall α) (error : Error) :
    (flat.call call).answer = .error error ↔ flat.refusal call = some error := by
  cases call with
  | next => rw [FlatCursor.call, Attempt.map_refused, answer_next]; simp [refusal]
  | previous => rw [FlatCursor.call, Attempt.map_refused, answer_previous]; simp [refusal]
  | remove => rw [FlatCursor.call, Attempt.map_refused]; cases flat <;> simp [remove, refusal, last]
  | set item => rw [FlatCursor.call, Attempt.map_refused]; cases flat <;> simp [set, refusal, last]
  | hasNext => simp [FlatCursor.call, refusal]
  | hasPrevious => simp [FlatCursor.call, refusal]
  | nextIndex => simp [FlatCursor.call, refusal]
  | previousIndex => simp [FlatCursor.call, refusal]
  | add item => simp [FlatCursor.call, refusal]

end FlatCursor

end Collections
