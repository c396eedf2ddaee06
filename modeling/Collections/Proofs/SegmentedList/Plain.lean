import Collections.Proofs.Calls
import Collections.Proofs.StableSort

/-! Calls on a plain sequence, which is what a segmented list stands for. -/

set_option autoImplicit false

namespace Collections

inductive ListAnswer (α ρ : Type) where
  | done
  | item (value : α)
  | changed (old new : α)
  | flag (value : Bool)
  | edited (answer : ρ)

inductive PlainCall (α ρ : Type) where
  | append (items : List α)
  | appendAny (items : List α)
  | push (item : α)
  | insert (index : Nat) (item : α)
  | remove (index : Nat)
  | set (index : Nat) (item : α)
  | modify (index : Nat) (change : α → α)
  | removeFirst (item : α)
  | keep (wanted : α → Bool)
  | replace (f : α → α)
  | sort (order : WeakOrder α)
  | reverse
  | nothing
  | clear
  -- The elements from a start on, as many as the length says, are handed to the edit.
  | splice (start length : Nat) (edit : List α → ρ × List α)
  | refuse (error : Error)

namespace Plain

variable {α ρ : Type}

def get (items : List α) (index : Nat) : Except Error α :=
  match items[index]? with
  | none => .error (.outOfBounds index items.length)
  | some item => .ok item

def insert (items : List α) (index : Nat) (item : α) : Attempt (List α) (ListAnswer α ρ) :=
  if index ≤ items.length then ⟨.ok .done, items.insertIdx index item⟩
  else ⟨.error (.outOfBounds index items.length), items⟩

def remove (items : List α) (index : Nat) : Attempt (List α) α :=
  .ofExcept items ((get items index).map fun item => (item, items.eraseIdx index))

def modify (items : List α) (index : Nat) (change : α → α) : Attempt (List α) (α × α) :=
  .ofExcept items ((get items index).map fun item =>
    ((item, change item), items.set index (change item)))

def set (items : List α) (index : Nat) (item : α) : Attempt (List α) α :=
  (modify items index fun _ => item).map Prod.fst

def splice (items : List α) (start length : Nat) (edit : List α → ρ × List α) :
    Attempt (List α) ρ :=
  let (answer, edited) := edit ((items.drop start).take length)
  ⟨.ok answer, items.take start ++ edited ++ items.drop (start + length)⟩

def call [BEq α] (items : List α) : PlainCall α ρ → Attempt (List α) (ListAnswer α ρ)
  | .append more => ⟨.ok .done, items ++ more⟩
  | .appendAny more => ⟨.ok (.flag !more.isEmpty), items ++ more⟩
  | .push item => ⟨.ok .done, items ++ [item]⟩
  | .insert index item => insert items index item
  | .remove index => (remove items index).map .item
  | .set index item => (set items index item).map .item
  | .modify index change => (modify items index change).map fun (old, new) => .changed old new
  | .removeFirst item => ⟨.ok (.flag (items.any (· == item))), items.eraseP (· == item)⟩
  | .keep wanted => ⟨.ok (.flag (items.any fun item => !wanted item)), items.filter wanted⟩
  | .replace f => ⟨.ok .done, items.map f⟩
  | .sort order => ⟨.ok .done, items.mergeSort order.le⟩
  | .reverse => ⟨.ok .done, items.reverse⟩
  | .nothing => ⟨.ok .done, items⟩
  | .clear => ⟨.ok .done, []⟩
  | .splice start length edit => (splice items start length edit).map .edited
  | .refuse error => ⟨.error error, items⟩

def refusal (length : Nat) : PlainCall α ρ → Option Error
  | .insert index _ => if length < index then some (.outOfBounds index length) else none
  | .remove index | .set index _ | .modify index _ =>
    if length ≤ index then some (.outOfBounds index length) else none
  | .refuse error => some error
  | _ => none

theorem get_refused (items : List α) (index : Nat) (error : Error) :
    get items index = .error error ↔
      items.length ≤ index ∧ .outOfBounds index items.length = error := by
  unfold get
  cases found : items[index]? with
  | none => simp [List.getElem?_eq_none_iff.mp found]
  | some item =>
    have inside : index < items.length := (List.getElem?_eq_some_iff.mp found).1
    simp [Nat.not_le.mpr inside]

theorem call_refused [BEq α] (items : List α) (call : PlainCall α ρ) (error : Error) :
    (Plain.call items call).answer = .error error ↔ refusal items.length call = some error := by
  -- Three calls look an element up first and are refused with the look-up.
  have looked {β : Type} (index : Nat) (use : α → β × List α) :
      (Attempt.ofExcept items ((get items index).map use)).answer = .error error ↔
        items.length ≤ index ∧ .outOfBounds index items.length = error := by
    rw [← get_refused]
    cases get items index <;> simp [Attempt.ofExcept, Except.map]
  cases call with
  | insert index item =>
    by_cases inside : index ≤ items.length
    · simp [call, insert, refusal, inside, Nat.not_lt.mpr inside]
    · simp [call, insert, refusal, inside, Nat.not_le.mp inside]
  | remove index => simp [call, remove, refusal, looked]
  | set index item => simp [call, set, modify, refusal, looked]
  | modify index change => simp [call, modify, refusal, looked]
  | refuse _ => simp [call, refusal]
  | splice start length edit => simp [call, splice, Attempt.map, Except.map, refusal]
  | _ => simp [call, refusal]

theorem map_ne_flag {β : Type} {attempt : Attempt (List α) β} {f : β → ListAnswer α ρ}
    {value : Bool} (other : ∀ answer value, f answer ≠ .flag value) :
    (attempt.map f).answer ≠ .ok (.flag value) := by
  simp only [Attempt.map]
  cases attempt.answer with
  | error error => simp [Except.map]
  | ok answer =>
    intro flagged
    exact other answer value (Except.ok.inj flagged)

/-- A flag tells whether the sequence is another one afterwards. -/
theorem flag_iff [BEq α] {items : List α} {call : PlainCall α ρ} {value : Bool}
    (answered : (Plain.call items call).answer = .ok (.flag value)) :
    value = true ↔ (Plain.call items call).state ≠ items := by
  cases call with
  | appendAny more =>
    cases answered
    cases more <;> simp [call]
  | removeFirst item =>
    cases answered
    show _ ↔ items.eraseP (· == item) ≠ items
    cases present : items.any (· == item) with
    | true =>
      obtain ⟨first, member, equal⟩ := List.any_eq_true.mp present
      have shorter := List.length_eraseP_of_mem (p := (· == item)) member equal
      have some := List.length_pos_of_mem member
      -- The sequence loses an element, so it cannot be the same.
      refine iff_of_true rfl fun same => ?_
      rw [same] at shorter
      omega
    | false =>
      rw [List.eraseP_of_forall_not (List.any_eq_false.mp present)]
      simp
  | keep wanted =>
    cases answered
    show _ ↔ items.filter wanted ≠ items
    rw [ne_eq, List.filter_eq_self, List.any_eq_true]
    simp
  | insert index item =>
    have answered : (insert items index item).answer = .ok (.flag value) := answered
    rw [insert] at answered
    split at answered <;> cases answered
  | remove index => exact absurd answered (map_ne_flag (by rintro _ _ ⟨⟩))
  | set index item => exact absurd answered (map_ne_flag (by rintro _ _ ⟨⟩))
  | modify index change => exact absurd answered (map_ne_flag (by rintro _ _ ⟨⟩))
  | splice start length edit => exact absurd answered (map_ne_flag (by rintro _ _ ⟨⟩))
  | _ => cases answered

end Plain

end Collections
