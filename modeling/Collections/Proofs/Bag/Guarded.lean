import Collections.Proofs.Bag.Calls

/-! Stacks with a read-only layer. Whatever is called at the top, nothing in the stack changes, and every
call that has something to do is refused.

The layers above the read-only one make a change of many elements one after the other, so there the first
one is refused; a run over none has nothing that could be.
-/

set_option autoImplicit false

namespace Collections

variable {α : Type}

def Call.isIdle (bag : Bag α) : Call α → Bool
  | .addAll items | .removeAll items => items.isEmpty
  | .removeIf unwanted => (bag.entries.filter unwanted).isEmpty
  | _ => false

namespace Bag

def isGuarded : Bag α → Bool
  | .plain _ | .frozen _ _ => false
  | .readOnly _ => true
  | .sorted _ inner | .shared _ inner | .parallel _ inner => inner.isGuarded

def isReadOnly : Bag α → Bool
  | .readOnly _ => true
  | _ => false

/-- A call that leaves the bag as it is. It is refused, or it had nothing to do and tells of no change. -/
structure Blocked {ρ : Type} (bag : Bag α) (idle : Prop) (unchanged : ρ) (attempt : Attempt (Bag α) ρ) :
    Prop where
  state : attempt.state = bag
  answer : (∃ operation, attempt.answer = .error (.readOnly operation)) ∨
    idle ∧ attempt.answer = .ok unchanged

namespace Blocked

variable {ρ ε : Type} {bag : Bag α} {idle : Prop} {unchanged : ρ} {attempt : Attempt (Bag α) ρ}

theorem within (blocked : Blocked bag idle unchanged attempt) (layer : Bag α → Bag α) :
    Blocked (layer bag) idle unchanged (attempt.within layer) :=
  ⟨congrArg layer blocked.state, blocked.answer⟩

theorem weaken {other : Prop} (blocked : Blocked bag idle unchanged attempt) (weaker : idle → other) :
    Blocked bag other unchanged attempt :=
  ⟨blocked.state, blocked.answer.imp_right (And.imp_left weaker)⟩

theorem map (blocked : Blocked bag idle unchanged attempt) (f : ρ → ε) :
    Blocked bag idle (f unchanged) (attempt.map f) where
  state := blocked.state
  answer := by
    unfold Attempt.map
    obtain ⟨operation, refused⟩ | ⟨spare, accepted⟩ := blocked.answer
    · exact .inl ⟨operation, by rw [refused]; rfl⟩
    · exact .inr ⟨spare, by rw [accepted]; rfl⟩

end Blocked

theorem bulk_of_guarded {operation : String} {run : Bag α → Attempt (Bag α) Bool}
    (idle : Bag α → Prop)
    (each : ∀ bag : Bag α, bag.isGuarded → Blocked bag (idle bag) false (run bag))
    (shares : ∀ cell inner, idle inner → idle (.shared cell inner)) {bag : Bag α}
    (guarded : bag.isGuarded) :
    Blocked bag (idle bag ∧ ¬ bag.isReadOnly) false (bag.bulk operation run) := by
  induction bag with
  | plain _ => cases guarded
  | frozen _ _ => cases guarded
  | readOnly inner => exact ⟨rfl, .inl ⟨operation, rfl⟩⟩
  | shared cell inner ih =>
    exact ((ih guarded).within (.shared cell)).weaken fun spare => ⟨shares cell inner spare.1, nofun⟩
  | sorted order inner => exact (each _ guarded).weaken fun spare => ⟨spare, nofun⟩
  | parallel batching inner => exact (each _ guarded).weaken fun spare => ⟨spare, nofun⟩

/-- A run is stopped by its first step, if it has one. -/
theorem anyChange_blocked {β : Type} {step : β → Bag α → Attempt (Bag α) Bool} {bag : Bag α}
    (refused : ∀ item, ∃ operation, step item bag = ⟨.error (.readOnly operation), bag⟩)
    (items : List β) : Blocked bag items.isEmpty false (Attempt.anyChange step items bag) := by
  cases items with
  | nil => exact ⟨rfl, .inr ⟨rfl, rfl⟩⟩
  | cons item rest =>
    obtain ⟨operation, first⟩ := refused item
    rw [Attempt.anyChange_cons_refused first]
    exact ⟨rfl, .inl ⟨operation, rfl⟩⟩

variable [DecidableEq α]

theorem apply_of_guarded {bag : Bag α} (guarded : bag.isGuarded) (change : Change α) :
    bag.apply change = ⟨.error (.readOnly change.operation), bag⟩ := by
  induction bag with
  | plain _ => cases guarded
  | frozen _ _ => cases guarded
  | readOnly inner => rfl
  | sorted order inner ih =>
    rw [apply, ih guarded]
    rfl
  | shared cell inner ih =>
    rw [apply, ih guarded]
    rfl
  | parallel batching inner ih =>
    rw [apply, ih guarded]
    rfl

theorem apply_blocked {bag : Bag α} (guarded : bag.isGuarded) (change : Change α) (idle : Prop) :
    Blocked bag idle false (bag.apply change) := by
  rw [apply_of_guarded guarded]
  exact ⟨rfl, .inl ⟨change.operation, rfl⟩⟩

theorem addAll_blocked {bag : Bag α} (guarded : bag.isGuarded) (items : List α) :
    Blocked bag (items.isEmpty ∧ ¬ bag.isReadOnly) false (bag.addAll items) := by
  refine bulk_of_guarded (fun _ => items.isEmpty) ?_ (fun _ _ => id) guarded
  intro bag guarded
  exact anyChange_blocked (fun item => ⟨_, apply_of_guarded guarded (.add item 1)⟩) items

theorem removeAll_blocked {bag : Bag α} (guarded : bag.isGuarded) (items : List α) :
    Blocked bag (items.isEmpty ∧ ¬ bag.isReadOnly) false (bag.removeAll items) := by
  refine bulk_of_guarded (fun _ => items.isEmpty) ?_ (fun _ _ => id) guarded
  intro bag guarded
  apply anyChange_blocked
  intro item
  exact ⟨_, apply_of_guarded guarded (.remove item (bag.countOf item))⟩

theorem removeIf_blocked {bag : Bag α} (guarded : bag.isGuarded) (unwanted : α × Nat → Bool) :
    Blocked bag ((bag.entries.filter unwanted).isEmpty ∧ ¬ bag.isReadOnly) false
      (bag.removeIf unwanted) := by
  refine bulk_of_guarded (fun bag => (bag.entries.filter unwanted).isEmpty) ?_ (fun _ _ => id)
    guarded
  intro bag guarded
  apply anyChange_blocked
  intro entry
  exact ⟨_, apply_of_guarded guarded (.remove entry.1 entry.2)⟩

/-- A call for one element is never idle, so it is refused. -/
theorem perform_blocked {bag : Bag α} (guarded : bag.isGuarded) (call : Call α) :
    Blocked bag (call.isIdle bag ∧ ¬ bag.isReadOnly) (some false) (bag.perform call) := by
  cases call with
  | add item => exact (apply_blocked guarded (.add item 1) _).map some
  | addOccurrences item amount => exact (apply_blocked guarded (.add item amount) _).map some
  | remove item => exact (apply_blocked guarded (.remove item 1) _).map some
  | removeOccurrences item amount => exact (apply_blocked guarded (.remove item amount) _).map some
  | setOccurrences item count => exact (apply_blocked guarded (.set item count) _).map some
  | addAll items => exact (addAll_blocked guarded items).map some
  | removeAll items => exact (removeAll_blocked guarded items).map some
  | removeIf unwanted => exact (removeIf_blocked guarded unwanted).map some
  | clear =>
    rw [perform, clear, apply_of_guarded guarded]
    exact ⟨rfl, .inl ⟨"clear", rfl⟩⟩

/-- A step that leaves a bag with a read-only layer as it is, and is refused where it has something to do
or where that layer is the outermost. -/
structure Withstands (bag : Bag α) (step : Step (Bag α) (Call α) (Option Bool)) : Prop where
  start : step.start = bag
  finish : step.finish = bag
  unchanged : step.answer ≠ .ok (some true)
  refused : (¬ step.call.isIdle bag ∨ bag.isReadOnly) →
    ∃ operation, step.answer = .error (.readOnly operation)

theorem perform_withstands {bag : Bag α} (guarded : bag.isGuarded) (call : Call α) :
    Withstands bag (.of bag call (bag.perform call)) := by
  have blocked := perform_blocked guarded call
  refine ⟨rfl, blocked.state, ?_, ?_⟩
  · obtain ⟨operation, refused⟩ | ⟨_, accepted⟩ := blocked.answer
    · simp only [Step.of, refused, ne_eq, reduceCtorEq, not_false_eq_true]
    · simp only [Step.of, accepted, ne_eq, Except.ok.injEq, Option.some.injEq, Bool.false_eq_true,
        not_false_eq_true]
  · intro needed
    exact blocked.answer.resolve_right fun spare => needed.elim (· spare.1.1) spare.1.2

/-- Wherever in a stack the read-only layer is, no calls at the top get past it. -/
theorem withstands_calls {bag : Bag α} (guarded : bag.isGuarded) (calls : List (Call α)) :
    ∀ step ∈ Step.run perform bag calls, Withstands bag step := by
  refine Step.run_keeps (· = bag) ?_ ?_ rfl calls
  · rintro _ call rfl
    exact (perform_blocked guarded call).state
  · rintro _ call rfl
    exact perform_withstands guarded call

/-- Below two layers that make changes one after the other, with calls that find no element. -/
theorem withstands_calls_below_layers :
    let bag : Bag Nat := .sorted compare (.shared 0 (.readOnly (.parallel
      (.ofParts .sequential (.ofBatchSize 2)) (.plain ⟨[(1, 2), (4, 1)], 3⟩))))
    let calls : List (Call Nat) := [.addAll [], .removeAll [3], .addOccurrences 1 (-1),
      .removeIf fun entry => entry.2 == 3, .clear]
    bag.isGuarded ∧ ∀ step ∈ Step.run perform bag calls, Withstands bag step :=
  ⟨rfl, withstands_calls rfl _⟩

end Bag

end Collections
