import Collections.Occurrences.Walk
import Collections.Proofs.Elements

/-! A walk over the occurrences of a bag gives all of them, those of an entry side by side and the entries in
their order, and then nothing any more. The number it keeps is that of the occurrences still to come.

The occurrences come from the entries, the number from the size of the bag, so it is the validity of the bag
that keeps the two together.
-/

set_option autoImplicit false

namespace Collections

open Entries (expand expand_cons)

namespace OccurrenceWalk

variable {α : Type} {walk : OccurrenceWalk α} {items : List α}

/-- `next`, where there must have been one more occurrence to come than there are afterwards. -/
def next? (walk : OccurrenceWalk α) : Option (Option α × OccurrenceWalk α) :=
  match advance walk.pending walk.left walk.current, walk.remaining with
  | none, _ => some (none, { walk with pending := [] })
  | some _, 0 => none
  | some (current, left, pending), remaining + 1 => some (current, ⟨pending, current, left, remaining⟩)

theorem next_of_guarded {given : Option α × OccurrenceWalk α} (returned : walk.next? = some given) :
    walk.next = given := by
  unfold next? at returned
  unfold next
  split at returned
  case h_1 done =>
    rw [done]
    exact Option.some.inj returned
  case h_2 => cases returned
  case h_3 taken counted =>
    rw [taken, counted]
    exact Option.some.inj returned

def calls (walk : OccurrenceWalk α) : Nat → List (Option α) × OccurrenceWalk α
  | 0 => ([], walk)
  | number + 1 =>
    let (answer, left) := walk.next
    let (answers, final) := left.calls number
    (answer :: answers, final)

def calls? (walk : OccurrenceWalk α) : Nat → Option (List (Option α) × OccurrenceWalk α)
  | 0 => some ([], walk)
  | number + 1 =>
    walk.next?.bind fun (answer, left) =>
      (left.calls? number).map fun (answers, final) => (answer :: answers, final)

theorem calls_of_guarded {number : Nat} {given : List (Option α) × OccurrenceWalk α}
    (returned : walk.calls? number = some given) : walk.calls number = given := by
  induction number generalizing walk given with
  | zero => exact Option.some.inj returned
  | succ number ih =>
    obtain ⟨⟨answer, left⟩, stepped, further⟩ := Option.bind_eq_some_iff.mp returned
    obtain ⟨⟨answers, final⟩, called, rfl⟩ := Option.map_eq_some_iff.mp further
    rw [calls, next_of_guarded stepped]
    simp only [ih called]

/-! ## One call -/

-- Entries without occurrences are passed over, so the first occurrence may be several entries further on.
theorem advance_spec (pending : Entries α) (left : Nat) (current : Option α) :
    List.replicate left current ++ (expand pending).map some =
      match advance pending left current with
      | none => []
      | some (taken, left, pending) =>
        taken :: (List.replicate left taken ++ (expand pending).map some) := by
  fun_induction advance pending left current with
  | case1 pending left current => rfl
  | case2 current => rfl
  | case3 item count rest current ih =>
    rw [← ih, expand_cons, List.map_append, List.map_replicate]
    rfl

structure Spans (walk : OccurrenceWalk α) (items : List α) : Prop where
  sequence : List.replicate walk.left walk.current ++ (expand walk.pending).map some = items.map some
  remaining : walk.remaining = items.length

theorem spans_start {counts : Occurrences α} (valid : counts.Valid) :
    Spans (start counts) (expand counts.entries) :=
  ⟨rfl, valid.size_eq.trans (Entries.length_expand _).symm⟩

theorem Spans.next (spans : Spans walk items) :
    ∃ left, walk.next? = some (items.head?, left) ∧ Spans left items.tail := by
  obtain ⟨sequence, remaining⟩ := spans
  have advanced := advance_spec walk.pending walk.left walk.current
  rw [sequence] at advanced
  unfold next?
  cases items with
  | nil =>
    cases found : advance walk.pending walk.left walk.current with
    | none =>
      refine ⟨_, rfl, ?_, remaining⟩
      rw [(List.append_eq_nil_iff.mp sequence).1]
      rfl
    | some given =>
      rw [found] at advanced
      cases advanced
  | cons item rest =>
    cases found : advance walk.pending walk.left walk.current with
    | none =>
      rw [found] at advanced
      cases advanced
    | some given =>
      obtain ⟨taken, left, pending⟩ := given
      rw [found] at advanced
      obtain ⟨rfl, further⟩ := List.cons.inj advanced
      rw [remaining]
      exact ⟨_, rfl, further.symm, rfl⟩

/-! ## Any number of calls -/

-- Each call takes one element off what is left, so the calls go on with the rest of it, and from the end on
-- with nothing.
theorem Spans.calls (spans : Spans walk items) (number : Nat) :
    ∃ left, walk.calls? number =
        some ((items.take number).map some ++ List.replicate (number - items.length) none, left) ∧
      Spans left (items.drop number) := by
  induction number generalizing walk items with
  | zero => exact ⟨walk, by simp [calls?], spans⟩
  | succ number ih =>
    obtain ⟨left, stepped, spans⟩ := spans.next
    obtain ⟨final, called, spans⟩ := ih spans
    refine ⟨final, ?_, ?_⟩
    · rw [calls?, stepped]
      simp only [Option.bind_some, called]
      cases items with
      | nil => simp [List.replicate_succ]
      | cons item rest => simp
    · rwa [List.drop_tail] at spans

theorem Spans.take (spans : Spans walk items) (number : Nat) :
    (walk.take number).1 = items.take number := by
  induction number generalizing walk items with
  | zero => rfl
  | succ number ih =>
    obtain ⟨left, stepped, spans⟩ := spans.next
    rw [OccurrenceWalk.take, next_of_guarded stepped]
    cases items with
    | nil => rfl
    | cons item rest => exact congrArg (item :: ·) (ih spans)

variable [DecidableEq α]

structure Walked (counts : Occurrences α) : Prop where
  guarded (number : Nat) : (start counts).calls? number = some ((start counts).calls number)
  sizeHint (number : Nat) : ((start counts).calls number).2.sizeHint =
    (counts.size - number, some (counts.size - number))
  answers (number : Nat) : ((start counts).calls number).1 =
    ((Bag.plain counts).toList.take number).map some ++ List.replicate (number - counts.size) none
  taken (number : Nat) : ((start counts).take number).1 = (Bag.plain counts).toList.take number
  inOrder : (Bag.plain counts).toList =
    counts.entries.flatMap fun entry => List.replicate entry.2 entry.1
  counted (item : α) : (Bag.plain counts).toList.count item = counts.countOf item
  length : (Bag.plain counts).toList.length = counts.size

theorem walked_exactly {counts : Occurrences α} (valid : counts.Valid) : Walked counts := by
  have spans := spans_start valid
  have length : (expand counts.entries).length = counts.size :=
    (Entries.length_expand _).trans valid.size_eq.symm
  constructor
  case guarded =>
    intro number
    obtain ⟨left, called, -⟩ := spans.calls number
    rw [called, calls_of_guarded called]
  case sizeHint =>
    intro number
    obtain ⟨left, called, spans⟩ := spans.calls number
    rw [calls_of_guarded called, OccurrenceWalk.sizeHint, spans.remaining, List.length_drop, length]
  case answers =>
    intro number
    obtain ⟨left, called, -⟩ := spans.calls number
    rw [calls_of_guarded called, length]
    rfl
  case taken => exact spans.take
  case inOrder => rfl
  case counted => exact Entries.count_expand valid.distinct
  case length => exact length

/-- Six calls on a walk over a bag of four. -/
theorem walked_exactly_past_the_end :
    let counts : Occurrences Nat := ⟨[(7, 3), (9, 1)], 4⟩
    counts.Valid ∧ Walked counts ∧
      ((start counts).calls 6).1 = [some 7, some 7, some 7, some 9, none, none] := by
  intro counts
  have valid : counts.Valid := ⟨by decide, by decide, rfl, by decide⟩
  exact ⟨valid, walked_exactly valid, rfl⟩

end OccurrenceWalk

end Collections
