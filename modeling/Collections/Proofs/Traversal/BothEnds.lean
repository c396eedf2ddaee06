import Collections.Proofs.SegmentedList.Reachable
import Mathlib.Data.List.Induction

/-! A traversal gives every element once, whichever end it is asked at: those given at the front come first
in the sequence and in its order, those given at the back come last and in reverse, and the elements in
between are those that are counted as left.
-/

set_option autoImplicit false

namespace Collections

section Calls

variable {α σ β : Type} {place : β → End}

def returned (place : β → End) (side : End) (steps : List (Step σ β (Option α))) : List α :=
  steps.flatMap fun step => (place step.call).share side step.answer.toOption.join

theorem returned_append (side : End) (steps more : List (Step σ β (Option α))) :
    returned place side (steps ++ more) = returned place side steps ++ returned place side more :=
  List.flatMap_append

theorem returned_append_singleton (side : End) (steps : List (Step σ β (Option α))) (state : σ)
    (call : β) (answer : Option α) (finish : σ) :
    returned place side (steps ++ [.of state call ⟨.ok answer, finish⟩]) =
      returned place side steps ++ (place call).share side answer := by
  rw [returned_append]
  simp [returned, Step.of, Except.toOption]

/-- The calls of one kind of traversal, of a sequence of some length. A call gives the element at its end,
changed on the way or not, when what is held of the state are the elements given from the front, those that
are left, and those given from the back, last first. -/
structure GivesEnds (apply : σ → β → Attempt σ (Option α))
    (guarded : σ → β → Option (Attempt σ (Option α))) (place : β → End) (change : β → α → α)
    (held : σ → List α → List α → List α → Prop) (length : Nat) : Prop where
  next {state : σ} {front left back : List α} (call : β) : held state front left back →
    ∃ finish, guarded state call = some ⟨.ok (((place call).pick left).map (change call)), finish⟩ ∧
      held finish (front ++ (place call).share .front (((place call).pick left).map (change call)))
        ((place call).drop left)
        ((place call).share .back (((place call).pick left).map (change call)) ++ back)
  unguarded {state : σ} {call : β} {attempt : Attempt σ (Option α)} :
    guarded state call = some attempt → apply state call = attempt
  length {state : σ} {front left back : List α} : held state front left back →
    front.length + left.length + back.length = length

variable {apply : σ → β → Attempt σ (Option α)}
  {guarded : σ → β → Option (Attempt σ (Option α))} {change : β → α → α}
  {held : σ → List α → List α → List α → Prop} {length : Nat} {state : σ}

def HeldAfter (place : β → End) (held : σ → List α → List α → List α → Prop) (state : σ)
    (before : List (Step σ β (Option α))) : Prop :=
  ∃ left, held state (returned place .front before) left (returned place .back before).reverse

theorem GivesEnds.heldAfter (gives : GivesEnds apply guarded place change held length)
    {before : List (Step σ β (Option α))} (call : β) (stands : HeldAfter place held state before) :
    HeldAfter place held (apply state call).state (before ++ [.of state call (apply state call)]) := by
  obtain ⟨left, holds⟩ := stands
  obtain ⟨finish, passed, holds⟩ := gives.next call holds
  refine ⟨(place call).drop left, ?_⟩
  rw [gives.unguarded passed, returned_append_singleton, returned_append_singleton,
    List.reverse_append, End.reverse_share]
  exact holds

theorem GivesEnds.runGuarded (gives : GivesEnds apply guarded place change held length)
    {front left back : List α} (start : held state front left back) (calls : List β) :
    Step.runGuarded guarded state calls = some (Step.run apply state calls) := by
  induction calls generalizing state front left back with
  | nil => rfl
  | cons call rest ih =>
    obtain ⟨finish, passed, holds⟩ := gives.next call start
    rw [Step.runGuarded, passed, Option.bind_some, ih holds, Step.run, gives.unguarded passed]
    rfl

def AnswersAfter (place : β → End) (change : β → α → α)
    (held : σ → List α → List α → List α → Prop) (before : List (Step σ β (Option α)))
    (step : Step σ β (Option α)) (left : List α) : Prop :=
  held step.start (returned place .front before) left (returned place .back before).reverse ∧
    step.answer = .ok (((place step.call).pick left).map (change step.call))

theorem GivesEnds.answers (gives : GivesEnds apply guarded place change held length)
    {whole : List α} (start : held state [] whole []) {calls : List β}
    {before later : List (Step σ β (Option α))} {step : Step σ β (Option α)}
    (split : Step.run apply state calls = before ++ step :: later) :
    ∃ left, AnswersAfter place change held before step left := by
  let good (before : List (Step σ β (Option α))) (step : Step σ β (Option α)) : Prop :=
    ∃ left, AnswersAfter place change held before step left
  have each : ∀ state before call, True → HeldAfter place held state before →
      good before (.of state call (apply state call)) := by
    intro state before call _ ⟨left, holds⟩
    obtain ⟨finish, passed, _⟩ := gives.next call holds
    exact ⟨left, holds, by rw [gives.unguarded passed]; rfl⟩
  have begun : HeldAfter place held state [] := ⟨whole, start⟩
  exact Step.run_history (fun _ _ call _ => gives.heldAfter call) each begun (fun _ _ => trivial) split

/-- Once nothing is left there never is anything again. -/
theorem GivesEnds.ended (gives : GivesEnds apply guarded place change held length)
    {whole : List α} (start : held state [] whole []) {calls : List β}
    {before later : List (Step σ β (Option α))} {step : Step σ β (Option α)}
    (split : Step.run apply state calls = before ++ step :: later) (nothing : step.answer = .ok none) :
    ∀ after ∈ later, after.answer = .ok none := by
  intro after member
  obtain ⟨between, rest, rfl⟩ := List.append_of_mem member
  obtain ⟨left, holds, answered⟩ := gives.answers start split
  have empty : left = [] := by
    rw [nothing] at answered
    simpa [End.pick_eq_none_iff] using (Except.ok.inj answered).symm
  rw [← List.cons_append, ← List.append_assoc] at split
  obtain ⟨still, holds', answered'⟩ := gives.answers start split
  -- By then the ends have given what they had given before, and that was everything.
  have given := gives.length holds
  have given' := gives.length holds'
  rw [empty, List.length_nil] at given
  rw [returned_append, returned_append] at given'
  simp only [List.length_append, List.length_reverse] at given given'
  have empty' : still = [] := List.eq_nil_of_length_eq_zero (by omega)
  rw [answered', empty', End.pick_nil]
  rfl

end Calls

namespace Traversal

variable {α : Type} {traversal : Traversal α} {items : List α}

theorem length_nextBack {item : α} {left : Traversal α}
    (taken : traversal.nextBack = (some item, left)) :
    left.pending.flatten.length < traversal.pending.flatten.length := by
  have split := takeLast_flatten traversal.pending
  unfold nextBack at taken
  cases found : takeLast traversal.pending with
  | none =>
    rw [found] at taken
    cases taken
  | some pair =>
    rw [found] at taken split
    cases taken
    obtain ⟨last, ends, same⟩ := Option.map_eq_some_iff.mp split.symm
    have picked : End.back.pick traversal.pending.flatten = some last := ends
    have fewer := End.length_drop_of_pick picked
    have kept : pair.2.flatten = End.back.drop traversal.pending.flatten := (Prod.mk.inj same).2.symm
    show pair.2.flatten.length < traversal.pending.flatten.length
    rw [kept, fewer]
    exact Nat.lt_succ_self _

def countdown (traversal : Traversal α) : List (α × Nat) :=
  match _taken : traversal.nextBack with
  | (none, _) => []
  | (some item, left) => (item, left.remaining) :: left.countdown
termination_by traversal.pending.flatten.length
decreasing_by exact length_nextBack _taken

theorem countdown_of_none {left : Traversal α} (taken : traversal.nextBack = (none, left)) :
    traversal.countdown = [] := by
  rw [countdown]
  split
  · rfl
  · rename_i found
    rw [taken] at found
    cases found

theorem countdown_of_some {item : α} {left : Traversal α}
    (taken : traversal.nextBack = (some item, left)) :
    traversal.countdown = (item, left.remaining) :: left.countdown := by
  rw [countdown]
  split
  · rename_i found
    rw [taken] at found
    cases found
  · rename_i found
    rw [taken] at found
    cases found
    rfl

-- The number of elements left in front of an element is its index.
theorem Spans.countdown (spans : Spans traversal items) :
    traversal.countdown = items.zipIdx.reverse := by
  induction items using List.reverseRecOn generalizing traversal with
  | nil =>
    obtain ⟨left, stepped, -⟩ := spans.step .back
    exact countdown_of_none (step_of_guarded stepped)
  | append_singleton init last ih =>
    obtain ⟨left, stepped, spans⟩ := spans.step .back
    have taken := step_of_guarded stepped
    rw [End.pick, List.getLast?_concat] at taken
    rw [End.drop, List.dropLast_concat] at spans
    rw [countdown_of_some taken, ih spans, spans.remaining, List.zipIdx_append, List.reverse_append]
    simp

end Traversal

namespace SegmentedList

variable {α : Type} {list : SegmentedList α}

def Reads (list : SegmentedList α) (traversal : Traversal α) (front left back : List α) : Prop :=
  traversal.Spans left ∧ list.flat = front ++ left ++ back

theorem Counted.reads_start (counted : list.Counted) : list.Reads (.start list) [] list.flat [] :=
  ⟨Traversal.spans_start counted, by simp⟩

theorem Counted.givesEnds (counted : list.Counted) :
    GivesEnds Traversal.call Traversal.call? id (fun _ => id) list.Reads list.size where
  next := by
    intro traversal front left back side ⟨spans, whole⟩
    obtain ⟨finish, passed, spans⟩ := spans.call side
    rw [id, Option.map_id]
    exact ⟨finish, passed, spans, whole.trans (side.append_share_pick front left back).symm⟩
  unguarded := Traversal.call_of_guarded
  length := by
    intro traversal front left back ⟨_, whole⟩
    rw [counted, whole, List.length_append, List.length_append]

/-- The elements left are those of the list as it was, and around them stand as many as there were. -/
def Revises (list : SegmentedList α) (revision : Revision α) (front left back : List α) : Prop :=
  revision.Parts front left back ∧ ∃ earlier behind, list.flat = earlier ++ left ++ behind ∧
    earlier.length = front.length ∧ behind.length = back.length

theorem Counted.revises_start (counted : list.Counted) :
    list.Revises (.start list) [] list.flat [] :=
  ⟨Revision.parts_start counted, [], [], by simp, rfl, rfl⟩

theorem Counted.givesEnds_revised (counted : list.Counted) :
    GivesEnds Revision.call Revision.call? Prod.fst Prod.snd list.Revises list.size where
  next := by
    rintro revision front left back ⟨side, f⟩ ⟨parts, earlier, behind, whole, ahead, after⟩
    obtain ⟨finish, passed, parts⟩ := parts.call side f
    exact ⟨finish, passed, parts, earlier ++ side.share .front (side.pick left),
      side.share .back (side.pick left) ++ behind,
      whole.trans (side.append_share_pick earlier left behind).symm, by simp [ahead], by simp [after]⟩
  unguarded := Revision.call_of_guarded
  length := by
    intro revision front left back ⟨_, earlier, behind, whole, ahead, after⟩
    rw [counted, whole, List.length_append, List.length_append, ahead, after]

structure Given (list : SegmentedList α) (before : List (Step (Traversal α) End (Option α)))
    (step : Step (Traversal α) End (Option α)) (later : List (Step (Traversal α) End (Option α)))
    (left : List α) : Prop where
  apart : list.flat = returned id .front before ++ left ++ (returned id .back before).reverse
  hint : step.start.sizeHint = (left.length, some left.length)
  counted : (returned id .front before).length + left.length + (returned id .back before).length =
    list.size
  answer : step.answer = .ok (step.call.pick left)
  ended : step.answer = .ok none → ∀ after ∈ later, after.answer = .ok none

structure Replaced (list : SegmentedList α)
    (before : List (Step (Revision α) (End × (α → α)) (Option α)))
    (step : Step (Revision α) (End × (α → α)) (Option α))
    (later : List (Step (Revision α) (End × (α → α)) (Option α))) (left : List α) : Prop where
  untouched : ∃ earlier behind, list.flat = earlier ++ left ++ behind ∧
    earlier.length = (returned Prod.fst .front before).length ∧
    behind.length = (returned Prod.fst .back before).length
  sequence : step.start.list.flat =
    returned Prod.fst .front before ++ left ++ (returned Prod.fst .back before).reverse
  hint : step.start.traversal.sizeHint = (left.length, some left.length)
  counted : (returned Prod.fst .front before).length + left.length +
    (returned Prod.fst .back before).length = list.size
  answer : step.answer = .ok ((step.call.1.pick left).map step.call.2)
  ended : step.answer = .ok none → ∀ after ∈ later, after.answer = .ok none

structure BothEnds (list : SegmentedList α) : Prop where
  guarded (sides : List End) : Step.runGuarded Traversal.call? (.start list) sides =
    some (Step.run Traversal.call (.start list) sides)
  given {sides : List End} {before later : List (Step (Traversal α) End (Option α))}
    {step : Step (Traversal α) End (Option α)} :
    Step.run Traversal.call (.start list) sides = before ++ step :: later →
      ∃ left, Given list before step later left
  guarded_revised (changes : List (End × (α → α))) :
    Step.runGuarded Revision.call? (.start list) changes =
      some (Step.run Revision.call (.start list) changes)
  replaced {changes : List (End × (α → α))}
    {before later : List (Step (Revision α) (End × (α → α)) (Option α))}
    {step : Step (Revision α) (End × (α → α)) (Option α)} :
    Step.run Revision.call (.start list) changes = before ++ step :: later →
      ∃ left, Replaced list before step later left
  countdown : (Traversal.start list).countdown = list.flat.zipIdx.reverse
  backward : list.indexed.backward = list.flat.zipIdx.reverse

theorem Counted.given (counted : list.Counted) {sides : List End}
    {before later : List (Step (Traversal α) End (Option α))} {step : Step (Traversal α) End (Option α)}
    (split : Step.run Traversal.call (.start list) sides = before ++ step :: later) :
    ∃ left, Given list before step later left := by
  have gives := counted.givesEnds
  obtain ⟨left, ⟨spans, whole⟩, answered⟩ := gives.answers counted.reads_start split
  have length := gives.length ⟨spans, whole⟩
  rw [List.length_reverse] at length
  rw [Option.map_id] at answered
  exact ⟨left, whole, by rw [Traversal.sizeHint, spans.remaining], length, answered,
    gives.ended counted.reads_start split⟩

theorem Counted.replaced (counted : list.Counted) {changes : List (End × (α → α))}
    {before later : List (Step (Revision α) (End × (α → α)) (Option α))}
    {step : Step (Revision α) (End × (α → α)) (Option α)}
    (split : Step.run Revision.call (.start list) changes = before ++ step :: later) :
    ∃ left, Replaced list before step later left := by
  have gives := counted.givesEnds_revised
  obtain ⟨left, ⟨parts, untouched⟩, answered⟩ := gives.answers counted.revises_start split
  have length := gives.length ⟨parts, untouched⟩
  rw [List.length_reverse] at length
  simp only [List.length_reverse] at untouched
  exact ⟨left, untouched, parts.sequence, by rw [Traversal.sizeHint, parts.spans.remaining, List.length_zipIdx],
    length, answered, gives.ended counted.revises_start split⟩

/-- Whatever a list went through before, calls at its ends in any order give each element once, and the
number of elements left is known at every call. -/
theorem ends_meet [BEq α] (reachable : list.Reachable) : BothEnds list where
  guarded := reachable.counted.givesEnds.runGuarded reachable.counted.reads_start
  given := reachable.counted.given
  guarded_revised := reachable.counted.givesEnds_revised.runGuarded reachable.counted.revises_start
  replaced := reachable.counted.replaced
  countdown := (Traversal.spans_start reachable.counted).countdown
  backward := by rw [SegmentedList.backward, flat_indexed]

theorem ends_meet_around_empty_segments :
    let call : ListCall Nat Unit := .removeItem 9
    let list := ((ofSegments [[9], [1], [], [2, 3], []]).call call).state
    list.Reachable ∧ BothEnds list ∧
      (Step.run Traversal.call (.start list) [.front, .back, .back, .front, .back]).map Step.answer =
        [.ok (some 1), .ok (some 3), .ok (some 2), .ok none, .ok none] := by
  intro call list
  have reachable : list.Reachable := .called call (.made _)
  exact ⟨reachable, ends_meet reachable, rfl⟩

end SegmentedList

end Collections
