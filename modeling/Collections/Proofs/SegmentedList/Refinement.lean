import Collections.Proofs.SegmentedList.Counted

/-! A segmented list goes through any calls as its plain sequence does.

Most calls are the same call on the sequence. A call on one segment is a call on the part of the sequence
that the segment holds, so which part it is depends on the segments the list has by then.
-/

set_option autoImplicit false

namespace Collections

inductive ListCall (α ρ : Type) where
  | addSegment (items : List α)
  | push (item : α)
  | insert (index : Nat) (item : α)
  | remove (index : Nat)
  | set (index : Nat) (item : α)
  | modify (index : Nat) (change : α → α)
  | removeItem (item : α)
  | addAll (items : List α)
  | extend (items : List α)
  | removeAll (items : List α)
  | retainAll (items : List α)
  | removeIf (unwanted : α → Bool)
  | retain (wanted : α → Bool)
  | replaceAll (f : α → α)
  | sortBy (order : WeakOrder α)
  | reverse
  | flatten
  | clear
  | editSegment (number : Nat) (edit : List α → ρ × List α)

namespace SegmentedList

variable {α ρ : Type} {list other : SegmentedList α}

def flagged : Bool × SegmentedList α → Attempt (SegmentedList α) (ListAnswer α ρ)
  | (value, list) => ⟨.ok (.flag value), list⟩

section Calls

variable [BEq α]

def call (list : SegmentedList α) : ListCall α ρ → Attempt (SegmentedList α) (ListAnswer α ρ)
  | .addSegment items => ⟨.ok .done, list.addSegment items⟩
  | .push item => ⟨.ok .done, list.push item⟩
  | .insert index item =>
    .ofExcept list ((list.insert index item).map fun list => (ListAnswer.done, list))
  | .remove index => (Attempt.ofExcept list (list.remove index)).map .item
  | .set index item => (Attempt.ofExcept list (list.set index item)).map .item
  | .modify index change =>
    (Attempt.ofExcept list (list.modify index change)).map fun (old, new) => .changed old new
  | .removeItem item => flagged (list.removeItem item)
  | .addAll items => flagged (list.addAll items)
  | .extend items => ⟨.ok .done, list.extend items⟩
  | .removeAll items => flagged (list.removeAll items)
  | .retainAll items => flagged (list.retainAll items)
  | .removeIf unwanted => flagged (list.removeIf unwanted)
  | .retain wanted => flagged (list.retain wanted)
  | .replaceAll f => ⟨.ok .done, list.replaceAll f⟩
  | .sortBy order => ⟨.ok .done, list.sortBy order.le⟩
  | .reverse => ⟨.ok .done, list.reverse⟩
  | .flatten => ⟨.ok .done, list.flatten⟩
  | .clear => ⟨.ok .done, empty⟩
  | .editSegment number edit => (Attempt.ofExcept list (list.editSegment number edit)).map .edited

def plain (list : SegmentedList α) : ListCall α ρ → PlainCall α ρ
  | .addSegment items => .append items
  | .push item => .push item
  | .insert index item => .insert index item
  | .remove index => .remove index
  | .set index item => .set index item
  | .modify index change => .modify index change
  | .removeItem item => .removeFirst item
  | .addAll items => .appendAny items
  | .extend items => .append items
  | .removeAll items => .keep fun item => !items.any (· == item)
  | .retainAll items => .keep fun item => items.any (· == item)
  | .removeIf unwanted => .keep fun item => !unwanted item
  | .retain wanted => .keep wanted
  | .replaceAll f => .replace f
  | .sortBy order => .sort order
  | .reverse => .reverse
  | .flatten => .nothing
  | .clear => .clear
  | .editSegment number edit =>
    match list.segments[number]? with
    | none => .refuse (.outOfBounds number list.segments.length)
    | some items => .splice (list.segments.take number).flatten.length items.length edit

-- A call on one segment stands for different calls on the sequence as the segments come and go, so the
-- plain calls are read off along the run of the list.
def plainCalls : SegmentedList α → List (ListCall α ρ) → List (PlainCall α ρ)
  | _, [] => []
  | list, call :: rest => list.plain call :: plainCalls (list.call call).state rest

end Calls

/-! ## One call -/

theorem tracks_flagged {result : Bool × SegmentedList α} {value : Bool} {items : List α}
    (spec : result.1 = value ∧ result.2.flat = items ∧ result.2.Counted) :
    Tracks (flagged (ρ := ρ) result) ⟨.ok (.flag value), items⟩ := by
  obtain ⟨rfl, rfl, counted⟩ := spec
  exact ⟨rfl, rfl, counted⟩

theorem tracks_done {items : List α} (spec : list.flat = items ∧ list.Counted) :
    Tracks (ρ := ListAnswer α ρ) ⟨.ok .done, list⟩ ⟨.ok .done, items⟩ :=
  ⟨rfl, spec.1, spec.2⟩

theorem Counted.call [BEq α] (counted : list.Counted) (call : ListCall α ρ) :
    Tracks (list.call call) (Plain.call list.flat (list.plain call)) := by
  cases call with
  | addSegment items => exact tracks_done ⟨flat_addSegment items, counted.addSegment items⟩
  | push item => exact tracks_done ⟨flat_push item, counted.push item⟩
  | insert index item => exact counted.insert index item
  | remove index => exact (counted.remove index).map ListAnswer.item
  | set index item => exact (counted.set index item).map ListAnswer.item
  | modify index change =>
    exact (counted.modify index change).map fun (old, new) => ListAnswer.changed old new
  | removeItem item => exact tracks_flagged (counted.removeItem item)
  | addAll items => exact tracks_flagged (counted.addAll items)
  | extend items => exact tracks_done (counted.addAll items).2
  | removeAll items => exact tracks_flagged (counted.retain _)
  | retainAll items => exact tracks_flagged (counted.retain _)
  | removeIf unwanted => exact tracks_flagged (counted.retain _)
  | retain wanted => exact tracks_flagged (counted.retain wanted)
  | replaceAll f => exact tracks_done (counted.replaceAll f)
  | sortBy order => exact tracks_done (counted.sortBy order.le)
  | reverse => exact tracks_done counted.reverse
  | flatten => exact tracks_done counted.flatten
  | clear => exact tracks_done ⟨rfl, rfl⟩
  | editSegment number edit =>
    rw [SegmentedList.call, plain]
    cases there : list.segments[number]? with
    | none =>
      rw [SegmentedList.editSegment, getSegment, there]
      exact ⟨rfl, rfl, counted⟩
    | some items => exact (counted.editSegment there edit).map ListAnswer.edited

theorem call_refused_same [BEq α] {call : ListCall α ρ} {error : Error}
    (refused : (list.call call).answer = .error error) : (list.call call).state = list := by
  cases call with
  | insert index item => exact Attempt.ofExcept_refused refused
  | remove index => exact Attempt.ofExcept_refused (Attempt.map_refused.mp refused)
  | set index item => exact Attempt.ofExcept_refused (Attempt.map_refused.mp refused)
  | modify index change => exact Attempt.ofExcept_refused (Attempt.map_refused.mp refused)
  | editSegment number edit => exact Attempt.ofExcept_refused (Attempt.map_refused.mp refused)
  | _ => cases refused

/-! ## A run of calls -/

structure Refines [BEq α] (here : Step (SegmentedList α) (ListCall α ρ) (ListAnswer α ρ))
    (there : Step (List α) (PlainCall α ρ) (ListAnswer α ρ)) : Prop where
  call : there.call = here.start.plain here.call
  answer : here.answer = there.answer
  sequence : here.finish.flat = there.finish
  size : here.finish.size = there.finish.length
  refused (error : Error) :
    here.answer = .error error ↔ Plain.refusal there.start.length there.call = some error
  unchanged (error : Error) : here.answer = .error error → here.finish = here.start
  flag (value : Bool) :
    here.answer = .ok (.flag value) → (value = true ↔ there.finish ≠ there.start)
  sorted (order : WeakOrder α) (items : List α) : here.call = .sortBy order →
    (order.StablySorted there.start items ↔ items = there.finish)

theorem Counted.refines [BEq α] (counted : list.Counted) (call : ListCall α ρ) :
    Refines (.of list call (list.call call))
      (.of list.flat (list.plain call) (Plain.call list.flat (list.plain call))) := by
  have tracks := counted.call call
  constructor
  case call => rfl
  case answer => exact tracks.answer
  case sequence => exact tracks.sequence
  case size => exact tracks.counted.trans (congrArg List.length tracks.sequence)
  case refused =>
    intro error
    rw [← Plain.call_refused]
    show (list.call call).answer = .error error ↔
      (Plain.call list.flat (list.plain call)).answer = .error error
    rw [tracks.answer]
  case unchanged =>
    intro error refused
    exact call_refused_same refused
  case flag =>
    intro value answered
    exact Plain.flag_iff (tracks.answer.symm.trans answered)
  case sorted =>
    rintro order items rfl
    have stable := order.mergeSort_stable list.flat
    constructor
    · exact fun sorted => sorted.unique stable
    · rintro rfl
      exact stable

structure Shows [BEq α] (list : SegmentedList α) (items : List α) : Prop where
  flat : list.flat = items
  size : list.size = items.length
  get (index : Nat) : list.get index = Plain.get items index
  sameItems (others : List α) : list.sameItems others = (items == others)
  feed {η : Type} (takeLength : η → Nat → η) (takeItem : η → α → η) (hasher : η) :
    list.feed takeLength takeItem hasher = items.foldl takeItem (takeLength hasher items.length)

theorem beq_with_length [BEq α] (items others : List α) :
    (items.length == others.length && items == others) = (items == others) := by
  cases same : items == others with
  | true => simp [List.length_eq_of_beq same]
  | false => rw [Bool.and_false]

theorem Counted.shows [BEq α] (counted : list.Counted) : Shows list list.flat where
  flat := rfl
  size := counted
  get := counted.get
  sameItems others := by
    rw [SegmentedList.sameItems, counted]
    exact beq_with_length list.flat others
  feed takeLength takeItem hasher := by
    rw [SegmentedList.feed, counted]

theorem Counted.same [BEq α] (counted : list.Counted) (counted' : other.Counted) :
    list.same other = (list.flat == other.flat) := by
  rw [SegmentedList.same, counted, counted']
  exact beq_with_length list.flat other.flat

-- The length is what every call needs and every call keeps: the induction is for any counted list,
-- since the next call finds other segments.
theorem Counted.run [BEq α] (counted : list.Counted) (calls : List (ListCall α ρ)) :
    List.Forall₂ Refines (Step.run SegmentedList.call list calls)
        (Step.run Plain.call list.flat (plainCalls list calls)) ∧
      (Step.reached SegmentedList.call list calls).Counted ∧
      (Step.reached SegmentedList.call list calls).flat =
        Step.reached Plain.call list.flat (plainCalls list calls) := by
  induction calls generalizing list with
  | nil => exact ⟨.nil, counted, rfl⟩
  | cons call rest ih =>
    have tracks := counted.call call
    obtain ⟨steps, kept, same⟩ := ih tracks.counted
    rw [tracks.sequence] at steps same
    exact ⟨.cons (counted.refines call) steps, kept, same⟩

/-- Whatever the segments, a list goes through any calls as its plain sequence does, and what is read
off it afterwards, alone or beside another list, does not depend on the segments. -/
theorem calls_refine_plain [BEq α] (segments others : List (List α))
    (calls more : List (ListCall α ρ)) :
    let list := Step.reached SegmentedList.call (ofSegments segments) calls
    let other := Step.reached SegmentedList.call (ofSegments others) more
    let plain := plainCalls (ofSegments segments) calls
    List.Forall₂ Refines (Step.run SegmentedList.call (ofSegments segments) calls)
        (Step.run Plain.call segments.flatten plain) ∧
      Shows list (Step.reached Plain.call segments.flatten plain) ∧
      list.same other = (list.flat == other.flat) := by
  have counted := counted_ofSegments segments
  obtain ⟨steps, kept, same⟩ := counted.run calls
  obtain ⟨_, kept', _⟩ := (counted_ofSegments others).run more
  have shows := kept.shows
  rw [same] at shows
  exact ⟨steps, shows, kept.same kept'⟩

end SegmentedList

end Collections
