import Collections.Proofs.Bag.LiveWalk
import Collections.Proofs.Elements

/-! Live walks over a bag that nobody else changes.

What a walk has ahead of it follows from its place, from what is emitted there and from what the bag holds
now. A next move takes the first of it. A removal lowers a count and, if that is the count of the element
under way, what is emitted of it as well, so that the walk has the same ahead of it as before.
-/

set_option autoImplicit false

namespace Collections

variable {α : Type}

namespace WalkCall

def isOwn : WalkCall α → Bool
  | .next | .remove => true
  | .elsewhere _ => false

def isNext : WalkCall α → Bool
  | .next => true
  | .remove | .elsewhere _ => false

end WalkCall

namespace LiveWalk

variable [DecidableEq α] {walk : LiveWalk α} {bag now : Bag α} {key : α} {rest : List α}

/-! ## What is ahead -/

/-- The occurrences a walk would still give if the bag stayed as it is. -/
def ahead (walk : LiveWalk α) (bag : Bag α) : List α :=
  match walk.keys.drop walk.position with
  | [] => []
  | key :: rest =>
    List.replicate (bag.countOf key - walk.emitted).toNat key ++
      rest.flatMap fun other => List.replicate (bag.countOf other) other

theorem ahead_at_end (ended : walk.keys.drop walk.position = []) : walk.ahead bag = [] := by
  rw [ahead, ended]

theorem ahead_under (under : walk.keys.drop walk.position = key :: rest) :
    walk.ahead bag = List.replicate (bag.countOf key - walk.emitted).toNat key ++
      rest.flatMap fun other => List.replicate (bag.countOf other) other := by
  rw [ahead, under]

/-- Where nothing is emitted yet, all occurrences of the keys that are left are ahead. -/
theorem ahead_of_fresh (fresh : walk.emitted = 0) :
    walk.ahead bag = (walk.keys.drop walk.position).flatMap fun key =>
      List.replicate (bag.countOf key) key := by
  cases under : walk.keys.drop walk.position with
  | nil => rw [ahead_at_end under, List.flatMap_nil]
  | cons key rest => rw [ahead_under under, fresh, Int.sub_zero, Int.toNat_natCast, List.flatMap_cons]

/-- A next move gives the first occurrence ahead, and leaves the others. -/
theorem next_takes_ahead (walk : LiveWalk α) (bag : Bag α) :
    (walk.next bag).1 = (walk.ahead bag).head? ∧
      (walk.next bag).2.ahead bag = (walk.ahead bag).tail := by
  generalize under : walk.keys.drop walk.position = left
  induction left generalizing walk with
  | nil =>
    rw [next_at_end under, ahead_at_end under]
    exact ⟨rfl, rfl⟩
  | cons key rest ih =>
    by_cases more : walk.emitted < bag.countOf key
    · have one : (bag.countOf key - walk.emitted).toNat =
          (bag.countOf key - (walk.emitted + 1)).toNat + 1 := by omega
      rw [next_here under more, ahead_under under, one, List.replicate_succ]
      exact ⟨rfl, ahead_under under⟩
    · -- The next key is under way then, with nothing emitted.
      have none : (bag.countOf key - walk.emitted).toNat = 0 := by omega
      have after : walk.keys.drop (walk.position + 1) = rest := by
        rw [← List.tail_drop, under, List.tail_cons]
      have same : walk.ahead bag =
          ahead { walk with position := walk.position + 1, emitted := 0 } bag := by
        rw [ahead_under under, none, List.replicate_zero, List.nil_append, ahead_of_fresh rfl, after]
      rw [next_later under more, same]
      exact ih _ after

theorem ahead_start (valid : bag.contents.Valid) : (start bag).ahead bag = bag.toList := by
  rw [ahead_of_fresh rfl, start, List.drop_zero, Entries.items, List.flatMap_map, Bag.toList,
    Entries.expand]
  apply List.flatMap_congr
  intro entry member
  have counted := ((valid.mem_entries_iff entry).mp (bag.entries_perm.subset member)).2
  rw [Bag.countOf, counted]

-- The keys that are left differ from the one taken out, unless that is the one under way.
/-- Taking out an occurrence of a key the walk has reached leaves what is ahead. -/
theorem ahead_of_taken {after : LiveWalk α} {position : Nat} (distinct : walk.keys.Nodup)
    (found : walk.keys[position]? = some key) (within : position ≤ walk.position)
    (present : 0 < bag.countOf key)
    (counts : ∀ each, now.countOf each = bag.countOf each - if key = each then 1 else 0)
    (unmoved : after.keys.drop after.position = walk.keys.drop walk.position)
    (emitted : after.emitted = if position = walk.position then walk.emitted - 1 else walk.emitted) :
    after.ahead now = walk.ahead bag := by
  have apart {index : Nat} {other : α} (beyond : position < index)
      (there : walk.keys[index]? = some other) : key ≠ other := by
    rintro rfl
    have inside : position < walk.keys.length := (List.getElem?_eq_some_iff.mp found).1
    have same := (List.getElem?_inj inside distinct).mp (found.trans there.symm)
    omega
  cases left : walk.keys.drop walk.position with
  | nil => rw [ahead_at_end left, ahead_at_end (unmoved.trans left)]
  | cons current rest =>
    have later : ∀ other ∈ rest, now.countOf other = bag.countOf other := by
      intro other member
      obtain ⟨index, there⟩ := List.mem_iff_getElem?.mp member
      have reached : walk.keys[walk.position + (index + 1)]? = some other := by
        rw [← List.getElem?_drop, left, List.getElem?_cons_succ, there]
      rw [counts, if_neg (apart (by omega) reached), Nat.sub_zero]
    have here : walk.keys[walk.position]? = some current := by
      rw [← List.head?_drop, left, List.head?_cons]
    have under : (now.countOf current : Int) - after.emitted = bag.countOf current - walk.emitted := by
      rw [counts, emitted]
      by_cases same : position = walk.position
      · subst same
        cases found.symm.trans here
        rw [if_pos rfl, if_pos rfl]
        omega
      · rw [if_neg same, if_neg (apart (by omega) here), Nat.sub_zero]
    rw [ahead_under left, ahead_under (unmoved.trans left), under]
    congr 1
    apply List.flatMap_congr
    intro other member
    rw [later other member]

/-! ## Moves -/

/-- After so many next moves, and nothing but moves of the walk: what was given and what is ahead are the
two parts of what the bag listed at the start. What was taken out, or can be, was given before, and the bag
misses nothing else. -/
structure Whole (bag : Bag α) (nexts : Nat) (state : LiveWalk α × Bag α) (record : WalkRecord α) :
    Prop where
  underway : Underway (start bag).keys state record
  given : record.given = bag.toList.take nexts
  ahead : state.1.ahead state.2 = bag.toList.drop nexts
  backed : (record.taken ++ record.pending.toList).Subperm record.given
  counts (item : α) : state.2.countOf item + record.taken.count item = bag.countOf item

variable {nexts : Nat} {record : WalkRecord α}

theorem whole_start (writable : bag.isWritable) (valid : bag.contents.Valid) :
    Whole bag 0 (start bag, bag) .empty where
  underway := ⟨writable, valid, rfl, _, _, tracks_start valid⟩
  given := rfl
  ahead := ahead_start valid
  backed := List.nil_subperm
  counts _ := rfl

theorem note_next (walk : LiveWalk α) (now : Bag α) (record : WalkRecord α) :
    record.note (step (walk, now) .next) = ((walk.next now).1.map record.give).getD record := by
  simp only [step, Step.of, call, WalkRecord.note]
  cases (walk.next now).1 <;> rfl

theorem Whole.next (whole : Whole bag nexts (walk, now) record) :
    Whole bag (nexts + 1) (step (walk, now) .next).finish (record.note (step (walk, now) .next)) ∧
      (step (walk, now) .next).answer = .ok (.given bag.toList[nexts]?) := by
  obtain ⟨given, left⟩ := next_takes_ahead walk now
  rw [whole.ahead, List.head?_drop] at given
  rw [whole.ahead, List.tail_drop] at left
  have underway := whole.underway.next.1
  have answered : (step (walk, now) .next).answer = .ok (.given bag.toList[nexts]?) := by
    rw [← given]
    rfl
  refine ⟨?_, answered⟩
  rw [note_next, given] at underway ⊢
  cases found : bag.toList[nexts]? with
  | none =>
    rw [found] at underway
    refine ⟨underway, ?_, left, whole.backed, whole.counts⟩
    rw [List.take_add_one, found, Option.toList_none, List.append_nil]
    exact whole.given
  | some item =>
    rw [found] at underway
    refine ⟨underway, ?_, left, ?_, whole.counts⟩
    · rw [List.take_add_one, found, ← whole.given]
      rfl
    · have taken : record.taken.Subperm record.given :=
        (List.sublist_append_left _ _).subperm.trans whole.backed
      exact (List.subperm_append_right [item]).mpr taken

/-- The element a removal would take is in the bag still. -/
theorem Whole.present (whole : Whole bag nexts (walk, now) record) (valid : bag.contents.Valid)
    (pending : record.pending = some key) : 0 < now.countOf key := by
  have backed := whole.backed.count_le key
  have listed : record.given.count key ≤ bag.toList.count key := by
    rw [whole.given]
    exact (List.take_sublist nexts bag.toList).count_le key
  rw [pending, Option.toList_some, List.count_append, List.count_singleton_self] at backed
  rw [Bag.count_toList valid, ← whole.counts] at listed
  simp only at listed
  omega

theorem Whole.remove (whole : Whole bag nexts (walk, now) record) (valid : bag.contents.Valid) :
    Whole bag nexts (step (walk, now) .remove).finish (record.note (step (walk, now) .remove)) := by
  cases pending : record.pending with
  | none =>
    obtain ⟨refused, noted⟩ := whole.underway.refuse pending
    rw [noted, refused]
    exact whole
  | some key =>
    obtain ⟨position, next, found, within, removed, noted, underway, counts⟩ :=
      whole.underway.take pending
    have distinct : walk.keys.Nodup := by
      obtain ⟨before, left, tracks⟩ := whole.underway.tracks
      exact tracks.distinct
    have present := whole.present valid pending
    rw [removed] at underway
    rw [noted, removed]
    refine ⟨underway, whole.given, ?_, ?_, ?_⟩
    · have still : LiveWalk.ahead { walk with
          emitted := if position = walk.position then walk.emitted - 1 else walk.emitted
          last := none } next = walk.ahead now :=
        ahead_of_taken distinct found within present counts rfl rfl
      exact still.trans whole.ahead
    · have backed := whole.backed
      rw [pending] at backed
      rwa [WalkRecord.take, Option.toList_none, List.append_nil]
    · intro item
      have counted := whole.counts item
      simp only [Step.of, WalkRecord.take, List.count_append, List.count_singleton, counts]
      by_cases same : key = item
      · subst same
        rw [if_pos rfl, if_pos BEq.rfl]
        simp only at counted
        omega
      · rw [if_neg same, beq_false_of_ne same]
        exact counted

/-- Whatever was taken out is what the bag is smaller by. -/
theorem Whole.size {state : LiveWalk α × Bag α} (whole : Whole bag nexts state record)
    (valid : bag.contents.Valid) : state.2.size + record.taken.length = bag.size := by
  have still_valid := whole.underway.valid
  have parts : (state.2.toList ++ record.taken).Perm bag.toList := by
    rw [List.perm_iff_count]
    intro item
    rw [List.count_append, Bag.count_toList still_valid, Bag.count_toList valid, whole.counts]
  rw [← Bag.length_toList still_valid, ← Bag.length_toList valid, ← parts.length_eq, List.length_append]

/-! ## Runs -/

def nextsIn (steps : List (WalkStep α)) : Nat :=
  steps.countP fun step => step.call.isNext

def recordOf (steps : List (WalkStep α)) : WalkRecord α :=
  steps.foldl WalkRecord.note .empty

/-- A step after these of a walk that nobody disturbs. One by one the next moves give what the bag listed at
the start, and then nothing; a removal takes out what was given last; and the bag lacks what was taken out
and nothing else. -/
structure Undisturbed (bag : Bag α) (earlier : List (WalkStep α)) (step : WalkStep α) : Prop where
  next : step.call = .next → step.answer = .ok (.given bag.toList[nextsIn earlier]?)
  remove : step.call = .remove → Removes step (recordOf earlier).pending
  counts (item : α) : step.finish.2.countOf item + (recordOf (earlier ++ [step])).taken.count item =
    bag.countOf item
  size : step.finish.2.size + (recordOf (earlier ++ [step])).taken.length = bag.size

variable {state : LiveWalk α × Bag α} {earlier : List (WalkStep α)} {move : WalkCall α}

theorem Whole.moved (whole : Whole bag (nextsIn earlier) state (recordOf earlier))
    (valid : bag.contents.Valid) (own : move.isOwn) :
    Whole bag (nextsIn (earlier ++ [step state move])) (step state move).finish
        (recordOf (earlier ++ [step state move])) ∧
      Undisturbed bag earlier (step state move) := by
  have noted : recordOf (earlier ++ [step state move]) =
      (recordOf earlier).note (step state move) := by
    rw [recordOf, List.foldl_append]
    rfl
  have counted : nextsIn (earlier ++ [step state move]) =
      nextsIn earlier + if move.isNext then 1 else 0 := by
    rw [nextsIn, List.countP_append, List.countP_singleton]
    rfl
  have undisturbed
      (after : Whole bag (nextsIn (earlier ++ [step state move]))
        (step state move).finish (recordOf (earlier ++ [step state move])))
      (next : move = .next →
        (step state move).answer = .ok (.given bag.toList[nextsIn earlier]?))
      (remove : move = .remove → Removes (step state move) (recordOf earlier).pending) :
      Undisturbed bag earlier (step state move) :=
    ⟨next, remove, after.counts, after.size valid⟩
  rw [noted, counted] at undisturbed ⊢
  obtain ⟨walk, now⟩ := state
  cases move with
  | next =>
    obtain ⟨after, answered⟩ := whole.next
    exact ⟨after, undisturbed after (fun _ => answered) nofun⟩
  | remove =>
    have after := whole.remove valid
    exact ⟨after, undisturbed after nofun fun _ => whole.underway.remove.2⟩
  | elsewhere change => cases own

theorem toList_inBlocks (valid : bag.contents.Valid) : InBlocks (start bag).keys bag.toList := by
  have whole := ahead_start valid
  rw [ahead_of_fresh rfl] at whole
  simp only [InBlocks, Bag.count_toList valid]
  exact whole.symm

/-- A walk that nobody disturbs gives every occurrence once, in the order of the bag and with equal elements
side by side, whichever of them it takes out on the way. -/
theorem complete_undisturbed (writable : bag.isWritable) (valid : bag.contents.Valid)
    {moves : List (WalkCall α)} (own : ∀ move ∈ moves, move.isOwn) :
    (bag.toList.length = bag.size ∧ (∀ item, bag.toList.count item = bag.countOf item) ∧
        InBlocks (start bag).keys bag.toList) ∧
      ∀ earlier step later, Step.run call (start bag, bag) moves = earlier ++ step :: later →
        Undisturbed bag earlier step := by
  refine ⟨⟨Bag.length_toList valid, Bag.count_toList valid, toList_inBlocks valid⟩, ?_⟩
  intro earlier step later split
  have begun : Whole bag (nextsIn ([] : List (WalkStep α))) (start bag, bag) (recordOf []) :=
    whole_start writable valid
  exact Step.run_history (fun _ _ _ own whole => (Whole.moved whole valid own).1)
    (fun _ _ _ own whole => (Whole.moved whole valid own).2) begun own split

/-- The first occurrence of an element is taken out while there is another, and the last element after the
walk has ended. -/
theorem complete_undisturbed_past_its_end :
    let bag : Bag Nat := .shared 0 (.sorted compare (.plain ⟨[(2, 1), (1, 2)], 3⟩))
    let moves : List (WalkCall Nat) := [.next, .remove, .next, .next, .next, .remove, .next]
    let steps := Step.run call (start bag, bag) moves
    bag.isWritable ∧ bag.contents.Valid ∧ (∀ move ∈ moves, move.isOwn) ∧
      steps.map (·.answer) = [.ok (.given (some 1)), .ok .taken, .ok (.given (some 1)),
        .ok (.given (some 2)), .ok (.given none), .ok .taken, .ok (.given none)] ∧
      (recordOf steps).taken = [1, 2] ∧
      (bag.toList.length = bag.size ∧ (∀ item, bag.toList.count item = bag.countOf item) ∧
        InBlocks (start bag).keys bag.toList) ∧
      ∀ earlier step later, steps = earlier ++ step :: later → Undisturbed bag earlier step := by
  intro bag moves steps
  have valid : bag.contents.Valid := ⟨by decide, by decide, by decide, by decide⟩
  have own : ∀ move ∈ moves, move.isOwn := by decide
  have begun : start bag = ⟨[1, 2], 0, 0, none⟩ := by
    simp [start, bag, Bag.entries, Bag.arrange, Entries.items, List.mergeSort, compare,
      compareOfLessAndEq]
  have answers : steps.map (·.answer) = [.ok (.given (some 1)), .ok .taken, .ok (.given (some 1)),
      .ok (.given (some 2)), .ok (.given none), .ok .taken, .ok (.given none)] := by
    simp only [steps, begun, moves, bag]
    rfl
  have taken : (recordOf steps).taken = [1, 2] := by
    simp only [steps, begun, moves, bag]
    rfl
  exact ⟨rfl, valid, own, answers, taken, complete_undisturbed rfl valid own⟩

end LiveWalk

end Collections
