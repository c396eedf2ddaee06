import Collections.Bag.LiveWalk
import Collections.Proofs.Bag.Transparent

/-! Live walks over a bag that changes under them.

What a walk has done is recorded from its answers alone. The walk itself only knows a position in its keys
and a number of occurrences; the invariant says how these stand for the record, and each move and each call
from elsewhere keeps it.
-/

set_option autoImplicit false

namespace Collections

variable {α : Type}

inductive WalkCall (α : Type) where
  | next
  | remove
  | elsewhere (call : Call α)

inductive WalkAnswer (α : Type) where
  | given (item : Option α)
  | taken
  | changed (flag : Option Bool)

structure WalkRecord (α : Type) where
  given : List α
  taken : List α
  pending : Option α

namespace WalkRecord

def empty : WalkRecord α := ⟨[], [], none⟩

def give (record : WalkRecord α) (item : α) : WalkRecord α :=
  { record with given := record.given ++ [item], pending := some item }

def take (record : WalkRecord α) (item : α) : WalkRecord α :=
  { record with taken := record.taken ++ [item], pending := none }

/-- A removal uses up what is pending, whether it is accepted or not. -/
def note {σ : Type} (record : WalkRecord α) (step : Step σ (WalkCall α) (WalkAnswer α)) : WalkRecord α :=
  match step.call, step.answer with
  | .next, .ok (.given (some item)) => record.give item
  | .remove, .ok _ => (record.pending.map record.take).getD record
  | .remove, .error _ => { record with pending := none }
  | _, _ => record

end WalkRecord

variable [DecidableEq α]

def InBlocks (keys given : List α) : Prop :=
  given = keys.flatMap fun key => List.replicate (given.count key) key

-- The keys before this one keep their blocks and the keys after it have none.
/-- One more of the key that was reached last makes its block longer, or starts it. -/
theorem InBlocks.concat {before after given : List α} {key : α}
    (blocks : InBlocks (before ++ key :: after) given) (distinct : (before ++ key :: after).Nodup)
    (reached : given ⊆ before ++ [key]) : InBlocks (before ++ key :: after) (given ++ [key]) := by
  obtain ⟨-, apart, disjoint⟩ := List.nodup_append.mp distinct
  have others {other : α} (different : key ≠ other) :
      (given ++ [key]).count other = given.count other := by
    rw [List.count_append, List.count_singleton, beq_false_of_ne different]
    rfl
  have earlier : ∀ other ∈ before, key ≠ other := by
    intro other member same
    exact disjoint other member key List.mem_cons_self same.symm
  have later : ∀ other ∈ after, key ≠ other ∧ given.count other = 0 := by
    intro other member
    have different : key ≠ other := fun same => (List.nodup_cons.mp apart).1 (same ▸ member)
    refine ⟨different, List.count_eq_zero_of_not_mem fun present => ?_⟩
    rcases List.mem_append.mp (reached present) with front | last
    · exact disjoint other front other (List.mem_cons_of_mem key member) rfl
    · exact different (List.mem_singleton.mp last).symm
  have kept : (before.flatMap fun other => List.replicate ((given ++ [key]).count other) other) =
      before.flatMap fun other => List.replicate (given.count other) other := by
    apply List.flatMap_congr
    intro other member
    rw [others (earlier other member)]
  have none : (after.flatMap fun other => List.replicate (given.count other) other) = [] := by
    apply List.flatMap_eq_nil_iff.mpr
    intro other member
    rw [(later other member).2, List.replicate_zero]
  have still : (after.flatMap fun other => List.replicate ((given ++ [key]).count other) other) = [] := by
    apply List.flatMap_eq_nil_iff.mpr
    intro other member
    rw [others (later other member).1, (later other member).2, List.replicate_zero]
  unfold InBlocks at blocks ⊢
  rw [List.flatMap_append, List.flatMap_cons, none, List.append_nil] at blocks
  rw [List.flatMap_append, List.flatMap_cons, kept, still, List.append_nil, List.count_append,
    List.count_singleton_self, List.replicate_succ', ← List.append_assoc, ← blocks]

namespace LiveWalk

/-! ## Single moves -/

variable {walk : LiveWalk α} {bag : Bag α} {key : α} {rest : List α}

theorem next_at_end (ended : walk.keys.drop walk.position = []) : walk.next bag = (none, walk) := by
  rw [next, ended, seek]

theorem next_here (under : walk.keys.drop walk.position = key :: rest)
    (left : walk.emitted < bag.countOf key) :
    walk.next bag =
      (some key, { walk with emitted := walk.emitted + 1, last := some walk.position }) := by
  simp only [next, under, seek, left, ↓reduceIte]

/-- An element without occurrences left is passed over for good. -/
theorem next_later (under : walk.keys.drop walk.position = key :: rest)
    (spent : ¬ walk.emitted < bag.countOf key) :
    walk.next bag = next { walk with position := walk.position + 1, emitted := 0 } bag := by
  have after : walk.keys.drop (walk.position + 1) = rest := by
    rw [← List.tail_drop, under, List.tail_cons]
  simp only [next, under, seek, spent, ↓reduceIte, after]

theorem remove_of_none (forgotten : walk.last = none) :
    walk.remove bag = ⟨.error .nothingReturned, (walk, bag)⟩ := by
  rw [remove, forgotten]
  rfl

theorem remove_of_some {position : Nat} (kept : walk.last = some position)
    (found : walk.keys[position]? = some key) {changed : Bool} {next : Bag α}
    (removed : Bag.remove key bag = ⟨.ok changed, next⟩) :
    walk.remove bag = ⟨.ok (), ({ walk with
      emitted := if position = walk.position then walk.emitted - 1 else walk.emitted
      last := none }, next)⟩ := by
  simp only [remove, kept, found, Option.bind_some, Option.map_some, removed]

/-! ## What a walk knows of its record -/

/-- The walk remembers where the pending element is. If that is the element under way, an occurrence of it
is counted as given. -/
def Remembers (walk : LiveWalk α) : Option α → Prop
  | none => walk.last = none
  | some key => ∃ position ≤ walk.position, walk.last = some position ∧
      walk.keys[position]? = some key ∧ (position = walk.position → 0 < walk.emitted)

/-- A walk stands between the keys it is done with and those that are left, the first of which is under
way. What it counts as emitted of that one was given and not taken out again. -/
structure Tracks (before left : List α) (walk : LiveWalk α) (record : WalkRecord α) : Prop where
  keys : walk.keys = before ++ left
  distinct : walk.keys.Nodup
  position : walk.position = before.length
  blocks : InBlocks walk.keys record.given
  given : record.given ⊆ before ++ left.take 1
  taken : record.taken ⊆ record.given
  pending : ∀ key, record.pending = some key → key ∈ record.given
  emitted : ∀ key rest, left = key :: rest →
    walk.emitted + record.taken.count key = record.given.count key
  nonneg : 0 ≤ walk.emitted
  bounded : walk.emitted ≤ maxCount
  remembers : walk.Remembers record.pending

variable {record : WalkRecord α} {before left : List α}

theorem Tracks.under (tracks : Tracks before left walk record) :
    walk.keys.drop walk.position = left := by
  rw [tracks.keys, tracks.position, List.drop_left]

theorem Tracks.current (tracks : Tracks before (key :: rest) walk record) :
    walk.keys[walk.position]? = some key := by
  rw [tracks.keys, tracks.position, List.getElem?_append_right (Nat.le_refl _), Nat.sub_self,
    List.getElem?_cons_zero]

theorem tracks_start {bag : Bag α} (valid : bag.contents.Valid) :
    Tracks [] (start bag).keys (start bag) .empty where
  keys := rfl
  distinct := (Bag.valid_entries valid).distinct
  position := rfl
  blocks := by
    simp [InBlocks, WalkRecord.empty]
  given := List.nil_subset _
  taken := List.nil_subset _
  pending := nofun
  emitted := fun _ _ _ => rfl
  nonneg := Int.le_refl 0
  bounded := Int.natCast_nonneg maxCount
  remembers := rfl

/-- The keys after the one under way were not given. -/
theorem Tracks.not_given (tracks : Tracks before (key :: rest) walk record) {other : α}
    (later : other ∈ rest) : other ∉ record.given := by
  have distinct := tracks.distinct
  rw [tracks.keys, List.append_cons] at distinct
  intro present
  exact (List.nodup_append.mp distinct).2.2 other (tracks.given present) other later rfl

/-- Passing over an element leaves the record as it is. -/
theorem Tracks.pass (tracks : Tracks before (key :: rest) walk record) :
    Tracks (before ++ [key]) rest { walk with position := walk.position + 1, emitted := 0 } record where
  keys := by
    rw [tracks.keys, List.append_cons]
  distinct := tracks.distinct
  position := by
    simp only [tracks.position, List.length_append, List.length_singleton]
  blocks := tracks.blocks
  given := fun item member => List.mem_append_left _ (tracks.given member)
  taken := tracks.taken
  pending := tracks.pending
  emitted := by
    rintro next more rfl
    have fresh := tracks.not_given List.mem_cons_self
    rw [List.count_eq_zero_of_not_mem fresh,
      List.count_eq_zero_of_not_mem fun member => fresh (tracks.taken member)]
    rfl
  nonneg := Int.le_refl 0
  bounded := Int.natCast_nonneg maxCount
  remembers := by
    have remembers := tracks.remembers
    unfold Remembers at remembers ⊢
    split at remembers
    · exact remembers
    · obtain ⟨position, within, kept, found, -⟩ := remembers
      exact ⟨position, Nat.le_succ_of_le within, kept, found, by intro same; simp only at same; omega⟩

theorem Tracks.give (tracks : Tracks before (key :: rest) walk record) (room : walk.emitted < maxCount) :
    Tracks before (key :: rest) { walk with emitted := walk.emitted + 1, last := some walk.position }
      (record.give key) where
  keys := tracks.keys
  distinct := tracks.distinct
  position := tracks.position
  blocks := by
    have blocks := tracks.blocks
    have distinct := tracks.distinct
    simp only [tracks.keys] at blocks distinct ⊢
    exact blocks.concat distinct tracks.given
  given := by
    intro item member
    rcases List.mem_append.mp member with earlier | last
    · exact tracks.given earlier
    · exact List.mem_append_right _ last
  taken := fun item member => List.mem_append_left _ (tracks.taken member)
  pending := by
    rintro _ ⟨⟩
    exact List.mem_append_right _ (List.mem_singleton_self key)
  emitted := by
    rintro _ _ ⟨⟩
    have counted := tracks.emitted key rest rfl
    simp only [WalkRecord.give, List.count_append, List.count_singleton_self]
    omega
  nonneg := by
    have := tracks.nonneg
    simp only
    omega
  bounded := room
  remembers := by
    have := tracks.nonneg
    refine ⟨walk.position, Nat.le_refl _, rfl, ?_, ?_⟩
    · exact tracks.current
    · intro _
      simp only
      omega

-- A removal may come when the walk has passed the element. It is no longer under way then, and what is
-- emitted of another one stays.
/-- Taking the pending element out. -/
theorem Tracks.take (tracks : Tracks before left walk record) (pending : record.pending = some key) :
    ∃ position, walk.last = some position ∧ walk.keys[position]? = some key ∧
      Tracks before left { walk with
        emitted := if position = walk.position then walk.emitted - 1 else walk.emitted
        last := none } (record.take key) := by
  have remembers := tracks.remembers
  rw [pending] at remembers
  obtain ⟨position, within, kept, found, counted⟩ := remembers
  have nonneg := tracks.nonneg
  have bounded := tracks.bounded
  refine ⟨position, kept, found, tracks.keys, tracks.distinct, tracks.position, tracks.blocks, tracks.given,
    ?_, nofun, ?_, ?_, ?_, rfl⟩
  · intro item member
    rcases List.mem_append.mp member with earlier | last
    · exact tracks.taken earlier
    · exact List.mem_singleton.mp last ▸ tracks.pending key pending
  · rintro current rest rfl
    have counting := tracks.emitted current rest rfl
    have under := tracks.current
    simp only [WalkRecord.take, List.count_append, List.count_singleton]
    by_cases same : position = walk.position
    · subst same
      cases found.symm.trans under
      rw [if_pos rfl, if_pos BEq.rfl]
      omega
    · have other : key ≠ current := by
        rintro rfl
        have inside : position < walk.keys.length := (List.getElem?_eq_some_iff.mp found).1
        exact same ((List.getElem?_inj inside tracks.distinct).mp (found.trans under.symm))
      rw [if_neg same, beq_false_of_ne other]
      exact counting
  · simp only
    split <;> omega
  · simp only
    split <;> omega

/-- What a next move comes to: an element of which the bag holds more than was given and not taken out, or
none, if it holds no more of the keys that are left. -/
inductive Gives (bag : Bag α) (record : WalkRecord α) (left : List α) : Option α × LiveWalk α → Prop
  | item {before rest : List α} {key : α} {walk : LiveWalk α}
      (tracks : Tracks before (key :: rest) walk (record.give key))
      (covered : record.given.count key + 1 ≤ bag.countOf key + record.taken.count key)
      (present : 0 < bag.countOf key) : Gives bag record left (some key, walk)
  | none {before rest : List α} {walk : LiveWalk α} (tracks : Tracks before rest walk record)
      (spent : ∀ key ∈ left, bag.countOf key + record.taken.count key ≤ record.given.count key) :
      Gives bag record left (none, walk)

theorem Tracks.next (tracks : Tracks before left walk record) (valid : bag.contents.Valid) :
    Gives bag record left (walk.next bag) := by
  induction left generalizing before walk with
  | nil =>
    rw [next_at_end tracks.under]
    exact .none tracks (List.forall_mem_nil _)
  | cons key rest ih =>
    have counted := tracks.emitted key rest rfl
    by_cases more : walk.emitted < bag.countOf key
    · have held : bag.countOf key ≤ maxCount := valid.countOf_le_maxCount key
      have nonneg := tracks.nonneg
      rw [next_here tracks.under more]
      exact .item (tracks.give (by omega)) (by omega) (by omega)
    · rw [next_later tracks.under more]
      have gives := ih tracks.pass
      generalize LiveWalk.next _ bag = outcome at gives ⊢
      cases gives with
      | item tracks covered present => exact .item tracks covered present
      | none tracks spent => exact .none tracks (List.forall_mem_cons.mpr ⟨by omega, spent⟩)

/-! ## Moves and calls from elsewhere -/

def call : LiveWalk α × Bag α → WalkCall α → Attempt (LiveWalk α × Bag α) (WalkAnswer α)
  | (walk, bag), .next => ⟨.ok (.given (walk.next bag).1), ((walk.next bag).2, bag)⟩
  | (walk, bag), .remove => (walk.remove bag).map fun _ => .taken
  | (walk, bag), .elsewhere call => ((bag.perform call).within (walk, ·)).map .changed

abbrev WalkStep (α : Type) := Step (LiveWalk α × Bag α) (WalkCall α) (WalkAnswer α)

def step (state : LiveWalk α × Bag α) (move : WalkCall α) : WalkStep α :=
  .of state move (call state move)

structure Moves (record : WalkRecord α) (step : WalkStep α) : Prop where
  bag : step.finish.2 = step.start.2
  answer : (∃ item, step.answer = .ok (.given (some item)) ∧
      record.given.count item + 1 ≤ step.start.2.countOf item + record.taken.count item ∧
      0 < step.start.2.countOf item) ∨
    step.answer = .ok (.given none) ∧ ∀ key ∈ step.start.1.keys.drop step.start.1.position,
      step.start.2.countOf key + record.taken.count key ≤ record.given.count key

inductive Removes (step : WalkStep α) : Option α → Prop
  | refused (answer : step.answer = .error .nothingReturned) (unchanged : step.finish = step.start) :
      Removes step none
  | taken {item : α} (answer : step.answer = .ok .taken)
      (counts : ∀ each, step.finish.2.countOf each =
        step.start.2.countOf each - if item = each then 1 else 0) : Removes step (some item)

structure Underway (keys : List α) (state : LiveWalk α × Bag α) (record : WalkRecord α) : Prop where
  writable : state.2.isWritable
  valid : state.2.contents.Valid
  keys : state.1.keys = keys
  tracks : ∃ before left, Tracks before left state.1 record

variable {keys : List α} {item : α}

theorem keys_next (walk : LiveWalk α) (bag : Bag α) : (walk.next bag).2.keys = walk.keys := by
  unfold LiveWalk.next
  split <;> rfl

theorem Underway.next (underway : Underway keys (walk, bag) record) :
    Underway keys (step (walk, bag) .next).finish (record.note (step (walk, bag) .next)) ∧
      Moves record (step (walk, bag) .next) := by
  obtain ⟨writable, valid, rfl, before, left, tracks⟩ := underway
  have gives := tracks.next valid
  have same := keys_next walk bag
  rw [← tracks.under] at gives
  simp only [step, Step.of, call]
  generalize walk.next bag = outcome at gives same ⊢
  cases gives with
  | item tracks covered present =>
    exact ⟨⟨writable, valid, same, _, _, tracks⟩, rfl, .inl ⟨_, rfl, covered, present⟩⟩
  | none tracks spent => exact ⟨⟨writable, valid, same, _, _, tracks⟩, rfl, .inr ⟨rfl, spent⟩⟩

/-- Taking one occurrence out of a bag that takes changes is never refused. -/
theorem remove_from_writable (writable : bag.isWritable) (valid : bag.contents.Valid) (item : α) :
    ∃ changed next, Bag.remove item bag = ⟨.ok changed, next⟩ ∧ next.isWritable ∧ next.contents.Valid ∧
      ∀ each, next.countOf each = bag.countOf each - if item = each then 1 else 0 := by
  obtain ⟨changed, counts, removed, counted⟩ := valid.remove_takes item 1
  refine ⟨changed, bag.refilled counts, ?_, ?_, ?_, ?_⟩
  · rw [Bag.remove, Bag.apply_of_writable writable, Occurrences.attempt, Occurrences.apply]
    have removed : bag.contents.remove item 1 = .ok (changed, counts) := removed
    rw [removed]
    rfl
  · rwa [Bag.isWritable_refilled]
  · rw [Bag.contents_refilled]
    exact valid.remove removed
  · intro each
    rw [Bag.countOf, Bag.contents_refilled, counted]
    rfl

/-- A removal takes one occurrence of the pending element, whose place the walk has reached, out of the
bag. -/
theorem Underway.take (underway : Underway keys (walk, bag) record) (pending : record.pending = some item) :
    ∃ position next, walk.keys[position]? = some item ∧ position ≤ walk.position ∧
      step (walk, bag) .remove = .of (walk, bag) .remove ⟨.ok .taken, ({ walk with
        emitted := if position = walk.position then walk.emitted - 1 else walk.emitted
        last := none }, next)⟩ ∧
      record.note (step (walk, bag) .remove) = record.take item ∧
      Underway keys (step (walk, bag) .remove).finish (record.take item) ∧
      ∀ each, next.countOf each = bag.countOf each - if item = each then 1 else 0 := by
  obtain ⟨writable, valid, rfl, before, left, tracks⟩ := underway
  obtain ⟨position, kept, found, taken⟩ := tracks.take pending
  obtain ⟨changed, next, removed, next_writable, next_valid, counts⟩ :=
    remove_from_writable writable valid item
  have within : position ≤ walk.position := by
    have remembers := tracks.remembers
    rw [pending] at remembers
    obtain ⟨last, within, same, -⟩ := remembers
    cases kept.symm.trans same
    exact within
  have accepted := remove_of_some kept found removed
  have noted : record.note (step (walk, bag) .remove) = record.take item := by
    rw [WalkRecord.note, step, call, accepted]
    simp only [Step.of, Attempt.map, Except.map, pending, Option.map_some, Option.getD_some]
  refine ⟨position, next, found, within, ?_, noted, ?_, counts⟩
  · rw [step, call, accepted]
    rfl
  · rw [step, call, accepted]
    exact ⟨next_writable, next_valid, rfl, _, _, taken⟩

/-- Without a pending element a removal is refused, and nothing comes of it. -/
theorem Underway.refuse (underway : Underway keys (walk, bag) record) (pending : record.pending = none) :
    step (walk, bag) .remove = .of (walk, bag) .remove ⟨.error .nothingReturned, (walk, bag)⟩ ∧
      record.note (step (walk, bag) .remove) = record := by
  obtain ⟨-, -, -, before, left, tracks⟩ := underway
  have forgotten := tracks.remembers
  rw [pending] at forgotten
  have refused : call (walk, bag) .remove = ⟨.error .nothingReturned, (walk, bag)⟩ := by
    rw [call, remove_of_none forgotten]
    rfl
  constructor
  · rw [step, refused]
  · rw [WalkRecord.note, step, refused]
    simp only [Step.of, ← pending]

theorem Underway.remove (underway : Underway keys (walk, bag) record) :
    Underway keys (step (walk, bag) .remove).finish (record.note (step (walk, bag) .remove)) ∧
      Removes (step (walk, bag) .remove) record.pending := by
  cases pending : record.pending with
  | none =>
    obtain ⟨refused, noted⟩ := underway.refuse pending
    rw [noted, refused]
    exact ⟨underway, .refused rfl rfl⟩
  | some item =>
    obtain ⟨position, next, -, -, removed, noted, after, counts⟩ := underway.take pending
    rw [removed] at after
    rw [noted, removed]
    exact ⟨after, .taken rfl counts⟩

/-- Whatever is done to the bag, the walk goes on through the same keys. -/
theorem Underway.elsewhere (underway : Underway keys (walk, bag) record) (change : Call α) :
    Underway keys (step (walk, bag) (.elsewhere change)).finish
      (record.note (step (walk, bag) (.elsewhere change))) := by
  obtain ⟨writable, valid, rfl, tracks⟩ := underway
  have itself : Bag.Twins bag bag := ⟨writable, writable, valid, valid, fun _ => rfl⟩
  have after := (itself.perform change).state
  have noted : record.note (step (walk, bag) (.elsewhere change)) = record := rfl
  rw [noted]
  exact ⟨after.writable, after.contents.valid, rfl, tracks⟩

/-! ## Runs -/

structure Safe (keys : List α) (record : WalkRecord α) (step : WalkStep α) : Prop where
  blocks : InBlocks keys (record.note step).given
  next : step.call = .next → Moves record step
  remove : step.call = .remove → Removes step record.pending
  emitted : 0 ≤ step.finish.1.emitted ∧ step.finish.1.emitted ≤ maxCount

theorem Underway.step {state : LiveWalk α × Bag α} (underway : Underway keys state record)
    (move : WalkCall α) : Underway keys (step state move).finish (record.note (step state move)) ∧
      Safe keys record (step state move) := by
  have safe (after : Underway keys (LiveWalk.step state move).finish (record.note (LiveWalk.step state move)))
      (next : move = .next → Moves record (LiveWalk.step state move))
      (remove : move = .remove → Removes (LiveWalk.step state move) record.pending) :
      Safe keys record (LiveWalk.step state move) := by
    obtain ⟨before, left, tracks⟩ := after.tracks
    exact ⟨after.keys ▸ tracks.blocks, next, remove, tracks.nonneg, tracks.bounded⟩
  obtain ⟨walk, bag⟩ := state
  cases move with
  | next =>
    obtain ⟨after, moves⟩ := underway.next
    exact ⟨after, safe after (fun _ => moves) nofun⟩
  | remove =>
    obtain ⟨after, removes⟩ := underway.remove
    exact ⟨after, safe after nofun fun _ => removes⟩
  | elsewhere change => exact ⟨underway.elsewhere change, safe (underway.elsewhere change) nofun nofun⟩

theorem mem_keys_start {bag : Bag α} (valid : bag.contents.Valid) (item : α) :
    item ∈ (start bag).keys ↔ 0 < bag.countOf item := by
  constructor
  · intro member
    obtain ⟨entry, listed, rfl⟩ := List.mem_map.mp member
    obtain ⟨positive, same⟩ := (valid.mem_entries_iff entry).mp (bag.entries_perm.subset listed)
    rw [← same] at positive
    exact positive
  · intro present
    have listed := (valid.mem_entries_iff (item, bag.countOf item)).mpr ⟨present, rfl⟩
    exact List.mem_map_of_mem (bag.entries_perm.symm.subset listed)

/-- Whatever is done to the bag in between, a walk gives the elements of its start in blocks, each only as
often as it is there, and takes out only what it gave last. -/
theorem safe_under_interference {bag : Bag α} (writable : bag.isWritable) (valid : bag.contents.Valid)
    (moves : List (WalkCall α)) :
    (start bag).keys.Nodup ∧ (∀ item, item ∈ (start bag).keys ↔ 0 < bag.countOf item) ∧
      ∀ earlier step later, Step.run call (start bag, bag) moves = earlier ++ step :: later →
        Safe (start bag).keys (earlier.foldl WalkRecord.note .empty) step := by
  have begun : Underway (start bag).keys (start bag, bag) .empty :=
    ⟨writable, valid, rfl, _, _, tracks_start valid⟩
  refine ⟨(tracks_start valid).distinct, mem_keys_start valid, ?_⟩
  intro earlier step later split
  exact Step.run_records (fun _ _ move underway => (underway.step move).1)
    (fun _ _ move underway => (underway.step move).2) begun split

/-- An element goes between its being given and its removal, and another one comes back after the walk has
ended. -/
theorem safe_under_interference_at_its_end :
    let bag : Bag Nat := .shared 0 (.sorted compare (.plain ⟨[(2, 1), (1, 2)], 3⟩))
    let moves : List (WalkCall Nat) := [.remove, .next, .elsewhere (.removeOccurrences 1 2), .remove, .next,
      .next, .elsewhere (.setOccurrences 2 4), .remove, .next]
    let steps := Step.run call (start bag, bag) moves
    bag.isWritable ∧ bag.contents.Valid ∧
      steps.map (·.answer) = [.error .nothingReturned, .ok (.given (some 1)), .ok (.changed (some true)),
        .ok .taken, .ok (.given (some 2)), .ok (.given none), .ok (.changed (some true)), .ok .taken,
        .ok (.given none)] ∧
      (start bag).keys.Nodup ∧ (∀ item, item ∈ (start bag).keys ↔ 0 < bag.countOf item) ∧
      ∀ earlier step later, steps = earlier ++ step :: later →
        Safe (start bag).keys (earlier.foldl WalkRecord.note .empty) step := by
  intro bag moves steps
  have valid : bag.contents.Valid := ⟨by decide, by decide, by decide, by decide⟩
  have answers : steps.map (·.answer) = [.error .nothingReturned, .ok (.given (some 1)),
      .ok (.changed (some true)), .ok .taken, .ok (.given (some 2)), .ok (.given none),
      .ok (.changed (some true)), .ok .taken, .ok (.given none)] := by
    have begun : start bag = ⟨[1, 2], 0, 0, none⟩ := by
      simp [start, bag, Bag.entries, Bag.arrange, Entries.items, List.mergeSort, compare,
        compareOfLessAndEq]
    simp only [steps]
    rw [begun]
    rfl
  exact ⟨rfl, valid, answers, safe_under_interference rfl valid moves⟩

end LiveWalk

end Collections
