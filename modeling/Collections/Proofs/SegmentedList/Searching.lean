import Collections.Proofs.SegmentedList.Counted
import Collections.SegmentedList.Search
import Mathlib.Data.List.Induction

/-! A search through the segments finds the indices at which the list answers with what is searched for.

Either search is one through the sequence, whatever the segments. The sequence ties it to the elements that
the list has at its indices.
-/

set_option autoImplicit false

namespace Collections.SegmentedList

variable {α : Type} {list : SegmentedList α} {wanted : α → Bool} {items : List α} {index : Nat}

def hits (list : SegmentedList α) (wanted : α → Bool) (index : Nat) : Bool :=
  match list.get index with
  | .error _ => false
  | .ok item => wanted item

/-! ## Searching a sequence -/

theorem findIdx?_eq_some_iff :
    items.findIdx? wanted = some index ↔ items[index]?.any wanted ∧
      ∀ earlier < index, ¬ items[earlier]?.any wanted := by
  rw [List.findIdx?_eq_some_iff_getElem]
  constructor
  · rintro ⟨inside, here, before⟩
    refine ⟨by simpa [inside] using here, fun earlier less => ?_⟩
    simpa [Nat.lt_trans less inside] using before earlier less
  · rintro ⟨here, before⟩
    have inside : index < items.length := by
      by_contra outside
      simp [List.getElem?_eq_none (Nat.not_lt.mp outside)] at here
    refine ⟨inside, by simpa [inside] using here, fun earlier less => ?_⟩
    simpa [Nat.lt_trans less inside] using before earlier less

theorem lastOffset_append (wanted : α → Bool) (items more : List α) :
    lastOffset wanted (items ++ more) =
      ((lastOffset wanted more).map (items.length + ·)).or (lastOffset wanted items) := by
  induction items with
  | nil => simp [lastOffset]
  | cons item rest ih =>
    rw [List.cons_append, lastOffset, lastOffset, ih, List.length_cons]
    cases lastOffset wanted more with
    | none => rfl
    | some offset => exact congrArg some (Nat.add_right_comm _ _ _)

/-- Nothing wanted comes after the last index, and nothing at all is wanted when there is none. -/
theorem lastOffset_spec (wanted : α → Bool) (items : List α) :
    match lastOffset wanted items with
    | none => ∀ index : Nat, ¬ items[index]?.any wanted
    | some last => items[last]?.any wanted ∧ ∀ later > last, ¬ items[later]?.any wanted := by
  induction items with
  | nil => simp [lastOffset]
  | cons item rest ih =>
    rw [lastOffset]
    cases found : lastOffset wanted rest with
    | some offset =>
      rw [found] at ih
      refine ⟨ih.1, fun later less => ?_⟩
      obtain ⟨later, rfl⟩ := Nat.exists_eq_add_of_lt less
      exact ih.2 _ (by omega)
    | none =>
      rw [found] at ih
      by_cases here : wanted item
      case pos =>
        rw [if_pos here]
        refine ⟨here, fun later less => ?_⟩
        obtain ⟨later, rfl⟩ := Nat.exists_eq_add_of_lt less
        exact ih _
      case neg =>
        rw [if_neg here]
        rintro (_ | index)
        · exact here
        · exact ih index

theorem lastOffset_eq_some_iff :
    lastOffset wanted items = some index ↔ items[index]?.any wanted ∧
      ∀ later > index, ¬ items[later]?.any wanted := by
  have spec := lastOffset_spec wanted items
  constructor
  · intro found
    rwa [found] at spec
  · rintro ⟨here, after⟩
    cases found : lastOffset wanted items with
    | none =>
      rw [found] at spec
      exact absurd here (spec index)
    | some last =>
      rw [found] at spec
      rcases Nat.lt_trichotomy last index with less | rfl | more
      · exact absurd here (spec.2 index less)
      · rfl
      · exact absurd spec.1 (after last more)

theorem lastOffset_isSome : (lastOffset wanted items).isSome = items.any wanted := by
  induction items with
  | nil => rfl
  | cons item rest ih =>
    rw [lastOffset, List.any_cons, ← ih]
    cases lastOffset wanted rest with
    | some offset => simp
    | none => cases wanted item <;> rfl

theorem countP_eq_countP_range (wanted : α → Bool) (items : List α) :
    items.countP wanted = (List.range items.length).countP fun index => items[index]?.any wanted := by
  induction items with
  | nil => rfl
  | cons item rest ih =>
    rw [List.countP_cons, List.length_cons, List.range_succ_eq_map, List.countP_cons, List.countP_map, ih]
    rfl

/-! ## Searching segment by segment -/

theorem firstIndexIn_eq (wanted : α → Bool) (segments : List (List α)) :
    firstIndexIn wanted segments = segments.flatten.findIdx? wanted := by
  induction segments with
  | nil => rfl
  | cons segment rest ih =>
    rw [firstIndexIn, List.flatten_cons, List.findIdx?_append, ih]
    cases segment.findIdx? wanted with
    | none => simp [Nat.add_comm]
    | some offset => rfl

theorem lastIndexIn_eq (wanted : α → Bool) (segments : List (List α)) :
    lastIndexIn wanted segments = lastOffset wanted segments.flatten := by
  induction segments with
  | nil => rfl
  | cons segment rest ih =>
    rw [lastIndexIn, List.flatten_cons, lastOffset_append, ih]
    cases lastOffset wanted rest.flatten with
    | none => rfl
    | some index => rfl

/-- The last index of a wanted element below a stop, where the segments are those in front of the stop from
the last to the first. None of them may reach below zero. -/
def searchBack? (wanted : α → Bool) : Nat → List (List α) → Option (Option Nat)
  | _, [] => some none
  | stop, segment :: rest =>
    if segment.length ≤ stop then
      match lastOffset wanted segment with
      | some offset => some (some (stop - segment.length + offset))
      | none => searchBack? wanted (stop - segment.length) rest
    else none

theorem searchBack?_eq (wanted : α → Bool) (segments : List (List α)) :
    searchBack? wanted (countElements segments) segments.reverse = some (lastIndexIn wanted segments) := by
  induction segments using List.reverseRecOn with
  | nil => rfl
  | append_singleton front segment ih =>
    rw [countElements_eq] at ih
    rw [lastIndexIn_eq] at ih ⊢
    rw [countElements_eq, List.reverse_append, List.flatten_append, List.flatten_singleton,
      List.length_append, lastOffset_append]
    show searchBack? wanted _ (segment :: front.reverse) = _
    rw [searchBack?, if_pos (Nat.le_add_left _ _), Nat.add_sub_cancel, ih]
    cases lastOffset wanted segment <;> rfl

theorem count_eq (list : SegmentedList α) (wanted : α → Bool) :
    list.count wanted = list.flat.countP wanted := by
  rw [count, flat, List.countP_flatten, List.sum, List.foldr_map]

/-! ## Searching by index -/

theorem Counted.hits (counted : list.Counted) (wanted : α → Bool) (index : Nat) :
    list.hits wanted index = list.flat[index]?.any wanted := by
  rw [SegmentedList.hits, counted.get, Plain.get]
  cases list.flat[index]? <;> rfl

theorem Counted.hits_inside (counted : list.Counted) (hit : list.hits wanted index) :
    index < list.size := by
  rw [counted.hits] at hit
  obtain ⟨item, there, -⟩ := (Option.any_eq_true _ _).mp hit
  rw [counted]
  exact (List.getElem?_eq_some_iff.mp there).1

def FirstHit (list : SegmentedList α) (wanted : α → Bool) (index : Nat) : Prop :=
  index < list.size ∧ list.hits wanted index ∧ ∀ earlier < index, ¬ list.hits wanted earlier

def LastHit (list : SegmentedList α) (wanted : α → Bool) (index : Nat) : Prop :=
  index < list.size ∧ list.hits wanted index ∧
    ∀ later, index < later → later < list.size → ¬ list.hits wanted later

theorem Counted.position_eq_some_iff (counted : list.Counted) :
    list.position wanted = some index ↔ list.FirstHit wanted index := by
  rw [position, firstIndexIn_eq, ← flat, findIdx?_eq_some_iff]
  simp only [← counted.hits]
  exact ⟨fun found => ⟨counted.hits_inside found.1, found⟩, And.right⟩

theorem Counted.lastPosition_eq_some_iff (counted : list.Counted) :
    list.lastPosition wanted = some index ↔ list.LastHit wanted index := by
  rw [lastPosition, lastIndexIn_eq, ← flat, lastOffset_eq_some_iff]
  simp only [← counted.hits]
  constructor
  · rintro ⟨here, after⟩
    exact ⟨counted.hits_inside here, here, fun later more _ => after later more⟩
  · rintro ⟨_, here, after⟩
    exact ⟨here, fun later more hit => after later more (counted.hits_inside hit) hit⟩

theorem position_isSome (list : SegmentedList α) (wanted : α → Bool) :
    (list.position wanted).isSome = list.anySatisfy wanted := by
  rw [position, firstIndexIn_eq, List.findIdx?_isSome, List.any_flatten, anySatisfy]

theorem lastPosition_isSome (list : SegmentedList α) (wanted : α → Bool) :
    (list.lastPosition wanted).isSome = list.anySatisfy wanted := by
  rw [lastPosition, lastIndexIn_eq, lastOffset_isSome, List.any_flatten, anySatisfy]

theorem none_iff_of_isSome {found : Option Nat} (some : found.isSome = list.anySatisfy wanted) :
    found = none ↔ ∀ item ∈ list.flat, ¬ wanted item := by
  rw [← Option.not_isSome_iff_eq_none, some, anySatisfy, ← List.any_flatten, ← flat, List.any_eq_true]
  push Not
  rfl

theorem Counted.count (counted : list.Counted) (wanted : α → Bool) :
    list.count wanted = (List.range list.size).countP (list.hits wanted) := by
  rw [count_eq, countP_eq_countP_range, ← counted]
  exact congrArg (List.countP · _) (funext fun index => (counted.hits wanted index).symm)

theorem Counted.allSatisfy_iff (counted : list.Counted) :
    list.allSatisfy wanted ↔ ∀ index < list.size, list.hits wanted index := by
  rw [allSatisfy, ← List.all_flatten, ← flat, List.all_eq_true, List.forall_mem_iff_getElem, counted]
  refine forall_congr' fun index => forall_congr' fun inside => ?_
  rw [counted.hits, List.getElem?_eq_getElem inside]
  rfl

theorem Counted.lt_size_iff (counted : list.Counted) :
    index < list.size ↔ ∃ item, list.get index = .ok item := by
  rw [counted.get, Plain.get, counted]
  cases found : list.flat[index]? with
  | none => simpa using List.getElem?_eq_none_iff.mp found
  | some item => simpa using (List.getElem?_eq_some_iff.mp found).1

structure Searched [BEq α] (list : SegmentedList α) : Prop where
  inside_iff {index : Nat} : index < list.size ↔ ∃ item, list.get index = .ok item
  position_iff {wanted : α → Bool} {index : Nat} :
    list.position wanted = some index ↔ list.FirstHit wanted index
  lastPosition_iff {wanted : α → Bool} {index : Nat} :
    list.lastPosition wanted = some index ↔ list.LastHit wanted index
  position_none_iff {wanted : α → Bool} :
    list.position wanted = none ↔ ∀ item ∈ list.flat, ¬ wanted item
  lastPosition_none_iff {wanted : α → Bool} :
    list.lastPosition wanted = none ↔ ∀ item ∈ list.flat, ¬ wanted item
  -- The search from the end starts at the number of elements and never takes off more than is left.
  searchBack (wanted : α → Bool) :
    searchBack? wanted (countElements list.segments) list.segments.reverse =
      some (list.lastPosition wanted)
  indexOf_iff {item : α} {index : Nat} :
    list.indexOf item = some index ↔ list.FirstHit (· == item) index
  lastIndexOf_iff {item : α} {index : Nat} :
    list.lastIndexOf item = some index ↔ list.LastHit (· == item) index
  contains (item : α) : list.contains item = (list.indexOf item).isSome
  contains_last (item : α) : list.contains item = (list.lastIndexOf item).isSome
  containsAll (items : List α) : list.containsAll items = items.all fun item => (list.indexOf item).isSome
  count (wanted : α → Bool) : list.count wanted = (List.range list.size).countP (list.hits wanted)
  anySatisfy (wanted : α → Bool) : list.anySatisfy wanted = (list.position wanted).isSome
  allSatisfy_iff {wanted : α → Bool} :
    list.allSatisfy wanted ↔ ∀ index < list.size, list.hits wanted index
  noneSatisfy (wanted : α → Bool) : list.noneSatisfy wanted = (list.position wanted).isNone

theorem searched_by_index [BEq α] (segments : List (List α)) : Searched (ofSegments segments) := by
  have counted := counted_ofSegments segments
  constructor
  case inside_iff => exact counted.lt_size_iff
  case position_iff => exact counted.position_eq_some_iff
  case lastPosition_iff => exact counted.lastPosition_eq_some_iff
  case position_none_iff => exact none_iff_of_isSome (position_isSome _ _)
  case lastPosition_none_iff => exact none_iff_of_isSome (lastPosition_isSome _ _)
  case searchBack => exact fun wanted => searchBack?_eq wanted segments
  case indexOf_iff => exact counted.position_eq_some_iff
  case lastIndexOf_iff => exact counted.lastPosition_eq_some_iff
  case contains => exact fun item => (position_isSome _ _).symm
  case contains_last => exact fun item => (lastPosition_isSome _ _).symm
  case containsAll =>
    exact fun items => congrArg items.all (funext fun item => (position_isSome _ _).symm)
  case count => exact counted.count
  case anySatisfy => exact fun wanted => (position_isSome _ wanted).symm
  case allSatisfy_iff => exact counted.allSatisfy_iff
  case noneSatisfy =>
    exact fun wanted => by rw [SegmentedList.noneSatisfy, ← position_isSome, Option.not_isSome]

example : (ofSegments [[1, 2], [], [3, 2, 1]]).lastIndexOf 2 = some 3 := by decide

end Collections.SegmentedList
