import Collections.Proofs.Cursor.Seeking
import Collections.Proofs.SegmentedList.Counted
import Mathlib.Order.Bounds.Defs
import Mathlib.Order.Monotone.Basic

/-! From an index to a place in the table.

Two loops pass segment after segment, and take the length of each off the index. The one that looks for an
element stays in the table only because the index is below the length. The one that looks for a place to put
an element in stops at the end of a segment, before the empty ones that follow. What both keep is that the
elements passed and the rest of the index make up the index.
-/

set_option autoImplicit false

namespace Collections

namespace SegmentedList

variable {α : Type}

/-! ## The loops -/

/-- Pass segments until one is longer than the rest of the index. There is no place once a segment is asked
for that is not in the table. -/
def search? (segments : List (List α)) (number rest : Nat) : Option Position :=
  if inside : number < segments.length then
    if segments[number].length ≤ rest then search? segments (number + 1) (rest - segments[number].length)
    else some ⟨number, rest⟩
  else none
termination_by segments.length - number

def seek (segments : List (List α)) (number rest : Nat) : Position :=
  if inside : number < segments.length then
    if segments[number].length < rest then seek segments (number + 1) (rest - segments[number].length)
    else ⟨number, rest⟩
  else ⟨number, rest⟩
termination_by segments.length - number

def further (number : Nat) (place : Position) : Position :=
  ⟨number + place.segment, place.offset⟩

theorem further_succ (number : Nat) (place : Position) :
    further (number + 1) place = further number place.later := by
  simp only [further, Position.later, Nat.add_right_comm, Nat.add_assoc]

theorem search?_eq_locate (segments : List (List α)) (number rest : Nat) :
    search? segments number rest = (locate (segments.drop number) rest).map (further number) := by
  fun_induction search? segments number rest with
  | case1 number rest inside passed ih =>
    rw [ih, List.drop_eq_getElem_cons inside, locate, if_neg (Nat.not_lt.mpr passed), Option.map_map]
    congr 1
    funext place
    exact further_succ number place
  | case2 number rest inside here =>
    rw [List.drop_eq_getElem_cons inside, locate, if_pos (Nat.lt_of_not_le here)]
    rfl
  | case3 number rest beyond =>
    rw [List.drop_eq_nil_of_le (Nat.le_of_not_lt beyond)]
    rfl

-- At the end of the table the loop keeps what is left of the index, and there is nothing left.
theorem seek_eq_locateInsert (segments : List (List α)) (number rest : Nat)
    (enough : rest ≤ countElements (segments.drop number)) :
    seek segments number rest = further number (locateInsert (segments.drop number) rest) := by
  fun_induction seek segments number rest with
  | case1 number rest inside passed ih =>
    rw [List.drop_eq_getElem_cons inside] at enough ⊢
    simp only [countElements, List.foldr_cons] at enough ih
    rw [ih (by omega), locateInsert, if_neg (by omega), further_succ]
  | case2 number rest inside here =>
    rw [List.drop_eq_getElem_cons inside, locateInsert, if_pos (by omega)]
    rfl
  | case3 number rest beyond =>
    rw [List.drop_eq_nil_of_le (Nat.le_of_not_lt beyond)] at enough ⊢
    obtain rfl := Nat.le_zero.mp enough
    rfl

theorem further_zero (place : Position) : further 0 place = place := by
  rw [further, Nat.zero_add]

theorem search?_zero (segments : List (List α)) (index : Nat) :
    search? segments 0 index = locate segments index := by
  rw [search?_eq_locate, List.drop_zero, funext further_zero]
  exact Option.map_id'

theorem seek_zero {segments : List (List α)} {index : Nat} (within : index ≤ countElements segments) :
    seek segments 0 index = locateInsert segments index := by
  rw [seek_eq_locateInsert segments 0 index within, List.drop_zero, further_zero]

/-! ## Elements before a segment -/

def countBefore (segments : List (List α)) (number : Nat) : Nat :=
  countElements (segments.take number)

variable {segments : List (List α)} {number rest index : Nat} {place other : Position}

theorem countBefore_succ (inside : number < segments.length) :
    countBefore segments (number + 1) = countBefore segments number + segments[number].length := by
  rw [countBefore, countBefore, countElements_eq, countElements_eq, List.take_succ_eq_append_getElem inside,
    List.flatten_concat, List.length_append]

theorem countBefore_of_le (beyond : segments.length ≤ number) :
    countBefore segments number = countElements segments := by
  rw [countBefore, List.take_of_length_le beyond]

theorem countBefore_mono (segments : List (List α)) : Monotone (countBefore segments) := by
  apply monotone_nat_of_le_succ
  intro number
  by_cases inside : number < segments.length
  · rw [countBefore_succ inside]
    exact Nat.le_add_right _ _
  · rw [countBefore_of_le (Nat.le_of_not_lt inside), countBefore_of_le (by omega)]

/-! ## The element at an index -/

structure Holds (segments : List (List α)) (index : Nat) (place : Position) : Prop where
  inside : ∃ inside : place.segment < segments.length, place.offset < segments[place.segment].length
  reached : countBefore segments place.segment + place.offset = index

namespace Holds

theorem index_lt (holds : Holds segments index place) :
    index < countBefore segments (place.segment + 1) := by
  obtain ⟨inside, below⟩ := holds.inside
  rw [countBefore_succ inside, ← holds.reached]
  exact Nat.add_lt_add_left below _

theorem segment_le (holds : Holds segments index place) (again : Holds segments index other) :
    place.segment ≤ other.segment := by
  apply Nat.le_of_not_lt
  intro later
  have passed : countBefore segments (other.segment + 1) ≤ countBefore segments place.segment :=
    countBefore_mono segments later
  have below := again.index_lt
  have reached := holds.reached
  omega

theorem unique (holds : Holds segments index place) (again : Holds segments index other) :
    place = other := by
  have same : place.segment = other.segment :=
    Nat.le_antisymm (holds.segment_le again) (again.segment_le holds)
  have reached := holds.reached.trans again.reached.symm
  rw [same, Nat.add_left_cancel_iff] at reached
  cases place
  cases other
  exact congrArg₂ Position.mk same reached

end Holds

theorem Addresses.holds {before after : List α} {item : α}
    (found : Addresses segments place before item after) : Holds segments before.length place := by
  cases found with
  | mk left front item back right =>
    constructor
    case inside => exact ⟨by simp, by simp⟩
    case reached => simp [countBefore, countElements_eq]

/-- As long as elements are left, the loop is in the table. -/
theorem search?_holds (reached : countBefore segments number + rest = index)
    (below : index < countElements segments) :
    ∃ place, search? segments number rest = some place ∧ Holds segments index place := by
  fun_induction search? segments number rest with
  | case1 number rest inside passed ih =>
    apply ih
    rw [countBefore_succ inside]
    omega
  | case2 number rest inside here => exact ⟨_, rfl, ⟨inside, Nat.lt_of_not_le here⟩, reached⟩
  | case3 number rest beyond =>
    rw [countBefore_of_le (Nat.le_of_not_lt beyond)] at reached
    omega

/-! ## The place to put an element in -/

structure Touches (segments : List (List α)) (index number : Nat) : Prop where
  inside : number < segments.length
  lower : countBefore segments number ≤ index
  upper : index ≤ countBefore segments (number + 1)

structure FirstTouched (segments : List (List α)) (index : Nat) (place : Position) : Prop where
  least : IsLeast {number | Touches segments index number} place.segment
  reached : countBefore segments place.segment + place.offset = index

/-- Of the segments that are passed none is touched. Only an index that the table has no room for would be
left over at its end. -/
theorem seek_firstTouched (nonempty : segments ≠ [])
    (reached : countBefore segments number + rest = index)
    (passed : number = 0 ∨ countBefore segments number < index)
    (within : index ≤ countElements segments) :
    FirstTouched segments index (seek segments number rest) := by
  fun_induction seek segments number rest with
  | case1 number rest inside short ih =>
    have next := countBefore_succ inside
    exact ih (by omega) (.inr (by omega))
  | case2 number rest inside here =>
    have next := countBefore_succ inside
    constructor
    case reached => exact reached
    case least =>
      have touched : Touches segments index number := ⟨inside, by omega, by omega⟩
      refine ⟨touched, ?_⟩
      rintro earlier ⟨-, -, upper⟩
      apply Nat.le_of_not_lt
      intro before
      have sooner : countBefore segments (earlier + 1) ≤ countBefore segments number :=
        countBefore_mono segments before
      simp only at before
      omega
  | case3 number rest beyond =>
    have whole := countBefore_of_le (Nat.le_of_not_lt beyond)
    have some_segment := List.length_pos_iff.mpr nonempty
    omega

/-! ## The indices of a list -/

variable {list : SegmentedList α} {item : α}

/-- Whatever looks for the element at an index comes to this place, and no other is a place of the index. -/
structure Resolved (list : SegmentedList α) (index : Nat) (place : Position) (item : α) : Prop where
  holds : Holds list.segments index place
  unique (other : Position) : Holds list.segments index other → other = place
  searched : search? list.segments 0 index = some place
  located : locate list.segments index = some place
  element : elementAt? list.segments place = some item ∧ list.flat[index]? = some item
  get : list.get index = .ok item
  remove : list.remove index = .ok (item, ⟨eraseAt list.segments place, list.size - 1⟩)
  removed : (eraseAt list.segments place).flatten = list.flat.eraseIdx index

/-- Whatever puts an element in at an index comes to this place. Without segments that is the end of the
table. -/
structure Seated (list : SegmentedList α) (index : Nat) (place : Position) : Prop where
  first : list.segments ≠ [] → FirstTouched list.segments index place
  unsegmented : list.segments = [] → place = ⟨0, 0⟩
  located : locateInsert list.segments index = place
  sought : seek list.segments 0 index = place
  start : Cursor.start list index = .ok ⟨list, place, index, none⟩
  accepted (item : α) :
    Cursor.insertAt? list.segments place item = some (insertAt list.segments place item)
  inserted (item : α) : (insertAt list.segments place item).flatten = list.flat.insertIdx index item
  insert (item : α) :
    list.insert index item = .ok ⟨insertAt list.segments place item, list.size + 1⟩
  add (item : α) : (Cursor.add ⟨list, place, index, none⟩ item).list =
    ⟨insertAt list.segments place item, list.size + 1⟩

structure Resolves (list : SegmentedList α) : Prop where
  element (index : Nat) : index < list.size → ∃ place item, Resolved list index place item
  gap (index : Nat) : index ≤ list.size → ∃ place, Seated list index place

theorem Counted.countElements_eq_size (counted : list.Counted) :
    countElements list.segments = list.size :=
  (countElements_eq list.segments).trans counted.symm

theorem Counted.resolved (counted : list.Counted) (found : list.flat[index]? = some item) :
    ∃ place, Resolved list index place item := by
  obtain ⟨before, after, place, split, rfl, resolved, addressed⟩ := counted.resolve_some found
  have holds := addressed.holds
  have below : before.length < countElements list.segments := by
    rw [counted.countElements_eq_size, counted, split]
    simp
  have searched : search? list.segments 0 before.length = some place := by
    have start : countBefore list.segments 0 + before.length = before.length := Nat.zero_add _
    obtain ⟨reached, searched, there⟩ := search?_holds start below
    rw [searched, there.unique holds]
  refine ⟨place, ?_⟩
  constructor
  case holds => exact holds
  case unique => exact fun other again => again.unique holds
  case searched => exact searched
  case located => rw [← search?_zero, searched]
  case element => exact ⟨addressed.elementAt?_eq, found⟩
  case get =>
    rw [SegmentedList.get, resolved]
    rfl
  case remove =>
    rw [SegmentedList.remove, resolved]
    rfl
  case removed =>
    rw [addressed.eraseAt.flatten_eq, split, List.eraseIdx_append_of_length_le (Nat.le_refl _),
      Nat.sub_self, List.eraseIdx_cons_zero]

theorem Counted.seated (counted : list.Counted) (within : index ≤ list.size) :
    Seated list index (locateInsert list.segments index) := by
  have enough : index ≤ countElements list.segments := counted.countElements_eq_size ▸ within
  have sought := seek_zero enough
  have before : (list.flat.take index).length = index := List.length_take_of_le (counted ▸ within)
  have cut := locateInsert_cuts (List.take_append_drop index list.flat).symm
  rw [before] at cut
  have added (item : α) := (cut.insertAt item).flatten_eq
  constructor
  case first =>
    intro nonempty
    rw [← sought]
    have start : countBefore list.segments 0 + index = index := Nat.zero_add index
    exact seek_firstTouched nonempty start (.inl rfl) enough
  case unsegmented =>
    intro empty
    rw [empty]
    rfl
  case located => rfl
  case sought => exact sought
  case start =>
    rw [Cursor.start, checkInsertBounds, if_pos within]
    rfl
  case accepted => exact Cursor.insertAt?_of_cuts cut
  case inserted =>
    intro item
    have middle := insertIdx_middle (list.flat.take index) (list.flat.drop index) item
    rw [before, List.take_append_drop] at middle
    exact (added item).trans middle.symm
  case insert =>
    intro item
    rw [SegmentedList.insert, checkInsertBounds, if_pos within]
    rfl
  case add =>
    intro item
    simp only [Cursor.add, Cursor.place_of_cuts cut]

theorem indices_resolve (counted : list.Counted) : Resolves list := by
  constructor
  case element =>
    intro index below
    have inside : index < list.flat.length := counted ▸ below
    obtain ⟨place, resolved⟩ := counted.resolved (List.getElem?_eq_getElem inside)
    exact ⟨place, _, resolved⟩
  case gap => exact fun index within => ⟨_, counted.seated within⟩

/-- Empty segments at the start, in the middle and at the end. The last element comes after two in the middle.
To put one in before it is to append to the segment in front of these two. -/
theorem indices_resolve_around_empty_segments :
    let list : SegmentedList Nat := ⟨[[], [1, 2], [], [], [3], []], 3⟩
    list.Counted ∧ Resolves list ∧ locate list.segments 2 = some ⟨4, 0⟩ ∧
      locateInsert list.segments 2 = ⟨1, 2⟩ ∧ locateInsert list.segments 0 = ⟨0, 0⟩ ∧
      locateInsert list.segments 3 = ⟨4, 1⟩ :=
  ⟨rfl, indices_resolve rfl, rfl, rfl, rfl, rfl⟩

end SegmentedList

end Collections
