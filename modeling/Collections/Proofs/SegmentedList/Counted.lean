import Collections.Proofs.SegmentedList.Places
import Collections.Proofs.SegmentedList.Plain
import Collections.SegmentedList.Edit

/-! Each change of a segmented list as a change of its sequence, and the length that goes along. -/

set_option autoImplicit false

namespace Collections.SegmentedList

variable {α ρ ε : Type} {list : SegmentedList α}

def Counted (list : SegmentedList α) : Prop :=
  list.size = list.flat.length

theorem counted_ofSegments (segments : List (List α)) : (ofSegments segments).Counted :=
  countElements_eq segments

/-- A call answers what the plain call answers and leaves its sequence, counted. -/
structure Tracks (attempt : Attempt (SegmentedList α) ρ) (plain : Attempt (List α) ρ) : Prop where
  answer : attempt.answer = plain.answer
  sequence : attempt.state.flat = plain.state
  counted : attempt.state.Counted

theorem Tracks.map {attempt : Attempt (SegmentedList α) ρ} {plain : Attempt (List α) ρ}
    (tracks : Tracks attempt plain) (f : ρ → ε) : Tracks (attempt.map f) (plain.map f) :=
  ⟨congrArg (Except.map f) tracks.answer, tracks.sequence, tracks.counted⟩

/-! ## Appending -/

@[simp] theorem flat_addSegment (items : List α) : (list.addSegment items).flat = list.flat ++ items := by
  simp [addSegment, flat]

theorem Counted.addSegment (counted : list.Counted) (items : List α) :
    (list.addSegment items).Counted := by
  rw [Counted, flat_addSegment, List.length_append, ← counted]
  rfl

theorem Counted.addAll (counted : list.Counted) (items : List α) :
    (list.addAll items).1 = !items.isEmpty ∧ (list.addAll items).2.flat = list.flat ++ items ∧
      (list.addAll items).2.Counted := by
  unfold SegmentedList.addAll
  cases items with
  | nil => exact ⟨rfl, (List.append_nil _).symm, counted⟩
  | cons item rest => exact ⟨rfl, flat_addSegment _, counted.addSegment _⟩

@[simp] theorem flat_push (item : α) : (list.push item).flat = list.flat ++ [item] := by
  rcases list with ⟨segments, size⟩
  rcases List.eq_nil_or_concat segments with rfl | ⟨init, last, rfl⟩
  · rfl
  -- The last segment grows where it stands, behind those in front of it.
  · have pushed : (push ⟨init ++ [last], size⟩ item).segments =
        (init ++ [last]).modify init.length (· ++ [item]) := by
      have counted : init.length = (init ++ [last]).length - 1 := by simp
      rw [counted]
      cases init <;> rfl
    rw [List.concat_eq_append, flat, pushed, modify_middle]
    simp [flat]

theorem Counted.push (counted : list.Counted) (item : α) : (list.push item).Counted := by
  rw [Counted, flat_push, List.length_append, ← counted]
  rfl

/-! ## By index -/

theorem split_of_getElem? {items : List α} {index : Nat} {item : α}
    (found : items[index]? = some item) :
    ∃ before after, items = before ++ item :: after ∧ index = before.length := by
  obtain ⟨inside, rfl⟩ := List.getElem?_eq_some_iff.mp found
  refine ⟨items.take index, items.drop (index + 1), ?_, ?_⟩
  · rw [List.getElem_cons_drop, List.take_append_drop]
  · rw [List.length_take_of_le (Nat.le_of_lt inside)]

theorem Counted.resolve_none (counted : list.Counted) {index : Nat}
    (outside : list.flat[index]? = none) :
    list.resolve index = .error (.outOfBounds index list.flat.length) := by
  rw [List.getElem?_eq_none_iff, ← counted] at outside
  rw [resolve, checkBounds, if_neg (Nat.not_lt.mpr outside), ← counted]
  rfl

theorem Counted.resolve_some (counted : list.Counted) {index : Nat} {item : α}
    (inside : list.flat[index]? = some item) :
    ∃ before after place, list.flat = before ++ item :: after ∧ index = before.length ∧
      list.resolve index = .ok (place, item) ∧
      Addresses list.segments place before item after := by
  obtain ⟨before, after, split, rfl⟩ := split_of_getElem? inside
  obtain ⟨place, located, addressed⟩ := locate_addresses split
  refine ⟨before, after, place, split, rfl, ?_, addressed⟩
  have below : before.length < list.size := by
    rw [counted, split]
    simp
  rw [resolve, checkBounds, if_pos below, located]
  simp only [addressed.elementAt?_eq]
  rfl

theorem Counted.get (counted : list.Counted) (index : Nat) :
    list.get index = Plain.get list.flat index := by
  unfold SegmentedList.get Plain.get
  cases found : list.flat[index]? with
  | none => rw [counted.resolve_none found]; rfl
  | some item =>
    obtain ⟨_, _, _, _, _, resolved, _⟩ := counted.resolve_some found
    rw [resolved]
    rfl

theorem Counted.insert (counted : list.Counted) (index : Nat) (item : α) :
    Tracks (.ofExcept list ((list.insert index item).map fun list => (ListAnswer.done, list)))
      (Plain.insert (ρ := ρ) list.flat index item) := by
  rw [SegmentedList.insert, Plain.insert, checkInsertBounds, counted]
  by_cases inside : index ≤ list.flat.length
  · rw [if_pos inside, if_pos inside]
    have before : (list.flat.take index).length = index := List.length_take_of_le inside
    have cut := locateInsert_cuts (List.take_append_drop index list.flat).symm
    have added := (cut.insertAt item).flatten_eq
    rw [before] at added
    -- An insertion by index splits the sequence where the place cuts it.
    have whole : list.flat.insertIdx index item =
        list.flat.take index ++ item :: list.flat.drop index := by
      have middle := insertIdx_middle (list.flat.take index) (list.flat.drop index) item
      rwa [before, List.take_append_drop] at middle
    constructor
    case answer => rfl
    case sequence => exact added.trans whole.symm
    case counted =>
      show list.flat.length + 1 =
        (insertAt list.segments (locateInsert list.segments index) item).flatten.length
      rw [added, ← whole, List.length_insertIdx_of_le_length inside]
  · rw [if_neg inside, if_neg inside]
    exact ⟨rfl, rfl, counted⟩

theorem Counted.remove (counted : list.Counted) (index : Nat) :
    Tracks (.ofExcept list (list.remove index)) (Plain.remove list.flat index) := by
  unfold SegmentedList.remove Plain.remove Plain.get
  cases found : list.flat[index]? with
  | none =>
    rw [counted.resolve_none found]
    exact ⟨rfl, rfl, counted⟩
  | some item =>
    obtain ⟨before, after, place, split, rfl, resolved, addressed⟩ := counted.resolve_some found
    have erased : (eraseAt list.segments place).flatten = before ++ after :=
      addressed.eraseAt.flatten_eq
    rw [resolved]
    constructor
    case answer => rfl
    case sequence =>
      show (eraseAt list.segments place).flatten = list.flat.eraseIdx before.length
      rw [erased, split, List.eraseIdx_append_of_length_le (Nat.le_refl _), Nat.sub_self,
        List.eraseIdx_cons_zero]
    case counted =>
      show list.size - 1 = (eraseAt list.segments place).flatten.length
      rw [erased, counted, split, List.length_append, List.length_append, List.length_cons]
      rfl

theorem Counted.modify (counted : list.Counted) (index : Nat) (change : α → α) :
    Tracks (.ofExcept list (list.modify index change)) (Plain.modify list.flat index change) := by
  unfold SegmentedList.modify Plain.modify Plain.get
  cases found : list.flat[index]? with
  | none =>
    rw [counted.resolve_none found]
    exact ⟨rfl, rfl, counted⟩
  | some item =>
    obtain ⟨before, after, place, split, rfl, resolved, addressed⟩ := counted.resolve_some found
    have changed : (modifyAt list.segments place change).flatten =
        before ++ change item :: after := (addressed.modifyAt change).flatten_eq
    rw [resolved]
    constructor
    case answer => rfl
    case sequence =>
      show (modifyAt list.segments place change).flatten = list.flat.set before.length (change item)
      rw [changed, split, List.set_append_right _ _ (Nat.le_refl _), Nat.sub_self,
        List.set_cons_zero]
    case counted =>
      show list.size = (modifyAt list.segments place change).flatten.length
      rw [changed, counted, split, List.length_append, List.length_append, List.length_cons,
        List.length_cons]

theorem Counted.set (counted : list.Counted) (index : Nat) (item : α) :
    Tracks (.ofExcept list (list.set index item)) (Plain.set list.flat index item) := by
  have tracks := (counted.modify index fun _ => item).map Prod.fst
  unfold SegmentedList.set
  cases done : list.modify index fun _ => item with
  | error error => rwa [done] at tracks
  | ok answer => rwa [done] at tracks

/-! ## By element -/

-- Which elements are equal to the item is for the comparison to say. It may take different ones to be
-- equal and need not be symmetric, so its arguments keep their order throughout.
theorem eraseFirst_flatten [BEq α] (item : α) (segments : List (List α)) :
    (eraseFirst item segments).map List.flatten =
      if segments.flatten.any (· == item) then some (segments.flatten.eraseP (· == item))
      else none := by
  induction segments with
  | nil => rfl
  | cons segment rest ih =>
    rw [eraseFirst, List.flatten_cons, List.any_append]
    cases found : segment.findIdx? (· == item) with
    | some offset =>
      have here : segment.any (· == item) := by
        rw [← List.findIdx?_isSome, found]
        rfl
      obtain ⟨first, member, equal⟩ := List.any_eq_true.mp here
      have erased : (segment ++ rest.flatten).eraseP (· == item) =
          segment.eraseIdx offset ++ rest.flatten := by
        rw [List.eraseP_append_left (p := (· == item)) equal _ member, List.eraseP_eq_eraseIdx, found]
      rw [here, Bool.true_or, if_pos rfl, erased]
      rfl
    | none =>
      have elsewhere : segment.any (· == item) = false := by
        rw [← List.findIdx?_isSome, found]
        rfl
      have kept : (segment ++ rest.flatten).eraseP (· == item) =
          segment ++ rest.flatten.eraseP (· == item) :=
        List.eraseP_append_right (p := (· == item)) _ (List.any_eq_false.mp elsewhere)
      rw [elsewhere, Bool.false_or, kept]
      cases later : rest.flatten.any (· == item) with
      | true =>
        rw [later, if_pos rfl] at ih
        obtain ⟨left, erased, same⟩ := Option.map_eq_some_iff.mp ih
        simp only [erased, Option.map_some, List.flatten_cons, same, if_true]
      | false =>
        rw [later, if_neg Bool.false_ne_true] at ih
        rw [Option.map_eq_none_iff.mp ih]
        rfl

theorem Counted.removeItem [BEq α] (counted : list.Counted) (item : α) :
    (list.removeItem item).1 = list.flat.any (· == item) ∧
      (list.removeItem item).2.flat = list.flat.eraseP (· == item) ∧
      (list.removeItem item).2.Counted := by
  have searched := eraseFirst_flatten item list.segments
  unfold SegmentedList.removeItem
  by_cases present : list.segments.flatten.any (· == item)
  · rw [if_pos present] at searched
    obtain ⟨segments, erased, same⟩ := Option.map_eq_some_iff.mp searched
    rw [erased]
    refine ⟨present.symm, same, ?_⟩
    obtain ⟨first, member, equal⟩ := List.any_eq_true.mp present
    show list.size - 1 = segments.flatten.length
    rw [same, List.length_eraseP_of_mem member equal, counted]
    rfl
  · rw [if_neg present] at searched
    rw [Option.map_eq_none_iff.mp searched]
    have absent : ∀ first ∈ list.flat, ¬ (first == item) = true := by
      intro first member equal
      exact present (List.any_eq_true.mpr ⟨first, member, equal⟩)
    exact ⟨(Bool.eq_false_iff.mpr present).symm, (List.eraseP_of_forall_not absent).symm, counted⟩

/-! ## All elements -/

theorem any_not_eq (keep : α → Bool) (items : List α) :
    ((items.filter keep).length != items.length) = items.any fun item => !keep item := by
  rw [Bool.eq_iff_iff, bne_iff_ne, ne_eq, List.length_filter_eq_length_iff, List.any_eq_true]
  simp

theorem Counted.retain (counted : list.Counted) (keep : α → Bool) :
    (list.retain keep).1 = (list.flat.any fun item => !keep item) ∧
      (list.retain keep).2.flat = list.flat.filter keep ∧ (list.retain keep).2.Counted := by
  have kept : (list.segments.map (·.filter keep)).flatten = list.flat.filter keep :=
    List.filter_flatten.symm
  refine ⟨?_, kept, counted_ofSegments _⟩
  rw [← any_not_eq, ← kept, ← counted, ← countElements_eq]
  rfl

theorem Counted.replaceAll (counted : list.Counted) (f : α → α) :
    (list.replaceAll f).flat = list.flat.map f ∧ (list.replaceAll f).Counted := by
  have mapped : (list.replaceAll f).flat = list.flat.map f := List.map_flatten.symm
  refine ⟨mapped, ?_⟩
  rw [Counted, mapped, List.length_map, ← counted]
  rfl

theorem Counted.flatten (counted : list.Counted) :
    list.flatten.flat = list.flat ∧ list.flatten.Counted := by
  unfold SegmentedList.flatten
  split
  · have joined : flat ⟨[list.flat], list.size⟩ = list.flat := List.append_nil _
    exact ⟨joined, counted.trans (congrArg List.length joined.symm)⟩
  · exact ⟨rfl, counted⟩

-- A list without segments stays without any, so joining does not always leave one.
theorem flatten_segments (list : SegmentedList α) :
    list.flatten.segments = [] ∧ list.flat = [] ∨ list.flatten.segments = [list.flat] := by
  rcases list with ⟨segments, size⟩
  match segments with
  | [] => exact Or.inl ⟨rfl, rfl⟩
  | [segment] => exact Or.inr (congrArg (fun items => [items]) (List.append_nil segment).symm)
  | _ :: _ :: _ => exact Or.inr rfl

theorem Counted.sortBy (counted : list.Counted) (le : α → α → Bool) :
    (list.sortBy le).flat = list.flat.mergeSort le ∧ (list.sortBy le).Counted := by
  have sorted : (list.sortBy le).flat = list.flat.mergeSort le := by
    rw [SegmentedList.sortBy, flat]
    rcases flatten_segments list with ⟨none, empty⟩ | single
    · simp [none, empty]
    · simp [single]
  refine ⟨sorted, ?_⟩
  rw [Counted, sorted, List.length_mergeSort, ← counted.flatten.1]
  exact counted.flatten.2

theorem Counted.reverse (counted : list.Counted) :
    list.reverse.flat = list.flat.reverse ∧ list.reverse.Counted := by
  have turned : list.reverse.flat = list.flat.reverse := List.reverse_flatten.symm
  refine ⟨turned, ?_⟩
  rw [Counted, turned, List.length_reverse, ← counted]
  rfl

/-! ## One segment -/

-- The segment may come back longer or shorter. The length is set right by the difference, which does
-- not go below zero because the old segment is part of the list.
theorem Counted.editSegment (counted : list.Counted) {number : Nat} {items : List α}
    (there : list.segments[number]? = some items) (edit : List α → ρ × List α) :
    Tracks (.ofExcept list (list.editSegment number edit))
      (Plain.splice list.flat (list.segments.take number).flatten.length items.length edit) := by
  obtain ⟨left, right, split, rfl⟩ := split_of_getElem? there
  have whole : list.flat = left.flatten ++ (items ++ right.flatten) := by
    rw [flat, split, List.flatten_append, List.flatten_cons]
  have edited : (list.segments.set left.length (edit items).2).flatten =
      left.flatten ++ (edit items).2 ++ right.flatten := by
    rw [split, List.set_append_right _ _ (Nat.le_refl _), Nat.sub_self, List.set_cons_zero]
    simp
  have front : list.segments.take left.length = left := by
    rw [split, List.take_left]
  rw [SegmentedList.editSegment, getSegment, there, front, Plain.splice, whole, List.drop_left,
    List.take_left, List.take_left, ← List.drop_drop, List.drop_left, List.drop_left]
  constructor
  case answer => rfl
  case sequence => exact edited
  case counted =>
    show list.size - items.length + (edit items).2.length =
      (list.segments.set left.length (edit items).2).flatten.length
    rw [edited, counted, whole]
    simp only [List.length_append]
    omega

end Collections.SegmentedList
