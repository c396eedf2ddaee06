import Collections.Proofs.SegmentedList.Reachable
import Collections.SegmentedList.Sections

/-! The sections of a list lie side by side and make up its sequence, however many there are. Those that a
list offers for a length hold at least so many elements and less than twice as many.
-/

set_option autoImplicit false

namespace Collections.SegmentedList

variable {α σ : Type} {list : SegmentedList α} {segment : List α} {number count : Nat}

/-- A list of several segments has these as its sections. Any other list can be cut into any number of
them. -/
def Offers (list : SegmentedList α) (count : Nat) : Prop :=
  0 < count ∧ (1 < list.segments.length → count = list.segments.length)

/-! ## Visiting -/

def visitRead (visit : σ → α → σ) (seen : σ) : Except Error (List α) → Attempt σ Unit
  | .error error => ⟨.error error, seen⟩
  | .ok items => ⟨.ok (), items.foldl visit seen⟩

def visitSection (list : SegmentedList α) (count : Nat) (visit : σ → α → σ) (number : Nat) (seen : σ) :
    Attempt σ Unit :=
  visitRead visit seen (list.readSection number count)

def slice? (segment : List α) (start stop : Nat) : Option (List α) :=
  if start ≤ stop ∧ stop ≤ segment.length then some ((segment.drop start).take (stop - start))
  else none

def run? (segment : List α) (number count : Nat) : Option (List α) :=
  let length := segment.length / count
  let start := number * length
  slice? segment start (if number = count - 1 then segment.length else start + length)

def visitSection? (list : SegmentedList α) (count : Nat) (visit : σ → α → σ) (number : Nat) (seen : σ) :
    Option (Attempt σ Unit) :=
  if count = 0 then some ⟨.error .noSections, seen⟩
  else match checkBounds number count with
  | .error error => some ⟨.error error, seen⟩
  | .ok _ =>
    match list.segments with
    | [] => some ⟨.ok (), seen⟩
    | [segment] => (run? segment number count).map fun items => ⟨.ok (), items.foldl visit seen⟩
    | segments@(_ :: _ :: _) =>
      if count = segments.length then
        segments[number]?.map fun items => ⟨.ok (), items.foldl visit seen⟩
      else some ⟨.error (.sectionMismatch count segments.length), seen⟩

theorem mul_length_le (within : number ≤ count) :
    number * (segment.length / count) ≤ segment.length :=
  Nat.le_trans (Nat.mul_le_mul_right _ within) (Nat.mul_div_le _ _)

theorem mul_length_add_le (inside : number < count) :
    number * (segment.length / count) + segment.length / count ≤ segment.length := by
  rw [← Nat.succ_mul]
  exact mul_length_le inside

-- The runs before the last are as long as the quotient says, so the one after them starts where a multiple
-- of it ends, and the multiple by their number is still within the segment.
theorem run?_eq (inside : number < count) :
    run? segment number count = some (run segment number count) := by
  have start : number * (segment.length / count) ≤ segment.length := mul_length_le (Nat.le_of_lt inside)
  rw [run?, slice?, run]
  split
  case isTrue last => rw [if_pos ⟨start, Nat.le_refl _⟩, List.take_of_length_le (by simp)]
  case isFalse between =>
    rw [if_pos ⟨Nat.le_add_right _ _, mul_length_add_le inside⟩, Nat.add_sub_cancel_left]

theorem visitSection?_eq (list : SegmentedList α) (count : Nat) (visit : σ → α → σ) (number : Nat)
    (seen : σ) :
    list.visitSection? count visit number seen = some (list.visitSection count visit number seen) := by
  unfold visitSection? visitSection readSection checkBounds
  by_cases none : count = 0
  · rw [if_pos none, if_pos none]
    rfl
  rw [if_neg none, if_neg none]
  by_cases inside : number < count
  · rw [if_pos inside]
    rcases list with ⟨segments, size⟩
    match segments with
    | [] => rfl
    | [segment] =>
      simp only [run?_eq inside]
      rfl
    | first :: second :: rest =>
      simp only
      split
      case isTrue all =>
        rw [List.getElem?_eq_getElem (all ▸ inside)]
        rfl
      case isFalse other => rfl
  · rw [if_neg inside]
    rfl

/-! ## Cutting -/

theorem flatMap_run (segment : List α) {count : Nat} (within : number < count) :
    (List.range number).flatMap (fun number => run segment number count) =
      segment.take (number * (segment.length / count)) := by
  induction number with
  | zero => simp
  | succ number ih =>
    have between : number ≠ count - 1 := by omega
    rw [List.range_succ, List.flatMap_append, ih (by omega), List.flatMap_singleton, run,
      if_neg between, Nat.succ_mul, List.take_add]

theorem run_tiles (segment : List α) (some : 0 < count) :
    (List.range count).flatMap (fun number => run segment number count) = segment := by
  obtain ⟨last, rfl⟩ := Nat.exists_eq_add_of_lt some
  rw [Nat.zero_add, List.range_succ, List.flatMap_append, flatMap_run segment (Nat.lt_succ_self _),
    List.flatMap_singleton, run, if_pos (Nat.add_sub_cancel _ _).symm, List.take_append_drop]

theorem segments_tile (segments : List (List α)) :
    (List.range segments.length).flatMap (fun number => segments[number]?.getD []) =
      segments.flatten := by
  induction segments with
  | nil => rfl
  | cons segment rest ih =>
    rw [List.length_cons, List.range_succ_eq_map, List.flatMap_cons, List.flatMap_map, List.flatten_cons,
      ← ih]
    rfl

theorem readSection_one (inside : number < count) (size : Nat) :
    readSection ⟨[segment], size⟩ number count = .ok (run segment number count) := by
  rw [readSection, if_neg (Nat.ne_zero_of_lt inside), checkBounds, if_pos inside]
  rfl

theorem readSection_tiles (offered : list.Offers count) : ∃ part : Nat → List α,
    (∀ number < count, list.readSection number count = .ok (part number)) ∧
      (List.range count).flatMap part = list.flat := by
  obtain ⟨some, all⟩ := offered
  have accepted {number : Nat} (inside : number < count) : checkBounds number count = .ok () :=
    if_pos inside
  have positive : count ≠ 0 := Nat.ne_of_gt some
  rcases list with ⟨segments, size⟩
  match segments with
  | [] =>
    refine ⟨fun _ => [], fun number inside => ?_, by simp [flat]⟩
    rw [readSection, if_neg positive, accepted inside]
    rfl
  | [segment] =>
    refine ⟨fun number => run segment number count, fun _ inside => readSection_one inside size, ?_⟩
    rw [run_tiles segment some, flat, List.flatten_singleton]
  | first :: second :: rest =>
    obtain rfl := all (by simp)
    refine ⟨fun number => (first :: second :: rest)[number]?.getD [], fun number inside => ?_,
      segments_tile _⟩
    rw [readSection, if_neg positive, accepted inside]
    exact if_pos rfl

theorem visit_each {numbers : List Nat} {part : Nat → List α} (visit : σ → α → σ) (seen : σ)
    (read : ∀ number ∈ numbers, list.readSection number count = .ok (part number)) :
    Attempt.forEach (list.visitSection count visit) numbers seen =
      ⟨.ok (), (numbers.flatMap part).foldl visit seen⟩ := by
  induction numbers generalizing seen with
  | nil => rfl
  | cons number rest ih =>
    obtain ⟨here, there⟩ := List.forall_mem_cons.mp read
    have visited : list.visitSection count visit number seen =
        ⟨.ok (), (part number).foldl visit seen⟩ := by
      rw [visitSection, here, visitRead]
    rw [Attempt.forEach_cons visited, ih _ there, List.flatMap_cons, List.foldl_append]

/-! ## Lengths -/

theorem sectionCount_offered (list : SegmentedList α) (elements : Nat) :
    list.Offers (list.sectionCount elements) := by
  rcases list with ⟨segments, size⟩
  match segments with
  | [] => exact ⟨Nat.lt_of_lt_of_le Nat.one_pos (Nat.le_max_right _ _), fun several => by simp at several⟩
  | [segment] =>
    exact ⟨Nat.lt_of_lt_of_le Nat.one_pos (Nat.le_max_right _ _), fun several => by simp at several⟩
  | first :: second :: rest => exact ⟨Nat.succ_pos _, fun _ => rfl⟩

theorem length_run (inside : number < count) :
    (run segment number count).length =
      segment.length / count + if number = count - 1 then segment.length % count else 0 := by
  have start : number * (segment.length / count) ≤ segment.length := mul_length_le (Nat.le_of_lt inside)
  have next : number * (segment.length / count) + segment.length / count ≤ segment.length :=
    mul_length_add_le inside
  rw [run]
  split
  case isTrue last =>
    have one_more : count = number + 1 := by omega
    have whole := Nat.div_add_mod segment.length count
    have shares : count * (segment.length / count) =
        number * (segment.length / count) + segment.length / count := by
      rw [← Nat.succ_mul, Nat.succ_eq_add_one, ← one_more]
    rw [List.length_drop]
    omega
  case isFalse between =>
    rw [List.length_take, List.length_drop]
    omega

theorem div_add_mod_le (rest : Nat) (some : 0 < count) : rest / count + rest % count ≤ rest := by
  have whole := Nat.div_add_mod rest count
  have := Nat.le_mul_of_pos_left (rest / count) some
  omega

-- As many sections as the length goes into the whole get that length each, and share what is left over. It
-- is less than the length, so not even the section that takes all of the remainder gets the length twice.
theorem length_run_bounds {elements : Nat} (some : 0 < elements) (fits : elements ≤ segment.length)
    (inside : number < segment.length / elements) :
    elements ≤ (run segment number (segment.length / elements)).length ∧
      (run segment number (segment.length / elements)).length < 2 * elements := by
  have positive : 0 < segment.length / elements := Nat.div_pos fits some
  have whole := Nat.div_add_mod segment.length elements
  have rest := Nat.mod_lt segment.length some
  rw [length_run inside]
  generalize segment.length / elements = count at *
  generalize segment.length % elements = left at *
  rw [Nat.mul_comm] at whole
  have share : segment.length / count = elements + left / count := by
    rw [← whole, Nat.mul_add_div positive]
  have remainder : segment.length % count = left % count := by
    rw [← whole, Nat.mul_add_mod]
  have bound := div_add_mod_le left positive
  rw [share, remainder]
  generalize left / count = each at bound ⊢
  generalize left % count = last at bound ⊢
  split <;> omega

/-! ## Refusals -/

section Refusals

variable (visit : σ → α → σ) (seen : σ)

theorem visitSection_none (list : SegmentedList α) (number : Nat) :
    list.visitSection 0 visit number seen = ⟨.error .noSections, seen⟩ := rfl

theorem visitSection_beyond (some : 0 < count) (beyond : count ≤ number) :
    list.visitSection count visit number seen = ⟨.error (.outOfBounds number count), seen⟩ := by
  rw [visitSection, readSection, if_neg (Nat.ne_of_gt some), checkBounds, if_neg (Nat.not_lt.mpr beyond)]
  rfl

theorem visitSection_mismatched (inside : number < count) (several : 1 < list.segments.length)
    (other : count ≠ list.segments.length) :
    list.visitSection count visit number seen =
      ⟨.error (.sectionMismatch count list.segments.length), seen⟩ := by
  rw [visitSection, readSection, if_neg (by omega), checkBounds, if_pos inside]
  rcases list with ⟨_ | ⟨first, _ | ⟨second, rest⟩⟩, size⟩
  · simp at several
  · simp at several
  · show visitRead visit seen (ite _ _ _) = _
    rw [if_neg other]
    rfl

theorem visitSection_accepted_iff :
    (list.visitSection count visit number seen).answer = .ok () ↔ number < count ∧ list.Offers count := by
  constructor
  · intro accepted
    have inside : number < count := by
      by_contra outside
      rcases Nat.eq_zero_or_pos count with rfl | some
      · cases accepted
      · rw [visitSection_beyond visit seen some (Nat.not_lt.mp outside)] at accepted
        cases accepted
    refine ⟨inside, Nat.zero_lt_of_lt inside, fun several => ?_⟩
    by_contra other
    rw [visitSection_mismatched visit seen inside several other] at accepted
    cases accepted
  · rintro ⟨inside, offered⟩
    obtain ⟨part, read, -⟩ := readSection_tiles offered
    rw [visitSection, read number inside]
    rfl

end Refusals

structure Sectioned (list : SegmentedList α) : Prop where
  guarded {σ : Type} (count : Nat) (visit : σ → α → σ) (number : Nat) (seen : σ) :
    list.visitSection? count visit number seen = some (list.visitSection count visit number seen)
  tiles {σ : Type} {count : Nat} (visit : σ → α → σ) (seen : σ) : list.Offers count →
    Attempt.forEach (list.visitSection count visit) (List.range count) seen =
      ⟨.ok (), list.flat.foldl visit seen⟩
  offered (elements : Nat) : list.Offers (list.sectionCount elements)
  accepted_iff {σ : Type} {count number : Nat} (visit : σ → α → σ) (seen : σ) :
    (list.visitSection count visit number seen).answer = .ok () ↔ number < count ∧ list.Offers count
  -- Every other request is refused for the first of these reasons, and nothing is visited.
  none {σ : Type} (visit : σ → α → σ) (number : Nat) (seen : σ) :
    list.visitSection 0 visit number seen =
      ⟨.error (.invalidArgument "section_count must be greater than 0"), seen⟩
  beyond {σ : Type} {count number : Nat} (visit : σ → α → σ) (seen : σ) : 0 < count → count ≤ number →
    list.visitSection count visit number seen = ⟨.error (.outOfBounds number count), seen⟩
  mismatched {σ : Type} {count number : Nat} (visit : σ → α → σ) (seen : σ) : number < count →
    1 < list.segments.length → count ≠ list.segments.length →
      list.visitSection count visit number seen = ⟨.error (.invalidArgument
        s!"section_count {count} does not match {list.segments.length} segments"), seen⟩
  lengths {elements number : Nat} : list.segments.length ≤ 1 → 0 < elements → elements ≤ list.size →
    number < list.sectionCount elements →
      ∃ items, list.readSection number (list.sectionCount elements) = .ok items ∧
        elements ≤ items.length ∧ items.length < 2 * elements

theorem Counted.lengths (counted : list.Counted) {elements : Nat} (few : list.segments.length ≤ 1)
    (some : 0 < elements) (fits : elements ≤ list.size) (inside : number < list.sectionCount elements) :
    ∃ items, list.readSection number (list.sectionCount elements) = .ok items ∧
      elements ≤ items.length ∧ items.length < 2 * elements := by
  rcases list with ⟨segments, size⟩
  match segments with
  | [] =>
    have none : size = 0 := counted
    have fits : elements ≤ size := fits
    omega
  | [segment] =>
    have whole : size = segment.length := counted.trans (by rw [flat, List.flatten_singleton])
    subst whole
    have several : sectionCount ⟨[segment], segment.length⟩ elements = segment.length / elements :=
      Nat.max_eq_left (Nat.div_pos fits some)
    rw [several] at inside ⊢
    exact ⟨SegmentedList.run segment number (segment.length / elements), readSection_one inside _,
      length_run_bounds some fits inside⟩
  | _ :: _ :: _ => simp at few

theorem sections_tile [BEq α] (reachable : list.Reachable) : Sectioned list where
  guarded := visitSection?_eq list
  tiles visit seen offered := by
    obtain ⟨part, read, joined⟩ := readSection_tiles offered
    rw [visit_each visit seen fun number member => read number (List.mem_range.mp member), joined]
  offered := sectionCount_offered list
  accepted_iff := visitSection_accepted_iff
  none visit number seen := visitSection_none visit seen list number
  beyond := visitSection_beyond
  mismatched := visitSection_mismatched
  lengths := reachable.counted.lengths

/-- Seven elements in sections of at least three: the last section has one more, and no third is offered. -/
theorem sections_tile_with_remainder :
    let list := ofSegments [[1, 2, 3, 4, 5, 6, 7]]
    list.Reachable ∧ Sectioned list ∧ list.sectionCount 3 = 2 ∧
      list.readSection 0 2 = .ok [1, 2, 3] ∧ list.readSection 1 2 = .ok [4, 5, 6, 7] ∧
      list.readSection 2 2 = .error (.outOfBounds 2 2) :=
  ⟨.made _, sections_tile (.made _), by decide, rfl, rfl, rfl⟩

end Collections.SegmentedList
