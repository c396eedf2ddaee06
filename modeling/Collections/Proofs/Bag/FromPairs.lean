import Collections.Proofs.Bag.Conversions
import Collections.Proofs.Bag.Values
import Collections.Proofs.Occurrences.Updates
import Mathlib.Algebra.Order.BigOperators.Group.List
import Mathlib.Algebra.Ring.Int.Defs

/-! Bags made from pairs of an element and a signed count, in which elements may come again.

The pairs are added one by one, and each addition looks at what was added before it. But counts that are not
negative only add up along the way: if all of them together stay within the limits, each addition does, and
otherwise one of them does not. So the sums decide, and the order plays no part.
-/

set_option autoImplicit false

namespace Collections.Occurrences

variable {α : Type} [DecidableEq α] {counts next : Occurrences α} {pair : α × Int}
  {earlier rest pairs others : List (α × Int)}

/-! ## Sums of pairs -/

def sumOf (pairs : List (α × Int)) (item : α) : Int :=
  ((pairs.filter fun pair => pair.1 = item).map Prod.snd).sum

omit [DecidableEq α] in
def sumAll (pairs : List (α × Int)) : Int :=
  (pairs.map Prod.snd).sum

structure PairsFit (pairs : List (α × Int)) : Prop where
  nonneg : ∀ pair ∈ pairs, 0 ≤ pair.2
  countOf (item : α) : sumOf pairs item ≤ maxCount
  size : sumAll pairs ≤ maxTotal

theorem sumOf_append (pairs more : List (α × Int)) (item : α) :
    sumOf (pairs ++ more) item = sumOf pairs item + sumOf more item := by
  rw [sumOf, List.filter_append, List.map_append, List.sum_append, sumOf, sumOf]

theorem sumOf_cons (pair : α × Int) (pairs : List (α × Int)) (item : α) :
    sumOf (pair :: pairs) item = (if pair.1 = item then pair.2 else 0) + sumOf pairs item := by
  by_cases same : pair.1 = item <;> simp [sumOf, same]

omit [DecidableEq α] in
theorem sumAll_append (pairs more : List (α × Int)) :
    sumAll (pairs ++ more) = sumAll pairs + sumAll more := by
  rw [sumAll, List.map_append, List.sum_append, sumAll, sumAll]

omit [DecidableEq α] in
theorem sumAll_cons (pair : α × Int) (pairs : List (α × Int)) :
    sumAll (pair :: pairs) = pair.2 + sumAll pairs := rfl

theorem sumOf_nonneg (nonneg : ∀ pair ∈ pairs, 0 ≤ pair.2) (item : α) : 0 ≤ sumOf pairs item := by
  apply List.sum_nonneg
  intro count member
  obtain ⟨pair, kept, rfl⟩ := List.mem_map.mp member
  exact nonneg pair (List.mem_of_mem_filter kept)

omit [DecidableEq α] in
theorem sumAll_nonneg (nonneg : ∀ pair ∈ pairs, 0 ≤ pair.2) : 0 ≤ sumAll pairs := by
  apply List.sum_nonneg
  intro count member
  obtain ⟨pair, kept, rfl⟩ := List.mem_map.mp member
  exact nonneg pair kept

theorem PairsFit.perm (fit : PairsFit pairs) (same : others.Perm pairs) : PairsFit others where
  nonneg pair member := fit.nonneg pair (same.mem_iff.mp member)
  countOf item := by
    rw [sumOf, ((same.filter _).map _).sum_eq]
    exact fit.countOf item
  size := by
    rw [sumAll, (same.map _).sum_eq]
    exact fit.size

/-! ## Adding pairs -/

structure Tallied (pairs : List (α × Int)) (counts : Occurrences α) : Prop where
  nonneg : ∀ pair ∈ pairs, 0 ≤ pair.2
  valid : counts.Valid
  countOf (item : α) : (counts.countOf item : Int) = sumOf pairs item
  size : (counts.size : Int) = sumAll pairs

namespace Tallied

theorem none : Tallied [] (.empty : Occurrences α) :=
  ⟨List.forall_mem_nil _, valid_empty, fun _ => rfl, rfl⟩

theorem fit (tallied : Tallied pairs counts) : PairsFit pairs where
  nonneg := tallied.nonneg
  countOf item := by
    have bounded := tallied.valid.countOf_le_maxCount item
    have := tallied.countOf item
    omega
  size := by
    have bounded := tallied.valid.size_le
    have := tallied.size
    omega

theorem perm (tallied : Tallied pairs counts) (same : others.Perm pairs) : Tallied others counts where
  nonneg := (tallied.fit.perm same).nonneg
  valid := tallied.valid
  countOf item := (tallied.countOf item).trans ((same.filter _).map _).sum_eq.symm
  size := tallied.size.trans (same.map _).sum_eq.symm

theorem copies (tallied : Tallied pairs next) (again : Tallied pairs counts) : Copies next counts := by
  apply tallied.valid.copies again.valid
  intro item
  have here := tallied.countOf item
  have there := again.countOf item
  omega

theorem contains_iff (tallied : Tallied pairs counts) (item : α) :
    counts.contains item ↔ sumOf pairs item ≠ 0 := by
  rw [tallied.valid.contains_iff, ← tallied.countOf]
  omega

theorem add {changed : Bool} (tallied : Tallied earlier counts)
    (accepted : counts.add pair.1 pair.2 = .ok (changed, next)) : Tallied (earlier ++ [pair]) next := by
  have exact := tallied.valid.exactly_add pair.1 pair.2
  have within := mt exact.refused_iff.mpr (by rw [accepted]; rintro ⟨_, refused⟩; cases refused)
  obtain ⟨counted, grown, -⟩ := exact.accepted changed next accepted
  constructor
  case nonneg =>
    intro other member
    rcases List.mem_append.mp member with before | last
    · exact tallied.nonneg other before
    · obtain rfl := List.mem_singleton.mp last
      omega
  case valid => exact tallied.valid.add accepted
  case countOf =>
    intro item
    rw [counted, sumOf_append, sumOf_cons, ← tallied.countOf, withCount]
    split
    · rename_i same
      subst same
      exact congrArg _ (Int.add_zero _).symm
    · exact (Int.add_zero _).symm
  case size =>
    rw [grown, sumAll_append, sumAll_cons, ← tallied.size]
    exact congrArg _ (Int.add_zero _).symm

/-- An addition that is refused has a count in it that does not fit, whatever pairs follow. -/
theorem refused {error : Error} (tallied : Tallied earlier counts)
    (refusal : counts.add pair.1 pair.2 = .error error) (rest : List (α × Int)) :
    (∃ reason, error = .invalidArgument reason) ∧ ¬ PairsFit (earlier ++ pair :: rest) := by
  have exact := tallied.valid.exactly_add pair.1 pair.2
  refine ⟨(exact.refusal error refusal).1, ?_⟩
  intro fit
  have beyond := exact.refused_iff.mp ⟨error, refusal⟩
  have later : ∀ other ∈ rest, 0 ≤ other.2 := fun other member =>
    fit.nonneg other (List.mem_append_right _ (List.mem_cons_of_mem _ member))
  have positive := fit.nonneg pair (List.mem_append_right _ List.mem_cons_self)
  have counted := fit.countOf pair.1
  have summed := fit.size
  rw [sumOf_append, sumOf_cons, if_pos rfl, ← tallied.countOf] at counted
  rw [sumAll_append, sumAll_cons, ← tallied.size] at summed
  have := sumOf_nonneg later pair.1
  have := sumAll_nonneg later
  omega

-- The pairs added so far stand in front of those still to come; each addition moves one over.
theorem foldlM_cases (tallied : Tallied earlier counts) (rest : List (α × Int)) :
    let outcome := rest.foldlM (fun counts pair => (counts.add pair.1 pair.2).map Prod.snd) counts
    (∃ final, outcome = .ok final ∧ Tallied (earlier ++ rest) final) ∨
      ∃ reason, outcome = .error (.invalidArgument reason) ∧ ¬ PairsFit (earlier ++ rest) := by
  induction rest generalizing earlier counts with
  | nil => exact .inl ⟨counts, rfl, (List.append_nil earlier).symm ▸ tallied⟩
  | cons pair rest ih =>
    rw [List.foldlM_cons]
    cases taken : counts.add pair.1 pair.2 with
    | error error =>
      obtain ⟨⟨reason, rfl⟩, beyond⟩ := tallied.refused taken rest
      exact .inr ⟨reason, rfl, beyond⟩
    | ok answer =>
      rw [List.append_cons]
      exact ih (tallied.add taken)

end Tallied

theorem ofPairs_cases (pairs : List (α × Int)) :
    (∃ counts, ofPairs pairs = .ok counts ∧ Tallied pairs counts) ∨
      ∃ reason, ofPairs pairs = .error (.invalidArgument reason) ∧ ¬ PairsFit pairs :=
  Tallied.none.foldlM_cases pairs

theorem ofPairs_tallied (made : ofPairs pairs = .ok counts) : Tallied pairs counts := by
  obtain ⟨other, same, tallied⟩ | ⟨reason, refused, -⟩ := ofPairs_cases pairs
  · rw [made] at same
    cases same
    exact tallied
  · rw [made] at refused
    cases refused

theorem ofPairs_ok_iff (pairs : List (α × Int)) :
    (∃ counts, ofPairs pairs = .ok counts) ↔ PairsFit pairs := by
  constructor
  · rintro ⟨counts, made⟩
    exact (ofPairs_tallied made).fit
  · intro fit
    obtain ⟨counts, made, -⟩ | ⟨-, -, beyond⟩ := ofPairs_cases pairs
    · exact ⟨counts, made⟩
    · exact absurd fit beyond

structure Settled (pairs : List (α × Int)) : Prop where
  accepted_iff : (∃ counts, ofPairs pairs = .ok counts) ↔ PairsFit pairs
  refusal : ¬ PairsFit pairs → ∃ reason, ofPairs pairs = .error (.invalidArgument reason)
  tallied (counts : Occurrences α) : ofPairs pairs = .ok counts → Tallied pairs counts
  contains_iff (counts : Occurrences α) : ofPairs pairs = .ok counts →
    ∀ item, counts.contains item ↔ sumOf pairs item ≠ 0
  reordered (others : List (α × Int)) : others.Perm pairs →
    ((∃ copy, ofPairs others = .ok copy) ↔ ∃ counts, ofPairs pairs = .ok counts) ∧
      ∀ copy counts, ofPairs others = .ok copy → ofPairs pairs = .ok counts → Copies copy counts

/-- Whether pairs make a bag, and which, is up to their sums. In which order they come makes no
difference. -/
theorem ofPairs_settled_by_sums (pairs : List (α × Int)) : Settled pairs := by
  constructor
  case accepted_iff => exact ofPairs_ok_iff pairs
  case refusal =>
    intro beyond
    obtain ⟨counts, -, tallied⟩ | ⟨reason, refused, -⟩ := ofPairs_cases pairs
    · exact absurd tallied.fit beyond
    · exact ⟨reason, refused⟩
  case tallied => exact fun _ made => ofPairs_tallied made
  case contains_iff => exact fun _ made => (ofPairs_tallied made).contains_iff
  case reordered =>
    intro others same
    refine ⟨?_, ?_⟩
    · rw [ofPairs_ok_iff, ofPairs_ok_iff]
      exact ⟨fun fit => fit.perm same.symm, fun fit => fit.perm same⟩
    · intro copy counts here there
      exact (ofPairs_tallied here).copies ((ofPairs_tallied there).perm same)

-- The order decides only which of two faults is met first.
example : ofPairs [(1, maxCount), (2, 0), (1, 1), (3, -1)] = .error .occurrenceOverflow := by cbv

example : ofPairs [(3, -1), (1, 1), (2, 0), (1, maxCount)] = .error (.negativeOccurrences (-1)) := by cbv

end Collections.Occurrences
