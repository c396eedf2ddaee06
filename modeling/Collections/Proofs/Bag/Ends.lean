import Collections.Bag.Order
import Collections.Proofs.Bag.Sorted

/-! The ends of the order of a sorted bag, which a scan finds without sorting.

The scan keeps the best element so far and takes another one only if that beats it. So of several elements
at an end it finds the first, which at the lower end is where a stable sort starts, but at the upper end need
not be where it stops.
-/

set_option autoImplicit false

namespace Collections

open WeakOrder (byKey)

variable {α : Type} {order : α → α → Ordering} {items sorted : List α} {best : α}

theorem isLE_of_not_lt [Std.OrientedCmp order] {first second : α} (above : order second first ≠ .lt) :
    (order first second).isLE := by
  rw [Ordering.isLE_iff_ne_gt]
  exact fun reached => above (Std.OrientedCmp.gt_iff_lt.mp reached)

theorem eq_of_not_lt [Std.OrientedCmp order] {first second : α} (here : order first second ≠ .lt)
    (there : order second first ≠ .lt) : order first second = .eq := by
  cases compared : order first second with
  | lt => exact absurd compared here
  | eq => rfl
  | gt => exact absurd (Std.OrientedCmp.gt_iff_lt.mp compared) there

theorem not_lt_self [Std.OrientedCmp order] (item : α) : order item item ≠ .lt := by
  have self : order item item = .eq := Std.ReflCmp.compare_self
  rw [self]
  exact Ordering.noConfusion

/-- The first of the least: less than all that are earlier, and nothing later is less. -/
def FirstLeast (order : α → α → Ordering) (items : List α) (best : α) : Prop :=
  ∃ before after, items = before ++ best :: after ∧ (∀ earlier ∈ before, order best earlier = .lt) ∧
    ∀ later ∈ after, order later best ≠ .lt

namespace FirstLeast

theorem mem (foremost : FirstLeast order items best) : best ∈ items := by
  obtain ⟨before, after, rfl, -⟩ := foremost
  exact List.mem_append_right before List.mem_cons_self

variable [Std.TransCmp order]

theorem least (foremost : FirstLeast order items best) {item : α} (member : item ∈ items) :
    order item best ≠ .lt := by
  obtain ⟨before, after, rfl, earlier, later⟩ := foremost
  rcases List.mem_append.mp member with front | back
  · rw [Std.OrientedCmp.gt_of_lt (earlier item front)]
    exact Ordering.noConfusion
  rcases List.mem_cons.mp back with rfl | back
  · exact not_lt_self item
  · exact later item back

/-- It is the first element that ties with any other at its end. -/
theorem find? (foremost : FirstLeast order items best) {item : α} (tied : order best item = .eq) :
    items.find? (fun other => order item other == .eq) = some best := by
  obtain ⟨before, after, rfl, earlier, -⟩ := foremost
  have back : order item best = .eq := Std.OrientedCmp.eq_symm tied
  rw [List.find?_eq_some_iff_append]
  refine ⟨by simp [back], before, after, rfl, ?_⟩
  intro other member
  have less : order item other = .lt := Std.TransCmp.lt_of_eq_of_lt back (earlier other member)
  simp [less]

theorem cons {first next : α} {rest : List α} (foremost : FirstLeast order (next :: rest) best)
    (beaten : order next first = .lt) : FirstLeast order (first :: next :: rest) best := by
  have above : order best first = .lt :=
    Std.TransCmp.lt_of_isLE_of_lt (isLE_of_not_lt (foremost.least List.mem_cons_self)) beaten
  obtain ⟨before, after, split, earlier, later⟩ := foremost
  refine ⟨first :: before, after, by rw [split]; rfl, ?_, later⟩
  exact List.forall_mem_cons.mpr ⟨above, earlier⟩

theorem skip {first next : α} {rest : List α} (foremost : FirstLeast order (first :: rest) best)
    (kept : order next first ≠ .lt) : FirstLeast order (first :: next :: rest) best := by
  obtain ⟨before, after, split, earlier, later⟩ := foremost
  cases before with
  | nil =>
    obtain ⟨rfl, rfl⟩ := List.cons.inj split
    exact ⟨[], next :: rest, rfl, List.forall_mem_nil _, List.forall_mem_cons.mpr ⟨kept, later⟩⟩
  | cons head front =>
    obtain ⟨rfl, rfl⟩ := List.cons.inj split
    obtain ⟨above, others⟩ := List.forall_mem_cons.mp earlier
    have passed : order best next = .lt := Std.TransCmp.lt_of_lt_of_isLE above (isLE_of_not_lt kept)
    refine ⟨first :: next :: front, after, rfl, ?_, later⟩
    exact List.forall_mem_cons.mpr ⟨above, List.forall_mem_cons.mpr ⟨passed, others⟩⟩

/-- Repeating elements does not change which of them is the first. -/
theorem expand {entries : Entries α} (foremost : FirstLeast order (Entries.items entries) best)
    (positive : ∀ entry ∈ entries, 0 < entry.2) : FirstLeast order (Entries.expand entries) best := by
  obtain ⟨before, after, split, earlier, later⟩ := foremost
  obtain ⟨front, back, rfl, rfl, found⟩ := List.map_eq_append_iff.mp split
  obtain ⟨entry, rest, rfl, rfl, rfl⟩ := List.map_eq_cons_iff.mp found
  obtain ⟨count, counted⟩ :=
    Nat.exists_eq_add_of_lt (positive entry (List.mem_append_right front List.mem_cons_self))
  refine ⟨Entries.expand front, List.replicate count entry.1 ++ Entries.expand rest, ?_, ?_, ?_⟩
  · rw [Entries.expand_append, Entries.expand_cons, counted, Nat.zero_add, List.replicate_succ]
    rfl
  · exact fun item member => earlier item (Entries.mem_expand member)
  · intro item member
    rcases List.mem_append.mp member with repeated | further
    · rw [List.eq_of_mem_replicate repeated]
      exact not_lt_self entry.1
    · exact later item (Entries.mem_expand further)

end FirstLeast

/-! ## Where a stable sort has them -/

section Sorting

variable [Std.TransCmp order]

/-- A stable sort starts with the first of the least. -/
theorem WeakOrder.StablySorted.head?_eq (stably : (byKey id order).StablySorted items sorted)
    (foremost : FirstLeast order items best) : sorted.head? = some best := by
  have listed : best ∈ sorted :=
    WeakOrder.mem_of_filter_ties (fun item => (stably.stable item).symm) foremost.mem
  cases sorted with
  | nil => cases listed
  | cons head rest =>
    have member : head ∈ items := WeakOrder.mem_of_filter_ties stably.stable List.mem_cons_self
    have below : order head best ≠ .gt := by
      simpa using WeakOrder.le_of_mem_cons stably.ordered listed
    have tied : order best head = .eq :=
      eq_of_not_lt (mt Std.OrientedCmp.gt_of_lt below) (foremost.least member)
    have self : order head head = .eq := Std.ReflCmp.compare_self
    have same := congrArg List.head? (stably.stable head)
    rw [List.head?_filter, List.head?_filter, WeakOrder.ties_byKey,
      List.find?_cons_of_pos (by simp [self])] at same
    exact same.trans (foremost.find? tied)

/-- A stable sort stops at an element that ties with the first of the greatest. -/
theorem WeakOrder.StablySorted.getLast?_ties (stably : (byKey id order).StablySorted items sorted)
    (foremost : FirstLeast (fun first second => order second first) items best) :
    ∃ final, sorted.getLast? = some final ∧ order best final = .eq := by
  have listed : best ∈ sorted :=
    WeakOrder.mem_of_filter_ties (fun item => (stably.stable item).symm) foremost.mem
  rcases List.eq_nil_or_concat' sorted with rfl | ⟨front, final, rfl⟩
  · cases listed
  · have member : final ∈ items :=
      WeakOrder.mem_of_filter_ties stably.stable (List.mem_append_right front List.mem_cons_self)
    have above : order best final ≠ .gt := by
      rcases List.mem_append.mp listed with earlier | last
      · simpa using (List.pairwise_append.mp stably.ordered).2.2 best earlier final List.mem_cons_self
      · rw [List.mem_singleton.mp last]
        exact mt Std.OrientedCmp.gt_iff_lt.mp (not_lt_self final)
    refine ⟨final, List.getLast?_concat, ?_⟩
    exact eq_of_not_lt (foremost.least member) (mt Std.OrientedCmp.gt_of_lt above)

end Sorting

/-! ## The scan -/

namespace Bag

variable [Std.TransCmp order]

theorem extreme_cons (order : α → α → Ordering) [Std.TransCmp order] (first : α) (rest : List α) :
    ∃ best, extreme order .lt (first :: rest) = some best ∧ FirstLeast order (first :: rest) best := by
  induction rest generalizing first with
  | nil => exact ⟨first, rfl, [], [], rfl, List.forall_mem_nil _, List.forall_mem_nil _⟩
  | cons next rest ih =>
    by_cases beaten : order next first = .lt
    · obtain ⟨best, found, foremost⟩ := ih next
      exact ⟨best, by simpa [extreme, beaten] using found, foremost.cons beaten⟩
    · obtain ⟨best, found, foremost⟩ := ih first
      exact ⟨best, by simpa [extreme, beaten] using found, foremost.skip beaten⟩

/-- Looking for the greatest is looking for the least in the opposite order. -/
theorem extreme_opposite (items : List α) :
    extreme order .gt items = extreme (fun first second => order second first) .lt items := by
  simp only [extreme, Std.OrientedCmp.gt_iff_lt]

variable {delegate : Bag α}

/-- A sorted bag has both ends unless there is nothing to sort. -/
theorem exists_ends (order : α → α → Ordering) [Std.TransCmp order] (delegate : Bag α) :
    (delegate.entries = [] ∧ (Bag.sorted order delegate).first? = none ∧
        (Bag.sorted order delegate).last? = none ∧ (Bag.sorted order delegate).toList = []) ∨
      ∃ lower upper, (Bag.sorted order delegate).first? = some lower ∧
        (Bag.sorted order delegate).last? = some upper ∧
        FirstLeast order (Entries.items delegate.entries) lower ∧
        FirstLeast (fun first second => order second first) (Entries.items delegate.entries) upper := by
  rw [first?, last?, extreme_opposite, toList, entries]
  cases delegate.entries with
  | nil => exact .inl ⟨rfl, rfl, rfl, by rw [arrange, List.mergeSort_nil, Entries.expand]; rfl⟩
  | cons entry rest =>
    obtain ⟨lower, found, least⟩ := extreme_cons order entry.1 (Entries.items rest)
    obtain ⟨upper, reached, greatest⟩ :=
      extreme_cons (fun first second => order second first) entry.1 (Entries.items rest)
    exact .inr ⟨lower, upper, found, reached, least, greatest⟩

variable [DecidableEq α]

structure Ends (order : α → α → Ordering) (delegate bag : Bag α) : Prop where
  firstNone : bag.first? = none ↔ bag.isEmpty
  lastNone : bag.last? = none ↔ bag.isEmpty
  first : bag.first? = bag.toList.head?
  last (item : α) : bag.last? = some item →
    ∃ final, bag.toList.getLast? = some final ∧ order item final = .eq ∧
      -- Of all that tie with the final one, the one that the delegate gives first.
      (Entries.items delegate.entries).find? (fun other => order other final == .eq) = some item
  least (item : α) : bag.first? = some item →
    bag.contains item ∧ ∀ other, bag.contains other → order other item ≠ .lt
  greatest (item : α) : bag.last? = some item →
    bag.contains item ∧ ∀ other, bag.contains other → order other item ≠ .gt
  lastApart : (∀ item other, bag.contains item → bag.contains other → order item other = .eq →
    item = other) → bag.last? = bag.toList.getLast?

omit [Std.TransCmp order] in
theorem ends_of_none {bag : Bag α} (empty : bag.isEmpty) (first : bag.first? = none)
    (last : bag.last? = none) (read : bag.toList = []) : Ends order delegate bag where
  firstNone := iff_of_true first empty
  lastNone := iff_of_true last empty
  first := by rw [first, read, List.head?_nil]
  last item answer := nomatch last.symm.trans answer
  least item answer := nomatch first.symm.trans answer
  greatest item answer := nomatch last.symm.trans answer
  lastApart _ := by rw [last, read, List.getLast?_nil]

/-- The scan finds the ends of what is read in order: where it starts, and something that ties with where it
stops. -/
theorem ends_of_order (order : α → α → Ordering) [Std.TransCmp order]
    (valid : delegate.contents.Valid) : Ends order delegate (.sorted order delegate) := by
  have present (item : α) : (Bag.sorted order delegate).contains item ↔
      item ∈ Entries.items delegate.entries := contains_iff_mem valid item
  have empty : (Bag.sorted order delegate).isEmpty ↔ delegate.entries = [] := isEmpty_iff valid
  obtain ⟨none, first, last, read⟩ | ⟨lower, upper, found, reached, least, greatest⟩ :=
    exists_ends order delegate
  · exact ends_of_none (empty.mpr none) first last read
  · have positive : ∀ entry ∈ delegate.entries, 0 < entry.2 :=
      fun entry member => ((valid_entries valid).counted entry member).1
    have stably := (arrange_stablySorted order delegate.entries).expand
    have starts : (Bag.sorted order delegate).toList.head? = some lower :=
      stably.head?_eq (least.expand positive)
    obtain ⟨final, stops, tied⟩ := stably.getLast?_ties (greatest.expand positive)
    have stops : (Bag.sorted order delegate).toList.getLast? = some final := stops
    have held : ¬ (Bag.sorted order delegate).isEmpty := by
      intro none
      have member := least.mem
      rw [empty.mp none] at member
      cases member
    constructor
    case firstNone => exact iff_of_false (by rw [found]; exact Option.some_ne_none lower) held
    case lastNone => exact iff_of_false (by rw [reached]; exact Option.some_ne_none upper) held
    case first => rw [found, starts]
    case last =>
      intro item answer
      cases reached.symm.trans answer
      exact ⟨final, stops, tied, greatest.find? (Std.OrientedCmp.eq_symm tied)⟩
    case least =>
      intro item answer
      cases found.symm.trans answer
      refine ⟨(present lower).mpr least.mem, ?_⟩
      exact fun other member => least.least ((present other).mp member)
    case greatest =>
      intro item answer
      cases reached.symm.trans answer
      refine ⟨(present upper).mpr greatest.mem, ?_⟩
      intro other member above
      exact greatest.least ((present other).mp member) (Std.OrientedCmp.gt_iff_lt.mp above)
    case lastApart =>
      intro apart
      have listed : final ∈ Entries.items delegate.entries :=
        Entries.mem_expand (WeakOrder.mem_of_filter_ties stably.stable (List.mem_of_getLast? stops))
      rw [reached, stops, apart upper final ((present upper).mpr greatest.mem)
        ((present final).mpr listed) tied]

/-- Two elements have the greatest last digit. The scan finds the one that the delegate gives first, and
sorted they stop at the other. -/
theorem ends_of_last_digits :
    let order : Nat → Nat → Ordering := compareOn (· % 10)
    let delegate : Bag Nat := .plain ⟨[(4, 1), (12, 2), (2, 3), (11, 1), (14, 2)], 9⟩
    let bag : Bag Nat := .sorted order delegate
    Std.TransCmp order ∧ delegate.contents.Valid ∧ bag.first? = some 11 ∧ bag.last? = some 4 ∧
      bag.toList = [11, 12, 12, 2, 2, 2, 4, 14, 14] ∧ Ends order delegate bag := by
  intro order delegate bag
  have preorder : Std.TransCmp order := inferInstanceAs (Std.TransCmp (compareOn (· % 10)))
  have valid : delegate.contents.Valid := ⟨by decide, by decide, by decide, by decide⟩
  refine ⟨preorder, valid, by decide, by decide, ?_, ends_of_order order valid⟩
  simp [bag, delegate, order, toList, entries, arrange, Entries.expand, compareOn, compare,
    compareOfLessAndEq, List.mergeSort, List.MergeSort.Internal.splitInTwo, List.replicate]

end Bag

end Collections
