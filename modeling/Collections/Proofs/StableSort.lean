import Mathlib.Data.List.Basic

/-! Sorting by an order in which different elements may tie. A stable sort keeps ties in their places
relative to each other, and that leaves it one result only.
-/

set_option autoImplicit false

namespace Collections

structure WeakOrder (α : Type) where
  le : α → α → Bool
  trans (first second third : α) : le first second → le second third → le first third
  total (first second : α) : le first second || le second first

namespace WeakOrder

variable {α : Type} (order : WeakOrder α)

def ties (first second : α) : Bool :=
  order.le first second && order.le second first

/-- In order, and the elements that tie with any one stand as they stood before. -/
structure StablySorted (items sorted : List α) : Prop where
  ordered : sorted.Pairwise fun first second => order.le first second
  stable (item : α) : sorted.filter (order.ties item) = items.filter (order.ties item)

theorem ties_self (item : α) : order.ties item item := by
  have := order.total item item
  simpa [ties] using this

theorem pairwise_ties (item : α) (items : List α) :
    (items.filter (order.ties item)).Pairwise fun first second => order.le first second := by
  apply List.pairwise_of_forall_mem_list
  intro first left second right
  simp only [List.mem_filter, ties, Bool.and_eq_true] at left right
  exact order.trans first item second left.2.2 right.2.1

theorem mergeSort_stable (items : List α) :
    order.StablySorted items (items.mergeSort order.le) where
  ordered := List.pairwise_mergeSort order.trans order.total items
  stable item := by
    -- Elements that tie are in order already, so a sort keeps them as a sublist.
    have kept := (List.sublist_mergeSort order.trans order.total (order.pairwise_ties item items)
      List.filter_sublist).filter (order.ties item)
    rw [List.filter_filter] at kept
    simp only [Bool.and_self] at kept
    exact (kept.eq_of_length ((List.mergeSort_perm items order.le).filter _).length_eq.symm).symm

variable {order}

theorem le_of_mem_cons {first item : α} {rest : List α}
    (ordered : (first :: rest).Pairwise fun first second => order.le first second)
    (member : item ∈ first :: rest) : order.le first item := by
  rcases List.mem_cons.mp member with rfl | later
  · simpa using order.total item item
  · exact List.rel_of_pairwise_cons ordered later

theorem mem_of_filter_ties {items others : List α}
    (same : ∀ item, items.filter (order.ties item) = others.filter (order.ties item)) {item : α}
    (member : item ∈ items) : item ∈ others := by
  have kept : item ∈ items.filter (order.ties item) :=
    List.mem_filter.mpr ⟨member, order.ties_self item⟩
  rw [same] at kept
  exact List.mem_of_mem_filter kept

/-- There is one stable result only. -/
theorem StablySorted.unique {items sorted other : List α} (here : order.StablySorted items sorted)
    (there : order.StablySorted items other) : sorted = other := by
  have same (item : α) : sorted.filter (order.ties item) = other.filter (order.ties item) :=
    (here.stable item).trans (there.stable item).symm
  have left := here.ordered
  have right := there.ordered
  clear here there
  induction sorted generalizing other with
  | nil =>
    have none (item : α) : item ∉ other :=
      fun member => List.not_mem_nil (mem_of_filter_ties (fun item => (same item).symm) member)
    exact (List.eq_nil_iff_forall_not_mem.mpr none).symm
  | cons first rest ih =>
    cases other with
    | nil => exact absurd (mem_of_filter_ties same List.mem_cons_self) List.not_mem_nil
    | cons head tail =>
      -- Each head is in the other result and so not before its head: the two tie.
      have tied : order.ties first head := by
        rw [ties, Bool.and_eq_true]
        constructor
        · exact le_of_mem_cons left
            (mem_of_filter_ties (fun item => (same item).symm) List.mem_cons_self)
        · exact le_of_mem_cons right (mem_of_filter_ties same List.mem_cons_self)
      have heads := same first
      rw [List.filter_cons_of_pos (order.ties_self first), List.filter_cons_of_pos tied] at heads
      obtain ⟨rfl, _⟩ := List.cons.inj heads
      have tails (item : α) : rest.filter (order.ties item) = tail.filter (order.ties item) := by
        have both := same item
        rw [List.filter_cons, List.filter_cons] at both
        split at both
        · exact (List.cons.inj both).2
        · exact both
      rw [ih tails left.of_cons right.of_cons]

/-! ## Comparisons -/

section Comparisons

variable {β : Type} {key : β → α} {compare : α → α → Ordering} [Std.TransCmp compare]

def byKey (key : β → α) (compare : α → α → Ordering) [Std.TransCmp compare] : WeakOrder β where
  le first second := compare (key first) (key second) != .gt
  trans first second third := by
    have isLE (result : Ordering) : (result != .gt) = result.isLE := by cases result <;> rfl
    simp only [isLE]
    exact Std.TransCmp.isLE_trans
  total first second := by
    have swapped : compare (key second) (key first) = (compare (key first) (key second)).swap :=
      Std.OrientedCmp.eq_swap
    rw [swapped]
    cases compare (key first) (key second) <;> rfl

@[simp] theorem le_byKey (first second : β) :
    (byKey key compare).le first second = (compare (key first) (key second) != .gt) := rfl

@[simp] theorem ties_byKey (item : β) :
    (byKey key compare).ties item = fun other => compare (key item) (key other) == .eq := by
  funext other
  have swapped : compare (key other) (key item) = (compare (key item) (key other)).swap :=
    Std.OrientedCmp.eq_swap
  rw [ties, le_byKey, le_byKey, swapped]
  cases compare (key item) (key other) <;> rfl

/-- Of any two elements the one that stands first compares as less, or they tie and it stood first
before. -/
theorem StablySorted.placed {items sorted : List β}
    (stably : (byKey key compare).StablySorted items sorted) :
    sorted.Pairwise fun first second => compare (key first) (key second) = .lt ∨
      compare (key first) (key second) = .eq ∧ [first, second].Sublist items := by
  rw [List.pairwise_iff_forall_sublist]
  intro first second within
  have le := List.pairwise_iff_forall_sublist.mp stably.ordered within
  rw [le_byKey] at le
  cases compared : compare (key first) (key second) with
  | lt => exact .inl rfl
  | gt => simp [compared] at le
  | eq =>
    have tied := within.filter ((byKey key compare).ties first)
    rw [stably.stable, List.filter_cons_of_pos (ties_self _ first),
      List.filter_cons_of_pos (by simp [compared]), List.filter_nil] at tied
    exact .inr ⟨rfl, tied.trans List.filter_sublist⟩

/-- Sorting by one comparison and then by another sorts by the other first. -/
theorem StablySorted.again {inner outer : α → α → Ordering} [Std.TransCmp inner]
    [Std.TransCmp outer] {items middle sorted : List β}
    (first : (byKey key inner).StablySorted items middle)
    (second : (byKey key outer).StablySorted middle sorted) :
    (byKey key (compareLex outer inner)).StablySorted items sorted where
  ordered := by
    refine second.placed.imp ?_
    rintro earlier later (less | ⟨tied, stood⟩)
    · simp [compareLex, less]
    · have kept := List.pairwise_iff_forall_sublist.mp first.ordered stood
      simpa [compareLex, tied] using kept
  stable item := by
    -- What ties in both comparisons is found by looking for one after the other.
    have both : (byKey key (compareLex outer inner)).ties item = fun other =>
        (byKey key outer).ties item other && (byKey key inner).ties item other := by
      funext other
      simp only [ties_byKey, compareLex]
      cases outer (key item) (key other) <;> rfl
    calc sorted.filter ((byKey key (compareLex outer inner)).ties item)
      _ = (sorted.filter ((byKey key outer).ties item)).filter ((byKey key inner).ties item) := by
        rw [both, List.filter_filter]
        simp only [Bool.and_comm]
      _ = (middle.filter ((byKey key outer).ties item)).filter ((byKey key inner).ties item) := by
        rw [second.stable]
      _ = (middle.filter ((byKey key inner).ties item)).filter ((byKey key outer).ties item) := by
        rw [List.filter_filter, List.filter_filter]
        simp only [Bool.and_comm]
      _ = (items.filter ((byKey key inner).ties item)).filter ((byKey key outer).ties item) := by
        rw [first.stable]
      _ = items.filter ((byKey key (compareLex outer inner)).ties item) := by
        rw [both, List.filter_filter]

end Comparisons

end WeakOrder

end Collections
