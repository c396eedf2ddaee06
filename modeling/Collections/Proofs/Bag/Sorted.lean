import Collections.Entries.Selection
import Collections.Proofs.Bag.Sound
import Collections.Proofs.Elements
import Collections.Proofs.StableSort

/-! The order in which a bag under sorted layers is read.

Each layer sorts stably what the layers below it give. So the outermost order decides, where it ties the
next one does, and what ties in all of them is read as the bag below the layers is.
-/

set_option autoImplicit false

namespace Collections

variable {α : Type}

def lexicographic (orders : List (α → α → Ordering)) : α → α → Ordering :=
  orders.foldr compareLex fun _ _ => .eq

@[simp] theorem lexicographic_singleton (order : α → α → Ordering) : lexicographic [order] = order := by
  funext first second
  simp [lexicographic, compareLex]

theorem transCmp_lexicographic {orders : List (α → α → Ordering)}
    (preorders : ∀ order ∈ orders, Std.TransCmp order) : Std.TransCmp (lexicographic orders) := by
  induction orders with
  | nil => exact { eq_swap := rfl, isLE_trans := fun _ _ => rfl }
  | cons order rest ih =>
    obtain ⟨here, there⟩ := List.forall_mem_cons.mp preorders
    have := ih there
    exact inferInstanceAs (Std.TransCmp (compareLex order (lexicographic rest)))

namespace Entries

theorem visitUntil_all {entries : Entries α} {stop : α × Nat → Bool}
    (never : ∀ entry ∈ entries, stop entry = false) : visitUntil stop entries = (entries, none) := by
  induction entries with
  | nil => rfl
  | cons entry rest ih =>
    obtain ⟨here, later⟩ := List.forall_mem_cons.mp never
    simp [visitUntil, here, ih later]

theorem visitUntil_first {before after : Entries α} {entry : α × Nat} {stop : α × Nat → Bool}
    (never : ∀ earlier ∈ before, stop earlier = false) (stopped : stop entry) :
    visitUntil stop (before ++ entry :: after) = (before ++ [entry], some entry.1) := by
  induction before with
  | nil => simp [visitUntil, stopped]
  | cons earlier rest ih =>
    obtain ⟨here, later⟩ := List.forall_mem_cons.mp never
    simp [visitUntil, here, ih later]

end Entries

open WeakOrder (byKey)

theorem WeakOrder.StablySorted.expand {order : α → α → Ordering} [Std.TransCmp order]
    {entries listed : Entries α} (stably : (byKey Prod.fst order).StablySorted entries listed) :
    (byKey id order).StablySorted (Entries.expand entries) (Entries.expand listed) where
  ordered := by
    rw [Entries.expand, List.pairwise_flatMap]
    constructor
    · intro entry _
      have self : (byKey id order).le entry.1 entry.1 := by
        simpa using (byKey id order).total entry.1 entry.1
      exact List.pairwise_replicate.mpr (.inr self)
    · refine stably.ordered.imp ?_
      intro first second le one here other there
      rw [List.eq_of_mem_replicate here, List.eq_of_mem_replicate there]
      exact le
  stable item := by
    rw [Entries.filter_expand, Entries.filter_expand]
    exact congrArg Entries.expand (stably.stable (item, 0))

namespace Bag

variable {orders : List (α → α → Ordering)} {delegate bag : Bag α}

/-- Any layers over a delegate; the sorted ones have these orders, the outermost first. -/
inductive Stacked (delegate : Bag α) : List (α → α → Ordering) → Bag α → Prop where
  | bottom : Stacked delegate [] delegate
  | sorted {orders : List (α → α → Ordering)} {inner : Bag α} (order : α → α → Ordering) :
      Stacked delegate orders inner → Stacked delegate (order :: orders) (.sorted order inner)
  | readOnly {orders : List (α → α → Ordering)} {inner : Bag α} :
      Stacked delegate orders inner → Stacked delegate orders (.readOnly inner)
  | shared {orders : List (α → α → Ordering)} {inner : Bag α} (cell : Nat) :
      Stacked delegate orders inner → Stacked delegate orders (.shared cell inner)
  | parallel {orders : List (α → α → Ordering)} {inner : Bag α} (batching : Batching) :
      Stacked delegate orders inner → Stacked delegate orders (.parallel batching inner)

theorem arrange_stablySorted (order : α → α → Ordering) [Std.TransCmp order] (entries : Entries α) :
    (byKey Prod.fst order).StablySorted entries (arrange order entries) :=
  (byKey Prod.fst order).mergeSort_stable entries

namespace Stacked

theorem contents (stack : Stacked delegate orders bag) : bag.contents = delegate.contents := by
  induction stack with
  | bottom => rfl
  | sorted _ _ ih => exact ih
  | readOnly _ ih => exact ih
  | shared _ _ ih => exact ih
  | parallel _ _ ih => exact ih

theorem refilled (stack : Stacked delegate orders bag) (counts : Occurrences α) :
    Stacked (delegate.refilled counts) orders (bag.refilled counts) := by
  induction stack with
  | bottom => exact .bottom
  | sorted order _ ih => exact .sorted order ih
  | readOnly _ ih => exact .readOnly ih
  | shared cell _ ih => exact .shared cell ih
  | parallel batching _ ih => exact .parallel batching ih

theorem stablySorted (stack : Stacked delegate orders bag)
    (preorders : ∀ order ∈ orders, Std.TransCmp order) :
    have := transCmp_lexicographic preorders
    (byKey Prod.fst (lexicographic orders)).StablySorted delegate.entries bag.entries := by
  induction stack with
  | bottom =>
    have := transCmp_lexicographic preorders
    exact ⟨List.pairwise_of_forall fun _ _ => rfl, fun _ => rfl⟩
  | sorted order below ih =>
    obtain ⟨here, there⟩ := List.forall_mem_cons.mp preorders
    have := transCmp_lexicographic there
    exact (ih there).again (arrange_stablySorted order _)
  | readOnly _ ih => exact ih preorders
  | shared _ _ ih => exact ih preorders
  | parallel _ _ ih => exact ih preorders

theorem entries_perm (stack : Stacked delegate orders bag) : bag.entries.Perm delegate.entries := by
  induction stack with
  | bottom => exact List.Perm.refl _
  | sorted _ _ ih => exact (List.mergeSort_perm _ _).trans ih
  | readOnly _ ih => exact ih
  | shared _ _ ih => exact ih
  | parallel _ _ ih => exact ih

end Stacked

variable [DecidableEq α]

structure ReadsBy (order : α → α → Ordering) (delegate bag : Bag α) : Prop where
  same : bag.entries.Perm delegate.entries
  distinct : (Entries.items bag.entries).Nodup
  mem_iff (item : α) (count : Nat) : (item, count) ∈ bag.entries ↔
    delegate.contains item ∧ delegate.countOf item = count
  placed : bag.entries.Pairwise fun first second => order first.1 second.1 = .lt ∨
    order first.1 second.1 = .eq ∧ [first, second].Sublist delegate.entries
  tied (item : α) : bag.entries.filter (fun entry => order item entry.1 == .eq) =
    delegate.entries.filter (fun entry => order item entry.1 == .eq)
  -- A visitor that may stop sees the entries from the first one on.
  visitedAll (stop : α × Nat → Bool) : (∀ entry ∈ bag.entries, stop entry = false) →
    Entries.visitUntil stop bag.entries = (bag.entries, none)
  visitedUntil (stop : α × Nat → Bool) (before after : Entries α) (entry : α × Nat) :
    bag.entries = before ++ entry :: after → (∀ earlier ∈ before, stop earlier = false) → stop entry →
      Entries.visitUntil stop bag.entries = (before ++ [entry], some entry.1)
  -- Occurrence by occurrence it is the same order, and a stable sort of what the delegate gives.
  occurrences : bag.toList = bag.entries.flatMap fun entry => List.replicate entry.2 entry.1
  sorted : bag.toList = delegate.toList.mergeSort fun first second => order first second != .gt

theorem Stacked.readsBy (stack : Stacked delegate orders bag)
    (preorders : ∀ order ∈ orders, Std.TransCmp order) (valid : delegate.contents.Valid) :
    ReadsBy (lexicographic orders) delegate bag := by
  have := transCmp_lexicographic preorders
  have stably := stack.stablySorted preorders
  have same := stack.entries_perm
  constructor
  case same => exact same
  case distinct => exact ((valid_entries valid).perm same).distinct
  case mem_iff =>
    intro item count
    rw [same.mem_iff, mem_entries_iff valid]
  case placed => exact stably.placed
  case tied =>
    intro item
    have tied := stably.stable (item, 0)
    rwa [WeakOrder.ties_byKey] at tied
  case visitedAll => exact fun _ never => Entries.visitUntil_all never
  case visitedUntil =>
    intro stop before after entry split never stopped
    rw [split]
    exact Entries.visitUntil_first never stopped
  case occurrences => rfl
  case sorted =>
    exact stably.expand.unique ((byKey id (lexicographic orders)).mergeSort_stable delegate.toList)

/-- Under any layers a bag is read in the order of the outermost sorted layer, where that ties in the order
of the next one, and in the end as the delegate is read. Calls that change the bag leave it so. -/
theorem reads_by_layers (stack : Stacked delegate orders bag)
    (preorders : ∀ order ∈ orders, Std.TransCmp order) (valid : delegate.contents.Valid) :
    ReadsBy (lexicographic orders) delegate bag ∧
      ∀ calls : List (Call α), ∀ step ∈ Step.run perform bag calls,
        Stacked (delegate.refilled step.finish.contents) orders step.finish ∧
          ReadsBy (lexicographic orders) (delegate.refilled step.finish.contents) step.finish := by
  refine ⟨stack.readsBy preorders valid, ?_⟩
  intro calls
  refine Step.run_keeps (Edited bag) ?_ ?_ (.refl bag) calls
  · exact fun state call edited => edited.trans (perform_edited call state)
  · intro state call edited
    have edited := edited.trans (perform_edited call state)
    have valid := edited.valid (stack.contents ▸ valid)
    have stack := stack.refilled (state.perform call).state.contents
    rw [← edited.layers] at stack
    exact ⟨stack, stack.readsBy preorders ((contents_refilled delegate _).symm ▸ valid)⟩

/-- The layers order by the last digit, and where that ties by the number of tens downwards. The delegate
has two elements that tie in both. -/
theorem reads_by_digits :
    let digits : List (Nat → Nat → Ordering) :=
      [compareOn (· % 10), fun first second => compareOn (· / 10 % 10) second first]
    let delegate : Bag Nat := .shared 0 (.plain ⟨[(31, 2), (112, 1), (11, 5), (12, 3), (21, 1)], 12⟩)
    let bag : Bag Nat := .sorted (compareOn (· % 10))
      (.parallel (.ofParts (.pool 4) (.ofBatchSize 2))
        (.sorted (fun first second => compareOn (· / 10 % 10) second first) delegate))
    let calls : List (Call Nat) := [.addAll [22, 11], .removeIf fun entry => entry.2 == 1, .add 5]
    Stacked delegate digits bag ∧ (∀ order ∈ digits, Std.TransCmp order) ∧ delegate.contents.Valid ∧
      bag.entries = [(31, 2), (21, 1), (11, 5), (112, 1), (12, 3)] ∧
      ReadsBy (lexicographic digits) delegate bag ∧
      ∀ step ∈ Step.run perform bag calls,
        Stacked (delegate.refilled step.finish.contents) digits step.finish ∧
          ReadsBy (lexicographic digits) (delegate.refilled step.finish.contents) step.finish := by
  intro digits delegate bag calls
  have stack : Stacked delegate digits bag := .sorted _ (.parallel _ (.sorted _ .bottom))
  have preorders : ∀ order ∈ digits, Std.TransCmp order := by
    intro order member
    simp only [digits, List.mem_cons, List.not_mem_nil, or_false] at member
    rcases member with rfl | rfl <;> infer_instance
  have valid : delegate.contents.Valid := ⟨by decide, by decide, by decide, by decide⟩
  obtain ⟨read, changed⟩ := reads_by_layers stack preorders valid
  refine ⟨stack, preorders, valid, ?_, read, changed calls⟩
  simp [bag, delegate, entries, arrange, compareOn, compare, compareOfLessAndEq, List.mergeSort,
    List.MergeSort.Internal.splitInTwo]

end Bag

end Collections
