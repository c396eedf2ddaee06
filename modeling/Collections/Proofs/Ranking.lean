import Collections.Entries.Ranking
import Collections.Proofs.Elements
import Mathlib.Data.List.TakeWhile
import Mathlib.Data.Set.Card
import Mathlib.Order.RelClasses

/-! Rankings: which entries are among the first ones, ties with the last of them included.

A ranking can put ties in any order. An entry is listed when fewer elements than asked for come before it,
and that does not depend on how its ties are arranged.
-/

set_option autoImplicit false

namespace Collections

namespace Entries

variable {α : Type} {before : Nat → Nat → Prop} {ranked : Entries α} {entry boundary : α × Nat}

def Ranked (before : Nat → Nat → Prop) (entries : Entries α) : Prop :=
  entries.Pairwise fun first second => ¬ before second.2 first.2

/-- Nothing is asked for, or more than there is, or what is asked for ends at an entry. -/
theorem leading_cases (ranked : Entries α) (limit : Nat) :
    limit = 0 ∧ leading ranked limit = [] ∨
      ranked.length < limit ∧ leading ranked limit = ranked ∨
      ∃ front boundary rest, ranked = front ++ boundary :: rest ∧ limit = front.length + 1 ∧
        leading ranked limit =
          front ++ boundary :: rest.takeWhile fun entry => entry.2 == boundary.2 := by
  cases limit with
  | zero => exact .inl ⟨rfl, rfl⟩
  | succ last =>
    cases left : ranked.drop last with
    | nil =>
      have short := List.drop_eq_nil_iff.mp left
      exact .inr (.inl ⟨by omega, by simp only [leading, Nat.add_sub_cancel, left]⟩)
    | cons boundary rest =>
      have long : last < ranked.length := by
        by_contra short
        rw [List.drop_eq_nil_of_le (Nat.not_lt.mp short)] at left
        cases left
      have front : ranked.take (last + 1) = ranked.take last ++ [boundary] := by
        rw [List.take_add, left]
        rfl
      refine .inr (.inr ⟨ranked.take last, boundary, rest, ?_, ?_, ?_⟩)
      · rw [← left, List.take_append_drop]
      · rw [List.length_take_of_le long.le]
      · simp only [leading, Nat.add_sub_cancel, left, front, List.append_assoc,
          List.singleton_append]

theorem leading_prefix_ranked (ranked : Entries α) (limit : Nat) : leading ranked limit <+: ranked := by
  obtain ⟨-, none⟩ | ⟨-, all⟩ | ⟨front, boundary, rest, split, -, cut⟩ := leading_cases ranked limit
  · rw [none]
    exact List.nil_prefix
  · rw [all]
  · rw [cut, split, List.prefix_append_right_inj, List.cons_prefix_cons]
    exact ⟨rfl, List.takeWhile_prefix _⟩

theorem leading_of_length_le {limit : Nat} (enough : ranked.length ≤ limit) :
    leading ranked limit = ranked := by
  obtain ⟨zero, none⟩ | ⟨-, all⟩ | ⟨front, boundary, rest, split, reached, cut⟩ :=
    leading_cases ranked limit
  · have : ranked = [] := List.eq_nil_of_length_eq_zero (by omega)
    rw [none, this]
  · exact all
  · have : rest = [] := by
      rw [split, List.length_append, List.length_cons] at enough
      exact List.eq_nil_of_length_eq_zero (by omega)
    rw [cut, split, this]
    rfl

section Order

variable [IsStrictTotalOrder Nat before]

-- What stands between the boundary and an entry tied with it is tied with both, so the ties are reached
-- before the listing stops.
theorem mem_takeWhile_of_tied {rest : Entries α} (sorted : Ranked before (boundary :: rest))
    (member : entry ∈ rest) (tied : entry.2 = boundary.2) :
    entry ∈ rest.takeWhile fun entry => entry.2 == boundary.2 := by
  induction rest with
  | nil => cases member
  | cons head tail ih =>
    have later := (List.pairwise_cons.mp sorted).1
    have behind := (List.pairwise_cons.mp (List.pairwise_cons.mp sorted).2).1
    have headTied : head.2 = boundary.2 := by
      rcases List.mem_cons.mp member with rfl | member
      · exact tied
      · exact Std.Trichotomous.trichotomous (r := before) _ _ (later head List.mem_cons_self)
          (tied ▸ behind entry member)
    rw [List.takeWhile_cons_of_pos (by simpa using headTied)]
    rcases List.mem_cons.mp member with rfl | member
    · exact List.mem_cons_self
    · have dropped := sorted.sublist ((List.sublist_cons_self head tail).cons_cons boundary)
      exact List.mem_cons_of_mem _ (ih dropped member)

omit [IsStrictTotalOrder Nat before] in
theorem Ranked.front_le {front rest : Entries α} (sorted : Ranked before (front ++ boundary :: rest))
    (member : entry ∈ front) : ¬ before boundary.2 entry.2 :=
  (List.pairwise_append.mp sorted).2.2 entry member boundary List.mem_cons_self

omit [IsStrictTotalOrder Nat before] in
theorem Ranked.le_rest {front rest : Entries α} (sorted : Ranked before (front ++ boundary :: rest))
    (member : entry ∈ rest) : ¬ before entry.2 boundary.2 :=
  (List.pairwise_cons.mp (List.pairwise_append.mp sorted).2.1).1 entry member

theorem not_before_trans {first second third : Nat} (here : ¬ before second first)
    (there : ¬ before third second) : ¬ before third first := by
  intro above
  by_cases less : before first second
  · exact there (IsTrans.trans _ _ _ above less)
  · have same := Std.Trichotomous.trichotomous (r := before) _ _ less here
    exact there (same ▸ above)

/-- A sort ranks entries when it takes two of them as they are unless that puts a count before an earlier
one. -/
theorem ranked_mergeSort {le : α × Nat → α × Nat → Bool}
    (kept : ∀ first second, le first second ↔ ¬ before second.2 first.2) (entries : Entries α) :
    Ranked before (entries.mergeSort le) := by
  have sorted : (entries.mergeSort le).Pairwise fun first second => le first second := by
    apply List.pairwise_mergeSort
    · intro first second third
      rw [kept, kept, kept]
      exact not_before_trans
    · intro first second
      rw [Bool.or_eq_true, kept, kept, ← not_and_or]
      rintro ⟨less, more⟩
      exact Std.Irrefl.irrefl (r := before) _ (IsTrans.trans _ _ _ less more)
  exact sorted.imp fun {first second} => (kept first second).mp

variable [DecidableRel before]

theorem countP_from_boundary {rest : Entries α} (sorted : Ranked before (boundary :: rest))
    (reached : ¬ before boundary.2 entry.2) :
    ((boundary :: rest).countP fun other => before other.2 entry.2) = 0 := by
  rw [List.countP_eq_zero]
  intro other member
  rw [decide_eq_true_eq]
  rcases List.mem_cons.mp member with rfl | member
  · exact reached
  · exact not_before_trans reached ((List.pairwise_cons.mp sorted).1 other member)

/-- Among ranked entries those are listed that have fewer before them than are asked for. -/
theorem mem_leading_iff (sorted : Ranked before ranked) (limit : Nat) :
    entry ∈ leading ranked limit ↔
      entry ∈ ranked ∧ (ranked.countP fun other => before other.2 entry.2) < limit := by
  obtain ⟨rfl, none⟩ | ⟨short, all⟩ | ⟨front, boundary, rest, rfl, rfl, cut⟩ :=
    leading_cases ranked limit
  · simp [none]
  · rw [all]
    exact ⟨fun member => ⟨member, List.countP_le_length.trans_lt short⟩, And.left⟩
  · have sortedRest := (List.pairwise_append.mp sorted).2.1
    constructor
    · intro member
      refine ⟨(leading_prefix_ranked _ _).subset member, ?_⟩
      -- What is listed does not come after the boundary, and so at most the entries in front come before it.
      have reached : ¬ before boundary.2 entry.2 := by
        rw [cut, List.mem_append, List.mem_cons] at member
        rcases member with member | rfl | member
        · exact sorted.front_le member
        · exact Std.Irrefl.irrefl _
        · have tied : entry.2 = boundary.2 := by simpa using List.mem_takeWhile_imp member
          rw [tied]
          exact Std.Irrefl.irrefl _
      rw [List.countP_append, countP_from_boundary sortedRest reached]
      exact Nat.lt_succ_of_le List.countP_le_length
    · rintro ⟨member, fewer⟩
      rw [cut, List.mem_append, List.mem_cons]
      rcases List.mem_append.mp member with member | member
      · exact .inl member
      rcases List.mem_cons.mp member with rfl | member
      · exact .inr (.inl rfl)
      have reached : ¬ before boundary.2 entry.2 := by
        intro beyond
        have all : (front.countP fun other => before other.2 entry.2) = front.length := by
          rw [List.countP_eq_length]
          intro other earlier
          rw [decide_eq_true_eq]
          by_contra level
          exact not_before_trans level (sorted.front_le earlier) beyond
        have some : 0 < (boundary :: rest).countP fun other => before other.2 entry.2 :=
          List.countP_pos_iff.mpr ⟨boundary, List.mem_cons_self, decide_eq_true beyond⟩
        rw [List.countP_append, all] at fewer
        omega
      have tied := Std.Trichotomous.trichotomous (r := before) _ _ (sorted.le_rest member) reached
      exact .inr (.inr (mem_takeWhile_of_tied sortedRest member tied))

end Order

end Entries

namespace Bag

open Entries (Ranked leading)

variable {α : Type} [DecidableEq α] {before : Nat → Nat → Prop} {bag : Bag α} {limit : Nat}
variable {listed ranked : Entries α}

structure Leads (before : Nat → Nat → Prop) (bag : Bag α) (limit : Nat) (listed : Entries α) :
    Prop where
  distinct : (Entries.items listed).Nodup
  ordered : Ranked before listed
  mem_iff (item : α) (count : Nat) : (item, count) ∈ listed ↔
    bag.contains item ∧ bag.countOf item = count ∧
      {other | bag.contains other ∧ before (bag.countOf other) count}.ncard < limit
  -- Those that are tied with a listed one are listed too.
  tied (item other : α) (count : Nat) : (item, count) ∈ listed → bag.contains other →
    bag.countOf other = count → (other, count) ∈ listed
  none : limit = 0 → listed = []
  all : bag.distinct ≤ limit → listed.Perm bag.entries

/-- Such a listing, which comes out the same for any ranking of the entries, however it arranges ties. -/
structure Ranks (before : Nat → Nat → Prop) (bag : Bag α) (limit : Nat) (listed : Entries α) :
    Prop where
  leads : Leads before bag limit listed
  rearranged (ranked : Entries α) : ranked.Perm bag.entries → Ranked before ranked →
    Leads before bag limit (leading ranked limit) ∧ (leading ranked limit).Perm listed

theorem Leads.perm {other : Entries α} (leads : Leads before bag limit listed)
    (others : Leads before bag limit other) : listed.Perm other := by
  apply (List.perm_ext_iff_of_nodup leads.distinct.of_map others.distinct.of_map).mpr
  rintro ⟨item, count⟩
  rw [leads.mem_iff, others.mem_iff]

-- Each element has one entry, so that elements are counted by their entries.
theorem ncard_before [DecidableRel before] (valid : bag.contents.Valid)
    (same : ranked.Perm bag.entries) (count : Nat) :
    {other | bag.contains other ∧ before (bag.countOf other) count}.ncard =
      ranked.countP fun entry => before entry.2 count := by
  have distinct : (Entries.items (ranked.filter fun entry => before entry.2 count)).Nodup :=
    ((same.map Prod.fst).nodup_iff.mpr (valid_entries valid).distinct).sublist
      (List.filter_sublist.map Prod.fst)
  have elements : {other | bag.contains other ∧ before (bag.countOf other) count} =
      (Entries.items (ranked.filter fun entry => before entry.2 count)).toFinset := by
    ext other
    simp only [Set.mem_ofPred_eq, List.coe_toFinset, Entries.items, List.mem_map, List.mem_filter,
      same.mem_iff, decide_eq_true_eq]
    constructor
    · rintro ⟨present, less⟩
      exact ⟨(other, bag.countOf other), ⟨(mem_entries_iff valid _ _).mpr ⟨present, rfl⟩, less⟩, rfl⟩
    · rintro ⟨⟨item, held⟩, ⟨member, less⟩, rfl⟩
      obtain ⟨present, rfl⟩ := (mem_entries_iff valid item held).mp member
      exact ⟨present, less⟩
  rw [elements, Set.ncard_coe_finset, List.toFinset_card_of_nodup distinct, Entries.items,
    List.length_map, ← List.countP_eq_length_filter]

/-- However ties are arranged in a ranking of its entries, the same elements of a bag lead. -/
theorem leads_of_ranked [IsStrictTotalOrder Nat before] [DecidableRel before]
    (valid : bag.contents.Valid) (same : ranked.Perm bag.entries) (sorted : Ranked before ranked)
    (limit : Nat) : Leads before bag limit (leading ranked limit) := by
  have mem_iff (item : α) (count : Nat) : (item, count) ∈ leading ranked limit ↔
      bag.contains item ∧ bag.countOf item = count ∧
        {other | bag.contains other ∧ before (bag.countOf other) count}.ncard < limit := by
    rw [Entries.mem_leading_iff sorted, same.mem_iff, mem_entries_iff valid,
      ncard_before valid same, and_assoc]
  have within := (Entries.leading_prefix_ranked ranked limit).sublist
  constructor
  case distinct =>
    exact ((same.map Prod.fst).nodup_iff.mpr (valid_entries valid).distinct).sublist
      (within.map Prod.fst)
  case ordered => exact sorted.sublist within
  case mem_iff => exact mem_iff
  case tied =>
    intro item other count member present held
    exact (mem_iff other count).mpr ⟨present, held, ((mem_iff item count).mp member).2.2⟩
  case none =>
    rintro rfl
    rfl
  case all =>
    intro enough
    have length : ranked.length = bag.distinct := (same.trans bag.entries_perm).length_eq
    rw [Entries.leading_of_length_le (length ▸ enough)]
    exact same

theorem ranks_of_ranked [IsStrictTotalOrder Nat before] [DecidableRel before]
    (valid : bag.contents.Valid) (same : ranked.Perm bag.entries) (sorted : Ranked before ranked)
    (limit : Nat) : Ranks before bag limit (leading ranked limit) := by
  have leads := leads_of_ranked valid same sorted limit
  refine ⟨leads, ?_⟩
  intro other permuted ordered
  have others := leads_of_ranked valid permuted ordered limit
  exact ⟨others, others.perm leads⟩

/-- Asked for some elements, a bag lists those that occur most often, or least often, and their ties. -/
theorem top_and_bottom_rank (valid : bag.contents.Valid) (limit : Nat) :
    Ranks (· > ·) bag limit (Entries.top bag.entries limit) ∧
      Ranks (· < ·) bag limit (Entries.bottom bag.entries limit) := by
  constructor
  · refine ranks_of_ranked valid (List.mergeSort_perm _ _) (Entries.ranked_mergeSort ?_ _) limit
    intro first second
    rw [decide_eq_true_eq, Nat.not_lt]
  · refine ranks_of_ranked valid (List.mergeSort_perm _ _) (Entries.ranked_mergeSort ?_ _) limit
    intro first second
    rw [decide_eq_true_eq, Nat.not_lt]

/-- The second and the third element are tied from either side. -/
theorem top_and_bottom_rank_with_tie :
    let bag : Bag Nat := .sorted compare (.plain ⟨[(4, 2), (1, 1), (3, 5), (2, 2)], 10⟩)
    bag.contents.Valid ∧ Ranks (· > ·) bag 2 (Entries.top bag.entries 2) ∧
      Ranks (· < ·) bag 2 (Entries.bottom bag.entries 2) := by
  intro bag
  have valid : bag.contents.Valid := ⟨by decide, by decide, by decide, by decide⟩
  exact ⟨valid, top_and_bottom_rank valid 2⟩

end Bag

end Collections
