import Collections.Proofs.Combination.Strategies
import Collections.Proofs.Occurrences.Alike

/-! Bags combined into one. Each merge checks the sizes and counts it meets, and these depend on the order
of the parts. Whether all merges are accepted does not: counts only grow along the way, so what fits at the
end fitted all the time.
-/

set_option autoImplicit false

namespace Collections

open Batching (Takes)
open Strategy (combine_bag_of_merge combine_bag_of_refused)

variable {α : Type} [DecidableEq α]

namespace Occurrences

structure Fit (parts : List (Occurrences α)) : Prop where
  countOf (item : α) : (parts.map (·.countOf item)).sum ≤ maxCount
  size : (parts.map (·.size)).sum ≤ maxTotal

structure Together (parts : List (Occurrences α)) (counts : Occurrences α) : Prop where
  valid : counts.Valid
  countOf (item : α) : counts.countOf item = (parts.map (·.countOf item)).sum
  size : counts.size = (parts.map (·.size)).sum

variable {earlier rest parts others : List (Occurrences α)} {part counts merged : Occurrences α}

theorem Fit.front (fit : Fit (earlier ++ rest)) : Fit earlier where
  countOf item := by
    have whole := fit.countOf item
    rw [List.map_append, List.sum_append] at whole
    omega
  size := by
    have whole := fit.size
    rw [List.map_append, List.sum_append] at whole
    omega

theorem Fit.perm (fit : Fit parts) (same : parts.Perm others) : Fit others where
  countOf item := (same.map (·.countOf item)).sum_nat ▸ fit.countOf item
  size := (same.map (·.size)).sum_nat ▸ fit.size

namespace Together

theorem none : Together [] (.empty : Occurrences α) :=
  ⟨valid_empty, fun _ => rfl, rfl⟩

theorem perm (together : Together parts counts) (same : parts.Perm others) : Together others counts where
  valid := together.valid
  countOf item := (together.countOf item).trans (same.map (·.countOf item)).sum_nat
  size := together.size.trans (same.map (·.size)).sum_nat

theorem fit (together : Together parts counts) : Fit parts where
  countOf item := together.countOf item ▸ together.valid.countOf_le_maxCount item
  size := together.size ▸ together.valid.size_le

theorem merge {changed : Bool} (together : Together earlier counts) (valid : part.Valid)
    (accepted : counts.merge part = .ok (changed, merged)) : Together (earlier ++ [part]) merged where
  valid := together.valid.merge valid accepted
  countOf item := by
    obtain ⟨-, -, -, rfl⟩ := merge_cases accepted
    have added := Entries.countOf_foldl_bump valid.distinct counts.entries item
    have before := together.countOf item
    simp only [Occurrences.countOf] at before
    simp only [Occurrences.countOf, added, before, List.map_append, List.sum_append, List.map_cons,
      List.map_nil, List.sum_singleton]
  size := by
    obtain ⟨-, -, -, rfl⟩ := merge_cases accepted
    simp only [together.size, List.map_append, List.sum_append, List.map_cons, List.map_nil,
      List.sum_singleton]

theorem merge_of_fit (together : Together earlier counts) (valid : part.Valid)
    (fit : Fit (earlier ++ [part])) : ∃ changed merged, counts.merge part = .ok (changed, merged) := by
  have size := fit.size
  have bounded : ∀ entry ∈ part.entries, counts.countOf entry.1 + entry.2 ≤ maxCount := by
    intro entry member
    have count := fit.countOf entry.1
    have held := ((valid.mem_entries_iff entry).mp member).2
    rw [List.map_append, List.sum_append, ← together.countOf] at count
    simpa [held] using count
  rw [List.map_append, List.sum_append, ← together.size] at size
  exact ⟨_, _, merge_eq_ok (by simpa using size) bounded⟩

/-! ## Merging many -/

-- The parts merged so far stand in front of those still to come; each merge moves one over.
theorem takes (together : Together earlier counts) (valid : ∀ part ∈ rest, part.Valid)
    {final : Occurrences α} (takes : Takes .bag rest counts final) : Together (earlier ++ rest) final := by
  induction rest generalizing earlier counts with
  | nil =>
    cases takes
    rwa [List.append_nil]
  | cons part rest ih =>
    obtain ⟨first, later⟩ := List.forall_mem_cons.mp valid
    cases takes with
    | more taken further =>
      cases accepted : counts.merge part with
      | error error =>
        rw [combine_bag_of_refused accepted] at taken
        cases taken
      | ok answer =>
        rw [combine_bag_of_merge accepted] at taken
        cases taken
        have whole := ih (together.merge first accepted) later further
        rwa [List.append_assoc] at whole

theorem exists_takes (together : Together earlier counts) (valid : ∀ part ∈ rest, part.Valid)
    (fit : Fit (earlier ++ rest)) : ∃ final, Takes .bag rest counts final := by
  induction rest generalizing earlier counts with
  | nil => exact ⟨counts, .none counts⟩
  | cons part rest ih =>
    obtain ⟨first, later⟩ := List.forall_mem_cons.mp valid
    rw [List.append_cons] at fit
    obtain ⟨changed, merged, accepted⟩ := together.merge_of_fit first fit.front
    obtain ⟨final, further⟩ := ih (together.merge first accepted) later fit
    exact ⟨final, .more (combine_bag_of_merge accepted) further⟩

theorem alike (here : Together parts counts) (there : Together parts merged) : counts.Alike merged :=
  here.valid.alike there.valid fun item => (here.countOf item).trans (there.countOf item).symm

end Together

end Occurrences

namespace Combiner

open Occurrences (Fit Together)

def Feeds {π : Type} (parts : List π) (calls : List (CombinerCall π)) : Prop :=
  (calls.flatMap CombinerCall.parts).Perm parts

section Bags

variable {parts : List (Occurrences α)} {calls others : List (CombinerCall (Occurrences α))}

theorem allAccepted_bag_iff (valid : ∀ part ∈ parts, part.Valid) (feeds : Feeds parts calls) :
    AllAccepted bag calls ↔ Fit parts := by
  have parts_valid : ∀ part ∈ calls.flatMap CombinerCall.parts, part.Valid := fun part member =>
    valid part (feeds.mem_iff.mp member)
  refine (allAccepted_iff bag Strategy.allOrNothing_bag.stepwise calls).trans ?_
  constructor
  · rintro ⟨final, takes⟩
    exact (Together.none.takes parts_valid takes).fit.perm feeds
  · intro fit
    exact Together.none.exists_takes parts_valid (fit.perm feeds.symm)

theorem reached_bag (valid : ∀ part ∈ parts, part.Valid) (feeds : Feeds parts calls)
    (accepted : AllAccepted bag calls) : Together parts (Step.reached call bag calls).result := by
  have law := (Strategy.allOrNothing_bag (α := α)).stepwise
  obtain ⟨final, takes⟩ := (allAccepted_iff bag law calls).mp accepted
  have result : (Step.reached call bag calls).result = final := (takesAll_of_takes bag law takes).result
  have together := Together.none.takes (fun part member => valid part (feeds.mem_iff.mp member)) takes
  exact result ▸ together.perm feeds

/-- Whether a feed of bags is accepted, and what comes of it, is up to the totals. In which order and in
which pieces the bags come makes no difference. -/
theorem bag_feeds_by_totals (valid : ∀ part ∈ parts, part.Valid) :
    (∀ calls, Feeds parts calls → (AllAccepted bag calls ↔ Fit parts)) ∧
    (∀ calls, Feeds parts calls → AllAccepted bag calls →
      Together parts (Step.reached call bag calls).result) ∧
    ∀ calls others, Feeds parts calls → Feeds parts others →
      (AllAccepted bag calls ↔ AllAccepted bag others) ∧
      (AllAccepted bag calls →
        (Step.reached call bag calls).result.Alike (Step.reached call bag others).result) := by
  refine ⟨fun _ => allAccepted_bag_iff valid, fun _ => reached_bag valid, ?_⟩
  intro calls others here there
  have either : AllAccepted bag calls ↔ AllAccepted bag others :=
    (allAccepted_bag_iff valid here).trans (allAccepted_bag_iff valid there).symm
  refine ⟨either, fun accepted => ?_⟩
  exact (reached_bag valid here accepted).alike (reached_bag valid there (either.mp accepted))

/-- Three bags that fill one up to the limit of the total, in two orders and cut in two ways. -/
theorem bag_feeds_by_totals_up_to_limit :
    let full (item : Nat) : Occurrences Nat := ⟨[(item, maxCount)], maxCount⟩
    let single : Occurrences Nat := ⟨[(3, 1)], 1⟩
    let parts := [full 1, full 2, single]
    let calls := [.all [full 1, full 2], .one single]
    let others := [.one (full 2), .all [], .all [single, full 1]]
    (∀ part ∈ parts, part.Valid) ∧ Feeds parts calls ∧ Feeds parts others ∧ AllAccepted bag calls ∧
      Fit parts ∧ (parts.map (·.size)).sum = maxTotal ∧
      Together parts (Step.reached call bag calls).result ∧ AllAccepted bag others ∧
      (Step.reached call bag calls).result.Alike (Step.reached call bag others).result := by
  intro full single parts calls others
  have valid : ∀ part ∈ parts, part.Valid := by
    simp only [parts, List.forall_mem_cons]
    exact ⟨⟨by decide, by decide, by decide, by decide⟩, ⟨by decide, by decide, by decide, by decide⟩,
      ⟨by decide, by decide, by decide, by decide⟩, List.forall_mem_nil _⟩
  have here : Feeds parts calls := .refl _
  have there : Feeds parts others :=
    (List.perm_append_comm : ([full 2, single] ++ [full 1]).Perm ([full 1] ++ [full 2, single]))
  have accepted : AllAccepted bag calls :=
    List.forall_mem_cons.mpr ⟨by decide, List.forall_mem_cons.mpr ⟨by decide, List.forall_mem_nil _⟩⟩
  obtain ⟨by_totals, reached, same⟩ := bag_feeds_by_totals valid
  obtain ⟨either, alike⟩ := same calls others here there
  exact ⟨valid, here, there, accepted, (by_totals calls here).mp accepted, by decide,
    reached calls here accepted, either.mp accepted, alike accepted⟩

end Bags

end Combiner

end Collections
