import Collections.Bag.Frozen
import Collections.Proofs.Bag.Equality

/-! Conversions of a bag into a map, into pairs, into a frozen bag and back.

They fill an empty bag by additions that can be refused, by a merge or by insertions that clamp. What has
been filled and what is still to come make up one bag that fits. So nothing is refused or clamped on the
way, however near the limits the bag is and in whatever order its entries come.
-/

set_option autoImplicit false

namespace Collections

open Occurrences (holding)

variable {α : Type}

def Entries.pairs (entries : Entries α) : List (α × Int) :=
  entries.map fun entry => (entry.1, (entry.2 : Int))

namespace Occurrences

variable [DecidableEq α] {counts held copy : Occurrences α}

/-! ## Filling an empty bag -/

theorem add_of_valid {entries : Entries α} {entry : α × Nat}
    (valid : (holding (entries ++ [entry])).Valid) :
    (holding entries).add entry.1 entry.2 = .ok (true, holding (entries ++ [entry])) := by
  have last := List.mem_singleton_self entry
  have absent := valid.not_mem_earlier last
  have none := valid.countOf_earlier last
  obtain ⟨positive, bounded⟩ := valid.counted entry (List.mem_append_right _ last)
  have fits := valid.size_le
  have whole : (holding (entries ++ [entry])).size = (holding entries).size + entry.2 := by simp
  rw [add, Int.toNat_natCast, none, Nat.zero_add, if_neg (by omega), if_neg (by omega),
    if_neg (by omega), if_neg (by omega), holding_entries, Entries.put_of_not_mem absent, ← whole]
  rfl

-- As for the insertions that clamp, the bag so far and the entries to come stay one valid bag.
theorem foldlM_add {more entries : Entries α} (valid : (holding (entries ++ more)).Valid) :
    more.pairs.foldlM (fun counts pair => (counts.add pair.1 pair.2).map Prod.snd) (holding entries) =
      .ok (holding (entries ++ more)) := by
  induction more generalizing entries with
  | nil => rw [List.append_nil]; rfl
  | cons entry rest ih =>
    obtain ⟨first, whole⟩ := valid.next_entry
    rw [Entries.pairs, List.map_cons, List.foldlM_cons, List.append_cons entries, add_of_valid first]
    exact ih whole

theorem Valid.ofPairs_eq (valid : counts.Valid) : ofPairs counts.entries.pairs = .ok counts := by
  have whole : (holding ([] ++ counts.entries)).Valid := valid.holding_valid
  exact (foldlM_add whole).trans (congrArg Except.ok valid.holding_eq)

-- The last addition brings the total to its limit.
example : ofPairs (Entries.pairs [(3, 1), (1, maxCount), (2, maxCount)]) =
    .ok ⟨[(3, 1), (1, maxCount), (2, maxCount)], maxTotal⟩ := by cbv

theorem Valid.ofCounts_eq (valid : counts.Valid) : ofCounts counts.entries.pairs = counts := by
  have positive : ∀ pair ∈ counts.entries.pairs, decide (0 < pair.2) = true := by
    intro pair member
    obtain ⟨entry, listed, rfl⟩ := List.mem_map.mp member
    exact decide_eq_true (Int.natCast_pos.mpr (valid.counted entry listed).1)
  rw [ofCounts, List.filter_eq_self.mpr positive, Entries.pairs, List.map_map]
  exact (congrArg ofEntries (List.map_id _)).trans valid.ofEntries_eq

theorem Valid.empty_merge (valid : counts.Valid) : empty.merge counts = .ok (!counts.isEmpty, counts) := by
  have whole : (holding ([] ++ counts.entries)).Valid := valid.holding_valid
  have merged := merge_holding whole
  rwa [List.nil_append, valid.holding_eq] at merged

theorem Valid.freeze_plain (valid : counts.Valid) (storage : Nat) :
    Bag.freeze storage (.plain counts) = .frozen storage counts :=
  congrArg (Bag.frozen storage) valid.ofEntries_eq

theorem Valid.thaw_frozen (valid : counts.Valid) (storage : Nat) :
    Bag.thaw (.frozen storage counts) = .plain counts :=
  congrArg Bag.plain valid.ofEntries_eq

/-! ## Copies -/

/-- A bag that holds what another one does. Only the order of their entries may differ. -/
structure Copies (copy counts : Occurrences α) : Prop where
  valid : copy.Valid
  alike : copy.Alike counts
  same : copy.same counts

theorem Valid.copies (valid : copy.Valid) (counts_valid : counts.Valid)
    (agree : ∀ item, copy.countOf item = counts.countOf item) : Copies copy counts :=
  ⟨valid, valid.alike counts_valid agree, (valid.same_iff counts_valid).mpr agree⟩

theorem Copies.trans (copies : Copies copy held) (again : Copies held counts)
    (counts_valid : counts.Valid) : Copies copy counts :=
  copies.valid.copies counts_valid fun item =>
    (copies.alike.countOf item).trans (again.alike.countOf item)

theorem Copies.reordered (copies : Copies held counts) (counts_valid : counts.Valid)
    {read : Entries α} (order : read.Perm held.entries) : Copies (holding read) counts := by
  have whole := copies.valid.holding_valid
  apply (whole.perm order).copies counts_valid
  intro item
  rw [(whole.alike_of_perm order).countOf, copies.valid.holding_eq, copies.alike.countOf]

end Occurrences

/-! ## Conversions -/

open Occurrences (Copies)

variable [DecidableEq α]

/-- The conversions of a bag, which all lead to copies of it. They may start from any copy, and so any
order of the entries is met at each of them, and one may follow another. -/
structure Lossless (counts : Occurrences α) : Prop where
  self : Copies counts counts
  reordered (held : Occurrences α) (read : Entries α) : Copies held counts → read.Perm held.entries →
    Copies (holding read) counts
  throughMap (held : Occurrences α) : Copies held counts →
    ∃ map, (Bag.plain held).toMap.answer = .ok map ∧ ∀ read : Entries α, read.Perm map →
      (∃ copy, Occurrences.ofPairs read.pairs = .ok copy ∧ Copies copy counts) ∧
        Copies (.ofCounts read.pairs) counts
  throughPairs (held : Occurrences α) : Copies held counts →
    ∃ copy, Occurrences.ofPairs held.entries.pairs = .ok copy ∧ Copies copy counts
  merged (held : Occurrences α) : Copies held counts →
    ∃ copy, Occurrences.empty.merge held = .ok (!counts.isEmpty, copy) ∧ Copies copy counts
  frozen (held : Occurrences α) (storage : Nat) : Copies held counts →
    ∃ copy, Bag.freeze storage (.plain held) = .frozen storage copy ∧ Copies copy counts
  -- A bag that is only lent is copied twice: all of it is selected, and what was selected is frozen.
  lent (held selected : Occurrences α) (storage : Nat) : Copies held counts →
    Copies selected (Entries.selectByCount held.entries fun _ => true) →
      ∃ copy, Bag.freeze storage (.plain selected) = .frozen storage copy ∧ Copies copy counts
  thawed (held : Occurrences α) (storage : Nat) : Copies held counts →
    ∃ copy, Bag.thaw (.frozen storage held) = .plain copy ∧ Copies copy counts

/-- Whatever calls have led to a bag, no conversion of it loses anything or is refused. -/
theorem Run.conversions_lossless (run : Run α) : Lossless run.reached := by
  have whole := run.reached_valid
  constructor
  case self => exact whole.copies whole fun _ => rfl
  case reordered => exact fun held read copies order => copies.reordered whole order
  case throughMap =>
    intro held copies
    refine ⟨held.entries, rfl, ?_⟩
    intro read order
    have again := copies.reordered whole order
    have filled : Occurrences.ofCounts read.pairs = holding read := again.valid.ofCounts_eq
    exact ⟨⟨_, again.valid.ofPairs_eq, again⟩, filled.symm ▸ again⟩
  case throughPairs => exact fun held copies => ⟨held, copies.valid.ofPairs_eq, copies⟩
  case merged =>
    intro held copies
    refine ⟨held, ?_, copies⟩
    rw [copies.valid.empty_merge, copies.alike.isEmpty]
  case frozen => exact fun held storage copies => ⟨held, copies.valid.freeze_plain storage, copies⟩
  case lent =>
    intro held selected storage copies again
    have all : (Entries.selectByCount held.entries fun _ => true) = held := by
      rw [Entries.selectByCount, List.filter_true, copies.valid.ofEntries_eq]
    rw [all] at again
    exact ⟨selected, again.valid.freeze_plain storage, again.trans copies whole⟩
  case thawed => exact fun held storage copies => ⟨held, copies.valid.thaw_frozen storage, copies⟩

end Collections
