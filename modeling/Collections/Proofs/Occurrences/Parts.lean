import Collections.Proofs.Occurrences.Valid

/-! Taking a valid bag apart and putting it together again.

Parts of a valid bag have room beside each other: clamped insertions keep every count, and merging
parts that follow each other is never refused. Both put new entries at the end, so that the parts come
together in their old order.
-/

set_option autoImplicit false

namespace Collections.Occurrences

variable {α : Type} [DecidableEq α]

omit [DecidableEq α] in
def holding (entries : Entries α) : Occurrences α :=
  ⟨entries, Entries.total entries⟩

omit [DecidableEq α] in
@[simp] theorem holding_entries (entries : Entries α) : (holding entries).entries = entries := rfl

omit [DecidableEq α] in
@[simp] theorem holding_size (entries : Entries α) :
    (holding entries).size = Entries.total entries := rfl

omit [DecidableEq α] in
theorem Valid.holding_eq {counts : Occurrences α} (valid : counts.Valid) :
    holding counts.entries = counts := by
  rw [holding, ← valid.size_eq]

omit [DecidableEq α] in
theorem Valid.holding_valid {counts : Occurrences α} (valid : counts.Valid) :
    (holding counts.entries).Valid :=
  valid.holding_eq.symm ▸ valid

omit [DecidableEq α] in
/-- Validity does not depend on the order of the entries. -/
theorem Valid.perm {entries others : Entries α} (valid : (holding entries).Valid)
    (same : others.Perm entries) : (holding others).Valid where
  distinct := (same.map Prod.fst).nodup_iff.mpr valid.distinct
  counted := fun entry member => valid.counted entry (same.mem_iff.mp member)
  size_eq := rfl
  size_le := by
    rw [holding_size, Entries.total_perm same]
    exact valid.size_le

omit [DecidableEq α] in
/-- The elements of a later part are not in the earlier one. -/
theorem Valid.not_mem_earlier {entries more : Entries α} (valid : (holding (entries ++ more)).Valid)
    {entry : α × Nat} (member : entry ∈ more) : entry.1 ∉ Entries.items entries := by
  have distinct := valid.distinct
  simp only [holding, Entries.items, List.map_append, List.nodup_append] at distinct
  intro earlier
  exact distinct.2.2 _ earlier _ (List.mem_map_of_mem member) rfl

theorem Valid.countOf_earlier {entries more : Entries α} (valid : (holding (entries ++ more)).Valid)
    {entry : α × Nat} (member : entry ∈ more) : (holding entries).countOf entry.1 = 0 :=
  Entries.countOf_of_not_mem (valid.not_mem_earlier member)

omit [DecidableEq α] in
/-- The next entry joins the earlier ones, and with those still to come they stay one valid bag. -/
theorem Valid.next_entry {entries rest : Entries α} {entry : α × Nat}
    (valid : (holding (entries ++ entry :: rest)).Valid) :
    (holding (entries ++ [entry])).Valid ∧ (holding ((entries ++ [entry]) ++ rest)).Valid := by
  rw [List.append_cons] at valid
  exact ⟨valid.part (List.sublist_append_left _ _), valid⟩

/-! ## Clamped insertions -/

theorem insertClamped_of_valid {entries : Entries α} {entry : α × Nat}
    (valid : (holding (entries ++ [entry])).Valid) :
    (holding entries).insertClamped entry = holding (entries ++ [entry]) := by
  have counted := valid.counted entry (List.mem_append_right _ (List.mem_singleton_self entry))
  have none := valid.countOf_earlier (List.mem_singleton_self entry)
  have fits := valid.size_le
  have whole : (holding (entries ++ [entry])).size = (holding entries).size + entry.2 := by
    simp
  have kept : min entry.2 (min ((holding entries).room + 0) maxCount) = entry.2 := by
    unfold room
    omega
  have absent := valid.not_mem_earlier (List.mem_singleton_self entry)
  simp only [insertClamped, none, kept]
  rw [if_neg (by omega), holding_entries, Entries.put_of_not_mem absent, Nat.sub_zero, ← whole]
  rfl

-- The induction moves an entry from the part to come to the part that is filled, and both parts
-- together stay the same valid bag.
theorem foldl_insertClamped {more entries : Entries α} (valid : (holding (entries ++ more)).Valid) :
    more.foldl insertClamped (holding entries) = holding (entries ++ more) := by
  induction more generalizing entries with
  | nil => simp
  | cons entry rest ih =>
    obtain ⟨first, whole⟩ := valid.next_entry
    rw [List.foldl_cons, insertClamped_of_valid first, ih whole, ← List.append_cons]

/-- Inserting the entries of a part gives the part, with every count as it was. -/
theorem Valid.ofEntries_part {counts : Occurrences α} (valid : counts.Valid)
    {entries : Entries α} (within : entries.Sublist counts.entries) :
    ofEntries entries = holding entries := by
  have part : (holding ([] ++ entries)).Valid := valid.part within
  exact foldl_insertClamped part

theorem Valid.ofEntries_eq {counts : Occurrences α} (valid : counts.Valid) :
    ofEntries counts.entries = counts :=
  (valid.ofEntries_part (List.Sublist.refl _)).trans valid.holding_eq

/-! ## Merging -/

theorem merge_holding {entries more : Entries α} (valid : (holding (entries ++ more)).Valid) :
    (holding entries).merge (holding more) = .ok (!more.isEmpty, holding (entries ++ more)) := by
  have fits := valid.size_le
  rw [holding_size, Entries.total_append] at fits
  have bounded : ∀ entry ∈ (holding more).entries,
      (holding entries).countOf entry.1 + entry.2 ≤ maxCount := by
    intro entry member
    rw [valid.countOf_earlier member, Nat.zero_add]
    exact (valid.counted entry (List.mem_append_right _ member)).2
  rw [merge_eq_ok fits bounded, holding_entries, holding_entries,
    Entries.foldl_bump_of_distinct valid.distinct, holding_size, holding_size,
    ← Entries.total_append]
  rfl

end Collections.Occurrences
