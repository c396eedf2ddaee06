import Collections.Bag.Frozen
import Collections.Bag.Hashing
import Collections.Proofs.Bag.Conversions
import Collections.Proofs.Bag.FromPairs
import Collections.Proofs.Bag.Removing
import Collections.Proofs.Bag.Sound
import Collections.Proofs.Bag.Splitting
import Mathlib.Data.UInt

/-! Hashes of bags. They are the same for bags that count alike, whatever has led to these.

The digests of the entries are added up, so their order does not matter. But with their sum goes the size, which
each operation keeps up to date in a way of its own, and some operations clamp. Bags with the same counts have
the same size because every operation leaves a valid bag.
-/

set_option autoImplicit false

namespace Collections

variable {α : Type}

namespace Occurrences

variable [DecidableEq α] {counts other : Occurrences α}

theorem valid_ofEntries (entries : Entries α) : (ofEntries entries).Valid :=
  List.foldlRecOn entries _ valid_empty fun _ valid entry _ => valid.insertClamped entry

omit [DecidableEq α] in
theorem Valid.reordered (valid : counts.Valid) {read : Entries α} (order : read.Perm counts.entries) :
    Valid ⟨read, counts.size⟩ := by
  have resized : counts.size = Entries.total read :=
    valid.size_eq.trans (Entries.total_perm order).symm
  rw [resized]
  exact valid.holding_valid.perm order

omit [DecidableEq α] in
theorem digest_eq_sum_map (counts : Occurrences α) (digestEntry : α × Nat → UInt64) :
    counts.digest digestEntry =
      UInt64.ofNat counts.distinct + (counts.entries.map digestEntry).sum := by
  rw [digest]
  generalize UInt64.ofNat counts.distinct = start
  induction counts.entries generalizing start with
  | nil => rw [List.foldl_nil, List.map_nil, List.sum_nil, add_zero]
  | cons entry rest ih => rw [List.foldl_cons, ih, List.map_cons, List.sum_cons, add_assoc]

/-- The digest is a sum over a set, and so says nothing of an order. -/
theorem Valid.digest_eq_sum (valid : counts.Valid) (digestEntry : α × Nat → UInt64) :
    counts.digest digestEntry = UInt64.ofNat counts.distinct +
      ∑ item ∈ counts.elements, digestEntry (item, counts.countOf item) := by
  have digested : counts.entries.map digestEntry =
      (Entries.items counts.entries).map fun item => digestEntry (item, counts.countOf item) := by
    rw [Entries.items, List.map_map]
    apply List.map_congr_left
    intro entry member
    rw [Function.comp, ((valid.mem_entries_iff entry).mp member).2]
  rw [digest_eq_sum_map, digested, elements, List.sum_toFinset _ valid.distinct]

theorem Valid.digest_eq (valid : counts.Valid) (other_valid : other.Valid)
    (same : ∀ item, counts.countOf item = other.countOf item) (digestEntry : α × Nat → UInt64) :
    counts.digest digestEntry = other.digest digestEntry := by
  have elements : counts.elements = other.elements := by
    ext item
    rw [valid.mem_elements, other_valid.mem_elements, same]
  rw [valid.digest_eq_sum, other_valid.digest_eq_sum, (valid.alike other_valid same).distinct, elements]
  simp only [same]

theorem Valid.feed_eq {η : Type} (valid : counts.Valid) (other_valid : other.Valid)
    (same : ∀ item, counts.countOf item = other.countOf item) (hasher : Hasher η)
    (digestEntry : α × Nat → UInt64) (state : η) :
    counts.feed hasher digestEntry state = other.feed hasher digestEntry state := by
  rw [feed, feed, (valid.alike other_valid same).size, valid.digest_eq other_valid same]

end Occurrences

namespace Bag

/-! ## Histories -/

def KeptIn (stored : Nat → Occurrences α) : Bag α → Prop
  | .plain _ => True
  | .frozen storage counts => counts = stored storage
  | .sorted _ inner | .readOnly inner | .shared _ inner | .parallel _ inner => inner.KeptIn stored

inductive Derivation (α : Type) where
  | freeze
  | plus (item : α)
  | plusOccurrences (item : α) (amount : Int)
  | plusAll (items : List α)
  | minus (item : α)
  | minusAll (items : List α)

variable [DecidableEq α]

/-- The bag that is derived, or the one it starts from if that is refused. -/
def derive (storage : Nat) (bag : Bag α) : Derivation α → Bag α
  | .freeze => bag.freeze storage
  | .plus item => bag.plus storage item
  | .plusOccurrences item amount => (bag.plusOccurrences storage item amount).toOption.getD bag
  | .plusAll items => bag.plusAll storage items
  | .minus item => bag.minus storage item
  | .minusAll items => bag.minusAll storage items

/-- The bags that operations lead to, while each storage holds what it was made with. The entries of a plain
bag may come in another order at any time: maps are free to hash them anew. -/
inductive Made (stored : Nat → Occurrences α) : Bag α → Prop
  | empty : Made stored (.plain .empty)
  | ofPairs {pairs : List (α × Int)} {counts : Occurrences α}
      (accepted : Occurrences.ofPairs pairs = .ok counts) : Made stored (.plain counts)
  | ofCounts (pairs : List (α × Int)) : Made stored (.plain (.ofCounts pairs))
  | called {bag : Bag α} (made : Made stored bag) (call : Call α) : Made stored (bag.perform call).state
  | merged {counts others : Occurrences α} (made : Made stored (.plain counts))
      (others_made : Made stored (.plain others)) :
      Made stored (.plain (counts.after (counts.merge others)))
  | extended {counts : Occurrences α} (made : Made stored (.plain counts)) (items : List α) :
      Made stored (.plain (counts.extend items))
  | retained {counts : Occurrences α} (made : Made stored (.plain counts)) (keep : α × Nat → Bool) :
      Made stored (.plain (counts.retain keep))
  | reordered {counts : Occurrences α} {read : Entries α} (made : Made stored (.plain counts))
      (order : read.Perm counts.entries) : Made stored (.plain ⟨read, counts.size⟩)
  | selected {bag : Bag α} (made : Made stored bag) (wanted : α → Bool) :
      Made stored (.plain (Entries.select bag.entries wanted))
  | selectedByCount {bag : Bag α} (made : Made stored bag) (wanted : Nat → Bool) :
      Made stored (.plain (Entries.selectByCount bag.entries wanted))
  | grouped {κ : Type} [DecidableEq κ] {bag : Bag α} {group : Occurrences α} (made : Made stored bag)
      (key : α → κ) {value : κ} (found : (Entries.groupBy bag.entries key).valueOf? value = some group) :
      Made stored (.plain group)
  -- The elements that are replaced may be of another type.
  | collected {β : Type} {source : Bag β} (valid : source.contents.Valid) (f : β → α) :
      Made stored (.plain (Entries.collect source.entries f))
  | thawed {bag : Bag α} (made : Made stored bag) : Made stored bag.thaw
  | derived {bag : Bag α} (made : Made stored bag) (storage : Nat) (derivation : Derivation α)
      (kept : (bag.derive storage derivation).KeptIn stored) : Made stored (bag.derive storage derivation)
  | layered {bag inner : Bag α} (made : Made stored inner) (below : bag.inner? = some inner) :
      Made stored bag
  | unwrapped {bag inner : Bag α} (made : Made stored bag) (below : bag.inner? = some inner) :
      Made stored inner

omit [DecidableEq α] in
theorem contents_of_inner? {bag inner : Bag α} (below : bag.inner? = some inner) :
    bag.contents = inner.contents := by
  cases bag with
  | plain _ => cases below
  | frozen _ _ => cases below
  | _ =>
    cases below
    rfl

omit [DecidableEq α] in
theorem keptIn_of_inner? {stored : Nat → Occurrences α} {bag inner : Bag α}
    (below : bag.inner? = some inner) : bag.KeptIn stored ↔ inner.KeptIn stored := by
  cases bag with
  | plain _ => cases below
  | frozen _ _ => cases below
  | _ =>
    cases below
    exact Iff.rfl

/-! ## What histories keep -/

theorem valid_derive {bag : Bag α} (valid : bag.contents.Valid) (storage : Nat)
    (derivation : Derivation α) : (bag.derive storage derivation).contents.Valid := by
  cases derivation with
  | freeze =>
    cases bag with
    | frozen own counts => exact valid
    | _ => exact Occurrences.valid_ofEntries _
  | plus item => exact valid.accumulate Nat.one_pos
  | plusOccurrences item amount =>
    rw [derive, plusOccurrences]
    cases added : bag.contents.add item amount with
    | error error => exact valid
    | ok answer => exact valid.add added
  | plusAll items => exact valid.extend items
  | minus item =>
    rw [derive, minus]
    split
    · cases removed : bag.contents.remove item 1 with
      | error error => exact valid
      | ok answer => exact valid.remove removed
    · exact valid
  | minusAll items => exact valid.without items

variable {stored : Nat → Occurrences α}

theorem keptIn_apply {bag : Bag α} (kept : bag.KeptIn stored) (change : Change α) :
    (bag.apply change).state.KeptIn stored := by
  induction bag with
  | plain _ => trivial
  | frozen _ _ => exact kept
  | readOnly _ _ => exact kept
  | sorted _ _ ih => exact ih kept
  | shared _ _ ih => exact ih kept
  | parallel _ _ ih => exact ih kept

theorem keptIn_perform {bag : Bag α} (kept : bag.KeptIn stored) (call : Call α) :
    (bag.perform call).state.KeptIn stored := by
  refine perform_keeps (fun bag after => bag.KeptIn stored → after.KeptIn stored) ?_ ?_ ?_ ?_ call bag kept
  · exact fun _ kept => kept
  · exact fun _ _ _ first second kept => second (first kept)
  · exact fun _ _ _ below => below
  · exact fun change _ kept => keptIn_apply kept change

structure Whole (stored : Nat → Occurrences α) (bag : Bag α) : Prop where
  valid : bag.contents.Valid
  kept : bag.KeptIn stored

theorem Made.whole {bag : Bag α} (made : Made stored bag) : Whole stored bag := by
  induction made with
  | empty => exact ⟨Occurrences.valid_empty, trivial⟩
  | ofPairs accepted => exact ⟨(Occurrences.ofPairs_tallied accepted).valid, trivial⟩
  | ofCounts pairs => exact ⟨Occurrences.valid_ofEntries _, trivial⟩
  | called made call ih => exact ⟨(perform_edited call _).valid ih.valid, keptIn_perform ih.kept call⟩
  | merged made others_made ih others_ih =>
    exact ⟨ih.valid.after fun _ _ accepted => ih.valid.merge others_ih.valid accepted, trivial⟩
  | extended made items ih => exact ⟨ih.valid.extend items, trivial⟩
  | retained made keep ih => exact ⟨ih.valid.retain keep, trivial⟩
  | reordered made order ih => exact ⟨ih.valid.reordered order, trivial⟩
  | selected made wanted ih => exact ⟨Occurrences.valid_ofEntries _, trivial⟩
  | selectedByCount made wanted ih => exact ⟨Occurrences.valid_ofEntries _, trivial⟩
  | grouped made key found ih => exact ⟨(group_portion ih.valid (.refl _) found).valid, trivial⟩
  | collected valid f => exact ⟨Entries.valid_collect (valid_entries valid) f, trivial⟩
  | thawed made ih => exact ⟨Occurrences.valid_ofEntries _, trivial⟩
  | derived made storage derivation kept ih => exact ⟨valid_derive ih.valid storage derivation, kept⟩
  | layered made below ih =>
    exact ⟨(contents_of_inner? below).symm ▸ ih.valid, (keptIn_of_inner? below).mpr ih.kept⟩
  | unwrapped made below ih =>
    exact ⟨contents_of_inner? below ▸ ih.valid, (keptIn_of_inner? below).mp ih.kept⟩

/-- Whatever is whole can be made, by filling a plain bag and putting the layers on. So the histories leave out
no bag that an operation could lead to, and no order of its entries. -/
theorem Whole.made {bag : Bag α} (whole : Whole stored bag) : Made stored bag := by
  have filled {counts : Occurrences α} (valid : counts.Valid) : Made stored (.plain counts) :=
    valid.ofCounts_eq ▸ Made.ofCounts counts.entries.pairs
  induction bag with
  | plain counts => exact filled whole.valid
  | frozen storage counts =>
    have valid : counts.Valid := whole.valid
    have frozen : (Bag.plain counts).derive storage .freeze = .frozen storage counts :=
      valid.freeze_plain storage
    rw [← frozen]
    exact (filled valid).derived storage .freeze (frozen ▸ whole.kept)
  | sorted order inner ih => exact (ih ⟨whole.valid, whole.kept⟩).layered rfl
  | readOnly inner ih => exact (ih ⟨whole.valid, whole.kept⟩).layered rfl
  | shared cell inner ih => exact (ih ⟨whole.valid, whole.kept⟩).layered rfl
  | parallel batching inner ih => exact (ih ⟨whole.valid, whole.kept⟩).layered rfl

theorem made_iff_whole {bag : Bag α} : Made stored bag ↔ Whole stored bag :=
  ⟨Made.whole, Whole.made⟩

/-! ## Keys -/

/-- Both bags are keys, and every hasher ends alike for both, whatever the digests of entries are. -/
def HashedAlike (bag other : Bag α) : Prop :=
  ∀ {η : Type} (hasher : Hasher η) (digestEntry : α × Nat → UInt64) (state : η),
    ∃ after, bag.feed? hasher digestEntry state = some after ∧
      other.feed? hasher digestEntry state = some after

structure HashedByCounts (bag other : Bag α) : Prop where
  -- Both sums are of sixty-four bits.
  sum (digestEntry : α × Nat → UInt64) : bag.contents.digest digestEntry =
    UInt64.ofNat bag.distinct + ∑ item ∈ bag.contents.elements, digestEntry (item, bag.countOf item)
  fed {η : Type} (hasher : Hasher η) (digestEntry : α × Nat → UInt64) (state : η) : bag.inner? = none →
    bag.feed? hasher digestEntry state = some (hasher.takeDigest (hasher.takeSize state bag.size)
      (bag.contents.digest digestEntry))
  digest (digestEntry : α × Nat → UInt64) : (∀ item, bag.countOf item = other.countOf item) →
    bag.contents.digest digestEntry = other.contents.digest digestEntry
  size : (∀ item, bag.countOf item = other.countOf item) → bag.size = other.size
  hashedAlike : (∀ item, bag.countOf item = other.countOf item) → bag.inner? = none →
    other.inner? = none → HashedAlike bag other
  sameKey : bag.sameKey? other = some true → HashedAlike bag other

variable {bag other : Bag α}

omit [DecidableEq α] in
theorem feed?_of_key {η : Type} (key : bag.inner? = none) (hasher : Hasher η)
    (digestEntry : α × Nat → UInt64) (state : η) :
    bag.feed? hasher digestEntry state = some (bag.contents.feed hasher digestEntry state) := by
  cases bag with
  | plain counts => rfl
  | frozen storage counts => rfl
  | _ => cases key

theorem hashedAlike_of_counts (valid : bag.contents.Valid) (other_valid : other.contents.Valid)
    (same : ∀ item, bag.countOf item = other.countOf item) (key : bag.inner? = none)
    (other_key : other.inner? = none) : HashedAlike bag other := by
  intro η hasher digestEntry state
  refine ⟨bag.contents.feed hasher digestEntry state, feed?_of_key key hasher digestEntry state, ?_⟩
  rw [feed?_of_key other_key, valid.feed_eq other_valid same]

/-- Only keys are the same, and they count alike. Those of one storage do because it holds both. -/
theorem counts_of_sameKey (whole : Whole stored bag) (other_whole : Whole stored other)
    (same : bag.sameKey? other = some true) :
    bag.inner? = none ∧ other.inner? = none ∧ ∀ item, bag.countOf item = other.countOf item := by
  have equal {counts others : Occurrences α} (valid : counts.Valid) (others_valid : others.Valid)
      (found : counts.same others = true) (item : α) : counts.countOf item = others.countOf item :=
    (valid.same_iff others_valid).mp found item
  cases bag with
  | plain counts =>
    cases other with
    | plain others => exact ⟨rfl, rfl, equal whole.valid other_whole.valid (Option.some.inj same)⟩
    | _ => cases same
  | frozen storage counts =>
    cases other with
    | frozen own others =>
      refine ⟨rfl, rfl, ?_⟩
      rcases Bool.or_eq_true_iff.mp (Option.some.inj same) with shared | found
      · have copies : counts = others := by
          rw [show counts = stored storage from whole.kept, show others = stored own from other_whole.kept,
            beq_iff_eq.mp shared]
        exact fun item => congrArg (·.countOf item) copies
      · exact equal whole.valid other_whole.valid found
    | _ => cases same
  | _ => cases same

theorem hashed_by_counts (made : Made stored bag) (other_made : Made stored other) :
    HashedByCounts bag other := by
  have whole := made.whole
  have other_whole := other_made.whole
  constructor
  case sum => exact whole.valid.digest_eq_sum
  case fed => exact fun hasher digestEntry state key => feed?_of_key key hasher digestEntry state
  case digest => exact fun digestEntry same => whole.valid.digest_eq other_whole.valid same digestEntry
  case size => exact fun same => (whole.valid.alike other_whole.valid same).size
  case hashedAlike => exact hashedAlike_of_counts whole.valid other_whole.valid
  case sameKey =>
    intro same
    obtain ⟨key, other_key, counts⟩ := counts_of_sameKey whole other_whole same
    exact hashedAlike_of_counts whole.valid other_whole.valid counts key other_key

/-- One bag is filled item by item. The other starts from pairs, loses an element that the first never had
and is frozen, and its entries come in another order. -/
theorem hashed_by_counts_after_detours :
    let stored : Nat → Occurrences Nat := fun _ => ⟨[(2, 1), (1, 2)], 3⟩
    let bag : Bag Nat := .plain ⟨[(1, 2), (2, 1)], 3⟩
    let other : Bag Nat := .frozen 0 ⟨[(2, 1), (1, 2)], 3⟩
    Made stored bag ∧ Made stored other ∧ HashedByCounts bag other ∧
      (∀ item, bag.countOf item = other.countOf item) ∧ HashedAlike bag other := by
  intro stored bag other
  have accepted : Occurrences.ofPairs [((2 : Nat), 1), (3, 5), (1, 2)] =
      .ok ⟨[(2, 1), (3, 5), (1, 2)], 8⟩ := rfl
  have made : Made stored bag := Made.empty.called (.addAll [1, 2, 1])
  have other_made : Made stored other :=
    ((Made.ofPairs accepted).called (.removeOccurrences 3 9)).derived 0 .freeze rfl
  have hashed := hashed_by_counts made other_made
  have same (item : Nat) : bag.countOf item = other.countOf item :=
    Entries.countOf_perm (by decide) (.swap _ _ _) item
  exact ⟨made, other_made, hashed, same, hashed.hashedAlike same rfl rfl⟩

end Bag

end Collections
