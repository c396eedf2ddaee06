import Collections.Proofs.Occurrences.Valid

/-! The updates of counted elements in words: counts below two to the power of sixty-three and totals
below two to the power of sixty-four.

Every sum, difference and conversion that an update makes without a check of its own is taken exactly
here and lost when it leaves its word. On a valid bag nothing is lost, so the results in words are
those of the updates themselves.
-/

set_option autoImplicit false

namespace Collections

def fit (limit : Nat) (value : Int) : Option Nat :=
  if 0 ≤ value ∧ value ≤ limit then some value.toNat else none

theorem fit_eq {limit result : Nat} {value : Int} (same : value = result) (fits : result ≤ limit) :
    fit limit value = some result := by
  subst same
  rw [fit, if_pos ⟨Int.natCast_nonneg result, Int.ofNat_le.mpr fits⟩, Int.toNat_natCast]

namespace Entries

variable {α : Type}

-- Counting up goes through the total of every front part. All of them are below the whole, so the
-- whole is the only one that has to fit.
def totalInWords (start : Nat) (entries : Entries α) : Option Nat :=
  entries.foldlM
    (fun sum entry => (fit maxTotal entry.2).bind fun count => fit maxTotal (sum + count)) start

theorem totalInWords_eq {start : Nat} {entries : Entries α}
    (fits : start + total entries ≤ maxTotal) :
    totalInWords start entries = some (start + total entries) := by
  unfold totalInWords
  induction entries generalizing start with
  | nil => rfl
  | cons entry rest ih =>
    rw [total_cons] at fits
    have count : fit maxTotal entry.2 = some entry.2 := fit_eq rfl (by omega)
    have sum : fit maxTotal (start + entry.2) = some (start + entry.2) := fit_eq rfl (by omega)
    simp only [List.foldlM_cons, count, Option.bind_some, sum, Option.bind_eq_bind]
    rw [ih (by omega), total_cons, Nat.add_assoc]

variable [DecidableEq α]

def bumpInWords (entries : Entries α) (entry : α × Nat) : Option (Entries α) :=
  (fit maxCount (entries.countOf entry.1 + entry.2)).map (entries.put entry.1)

theorem foldlM_bumpInWords {more entries : Entries α} (distinct : (items more).Nodup)
    (bounded : ∀ entry ∈ more, countOf entries entry.1 + entry.2 ≤ maxCount) :
    more.foldlM bumpInWords entries = some (more.foldl bump entries) := by
  induction more generalizing entries with
  | nil => rfl
  | cons entry rest ih =>
    obtain ⟨fresh, distinct⟩ := List.nodup_cons.mp distinct
    have first : bumpInWords entries entry = some (bump entries entry) := by
      rw [bumpInWords, bump_eq_put, fit_eq (by omega) (bounded entry List.mem_cons_self)]
      rfl
    rw [List.foldlM_cons, first, List.foldl_cons]
    apply ih distinct
    intro other member
    rw [countOf_bump_of_later fresh entries member]
    exact bounded other (List.mem_cons_of_mem _ member)

end Entries

namespace Occurrences

variable {α : Type}

def reducedInWords (counts : Occurrences α) (removed : Nat) : Option Nat := do
  let removed ← fit maxTotal removed
  fit maxTotal (counts.size - removed)

theorem Valid.reducedInWords_eq {counts : Occurrences α} (valid : counts.Valid) {removed : Nat}
    (present : removed ≤ counts.size) :
    counts.reducedInWords removed = some (counts.size - removed) := by
  have fits := valid.size_le
  have taken : fit maxTotal removed = some removed := fit_eq rfl (by omega)
  rw [reducedInWords, taken]
  exact fit_eq (by omega) (by omega)

/-- The total with some occurrences taken out and others put in. Only their sum is checked. -/
def resizedInWords (counts : Occurrences α) (removed : Nat) (added : Int) :
    Option (Except Error Nat) :=
  (counts.reducedInWords removed).map fun base =>
    if maxTotal < base + added.toNat then .error .totalOverflow else .ok (base + added.toNat)

/-- The total with more occurrences, which nobody checks. -/
def grownInWords (total added : Nat) : Option Nat := do
  let added ← fit maxTotal added
  fit maxTotal (total + added)

theorem grownInWords_eq {total added : Nat} (fits : total + added ≤ maxTotal) :
    grownInWords total added = some (total + added) := by
  have more : fit maxTotal added = some added := fit_eq rfl (by omega)
  rw [grownInWords, more]
  exact fit_eq (by omega) fits

def roomInWords (counts : Occurrences α) : Option Nat :=
  (fit maxTotal (maxTotal - counts.size)).map (min · maxCount)

theorem Valid.roomInWords_eq {counts : Occurrences α} (valid : counts.Valid) :
    counts.roomInWords = some counts.room := by
  have fits := valid.size_le
  have left : fit maxTotal (maxTotal - counts.size) = some (maxTotal - counts.size) :=
    fit_eq (by omega) (by omega)
  rw [roomInWords, left]
  rfl

def retainInWords (counts : Occurrences α) (keep : α × Nat → Bool) : Option (Occurrences α) := do
  let removed ← Entries.totalInWords 0 (counts.entries.filter fun entry => !keep entry)
  let size ← counts.reducedInWords removed
  some ⟨counts.entries.filter keep, size⟩

theorem Valid.retainInWords_eq {counts : Occurrences α} (valid : counts.Valid)
    (keep : α × Nat → Bool) : counts.retainInWords keep = some (counts.retain keep) := by
  have parts := Entries.total_filter_add counts.entries keep
  have whole := valid.size_eq
  have fits := valid.size_le
  have dropped : 0 + Entries.total (counts.entries.filter fun entry => !keep entry) ≤ maxTotal := by
    omega
  have removed := Entries.totalInWords_eq dropped
  rw [Nat.zero_add] at removed
  rw [retainInWords, removed]
  simp only [Option.bind_eq_bind, Option.bind_some]
  rw [valid.reducedInWords_eq (by omega)]
  rfl

variable [DecidableEq α]

/-! ## Checked updates -/

def addInWords (counts : Occurrences α) (item : α) (amount : Int) :
    Option (Except Error (Bool × Occurrences α)) :=
  if amount < 0 then some (.error (.negativeOccurrences amount))
  else if amount = 0 then some (.ok (false, counts))
  else (counts.resizedInWords 0 amount).map fun resized => resized.bind fun size =>
    if maxCount < counts.countOf item + amount.toNat then .error .occurrenceOverflow
    else .ok (true, ⟨counts.entries.put item (counts.countOf item + amount.toNat), size⟩)

theorem Valid.addInWords_eq {counts : Occurrences α} (valid : counts.Valid) (item : α)
    (amount : Int) : counts.addInWords item amount = some (counts.add item amount) := by
  unfold addInWords Occurrences.add
  split
  · rfl
  split
  · rfl
  rw [resizedInWords, valid.reducedInWords_eq (Nat.zero_le _)]
  simp only [Option.map_some, Nat.sub_zero]
  split
  · rfl
  · simp only [Except.bind]

def removeInWords (counts : Occurrences α) (item : α) (amount : Int) :
    Option (Except Error (Bool × Occurrences α)) :=
  if amount < 0 then some (.error (.negativeOccurrences amount))
  else if amount = 0 ∨ counts.countOf item = 0 then some (.ok (false, counts))
  else if amount.toNat < counts.countOf item then do
    let left ← fit maxCount (counts.countOf item - amount)
    let size ← counts.reducedInWords amount.toNat
    some (.ok (true, ⟨counts.entries.put item left, size⟩))
  else do
    let size ← counts.reducedInWords (counts.countOf item)
    some (.ok (true, ⟨counts.entries.erase item, size⟩))

theorem Valid.removeInWords_eq {counts : Occurrences α} (valid : counts.Valid) (item : α)
    (amount : Int) : counts.removeInWords item amount = some (counts.remove item amount) := by
  have held := valid.countOf_le_size item
  have bounded := valid.countOf_le_maxCount item
  unfold removeInWords Occurrences.remove
  split
  · rfl
  split
  · rfl
  split
  · have left : fit maxCount (counts.countOf item - amount) =
        some (counts.countOf item - amount.toNat) := fit_eq (by omega) (by omega)
    rw [left, valid.reducedInWords_eq (by omega)]
    rfl
  · rw [valid.reducedInWords_eq held]
    rfl

def setInWords (counts : Occurrences α) (item : α) (count : Int) :
    Option (Except Error (Bool × Occurrences α)) :=
  if count < 0 then some (.error (.negativeOccurrences count))
  else if count = 0 then
    (counts.reducedInWords (counts.countOf item)).map fun size =>
      .ok (counts.countOf item != 0, ⟨counts.entries.erase item, size⟩)
  else (counts.resizedInWords (counts.countOf item) count).map fun resized => resized.bind fun size =>
    if maxCount < count.toNat then .error .occurrenceOverflow
    else .ok (counts.countOf item != count.toNat, ⟨counts.entries.put item count.toNat, size⟩)

theorem Valid.setInWords_eq {counts : Occurrences α} (valid : counts.Valid) (item : α)
    (count : Int) : counts.setInWords item count = some (counts.set item count) := by
  have held := valid.countOf_le_size item
  unfold setInWords Occurrences.set
  split
  · rfl
  split
  · rw [valid.reducedInWords_eq held]
    rfl
  rw [resizedInWords, valid.reducedInWords_eq held]
  simp only [Option.map_some]
  split
  · rfl
  · simp only [Except.bind]

def mergeInWords (counts other : Occurrences α) : Option (Except Error (Bool × Occurrences α)) :=
  if maxTotal < counts.size + other.size then some (.error .totalOverflow)
  else if other.entries.any (fun entry => maxCount < counts.countOf entry.1 + entry.2) then
    some (.error .occurrenceOverflow)
  else (other.entries.foldlM Entries.bumpInWords counts.entries).map fun entries =>
    .ok (!other.isEmpty, ⟨entries, counts.size + other.size⟩)

theorem Valid.mergeInWords_eq {other : Occurrences α} (other_valid : other.Valid)
    (counts : Occurrences α) : counts.mergeInWords other = some (counts.merge other) := by
  unfold mergeInWords Occurrences.merge
  split
  · rfl
  split
  · rfl
  · rename_i none
    have bounded : ∀ entry ∈ other.entries, counts.countOf entry.1 + entry.2 ≤ maxCount :=
      fun entry member => Nat.not_lt.mp fun above =>
        none (List.any_eq_true.mpr ⟨entry, member, decide_eq_true above⟩)
    rw [Entries.foldlM_bumpInWords other_valid.distinct bounded]
    rfl

/-! ## Updates that are never refused -/

def insertClampedInWords (counts : Occurrences α) (entry : α × Nat) :
    Option (Occurrences α) := do
  let room ← counts.roomInWords
  let count := min entry.2 (min (room + counts.countOf entry.1) maxCount)
  if count = 0 then some counts
  else
    let base ← counts.reducedInWords (counts.countOf entry.1)
    let size ← grownInWords base count
    some ⟨counts.entries.put entry.1 count, size⟩

-- The old count leaves the size before the new one comes in, so the size never exceeds its word in
-- between.
theorem Valid.insertClampedInWords_eq {counts : Occurrences α} (valid : counts.Valid)
    (entry : α × Nat) : counts.insertClampedInWords entry = some (counts.insertClamped entry) := by
  have held := valid.countOf_le_size entry.1
  have fits := valid.size_le
  simp only [insertClampedInWords, valid.roomInWords_eq, Option.bind_eq_bind, Option.bind_some,
    Occurrences.insertClamped]
  split
  · rfl
  · rw [valid.reducedInWords_eq held, Option.bind_some,
      grownInWords_eq (by unfold room; omega)]
    rfl

def accumulateInWords (counts : Occurrences α) (entry : α × Nat) : Option (Occurrences α) := do
  let room ← counts.roomInWords
  if room = 0 then some counts
  else
    let left ← fit maxCount (maxCount - counts.countOf entry.1)
    let added := min (min entry.2 left) room
    let count ← fit maxCount (counts.countOf entry.1 + added)
    let size ← grownInWords counts.size added
    some ⟨counts.entries.put entry.1 count, size⟩

theorem Valid.accumulateInWords_eq {counts : Occurrences α} (valid : counts.Valid)
    (entry : α × Nat) : counts.accumulateInWords entry = some (counts.accumulate entry) := by
  have bounded := valid.countOf_le_maxCount entry.1
  have fits := valid.size_le
  have left : fit maxCount (maxCount - counts.countOf entry.1) =
      some (maxCount - counts.countOf entry.1) := fit_eq (by omega) (by omega)
  simp only [accumulateInWords, valid.roomInWords_eq, left, Option.bind_eq_bind, Option.bind_some,
    Occurrences.accumulate]
  split
  · rfl
  · have count : fit maxCount (counts.countOf entry.1 +
        min (min entry.2 (maxCount - counts.countOf entry.1)) counts.room) =
          some (counts.countOf entry.1 +
            min (min entry.2 (maxCount - counts.countOf entry.1)) counts.room) :=
      fit_eq (by omega) (by omega)
    rw [count, Option.bind_some, grownInWords_eq (by unfold room; omega)]
    rfl

def extendInWords (counts : Occurrences α) (items : List α) : Option (Occurrences α) :=
  items.foldlM (fun counts item => counts.accumulateInWords (item, 1)) counts

theorem Valid.extendInWords_eq {counts : Occurrences α} (valid : counts.Valid) (items : List α) :
    counts.extendInWords items = some (counts.extend items) := by
  unfold extendInWords Occurrences.extend
  induction items generalizing counts with
  | nil => rfl
  | cons item rest ih =>
    rw [List.foldlM_cons, valid.accumulateInWords_eq]
    exact ih (valid.accumulate Nat.one_pos)

end Occurrences

end Collections
