import Collections.Proofs.Bag.Parallel

/-! A visit that runs in order, on the spot or on an executor that takes the batches one by one, stops at
the first entry whose visit does not end well. Its answer tells why, and a crash is reported with the
batch of that entry.
-/

set_option autoImplicit false

namespace Collections

namespace Batching

variable {α σ : Type} {batching : Batching} {judge : Entries α → α × Nat → Outcome Unit}
  {seen batch front back before after : Entries α} {earlier later : List (Entries α)}
  {entry : α × Nat}

/-- A visitor that notes what it is shown. How a visit ends may depend on the visits before it. -/
def noted (judge : Entries α → α × Nat → Outcome Unit) (entry : α × Nat) (seen : Entries α) :
    Outcome Unit × Entries α :=
  (judge seen entry, seen ++ [entry])

def Passes (judge : Entries α → α × Nat → Outcome Unit) (entries : Entries α) : Prop :=
  ∀ before entry after, entries = before ++ entry :: after → judge before entry = .done ()

theorem Passes.next (passes : Passes judge (before ++ entry :: after)) :
    judge before entry = .done () :=
  passes before entry after rfl

theorem Passes.part (passes : Passes judge (front ++ back)) : Passes judge front := by
  intro before entry after split
  refine passes before entry (after ++ back) ?_
  rw [split, List.append_assoc, List.cons_append]

theorem passes_append_singleton (passes : Passes judge before) (done : judge before entry = .done ()) :
    Passes judge (before ++ [entry]) := by
  intro first other rest split
  rcases List.eq_nil_or_concat rest with rfl | ⟨middle, last, rfl⟩
  · obtain ⟨rfl, same⟩ := List.append_inj' split rfl
    cases same
    exact done
  · rw [List.concat_eq_append, ← List.cons_append, ← List.append_assoc] at split
    obtain ⟨rfl, -⟩ := List.append_inj' split rfl
    exact passes.next

/-- Either all visits end well, or there is a first that does not. -/
theorem passes_or_stops (judge : Entries α → α × Nat → Outcome Unit) (entries : Entries α) :
    Passes judge entries ∨ ∃ before entry after, entries = before ++ entry :: after ∧
      Passes judge before ∧ judge before entry ≠ .done () := by
  induction entries using List.reverseRecOn with
  | nil => exact .inl fun before entry after split => by simp at split
  | append_singleton entries last ih =>
    rcases ih with passes | ⟨before, entry, after, rfl, passes, stopped⟩
    · by_cases done : judge entries last = .done ()
      · exact .inl (passes_append_singleton passes done)
      · exact .inr ⟨entries, last, [], rfl, passes, done⟩
    · refine .inr ⟨before, entry, after ++ [last], ?_, passes, stopped⟩
      rw [List.append_assoc, List.cons_append]

/-! ## Within a batch -/

theorem visitBatch_passes (passes : Passes judge (seen ++ batch)) :
    visitBatch (noted judge) batch seen = (.done (), seen ++ batch) := by
  induction batch generalizing seen with
  | nil => rw [visitBatch, List.append_nil]
  | cons entry rest ih =>
    have further : seen ++ entry :: rest = (seen ++ [entry]) ++ rest := by
      rw [List.append_assoc, List.singleton_append]
    simp only [visitBatch, noted, passes.next]
    rw [further] at passes ⊢
    exact ih passes

theorem visitBatch_stops (passes : Passes judge (seen ++ front))
    (stopped : judge (seen ++ front) entry ≠ .done ()) :
    visitBatch (noted judge) (front ++ entry :: back) seen =
      (judge (seen ++ front) entry, seen ++ front ++ [entry]) := by
  induction front generalizing seen with
  | nil =>
    rw [List.append_nil] at stopped ⊢
    rw [List.nil_append, visitBatch, noted]
    cases judged : judge seen entry with
    | done => exact absurd judged stopped
    | failed error => rfl
    | crashed text => rfl
  | cons first rest ih =>
    have further : seen ++ first :: rest = (seen ++ [first]) ++ rest := by
      rw [List.append_assoc, List.singleton_append]
    simp only [List.cons_append, visitBatch, noted, passes.next]
    rw [further] at passes stopped ⊢
    exact ih passes stopped

/-! ## Across batches -/

def visitNumbered (judge : Entries α → α × Nat → Outcome Unit) (numbered : Entries α × Nat)
    (seen : Entries α) : Attempt (Entries α) Unit :=
  let (outcome, seen) := visitBatch (noted judge) numbered.1 seen
  ⟨outcome.settle numbered.2, seen⟩

theorem traverse_visitNumbered_passes {start : Nat} {batches : List (Entries α)}
    (passes : Passes judge (seen ++ batches.flatten)) :
    Attempt.traverse (visitNumbered judge) (batches.zipIdx start) seen =
      ⟨.ok (batches.map fun _ => ()), seen ++ batches.flatten⟩ := by
  induction batches generalizing seen start with
  | nil => rw [List.flatten_nil, List.append_nil]; rfl
  | cons batch rest ih =>
    rw [List.flatten_cons, ← List.append_assoc] at passes ⊢
    have visited := visitBatch_passes passes.part
    rw [List.zipIdx_cons, Attempt.traverse_cons (by simp only [visitNumbered, visited]; rfl),
      ih passes]
    rfl

theorem traverse_visitNumbered_stops {start : Nat} {error : Error}
    (passes : Passes judge (seen ++ (earlier.flatten ++ front)))
    (reported : (judge (seen ++ (earlier.flatten ++ front)) entry).settle (start + earlier.length) =
      .error error) :
    Attempt.traverse (visitNumbered judge)
        ((earlier ++ (front ++ entry :: back) :: later).zipIdx start) seen =
      ⟨.error error, seen ++ (earlier.flatten ++ front) ++ [entry]⟩ := by
  induction earlier generalizing seen start with
  | nil =>
    rw [List.flatten_nil, List.nil_append] at passes reported ⊢
    have stopped : judge (seen ++ front) entry ≠ .done () := by
      intro done
      rw [done] at reported
      cases reported
    have visited : visitBatch (noted judge) (front ++ entry :: back) seen = _ :=
      visitBatch_stops passes stopped
    rw [List.length_nil, Nat.add_zero] at reported
    rw [List.nil_append, List.zipIdx_cons, Attempt.traverse_cons_refused
      (by simp only [visitNumbered, visited, reported]; rfl)]
  | cons batch rest ih =>
    have further : seen ++ ((batch :: rest).flatten ++ front) =
        (seen ++ batch) ++ (rest.flatten ++ front) := by
      simp only [List.flatten_cons, List.append_assoc]
    rw [further] at passes reported ⊢
    have visited := visitBatch_passes passes.part
    rw [List.length_cons, Nat.add_comm rest.length 1, ← Nat.add_assoc] at reported
    rw [List.cons_append, List.zipIdx_cons,
      Attempt.traverse_cons (by simp only [visitNumbered, visited]; rfl), ih passes reported]
    rfl

theorem combine_discard {π : Type} (parts : List π) : combine .discard parts = .ok () := by
  apply combine_of_takes rfl
  induction parts with
  | nil => exact .none ()
  | cons part rest ih => exact .more rfl ih

end Batching

namespace Bag

open Batching (Passes noted conclude visitNumbered)

variable {α : Type} {batching : Batching} {inner : Bag α}
  {judge : Entries α → α × Nat → Outcome Unit}

/-- What a visit in batches comes to. The place of an entry is the number of entries before it. -/
structure Reported (batching : Batching) (inner : Bag α)
    (judge : Entries α → α × Nat → Outcome Unit)
    (visited : Attempt (Batching × Entries α) Unit) : Prop where
  accepted_iff : visited.answer = .ok () ↔ Passes judge inner.entries
  through : Passes judge inner.entries → visited.state.2 = inner.entries
  -- The rest is about the first entry whose visit does not end well.
  stopped {before after : Entries α} {entry : α × Nat} :
    inner.entries = before ++ entry :: after → Passes judge before →
      judge before entry ≠ .done () → visited.state.2 = before ++ [entry]
  failed {before after : Entries α} {entry : α × Nat} {error : Error} :
    inner.entries = before ++ entry :: after → Passes judge before →
      judge before entry = .failed error → visited.answer = .error error
  crashed {before after : Entries α} {entry : α × Nat} {text : Option String} {message : String} :
    inner.entries = before ++ entry :: after → Passes judge before →
      judge before entry = .crashed text → text.getD "unknown panic" = message →
        visited.answer = .error
          (.execution s!"batch {before.length / batching.settings.batchSize} panicked: {message}")

/-- Neither the threshold nor the cut makes a difference to an executor that runs in order. -/
theorem visit_inOrder (positive : 1 ≤ batching.settings.batchSize)
    (inOrder : batching.executor = .sequential ∨ ¬ (batching.settings.batchSize < inner.distinct ∧
      batching.settings.minEntries ≤ inner.distinct)) (seen : Entries α) :
    ∃ left, batching.visit inner.entries (noted judge) seen = conclude .discard left
      (Attempt.traverse (visitNumbered judge) (batching.cut inner.entries).zipIdx seen) := by
  rw [← handsOver_iff positive, Bool.not_eq_true] at inOrder
  rw [Batching.visit]
  cases decided : batching.handsOver inner.entries with
  | true =>
    rcases inOrder with sequential | kept
    · rw [Batching.dispatchBy_handed _ decided, sequential]
      exact ⟨_, rfl⟩
    · rw [decided] at kept
      cases kept
  | false =>
    rw [Batching.dispatchBy_kept _ decided]
    exact ⟨_, rfl⟩

theorem visit_passes {left : Batching}
    (ran : batching.visit inner.entries (noted judge) [] = conclude .discard left
      (Attempt.traverse (visitNumbered judge) (batching.cut inner.entries).zipIdx []))
    (passes : Passes judge inner.entries) :
    (batching.visit inner.entries (noted judge) []).answer = .ok () ∧
      (batching.visit inner.entries (noted judge) []).state.2 = inner.entries := by
  have joined : (batching.cut inner.entries).flatten = inner.entries := flatten_batchesOf
  rw [← joined] at passes
  rw [ran, Batching.traverse_visitNumbered_passes passes, conclude]
  exact ⟨Batching.combine_discard _, joined⟩

theorem visit_stops (positive : 1 ≤ batching.settings.batchSize) {left : Batching}
    (ran : batching.visit inner.entries (noted judge) [] = conclude .discard left
      (Attempt.traverse (visitNumbered judge) (batching.cut inner.entries).zipIdx []))
    {before after : Entries α} {entry : α × Nat} {error : Error}
    (split : inner.entries = before ++ entry :: after) (passes : Passes judge before)
    (reported : (judge before entry).settle (before.length / batching.settings.batchSize) =
      .error error) :
    (batching.visit inner.entries (noted judge) []).answer = .error error ∧
      (batching.visit inner.entries (noted judge) []).state.2 = before ++ [entry] := by
  obtain ⟨earlier, front, back, later, cut, rfl, number⟩ :=
    batchesOf_split positive before entry after
  rw [← number, ← Nat.zero_add earlier.length] at reported
  rw [ran, Batching.cut, split, cut, Batching.traverse_visitNumbered_stops passes reported, conclude]
  exact ⟨rfl, rfl⟩

theorem visit_reports_first_stop (batching : Batching) (inner : Bag α)
    (judge : Entries α → α × Nat → Outcome Unit) (positive : 1 ≤ batching.settings.batchSize)
    (inOrder : batching.executor = .sequential ∨ ¬ (batching.settings.batchSize < inner.distinct ∧
      batching.settings.minEntries ≤ inner.distinct)) :
    Reported batching inner judge (batching.visit inner.entries (noted judge) []) := by
  obtain ⟨left, ran⟩ := visit_inOrder positive inOrder []
  have settled {before after : Entries α} {entry : α × Nat}
      (split : inner.entries = before ++ entry :: after) (passes : Passes judge before)
      (stopped : judge before entry ≠ .done ()) :
      ∃ error, (batching.visit inner.entries (noted judge) []).answer = .error error ∧
        (batching.visit inner.entries (noted judge) []).state.2 = before ++ [entry] := by
    cases judged : judge before entry with
    | done => exact absurd judged stopped
    | failed error => exact ⟨_, visit_stops positive ran split passes (by rw [judged]; rfl)⟩
    | crashed text => exact ⟨_, visit_stops positive ran split passes (by rw [judged]; rfl)⟩
  constructor
  case accepted_iff =>
    constructor
    · intro accepted
      rcases Batching.passes_or_stops judge inner.entries with
        passes | ⟨before, entry, after, split, passes, stopped⟩
      · exact passes
      · obtain ⟨error, refused, -⟩ := settled split passes stopped
        rw [accepted] at refused
        cases refused
    · exact fun passes => (visit_passes ran passes).1
  case through => exact fun passes => (visit_passes ran passes).2
  case stopped =>
    intro before after entry split passes stopped
    obtain ⟨error, -, seen⟩ := settled split passes stopped
    exact seen
  case failed =>
    intro before after entry error split passes judged
    exact (visit_stops positive ran split passes (by rw [judged]; rfl)).1
  case crashed =>
    intro before after entry text message split passes judged said
    exact (visit_stops positive ran split passes (by rw [judged, ← said]; rfl)).1

/-- One entry crashes in the second of three batches, and the next would fail in the last. There are too
few entries for the executor, which would refuse them. -/
theorem visit_reports_crash_in_second_batch :
    let batching : Batching := .ofParts (.refusing "closed") ⟨2, 9⟩
    let bag : Bag Nat := .plain ⟨[(1, 1), (2, 2), (3, 1), (4, 4), (5, 1)], 9⟩
    let judge (_ : Entries Nat) (entry : Nat × Nat) : Outcome Unit :=
      if entry.1 = 4 then .crashed (some "four")
      else if entry.1 = 5 then .failed .totalOverflow
      else .done ()
    let visited := batching.visit bag.entries (noted judge) []
    1 ≤ batching.settings.batchSize ∧
      (batching.executor = .sequential ∨ ¬ (batching.settings.batchSize < bag.distinct ∧
        batching.settings.minEntries ≤ bag.distinct)) ∧
      visited.answer = .error (.execution "batch 1 panicked: four") ∧
      visited.state.2 = [(1, 1), (2, 2), (3, 1), (4, 4)] := by
  intro batching bag judge visited
  have kept : ¬ (batching.settings.batchSize < bag.distinct ∧
    batching.settings.minEntries ≤ bag.distinct) := by decide
  have reported := visit_reports_first_stop batching bag judge (by decide) (.inr kept)
  have split : bag.entries = [(1, 1), (2, 2), (3, 1)] ++ (4, 4) :: [(5, 1)] := rfl
  have passes : Passes judge [(1, 1), (2, 2), (3, 1)] := by
    intro before entry after front
    have member : entry ∈ [(1, 1), (2, 2), (3, 1)] := front ▸ List.mem_append_cons_self
    simp only [List.mem_cons, List.not_mem_nil, or_false] at member
    rcases member with rfl | rfl | rfl <;> rfl
  have said : (some "four").getD "unknown panic" = "four" := rfl
  have crashed := reported.crashed split passes rfl said
  have place : [(1, 1), (2, 2), (3, 1)].length / batching.settings.batchSize = 1 := by decide
  have wording : Error.batchCrashed 1 "four" = .execution "batch 1 panicked: four" := by decide
  rw [place] at crashed
  refine ⟨by decide, .inr kept, ?_, reported.stopped split passes (by decide)⟩
  rw [← wording]
  exact crashed

end Bag

end Collections
