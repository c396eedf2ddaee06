import Collections.Bag.Builder
import Collections.Proofs.Bag.Filling
import Collections.Proofs.Bag.Sound
import Collections.Proofs.Occurrences.Updates

/-! Builders against the run of their steps. The run stops at the first step that is refused; the builder
goes on to the end, but only to put layers over what was left there.

So a layer whose batches would be empty does come to stand in a builder, and no step reads or fills the bag
from then on.
-/

set_option autoImplicit false

namespace Collections

inductive BuildStep (α : Type) where
  | add (item : α)
  | addAll (items : List α)
  | addOccurrences (item : α) (amount : Int)
  | sorted (order : α → α → Ordering)
  | parallel (executor : Executor) (size : Nat)
  | shared (cell : Nat)
  | readOnly

namespace BuildStep

variable {α : Type}

def layer : BuildStep α → Bag α → Bag α
  | .add _, bag | .addAll _, bag | .addOccurrences _ _, bag => bag
  | .sorted order, bag => .sorted order bag
  | .parallel executor size, bag => .parallel (.ofParts executor (.ofBatchSize size)) bag
  | .shared cell, bag => .shared cell bag
  | .readOnly, bag => .readOnly bag

def layered (steps : List (BuildStep α)) (bag : Bag α) : Bag α :=
  steps.foldl (fun bag step => step.layer bag) bag

def items : BuildStep α → List α
  | .add item => [item]
  | .addAll items => items
  | .addOccurrences item amount => List.replicate amount.toNat item
  | _ => []

@[simp] theorem contents_layer (step : BuildStep α) (bag : Bag α) :
    (step.layer bag).contents = bag.contents := by
  cases step <;> rfl

theorem contents_layered (steps : List (BuildStep α)) (bag : Bag α) :
    (layered steps bag).contents = bag.contents := by
  induction steps generalizing bag with
  | nil => rfl
  | cons step rest ih => exact (ih (step.layer bag)).trans (contents_layer step bag)

theorem layer_refilled (step : BuildStep α) (bag : Bag α) (counts : Occurrences α) :
    step.layer (bag.refilled counts) = (step.layer bag).refilled counts := by
  cases step <;> rfl

theorem layered_refilled (steps : List (BuildStep α)) (bag : Bag α) (counts : Occurrences α) :
    layered steps (bag.refilled counts) = (layered steps bag).refilled counts := by
  induction steps generalizing bag with
  | nil => rfl
  | cons step rest ih =>
    calc layered rest (step.layer (bag.refilled counts))
      _ = layered rest ((step.layer bag).refilled counts) := by rw [layer_refilled]
      _ = (layered rest (step.layer bag)).refilled counts := ih (step.layer bag)

variable [DecidableEq α]

/-- What a step does on its own. Filling is the call of the same name on the bag and refused with it, and a
parallel layer is refused when its batches would be empty. -/
def attempt : BuildStep α → Bag α → Attempt (Bag α) Unit
  | .add item, bag => (bag.add item).map fun _ => ()
  | .addAll items, bag => (bag.addAll items).map fun _ => ()
  | .addOccurrences item amount, bag => (bag.apply (.add item amount)).map fun _ => ()
  | .parallel executor size, bag =>
    ⟨Batching.checkSize size, .parallel (.ofParts executor (.ofBatchSize size)) bag⟩
  | step, bag => ⟨.ok (), step.layer bag⟩

def run (steps : List (BuildStep α)) (start : Bag α) : Attempt (Bag α) Unit :=
  Attempt.forEach attempt steps start

def take : BuildStep α → Builder α → Builder α
  | .add item, builder => builder.add item
  | .addAll items, builder => builder.addAll items
  | .addOccurrences item amount, builder => builder.addOccurrences item amount
  | .sorted order, builder => builder.sorted order
  | .parallel executor size, builder => builder.parallel executor size
  | .shared cell, builder => builder.shared cell
  | .readOnly, builder => builder.readOnly

end BuildStep

/-! ## Filling a bag -/

namespace Occurrences

variable {α : Type} [DecidableEq α] {counts next : Occurrences α}

theorem Valid.gains_add (valid : counts.Valid) {item : α} {amount : Int} {changed : Bool}
    (accepted : counts.add item amount = .ok (changed, next)) :
    Gains counts (List.replicate amount.toNat item) next := by
  have exactly := valid.exactly_add item amount
  rw [accepted] at exactly
  have positive : 0 ≤ amount := by
    by_contra negative
    obtain ⟨_, refused⟩ := exactly.refused_iff.mpr (.inl (by omega))
    cases refused
  obtain ⟨counted, resized, -⟩ := exactly.accepted changed next rfl
  refine ⟨valid.add accepted, ?_, ?_⟩
  · intro each
    have reached := counted each
    rw [List.count_replicate]
    unfold withCount at reached
    by_cases same : item = each
    · subst same
      simp only [if_true, beq_self_eq_true] at reached ⊢
      omega
    · simp only [same, if_false, beq_iff_eq] at reached ⊢
      omega
  · rw [List.length_replicate]
    omega

end Occurrences

namespace Bag

open Occurrences (Gains)

variable {α : Type} [DecidableEq α] {bag after : Bag α} {changed : Bool}

theorem isWritable_of_apply {change : Change α} (accepted : (bag.apply change).answer = .ok changed) :
    bag.isWritable := by
  induction bag with
  | plain _ => rfl
  | frozen _ _ => cases accepted
  | sorted _ inner ih => exact ih accepted
  | readOnly _ _ => cases accepted
  | shared _ inner ih => exact ih accepted
  | parallel _ inner ih => exact ih accepted

theorem apply_add_gains (valid : bag.contents.Valid) {item : α} {amount : Int}
    (accepted : bag.apply (.add item amount) = ⟨.ok changed, after⟩) :
    after = bag.refilled after.contents ∧
      Gains bag.contents (List.replicate amount.toNat item) after.contents := by
  have writable := isWritable_of_apply (congrArg Attempt.answer accepted)
  rw [apply_of_writable writable, Occurrences.attempt, Occurrences.apply] at accepted
  cases added : bag.contents.add item amount with
  | error error =>
    rw [added] at accepted
    cases accepted
  | ok answer =>
    obtain ⟨flag, next⟩ := answer
    rw [added] at accepted
    cases accepted
    rw [contents_refilled]
    exact ⟨rfl, valid.gains_add added⟩

-- No item can be added, so a run is refused at its first item unless it has none.
theorem anyChange_add_of_blocked {items : List α} (blocked : ¬ bag.isWritable)
    (accepted : Attempt.anyChange Bag.add items bag = ⟨.ok changed, after⟩) :
    items = [] ∧ after = bag := by
  cases items with
  | nil =>
    cases accepted
    exact ⟨rfl, rfl⟩
  | cons item rest =>
    cases taken : Bag.add item bag with
    | mk answer next =>
      cases answer with
      | error error =>
        rw [Attempt.anyChange_cons_refused taken] at accepted
        cases accepted
      | ok flag => exact absurd (isWritable_of_apply (congrArg Attempt.answer taken)) blocked

theorem addAll_of_blocked {items : List α} (blocked : ¬ bag.isWritable)
    (accepted : bag.addAll items = ⟨.ok changed, after⟩) : items = [] ∧ after = bag := by
  induction bag generalizing after with
  | shared cell inner ih =>
    cases below : inner.addAll items with
    | mk answer next =>
      rw [addAll, bulk, ← addAll, below] at accepted
      cases accepted
      obtain ⟨none, rfl⟩ := ih blocked below
      exact ⟨none, rfl⟩
  | readOnly inner => cases accepted
  | plain counts => exact anyChange_add_of_blocked blocked accepted
  | frozen storage counts => exact anyChange_add_of_blocked blocked accepted
  | sorted order inner => exact anyChange_add_of_blocked blocked accepted
  | parallel batching inner => exact anyChange_add_of_blocked blocked accepted

theorem addAll_gains (valid : bag.contents.Valid) {items : List α}
    (accepted : bag.addAll items = ⟨.ok changed, after⟩) :
    after = bag.refilled after.contents ∧ Gains bag.contents items after.contents := by
  by_cases writable : bag.isWritable
  · have inserted := valid.inserted items
    rw [addAll_of_writable writable] at accepted
    generalize Attempt.anyChange _ items bag.contents = outcome at inserted accepted
    cases inserted with
    | before rest gains full => cases accepted
    | all gains =>
      cases accepted
      rw [contents_refilled]
      exact ⟨rfl, gains⟩
  · obtain ⟨rfl, rfl⟩ := addAll_of_blocked writable accepted
    exact ⟨(refilled_contents after).symm, valid.gains_none⟩

end Bag

/-! ## Runs of steps -/

namespace BuildStep

open Occurrences (Gains)

variable {α : Type} [DecidableEq α] {start next bag : Bag α} {step : BuildStep α}
variable {steps : List (BuildStep α)}

structure Built (start : Bag α) (steps : List (BuildStep α)) (bag : Bag α) : Prop where
  layers : bag = (layered steps start).refilled bag.contents
  gains : Gains start.contents (steps.flatMap items) bag.contents
  batched : bag.WellBatched

theorem Built.sound (built : Built start steps bag) : bag.Sound :=
  ⟨built.gains.valid, built.batched⟩

theorem built_none (sound : start.Sound) : Built start [] start where
  layers := (Bag.refilled_contents start).symm
  gains := sound.valid.gains_none
  batched := sound.batched

theorem Built.cons (first : Built start [step] next) (rest : Built next steps bag) :
    Built start (step :: steps) bag where
  layers := calc
    bag = (layered steps next).refilled bag.contents := rest.layers
    _ = (layered steps ((step.layer start).refilled next.contents)).refilled bag.contents :=
      congrArg (fun below => (layered steps below).refilled bag.contents) first.layers
    _ = (layered steps (step.layer start)).refilled bag.contents := by
      rw [layered_refilled, Bag.refilled_refilled]
  gains := by
    have added := first.gains.append rest.gains
    rwa [List.flatMap_singleton] at added
  batched := rest.batched

theorem built_one (layers : next = (step.layer start).refilled next.contents)
    (gains : Gains start.contents step.items next.contents)
    (batched : (step.layer start).WellBatched) : Built start [step] next where
  layers := layers
  gains := by rwa [List.flatMap_singleton]
  batched := by
    rw [layers]
    exact (Bag.wellBatched_refilled _ _).mpr batched

theorem built_layer (valid : start.contents.Valid) (spare : step.items = [])
    (batched : (step.layer start).WellBatched) : Built start [step] (step.layer start) := by
  apply built_one (Bag.refilled_contents _).symm _ batched
  rw [spare, contents_layer]
  exact valid.gains_none

theorem built_fill {call : Attempt (Bag α) Bool} (sound : start.Sound)
    (same : step.layer start = start)
    (gains : ∀ changed, call = ⟨.ok changed, next⟩ →
      next = start.refilled next.contents ∧ Gains start.contents step.items next.contents)
    (accepted : (call.map fun _ => ()) = ⟨.ok (), next⟩) : Built start [step] next := by
  obtain ⟨answer, after⟩ := call
  cases answer with
  | error error => cases accepted
  | ok changed =>
    cases accepted
    obtain ⟨layers, gains⟩ := gains changed rfl
    exact built_one (same.symm ▸ layers) gains (same.symm ▸ sound.batched)

theorem attempt_built (sound : start.Sound) (accepted : step.attempt start = ⟨.ok (), next⟩) :
    Built start [step] next := by
  cases step with
  | add item => exact built_fill sound rfl (fun _ => Bag.apply_add_gains sound.valid) accepted
  | addAll items => exact built_fill sound rfl (fun _ => Bag.addAll_gains sound.valid) accepted
  | addOccurrences item amount =>
    exact built_fill sound rfl (fun _ => Bag.apply_add_gains sound.valid) accepted
  | sorted order =>
    cases accepted
    exact built_layer sound.valid rfl sound.batched
  | parallel executor size =>
    obtain ⟨checked, rfl⟩ := Attempt.mk.inj accepted
    exact built_layer sound.valid rfl ⟨Batching.size_of_check checked, sound.batched⟩
  | shared cell =>
    cases accepted
    exact built_layer sound.valid rfl sound.batched
  | readOnly =>
    cases accepted
    exact built_layer sound.valid rfl sound.batched

theorem run_built (sound : start.Sound) (accepted : run steps start = ⟨.ok (), bag⟩) :
    Built start steps bag := by
  induction steps generalizing start with
  | nil =>
    cases accepted
    exact built_none sound
  | cons step rest ih =>
    obtain ⟨next, taken, after⟩ := Attempt.forEach_cons_accepted accepted
    have first := attempt_built sound taken
    exact first.cons (ih first.sound after)

end BuildStep

/-! ## Builders -/

namespace Builder

open BuildStep (Built layered)

variable {α : Type} [DecidableEq α] {start left bag : Bag α} {error : Error}
variable {steps later : List (BuildStep α)}

def chain (start : Bag α) (steps : List (BuildStep α)) : Builder α :=
  steps.foldl (fun builder step => step.take builder) (.ofBag start)

def ofAttempt : Attempt (Bag α) Unit → Builder α
  | ⟨.ok _, bag⟩ => ⟨bag, none⟩
  | ⟨.error error, bag⟩ => ⟨bag, some error⟩

omit [DecidableEq α] in
theorem fill_ofBag (call : Bag α → Attempt (Bag α) Bool) (bag : Bag α) :
    fill call (.ofBag bag) = ofAttempt ((call bag).map fun _ => ()) := by
  rw [fill, ofBag]
  cases call bag with
  | mk answer state => cases answer <;> rfl

theorem take_ofBag (step : BuildStep α) (bag : Bag α) :
    step.take (.ofBag bag) = ofAttempt (step.attempt bag) := by
  cases step with
  | add item => exact fill_ofBag (Bag.add item) bag
  | addAll items => exact fill_ofBag (Bag.addAll items) bag
  | addOccurrences item amount => exact fill_ofBag (Bag.apply (.add item amount)) bag
  | parallel executor size =>
    rw [BuildStep.take, BuildStep.attempt, parallel, ofBag]
    cases Batching.checkSize size <;> rfl
  | _ => rfl

theorem take_refused (step : BuildStep α) (bag : Bag α) (error : Error) :
    step.take ⟨bag, some error⟩ = ⟨step.layer bag, some error⟩ := by
  cases step with
  | parallel executor size =>
    rw [BuildStep.take, parallel]
    cases Batching.checkSize size <;> rfl
  | _ => rfl

theorem foldl_take_refused (steps : List (BuildStep α)) (bag : Bag α) (error : Error) :
    steps.foldl (fun builder step => step.take builder) ⟨bag, some error⟩ =
      ⟨layered steps bag, some error⟩ := by
  induction steps generalizing bag with
  | nil => rfl
  | cons step rest ih =>
    rw [List.foldl_cons, take_refused, ih]
    rfl

theorem chain_of_accepted (accepted : BuildStep.run steps start = ⟨.ok (), bag⟩) :
    chain start steps = .ofBag bag := by
  induction steps generalizing start with
  | nil =>
    cases accepted
    rfl
  | cons step rest ih =>
    obtain ⟨next, taken, after⟩ := Attempt.forEach_cons_accepted accepted
    rw [chain, List.foldl_cons, take_ofBag, taken]
    exact ih after

def Stopped (start : Bag α) (steps : List (BuildStep α)) (error : Error) (left : Bag α)
    (later : List (BuildStep α)) : Prop :=
  ∃ earlier step bag, steps = earlier ++ step :: later ∧
    BuildStep.run earlier start = ⟨.ok (), bag⟩ ∧ step.attempt bag = ⟨.error error, left⟩

theorem accepted_or_stopped (start : Bag α) (steps : List (BuildStep α)) :
    (∃ bag, BuildStep.run steps start = ⟨.ok (), bag⟩) ∨
      ∃ error left later, Stopped start steps error left later := by
  obtain accepted | ⟨earlier, step, later, bag, error, left, split, before, refused⟩ :=
    Attempt.forEach_splits BuildStep.attempt steps start
  · exact .inl accepted
  · exact .inr ⟨error, left, later, earlier, step, bag, split, before, refused⟩

theorem Stopped.chain_eq (stopped : Stopped start steps error left later) :
    chain start steps = ⟨layered later left, some error⟩ := by
  obtain ⟨earlier, step, bag, rfl, before, refused⟩ := stopped
  have reached : chain start earlier = .ofBag bag := chain_of_accepted before
  calc chain start (earlier ++ step :: later)
    _ = later.foldl (fun builder step => step.take builder) (step.take (chain start earlier)) := by
      rw [chain, List.foldl_append, List.foldl_cons, chain]
    _ = later.foldl (fun builder step => step.take builder) ⟨left, some error⟩ := by
      rw [reached, take_ofBag, refused, ofAttempt]
    _ = ⟨layered later left, some error⟩ := foldl_take_refused later left error

theorem run_of_build (done : (chain start steps).build = .ok bag) :
    BuildStep.run steps start = ⟨.ok (), bag⟩ := by
  obtain ⟨final, accepted⟩ | ⟨error, left, later, stopped⟩ := accepted_or_stopped start steps
  · rw [chain_of_accepted accepted] at done
    cases done
    exact accepted
  · rw [stopped.chain_eq] at done
    cases done

/-- What a builder reports at the end: the first refusal of its steps, or the bag that they lead to. After a
refusal it gets layers only, and so no call is made on a bag one of whose layers has no batches. -/
structure Reports (start : Bag α) (steps : List (BuildStep α)) : Prop where
  refused_iff (error : Error) : (chain start steps).build = .error error ↔
    ∃ left later, Stopped start steps error left later
  accepted_iff (bag : Bag α) : (chain start steps).build = .ok bag ↔
    BuildStep.run steps start = ⟨.ok (), bag⟩
  built (bag : Bag α) : (chain start steps).build = .ok bag → Built start steps bag
  stopped (error : Error) (left : Bag α) (later : List (BuildStep α)) :
    Stopped start steps error left later → chain start steps = ⟨layered later left, some error⟩ ∧
      (chain start steps).bag.contents = left.contents
  untouched (earlier later : List (BuildStep α)) : steps = earlier ++ later →
    ¬ (chain start earlier).bag.WellBatched → ∀ call : Bag α → Attempt (Bag α) Bool,
      (chain start earlier).fill call = chain start earlier

theorem reports (sound : start.Sound) (steps : List (BuildStep α)) : Reports start steps := by
  constructor
  case refused_iff =>
    intro error
    constructor
    · intro refused
      obtain ⟨bag, accepted⟩ | ⟨first, left, later, stopped⟩ := accepted_or_stopped start steps
      · rw [chain_of_accepted accepted] at refused
        cases refused
      · rw [stopped.chain_eq] at refused
        cases refused
        exact ⟨left, later, stopped⟩
    · rintro ⟨left, later, stopped⟩
      rw [stopped.chain_eq]
      rfl
  case accepted_iff =>
    intro bag
    constructor
    · exact run_of_build
    · intro accepted
      rw [chain_of_accepted accepted]
      rfl
  case built =>
    intro bag done
    exact BuildStep.run_built sound (run_of_build done)
  case stopped =>
    intro error left later stopped
    rw [stopped.chain_eq]
    exact ⟨rfl, BuildStep.contents_layered later left⟩
  case untouched =>
    rintro earlier later - broken call
    obtain ⟨bag, accepted⟩ | ⟨error, left, after, stopped⟩ := accepted_or_stopped start earlier
    · rw [chain_of_accepted accepted] at broken
      exact absurd (BuildStep.run_built sound accepted).batched broken
    · rw [stopped.chain_eq]
      rfl

end Builder

/-! ## Bags that can be had -/

namespace Bag

variable {α : Type} [DecidableEq α] {bag : Bag α}

/-- Bags as they are made, layer by layer or by builders, and as calls leave them. The counters of a
parallel layer can be at anything. -/
inductive Obtained : Bag α → Prop
  | plain {counts : Occurrences α} (valid : counts.Valid) : Obtained (.plain counts)
  | frozen (storage : Nat) {counts : Occurrences α} (valid : counts.Valid) :
      Obtained (.frozen storage counts)
  | sorted (order : α → α → Ordering) {inner : Bag α} (obtained : Obtained inner) :
      Obtained (.sorted order inner)
  | readOnly {inner : Bag α} (obtained : Obtained inner) : Obtained (.readOnly inner)
  | shared (cell : Nat) {inner : Bag α} (obtained : Obtained inner) : Obtained (.shared cell inner)
  | parallel {executor : Executor} {settings : BatchSettings} {made : Batching}
      (accepted : Batching.make executor settings = .ok made) (calls batches : Nat) {inner : Bag α}
      (obtained : Obtained inner) : Obtained (.parallel { made with calls, batches } inner)
  | built {start bag : Bag α} {steps : List (BuildStep α)} (obtained : Obtained start)
      (done : (Builder.chain start steps).build = .ok bag) : Obtained bag
  | called {bag : Bag α} (obtained : Obtained bag) (call : Call α) :
      Obtained (bag.perform call).state

theorem Obtained.sound (obtained : Obtained bag) : bag.Sound := by
  induction obtained with
  | plain valid => exact ⟨valid, trivial⟩
  | frozen _ valid => exact ⟨valid, trivial⟩
  | sorted _ _ ih => exact ⟨ih.valid, ih.batched⟩
  | readOnly _ ih => exact ⟨ih.valid, ih.batched⟩
  | shared _ _ ih => exact ⟨ih.valid, ih.batched⟩
  | parallel accepted _ _ _ ih =>
    have positive := Batching.batchSize_of_make accepted
    exact ⟨ih.valid, positive, ih.batched⟩
  | built _ done ih => exact ((Builder.reports ih _).built _ done).sound
  | called _ call ih => exact ih.perform call

end Bag

namespace Builder

open Bag (Obtained)

variable {α : Type} [DecidableEq α] {start : Bag α}

/-- Whatever the steps are, and whatever bag that can be had they start from. No such bag has a layer
without batches. -/
theorem build_reports_first_refusal (obtained : Obtained start) (steps : List (BuildStep α)) :
    Reports start steps ∧ ∀ bag : Bag α, Obtained bag → bag.WellBatched :=
  ⟨reports obtained.sound steps, fun _ obtained => obtained.sound.batched⟩

/-- A read-only layer is filled, and after that come a layer without batches and one more filling. -/
theorem build_reports_refusal_below_empty_batches :
    let start : Bag Nat := .shared 0 (.parallel (.ofParts .sequential (.ofBatchSize 1))
      (.plain ⟨[(1, 2)], 2⟩))
    let steps : List (BuildStep Nat) := [.add 3, .sorted compare, .readOnly, .addOccurrences 1 4,
      .parallel .hostPool 0, .addAll [5]]
    Obtained start ∧ (chain start steps).build = .error (.readOnly "add_occurrences") ∧
      ¬ (chain start steps).bag.WellBatched ∧
      Reports start steps ∧ ∀ bag : Bag Nat, Obtained bag → bag.WellBatched := by
  intro start steps
  have valid : Occurrences.Valid ⟨[(1, 2)], 2⟩ := ⟨by decide, by decide, by decide, by decide⟩
  have made : Batching.make .sequential (.ofBatchSize 1) =
      .ok (.ofParts .sequential (.ofBatchSize 1)) := rfl
  have obtained : Obtained start := .shared 0 (.parallel made 0 0 (.plain valid))
  exact ⟨obtained, rfl, fun batched => Nat.not_succ_le_zero 0 batched.1,
    build_reports_first_refusal obtained steps⟩

end Builder

end Collections
